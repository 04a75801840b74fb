import Mathlib.Data.List.Forall2

/-!
# Lists of computations that may fail

A computation over a list succeeds exactly when every step does.  The results
are then related to the elements one by one.
-/

namespace BatchFlow

section Pairs

variable {α β : Type} {related : α → β → Prop} {first : List α} {second : List β}

theorem exists_mem_of_forall₂ (paired : List.Forall₂ related first second) {element : α}
    (member : element ∈ first) : ∃ other ∈ second, related element other := by
  induction paired with
  | nil => simp at member
  | cons headRelated _ ih =>
      rcases List.mem_cons.mp member with rfl | inRest
      · exact ⟨_, List.mem_cons_self, headRelated⟩
      · obtain ⟨other, inSecond, isRelated⟩ := ih inRest
        exact ⟨other, List.mem_cons_of_mem _ inSecond, isRelated⟩

theorem forall₂_and_mem (paired : List.Forall₂ related first second) :
    List.Forall₂ (fun element other =>
      related element other ∧ element ∈ first ∧ other ∈ second) first second := by
  induction paired with
  | nil => exact .nil
  | cons headRelated _ ih =>
      refine .cons ⟨headRelated, List.mem_cons_self, List.mem_cons_self⟩ (ih.imp ?_)
      rintro element other ⟨isRelated, inFirst, inSecond⟩
      exact ⟨isRelated, List.mem_cons_of_mem _ inFirst, List.mem_cons_of_mem _ inSecond⟩

end Pairs

namespace Results

variable {ε α β γ : Type}

theorem bind_eq_ok {first : Except ε α} {next : α → Except ε β} {result : β} :
    (first >>= next) = .ok result ↔ ∃ value, first = .ok value ∧ next value = .ok result := by
  cases first with
  | error error => simp [bind, Except.bind]
  | ok value => simp [bind, Except.bind]

theorem map_eq_ok {first : Except ε α} {change : α → β} {result : β} :
    first.map change = .ok result ↔ ∃ value, first = .ok value ∧ change value = result := by
  cases first with
  | error error => simp [Except.map]
  | ok value => simp [Except.map]

theorem map_eq_error {first : Except ε α} {change : α → β} {error : ε} :
    first.map change = .error error ↔ first = .error error := by
  cases first with
  | error error => simp [Except.map]
  | ok value => simp [Except.map]

theorem exists_error_iff {first : Except ε α} :
    (∃ error, first = .error error) ↔ ¬ ∃ value, first = .ok value := by
  cases first <;> simp

theorem mapError_eq_ok {first : Except ε α} {change : ε → β} {result : α} :
    first.mapError change = .ok result ↔ first = .ok result := by
  cases first with
  | error error => simp [Except.mapError]
  | ok value => simp [Except.mapError]

theorem mapError_inj {first second : Except ε α} {change : ε → β}
    (injective : Function.Injective change) :
    first.mapError change = second.mapError change ↔ first = second := by
  cases first <;> cases second <;> simp [Except.mapError, injective.eq_iff]

@[simp]
theorem pure_eq_ok {value result : α} :
    (pure value : Except ε α) = .ok result ↔ value = result := by
  simp [pure, Except.pure]

theorem mapM_eq_ok {step : α → Except ε β} {elements : List α} {results : List β} :
    elements.mapM step = .ok results ↔
      List.Forall₂ (fun element result => step element = .ok result) elements results := by
  induction elements generalizing results with
  | nil =>
      rw [List.mapM_nil, pure_eq_ok, List.forall₂_nil_left_iff]
      exact eq_comm
  | cons element elements ih =>
      rw [List.mapM_cons, bind_eq_ok]
      constructor
      · rintro ⟨result, atHead, rest⟩
        obtain ⟨tail, inTail, together⟩ := bind_eq_ok.mp rest
        obtain rfl := pure_eq_ok.mp together
        exact .cons atHead (ih.mp inTail)
      · rintro (_ | ⟨atHead, inTail⟩)
        exact ⟨_, atHead, bind_eq_ok.mpr ⟨_, ih.mpr inTail, rfl⟩⟩

theorem mapM_congr {first second : α → Except ε β} {elements : List α}
    (same : ∀ element ∈ elements, first element = second element) :
    elements.mapM first = elements.mapM second := by
  induction elements with
  | nil => rfl
  | cons element elements ih =>
      rw [List.mapM_cons, List.mapM_cons, same element (by simp),
        ih fun other member => same other (by simp [member])]

/-- Changing the result of every step changes every result. -/
theorem mapM_map_result {step : α → Except ε β} (change : β → γ) (elements : List α) :
    (elements.mapM fun element => (step element).map change) =
      (elements.mapM step).map (List.map change) := by
  induction elements with
  | nil => rfl
  | cons element elements ih =>
      rw [List.mapM_cons, List.mapM_cons, ih]
      cases step element with
      | error error => rfl
      | ok result => cases elements.mapM step <;> rfl

theorem foldlM_congr {first second : β → α → Except ε β} {elements : List α}
    (same : ∀ element ∈ elements, ∀ state, first state element = second state element)
    {start : β} : elements.foldlM first start = elements.foldlM second start := by
  induction elements generalizing start with
  | nil => rfl
  | cons element elements ih =>
      obtain ⟨atHead, inTail⟩ := List.forall_mem_cons.mp same
      rw [List.foldlM_cons, List.foldlM_cons, atHead]
      exact congrArg (second start element >>= ·) (funext fun state => ih inTail)

/-- All steps succeed exactly when each does. -/
theorem exists_forall₂_iff {related : α → β → Prop} {elements : List α} :
    (∃ results, List.Forall₂ related elements results) ↔
      ∀ element ∈ elements, ∃ result, related element result := by
  induction elements with
  | nil => simp
  | cons element elements ih =>
      constructor
      · rintro ⟨_, _ | ⟨atHead, inTail⟩⟩ other member
        rcases List.mem_cons.mp member with rfl | inRest
        · exact ⟨_, atHead⟩
        · exact ih.mp ⟨_, inTail⟩ other inRest
      · intro each
        obtain ⟨result, atHead⟩ := each element (by simp)
        obtain ⟨results, inTail⟩ :=
          ih.mpr fun other member => each other (by simp [member])
        exact ⟨result :: results, .cons atHead inTail⟩

theorem exists_mapM_iff {step : α → Except ε β} {elements : List α} :
    (∃ results, elements.mapM step = .ok results) ↔
      ∀ element ∈ elements, ∃ result, step element = .ok result := by
  simp only [mapM_eq_ok]
  exact exists_forall₂_iff

theorem exists_of_isOk {first : Except ε α} (succeeds : first.isOk = true) :
    ∃ value, first = .ok value := by
  cases first with
  | error error => simp [Except.isOk, Except.toBool] at succeeds
  | ok value => exact ⟨value, rfl⟩

/-- The result of a step that succeeds. -/
def valueOf [Inhabited β] : Except ε β → β
  | .ok value => value
  | .error _ => default

/-- A successful computation yields the result of each step. -/
theorem mapM_eq_ok_iff_map [Inhabited β] {step : α → Except ε β} {elements : List α}
    {results : List β} :
    elements.mapM step = .ok results ↔
      (∀ element ∈ elements, ∃ result, step element = .ok result) ∧
        results = elements.map fun element => valueOf (step element) := by
  constructor
  · intro succeeded
    refine ⟨exists_mapM_iff.mp ⟨_, succeeded⟩, ?_⟩
    have related := mapM_eq_ok.mp succeeded
    clear succeeded
    induction related with
    | nil => rfl
    | cons atHead _ ih => simp [ih, atHead, valueOf]
  · rintro ⟨each, rfl⟩
    obtain ⟨results, succeeded⟩ := exists_mapM_iff.mpr each
    rw [succeeded]
    refine congrArg _ ?_
    have related := mapM_eq_ok.mp succeeded
    clear succeeded each
    induction related with
    | nil => rfl
    | cons atHead _ ih => simp [ih, atHead, valueOf]

/-- Steps whose results are images of the results of other steps. -/
theorem mapM_eq_ok_image {ζ : Type} {step : α → Except ε β} {inner : α → Except ζ γ}
    {change : γ → β} {elements : List α} {results : List β}
    (same : ∀ element ∈ elements, ∀ result, step element = .ok result ↔
      ∃ source, inner element = .ok source ∧ change source = result) :
    elements.mapM step = .ok results ↔
      ∃ sources, elements.mapM inner = .ok sources ∧ sources.map change = results := by
  induction elements generalizing results with
  | nil => simp
  | cons element elements ih =>
      have inTail (results : List β) : elements.mapM step = .ok results ↔
          ∃ sources, elements.mapM inner = .ok sources ∧ sources.map change = results :=
        ih fun other member => same other (by simp [member])
      simp only [List.mapM_cons, bind_eq_ok, pure_eq_ok, inTail,
        same element List.mem_cons_self]
      constructor
      · rintro ⟨_, ⟨source, atHead, rfl⟩, _, ⟨sources, inTail, rfl⟩, rfl⟩
        exact ⟨_, ⟨source, atHead, sources, inTail, rfl⟩, rfl⟩
      · rintro ⟨_, ⟨source, atHead, sources, inTail, rfl⟩, rfl⟩
        exact ⟨_, ⟨source, atHead, rfl⟩, _, ⟨sources, inTail, rfl⟩, rfl⟩

/-- Steps that finish with a change of their results. -/
theorem mapM_map_eq_ok [Inhabited β] {step : α → Except ε β} {change : α → β → γ}
    {elements : List α} {results : List γ} :
    (elements.mapM fun element => (step element).map (change element)) = .ok results ↔
      (∀ element ∈ elements, ∃ result, step element = .ok result) ∧
        results = elements.map fun element => change element (valueOf (step element)) := by
  induction elements generalizing results with
  | nil =>
      rw [List.mapM_nil, pure_eq_ok]
      exact ⟨fun same => ⟨by simp, same.symm⟩, fun both => both.2.symm⟩
  | cons element elements ih =>
      rw [List.mapM_cons, bind_eq_ok]
      simp only [bind_eq_ok, pure_eq_ok, map_eq_ok, ih, List.forall_mem_cons, List.map_cons]
      constructor
      · rintro ⟨_, ⟨result, atHead, rfl⟩, _, ⟨inTail, rfl⟩, rfl⟩
        exact ⟨⟨⟨result, atHead⟩, inTail⟩, by rw [atHead]; rfl⟩
      · rintro ⟨⟨⟨result, atHead⟩, inTail⟩, rfl⟩
        exact ⟨_, ⟨result, atHead, rfl⟩, _, ⟨inTail, rfl⟩, by rw [atHead]; rfl⟩

/-- A simulation of single steps, which may depend on the elements done before,
is a simulation of runs. -/
theorem foldlM_simulates_from {related : List α → β → γ → Prop} {first : β → α → Except ε β}
    {second : γ → α → Except ε γ} {done elements : List α} {firstState firstFinal : β}
    {secondState : γ}
    (simulates : ∀ before element after, done ++ elements = before ++ element :: after →
      ∀ state next other, related before state other → first state element = .ok next →
        ∃ final, second other element = .ok final ∧ related (before ++ [element]) next final)
    (start : related done firstState secondState)
    (run : elements.foldlM first firstState = .ok firstFinal) :
    ∃ secondFinal, elements.foldlM second secondState = .ok secondFinal ∧
      related (done ++ elements) firstFinal secondFinal := by
  induction elements generalizing done firstState secondState with
  | nil =>
      obtain rfl := pure_eq_ok.mp run
      exact ⟨secondState, rfl, by simpa using start⟩
  | cons element elements ih =>
      rw [List.foldlM_cons] at run
      obtain ⟨next, step, rest⟩ := bind_eq_ok.mp run
      obtain ⟨middle, matched, kept⟩ := simulates done element elements rfl _ _ _ start step
      have shifted : done ++ element :: elements = (done ++ [element]) ++ elements := by simp
      rw [shifted] at simulates ⊢
      obtain ⟨final, finished, relatedFinal⟩ := ih simulates kept rest
      exact ⟨final, by rw [List.foldlM_cons, matched]; exact finished, relatedFinal⟩

/-- A simulation of single steps is a simulation of runs. -/
theorem foldlM_simulates {related : β → γ → Prop} {first : β → α → Except ε β}
    {second : γ → α → Except ε γ} {elements : List α} {firstState firstFinal : β}
    {secondState : γ}
    (simulates : ∀ element ∈ elements, ∀ before after other, related before other →
      first before element = .ok after →
        ∃ next, second other element = .ok next ∧ related after next)
    (start : related firstState secondState)
    (run : elements.foldlM first firstState = .ok firstFinal) :
    ∃ secondFinal, elements.foldlM second secondState = .ok secondFinal ∧
      related firstFinal secondFinal := by
  have steps : ∀ before element after, [] ++ elements = before ++ element :: after →
      ∀ state next other, related state other → first state element = .ok next →
        ∃ final, second other element = .ok final ∧ related next final :=
    fun before element after split => simulates element (by
      rw [List.nil_append] at split
      simp [split])
  exact foldlM_simulates_from steps start run

/-- Updating several states by each element in turn updates every state on its
own. -/
theorem foldlM_mapM_eq_ok {step : β → α → Except ε β} {elements : List α}
    {starts finals : List β} :
    elements.foldlM (fun states element => states.mapM (step · element)) starts = .ok finals ↔
      List.Forall₂ (fun start final => elements.foldlM step start = .ok final)
        starts finals := by
  induction elements generalizing starts with
  | nil =>
      simp only [List.foldlM_nil, pure_eq_ok]
      rw [List.forall₂_eq_eq_eq]
  | cons element elements ih =>
      rw [List.foldlM_cons, bind_eq_ok]
      simp only [ih, mapM_eq_ok, List.foldlM_cons, bind_eq_ok]
      clear ih
      constructor
      · rintro ⟨middles, first, rest⟩
        induction first generalizing finals with
        | nil =>
            cases rest
            exact .nil
        | cons atHead _ inner =>
            obtain _ | ⟨restHead, restTail⟩ := rest
            exact .cons ⟨_, atHead, restHead⟩ (inner restTail)
      · intro related
        induction related with
        | nil => exact ⟨[], .nil, .nil⟩
        | cons atHead _ inner =>
            obtain ⟨middle, firstHead, restHead⟩ := atHead
            obtain ⟨middles, first, rest⟩ := inner
            exact ⟨middle :: middles, .cons firstHead first, .cons restHead rest⟩

end Results

end BatchFlow
