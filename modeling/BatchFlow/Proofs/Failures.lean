import BatchFlow.Proofs.Results

/-!
# Which errors a computation ends with

A computation over a list ends with an error of one of its steps.  So what is known of
the errors of the steps is known of those of the whole, and a computation that can go
on where another one ends with an excused error yields the same, or an excused error.
-/

namespace BatchFlow

namespace Results

variable {ε ε' α β γ : Type}

/-- Every error of the result is an allowed one. -/
def FailsWith (allowed : ε → Prop) (result : Except ε α) : Prop :=
  ∀ error, result = .error error → allowed error

namespace FailsWith

variable {allowed : ε → Prop}

theorem ok (value : α) : FailsWith allowed (.ok value : Except ε α) :=
  fun _ failed => nomatch failed

theorem error {cause : ε} (isAllowed : allowed cause) :
    FailsWith allowed (.error cause : Except ε α) := by
  rintro _ ⟨⟩
  exact isAllowed

theorem of_eq_ok {result : Except ε α} {value : α} (succeeds : result = .ok value) :
    FailsWith allowed result :=
  succeeds ▸ ok value

theorem bind {first : Except ε α} {next : α → Except ε β} (firstFails : FailsWith allowed first)
    (nextFails : ∀ value, first = .ok value → FailsWith allowed (next value)) :
    FailsWith allowed (first >>= next) := by
  cases first with
  | ok value => exact nextFails value rfl
  | error cause => exact error (firstFails cause rfl)

theorem map {result : Except ε α} (change : α → β) (fails : FailsWith allowed result) :
    FailsWith allowed (result.map change) := by
  cases result with
  | ok value => exact ok (change value)
  | error cause => exact error (fails cause rfl)

theorem mapM {step : α → Except ε β} {elements : List α}
    (each : ∀ element ∈ elements, FailsWith allowed (step element)) :
    FailsWith allowed (elements.mapM step) := by
  induction elements with
  | nil => exact ok []
  | cons element elements ih =>
      obtain ⟨atHead, inTail⟩ := List.forall_mem_cons.mp each
      rw [List.mapM_cons]
      exact atHead.bind fun result _ => (ih inTail).bind fun results _ => ok (result :: results)

/-- Steps that keep what lets the next one fail with allowed errors only; what is kept may
depend on the elements done before. -/
theorem foldlM_of_kept (kept : List α → β → Prop) (done : List α) {step : β → α → Except ε β}
    {elements : List α} {state : β}
    (steps : ∀ before element after, done ++ elements = before ++ element :: after →
      ∀ state, kept before state → FailsWith allowed (step state element) ∧
        ∀ next, step state element = .ok next → kept (before ++ [element]) next)
    (start : kept done state) : FailsWith allowed (elements.foldlM step state) := by
  induction elements generalizing done state with
  | nil => exact ok state
  | cons element elements ih =>
      obtain ⟨fails, keeps⟩ := steps done element elements rfl state start
      rw [List.foldlM_cons]
      refine fails.bind fun next stepped => ih (done ++ [element]) ?_ (keeps next stepped)
      rwa [List.append_assoc, List.singleton_append]

theorem foldlM {step : β → α → Except ε β} {elements : List α} {start : β}
    (each : ∀ state, ∀ element ∈ elements, FailsWith allowed (step state element)) :
    FailsWith allowed (elements.foldlM step start) := by
  refine foldlM_of_kept (fun _ _ => True) [] ?_ trivial
  intro before element after split state _
  refine ⟨each state element ?_, fun _ _ => trivial⟩
  rw [List.nil_append] at split
  rw [split]
  exact List.mem_append_right _ List.mem_cons_self

theorem filterM {test : α → Except ε Bool} {elements : List α}
    (each : ∀ element ∈ elements, FailsWith allowed (test element)) :
    FailsWith allowed (elements.filterM test) := by
  have kept (before : List α) : FailsWith allowed (elements.filterAuxM test before) := by
    induction elements generalizing before with
    | nil => exact ok before
    | cons element elements ih =>
        obtain ⟨atHead, inTail⟩ := List.forall_mem_cons.mp each
        rw [List.filterAuxM]
        exact atHead.bind fun _ _ => ih inTail _
  exact (kept []).bind fun _ _ => ok _

end FailsWith

/-- The result is the value, or an excused error. -/
def OkUnless (excused : ε → Prop) (result : Except ε α) (value : α) : Prop :=
  result = .ok value ∨ ∃ error, excused error ∧ result = .error error

namespace OkUnless

variable {excused : ε → Prop}

theorem bind {first : Except ε α} {next : α → Except ε β} {value : α} {result : β}
    (firstOk : OkUnless excused first value) (nextOk : OkUnless excused (next value) result) :
    OkUnless excused (first >>= next) result := by
  rcases firstOk with rfl | ⟨error, isExcused, rfl⟩
  · exact nextOk
  · exact .inr ⟨error, isExcused, rfl⟩

theorem map {first : Except ε α} {value : α} (change : α → β)
    (firstOk : OkUnless excused first value) :
    OkUnless excused (first.map change) (change value) := by
  rcases firstOk with rfl | ⟨error, isExcused, rfl⟩
  · exact .inl rfl
  · exact .inr ⟨error, isExcused, rfl⟩

theorem mapM {step : α → Except ε β} {related : α → β → Prop} {elements : List α}
    {results : List β} (paired : List.Forall₂ related elements results)
    (each : ∀ element ∈ elements, ∀ result, related element result →
      OkUnless excused (step element) result) :
    OkUnless excused (elements.mapM step) results := by
  induction paired with
  | nil => exact .inl rfl
  | cons headRelated _ ih =>
      obtain ⟨atHead, inTail⟩ := List.forall_mem_cons.mp each
      rw [List.mapM_cons]
      exact (atHead _ headRelated).bind ((ih inTail).bind (.inl rfl))

theorem foldlM {step freely : β → α → Except ε β} {elements : List α} {start final : β}
    (each : ∀ state, ∀ element ∈ elements, ∀ next, freely state element = .ok next →
      OkUnless excused (step state element) next)
    (run : elements.foldlM freely start = .ok final) :
    OkUnless excused (elements.foldlM step start) final := by
  induction elements generalizing start with
  | nil => exact .inl run
  | cons element elements ih =>
      rw [List.foldlM_cons] at run ⊢
      obtain ⟨next, stepped, rest⟩ := bind_eq_ok.mp run
      refine (each start element List.mem_cons_self next stepped).bind (ih ?_ rest)
      exact fun state other member => each state other (List.mem_cons_of_mem _ member)

end OkUnless

end Results

end BatchFlow
