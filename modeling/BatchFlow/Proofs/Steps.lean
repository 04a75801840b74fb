import BatchFlow.Engine.Run

/-!
# Steps that may fail

A sequence of steps on a state succeeds exactly when each step does, on the state
that the step before left.
-/

namespace BatchFlow

namespace Steps

variable {ε σ α β : Type} {state after : σ}

/-- The state that a step leaves, also if it fails. -/
def stateOf : EStateM.Result ε σ α → σ
  | .ok _ state => state
  | .error _ state => state

/-- The result of a step without the state it leaves. -/
def resultOf : EStateM.Result ε σ α → Except ε α
  | .ok value _ => .ok value
  | .error error _ => .error error

theorem bind_apply (first : EStateM ε σ α) (next : α → EStateM ε σ β) (state : σ) :
    (first >>= next) state =
      match first state with
      | .ok value between => next value between
      | .error error between => .error error between :=
  rfl

theorem bind_eq_ok {first : EStateM ε σ α} {next : α → EStateM ε σ β} {result : β} :
    (first >>= next) state = .ok result after ↔
      ∃ value between, first state = .ok value between ∧ next value between = .ok result after := by
  rw [bind_apply]
  cases first state with
  | error error between => simp
  | ok value between =>
      constructor
      · exact fun rest => ⟨value, between, rfl, rest⟩
      · rintro ⟨_, _, same, rest⟩
        cases same
        exact rest

theorem bind_eq_error {first : EStateM ε σ α} {next : α → EStateM ε σ β} {error : ε} :
    (first >>= next) state = .error error after ↔
      first state = .error error after ∨
        ∃ value between, first state = .ok value between ∧
          next value between = .error error after := by
  rw [bind_apply]
  cases first state with
  | error failure between => simp
  | ok value between =>
      constructor
      · exact fun rest => .inr ⟨value, between, rfl, rest⟩
      · rintro (failed | ⟨_, _, same, rest⟩)
        · cases failed
        · cases same
          exact rest

/-- What two steps in sequence keep. -/
theorem stateOf_bind {first : EStateM ε σ α} {next : α → EStateM ε σ β} (kept : σ → Prop)
    (keptFirst : kept (stateOf (first state)))
    (keptNext : ∀ value between, kept between → kept (stateOf (next value between))) :
    kept (stateOf ((first >>= next) state)) := by
  rw [bind_apply]
  revert keptFirst
  cases first state with
  | ok value between => exact fun keptFirst => keptNext value between keptFirst
  | error error between => exact fun keptFirst => keptFirst

theorem get_bind_apply (next : σ → EStateM ε σ β) (state : σ) :
    (get >>= next) state = next state state :=
  rfl

theorem discard_apply (step : EStateM ε σ α) (state : σ) :
    (discard step) state = (step >>= fun _ => pure PUnit.unit) state :=
  rfl

theorem discard_eq_ok {step : EStateM ε σ α} {result : PUnit} :
    (discard step) state = .ok result after ↔ ∃ value, step state = .ok value after := by
  rw [discard_apply, bind_eq_ok]
  constructor
  · rintro ⟨value, between, stepped, done⟩
    cases done
    exact ⟨value, stepped⟩
  · rintro ⟨value, stepped⟩
    exact ⟨value, after, stepped, rfl⟩

@[simp]
theorem pure_eq_ok {value result : α} :
    (pure value : EStateM ε σ α) state = .ok result after ↔ value = result ∧ state = after := by
  show EStateM.Result.ok value state = .ok result after ↔ _
  rw [EStateM.Result.ok.injEq]

theorem throw_ne_ok {error : ε} {result : α} :
    (throw error : EStateM ε σ α) state ≠ .ok result after :=
  nofun

@[simp]
theorem get_eq_ok {result : σ} :
    (get : EStateM ε σ σ) state = .ok result after ↔ state = result ∧ state = after := by
  show EStateM.Result.ok state state = .ok result after ↔ _
  rw [EStateM.Result.ok.injEq]

@[simp]
theorem set_eq_ok {next : σ} {result : PUnit} :
    (set next : EStateM ε σ PUnit) state = .ok result after ↔ next = after := by
  show EStateM.Result.ok PUnit.unit next = .ok result after ↔ _
  rw [EStateM.Result.ok.injEq]
  exact and_iff_right rfl

section Respects

/-- A result with its state changed. -/
def mapState (change : σ → σ) : EStateM.Result ε σ α → EStateM.Result ε σ α
  | .ok value state => .ok value (change state)
  | .error error state => .error error (change state)

theorem stateOf_mapState (change : σ → σ) (result : EStateM.Result ε σ α) :
    stateOf (mapState change result) = change (stateOf result) := by
  cases result <;> rfl

/-- A step does the same whether the state is changed before it or after it. -/
def Respects (change : σ → σ) (step : EStateM ε σ α) : Prop :=
  ∀ state, step (change state) = mapState change (step state)

namespace Respects

variable {change : σ → σ}

theorem pure (value : α) : Respects change (pure value : EStateM ε σ α) :=
  fun _ => rfl

theorem throw (error : ε) : Respects change (throw error : EStateM ε σ α) :=
  fun _ => rfl

theorem bind {first : EStateM ε σ α} {next : α → EStateM ε σ β} (respects : Respects change first)
    (respectsNext : ∀ value, Respects change (next value)) :
    Respects change (first >>= next) := by
  intro state
  rw [bind_apply, bind_apply, respects state]
  cases first state with
  | ok value between => exact respectsNext value between
  | error error between => rfl

theorem discard {step : EStateM ε σ α} (respects : Respects change step) :
    Respects change (discard step) :=
  respects.bind fun _ => .pure _

end Respects

end Respects

@[simp]
theorem ofExcept_eq_ok {result : Except RunError α} {value : α} {store after : FileStore} :
    StoreStep.ofExcept result store = .ok value after ↔ result = .ok value ∧ store = after := by
  cases result with
  | error error =>
      refine ⟨fun failed => absurd failed throw_ne_ok, ?_⟩
      rintro ⟨failed, -⟩
      exact nomatch failed
  | ok found =>
      rw [StoreStep.ofExcept, pure_eq_ok, Except.ok.injEq]

end Steps

end BatchFlow
