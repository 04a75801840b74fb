import BatchFlow.Engine.Task
import BatchFlow.Proofs.Results

/-!
# Streamed groups and materialized groups

A projection over a streamed group folds the rows of the group into one slot
per expression; over a materialized group it reads a row of the key and a bag.
Both yield the same row whenever every expression has a slot.
-/

namespace BatchFlow

open Results

/-- The materialized row of a group: its key and its bag. -/
def groupRow (group : Scalar × List Row) : Row :=
  [group.1, .bag group.2]

theorem Groups.materialize_eq_map (groups : Groups) :
    groups.materialize = groups.map groupRow :=
  rfl

namespace Slot

theorem foldlM_feed_key (rows : List Row) :
    rows.foldlM (fun slot (row : Row) => feed row slot) key = .ok key := by
  induction rows with
  | nil => rfl
  | cons row rows ih => exact ih

theorem foldlM_feed_constant (value : Scalar) (rows : List Row) :
    rows.foldlM (fun slot (row : Row) => feed row slot) (constant value) =
      .ok (constant value) := by
  induction rows with
  | nil => rfl
  | cons row rows ih => exact ih

/-- Feeding rows to an accumulating slot folds their cells into its accumulator. -/
theorem foldlM_feed_fold (accumulator : Accumulator) (column : UInt64) (rows : List Row) :
    rows.foldlM (fun slot (row : Row) => feed row slot) (fold accumulator column) =
      (rows.foldlM (fun (accumulator : Accumulator) (row : Row) => do
        accumulator.update (← row.cell column)) accumulator).map
          fun final => fold final column := by
  induction rows generalizing accumulator with
  | nil => rfl
  | cons row rows ih =>
      simp only [List.foldlM_cons, feed]
      cases row.cell column with
      | error error => rfl
      | ok value =>
          simp only [bind, Except.bind]
          cases accumulator.update value with
          | error error => rfl
          | ok next => exact ih next

/-- An expression that can be computed while its group is streamed. -/
def Streamable (expr : Expr) : Prop :=
  ∃ slot, ofExpr expr = .ok slot

end Slot

namespace Expr

/-- The value of an expression over a streamed group. -/
def streamed (expr : Expr) (group : Scalar × List Row) : Except OperatorError Scalar := do
  let slot ← Slot.ofExpr expr
  let final ← group.2.foldlM (fun (slot : Slot) row => slot.feed row) slot
  final.finish group.1

theorem streamed_of_slot {expr : Expr} {slot : Slot} (slotOf : Slot.ofExpr expr = .ok slot)
    (group : Scalar × List Row) :
    expr.streamed group =
      group.2.foldlM (fun (slot : Slot) row => slot.feed row) slot >>= Slot.finish group.1 := by
  rw [streamed, slotOf]
  rfl

theorem project_aggregate (function : AggregateFunction) (column : UInt64) (distinct : Bool)
    (group : Scalar × List Row) :
    (aggregate function column distinct).project (groupRow group) =
      function.overBag column distinct group.2 :=
  rfl

/-- A slot holds in the end what the expression is over the materialized group. -/
theorem streamed_eq_project {expr : Expr} (streamable : Slot.Streamable expr)
    (group : Scalar × List Row) :
    expr.streamed group = expr.project (groupRow group) := by
  obtain ⟨slot, slotOf⟩ := streamable
  rw [streamed_of_slot slotOf]
  cases expr with
  | groupKey =>
      obtain rfl : Slot.key = slot := by simpa [Slot.ofExpr] using slotOf
      rw [Slot.foldlM_feed_key]
      rfl
  | literal value =>
      obtain rfl : Slot.constant value = slot := by simpa [Slot.ofExpr] using slotOf
      rw [Slot.foldlM_feed_constant]
      rfl
  | column index =>
      by_cases first : index = 0
      · obtain rfl : Slot.key = slot := by simpa [Slot.ofExpr, first] using slotOf
        rw [Slot.foldlM_feed_key, first]
        rfl
      · simp [Slot.ofExpr, first] at slotOf
  | bag => simp [Slot.ofExpr] at slotOf
  | aggregate function column distinct =>
      cases distinct with
      | true => simp [Slot.ofExpr] at slotOf
      | false =>
          rw [Slot.ofExpr] at slotOf
          obtain ⟨accumulator, created, bounded⟩ := bind_eq_ok.mp slotOf
          split at bounded
          case isFalse => simp [throw, throwThe, MonadExceptOf.throw] at bounded
          case isTrue =>
            obtain rfl := pure_eq_ok.mp bounded
            rw [project_aggregate, AggregateFunction.overBag, created, Slot.foldlM_feed_fold]
            have finished (folded : Except OperatorError Accumulator) :
                (folded.map fun final => Slot.fold final column) >>= Slot.finish group.1 =
                  folded >>= Accumulator.finish := by
              cases folded <;> rfl
            exact finished _

theorem streamed_eq_ok {expr : Expr} {group : Scalar × List Row} {value : Scalar} :
    expr.streamed group = .ok value ↔
      Slot.Streamable expr ∧ expr.project (groupRow group) = .ok value := by
  constructor
  · intro computed
    obtain ⟨slot, slotOf, _⟩ := bind_eq_ok.mp computed
    have streamable : Slot.Streamable expr := ⟨slot, slotOf⟩
    exact ⟨streamable, streamed_eq_project streamable group ▸ computed⟩
  · rintro ⟨streamable, projected⟩
    rw [streamed_eq_project streamable, projected]

end Expr

namespace Groups

theorem streamGroup_eq_ok {exprs : List Expr} {group : Scalar × List Row} {row : Row} :
    streamGroup exprs group = .ok row ↔
      exprs.mapM (fun expr => expr.streamed group) = .ok row := by
  rw [streamGroup, bind_eq_ok]
  simp only [bind_eq_ok, mapM_eq_ok, foldlM_mapM_eq_ok]
  constructor
  · rintro ⟨slots, created, finals, folded, finished⟩
    induction created generalizing finals row with
    | nil =>
        cases folded
        cases finished
        exact .nil
    | cons atHead _ ih =>
        obtain _ | ⟨foldHead, foldTail⟩ := folded
        obtain _ | ⟨finishHead, finishTail⟩ := finished
        refine .cons ?_ (ih _ foldTail finishTail)
        rw [Expr.streamed_of_slot atHead, foldHead]
        exact finishHead
  · intro computed
    induction computed with
    | nil => exact ⟨[], .nil, [], .nil, .nil⟩
    | cons atHead _ ih =>
        obtain ⟨slots, created, finals, folded, finished⟩ := ih
        obtain ⟨slot, slotOf, rest⟩ := bind_eq_ok.mp atHead
        obtain ⟨final, foldHead, finishHead⟩ := bind_eq_ok.mp rest
        exact ⟨slot :: slots, .cons slotOf created, final :: finals, .cons foldHead folded,
          .cons finishHead finished⟩

/-- Streaming groups yields what projecting their materialized rows yields,
provided that every expression is streamable as soon as there is a group. -/
theorem stream_eq_ok {exprs : List Expr} {groups : Groups} {rows : List Row} :
    stream exprs groups = .ok rows ↔
      (groups ≠ [] → ∀ expr ∈ exprs, Slot.Streamable expr) ∧
        (groups.materialize.mapM fun row => exprs.mapM fun expr => expr.project row) =
          .ok rows := by
  have streamedGroup (group : Scalar × List Row) (row : Row) :
      streamGroup exprs group = .ok row ↔
        (∀ expr ∈ exprs, Slot.Streamable expr) ∧
          (exprs.mapM fun expr => expr.project (groupRow group)) = .ok row := by
    rw [streamGroup_eq_ok]
    constructor
    · intro computed
      have each := exists_mapM_iff.mp ⟨row, computed⟩
      have streamable : ∀ expr ∈ exprs, Slot.Streamable expr := fun expr member =>
        (Expr.streamed_eq_ok.mp (each expr member).choose_spec).1
      refine ⟨streamable, computed ▸ mapM_congr fun expr member => ?_⟩
      exact (Expr.streamed_eq_project (streamable expr member) group).symm
    · rintro ⟨streamable, projected⟩
      rw [← projected]
      exact mapM_congr fun expr member => Expr.streamed_eq_project (streamable expr member) group
  rw [stream, materialize_eq_map, List.mapM_map, mapM_eq_ok, mapM_eq_ok]
  simp only [streamedGroup]
  constructor
  · intro computed
    refine ⟨fun nonempty => ?_, computed.imp fun _ _ both => both.2⟩
    cases computed with
    | nil => exact absurd rfl nonempty
    | cons atHead _ => exact atHead.1
  · rintro ⟨streamable, projected⟩
    cases groups with
    | nil =>
        cases projected
        exact .nil
    | cons group rest =>
        exact projected.imp fun _ _ computed => ⟨streamable (by simp), computed⟩

end Groups

end BatchFlow
