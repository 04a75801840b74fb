import BatchFlow.Proofs.Optimizer.RepairSteps

/-!
# What has been repaired so far

Of the decisions carried out so far, every one to concatenate has left its load
reading from a concatenate stage, and those report exactly the stages inserted,
each of which writes one file.  No edge has been given two of them.
-/

namespace BatchFlow

open JoinRepair Steps

namespace StageGraph

variable {graph current between : StageGraph} {inserted more : Inserted}
  {source join concatenate : StageId} {load : OpId} {reader : Stage}

/-- A load of a stage reads from a concatenate stage inserted for the stage. -/
def ReadsConcatenate (inserted : Inserted) (current : StageGraph) (id : StageId) (load : OpId) :
    Prop :=
  ∃ reader operator source concatenate, current.stage? id = some reader ∧
    reader.plan.get? load = some operator ∧ operator.operation = .load (.stage concatenate) ∧
      ((source, id), concatenate) ∈ inserted

/-- The record of the decisions carried out so far. -/
structure CarriedOut (done : List (SideVerdict × RepairState)) (inserted : Inserted)
    (current : StageGraph) : Prop where
  reads : ∀ entry ∈ done, ∀ source files, entry.1.decision = .concatenate source files →
    ReadsConcatenate inserted current entry.1.stage entry.1.load
  reports : ∀ concatenate, concatenate ∈ inserted.map Prod.snd ↔
    concatenate ∈ (done.map reported).filterMap Decision.inserted?
  counted : ∀ concatenate ∈ inserted.map Prod.snd, ∀ stage,
    current.stage? concatenate = some stage → stage.info.outputFiles = .known 1
  once : (inserted.map Prod.fst).Nodup

theorem CarriedOut.initial (graph : StageGraph) : CarriedOut [] [] graph where
  reads := by simp
  reports := by simp
  counted := by simp
  once := List.nodup_nil

theorem CarriedOut.skip {done : List (SideVerdict × RepairState)} {verdict : SideVerdict}
    {reason : SkipReason} (tracked : CarriedOut done inserted current)
    (decision : verdict.decision = .skip reason) :
    CarriedOut (done ++ [(verdict, .noOp reason)]) inserted current where
  reads entry member source files isConcatenate := by
    rcases List.mem_append.mp member with old | new
    · exact tracked.reads entry old source files isConcatenate
    · obtain rfl := List.mem_singleton.mp new
      exact nomatch decision.symm.trans isConcatenate
  reports concatenate := by
    rw [tracked.reports, List.map_append, List.filterMap_append]
    simp [reported, Decision.inserted?]
  counted := tracked.counted
  once := tracked.once

section Provided

variable (provided : Provided inserted current source join concatenate more between)

include provided

theorem Provided.mem_iff {other : StageId} :
    other ∈ more.map Prod.snd ↔ other = concatenate ∨ other ∈ inserted.map Prod.snd := by
  cases provided with
  | already member =>
      refine (or_iff_right_of_imp ?_).symm
      rintro rfl
      exact List.mem_map_of_mem member
  | now => rw [List.map_cons, List.mem_cons]

theorem Provided.mem_of_mem {entry : (StageId × StageId) × StageId} (old : entry ∈ inserted) :
    entry ∈ more := by
  cases provided with
  | already => exact old
  | now => exact List.mem_cons_of_mem _ old

theorem Provided.once (once : (inserted.map Prod.fst).Nodup) : (more.map Prod.fst).Nodup := by
  cases provided with
  | already => exact once
  | now fresh =>
      refine List.nodup_cons.mpr ⟨fun again => ?_, once⟩
      obtain ⟨⟨edge, concatenate⟩, member, rfl⟩ := List.mem_map.mp again
      exact fresh concatenate member

variable (below : ∀ id other, current.stage? id = some other → id.value < current.nextId)

include below

theorem Provided.stage?_of_some {id : StageId} {other : Stage}
    (isStage : current.stage? id = some other) : between.stage? id = some other := by
  cases provided with
  | already => exact isStage
  | now => rw [stage?_withConcatenate, if_neg (ne_nextId_of_below below isStage), isStage]

theorem ReadsConcatenate.mono {id : StageId} (reads : ReadsConcatenate inserted current id load) :
    ReadsConcatenate more between id load := by
  obtain ⟨reader, operator, source, concatenate, isStage, found, isLoad, member⟩ := reads
  exact ⟨reader, operator, source, concatenate, provided.stage?_of_some below isStage, found,
    isLoad, provided.mem_of_mem member⟩

end Provided

theorem Provided.counted
    (provided : Provided inserted current source join concatenate more between)
    (counted : ∀ concatenate ∈ inserted.map Prod.snd, ∀ stage,
      current.stage? concatenate = some stage → stage.info.outputFiles = .known 1) :
    ∀ concatenate ∈ more.map Prod.snd, ∀ stage,
      between.stage? concatenate = some stage → stage.info.outputFiles = .known 1 := by
  cases provided with
  | already => exact counted
  | now =>
      intro other member stage isStage
      rw [List.map_cons, List.mem_cons] at member
      rw [stage?_withConcatenate] at isStage
      split at isStage
      case isTrue => rw [← Option.some.inj isStage]
      case isFalse notNext => exact counted other (member.resolve_left notNext) stage isStage

theorem stage?_withPlan_self (isJoin : current.stage? join = some reader) (plan : SubPlan) :
    (current.withPlan join source plan).stage? join = some { reader with plan := plan } := by
  rw [stage?_withPlan, if_pos rfl, isJoin, Option.map_some]

section Repoint

variable (isJoin : current.stage? join = some reader)
  (member : ((source, join), concatenate) ∈ inserted)

include isJoin member

theorem readsConcatenate_withPlan {operator : Operator}
    (found : reader.plan.get? load = some operator) :
    ReadsConcatenate inserted (current.withPlan join source (reader.plan.modify load fun operator =>
      { operator with operation := .load (.stage concatenate) })) join load := by
  refine ⟨_, { operator with operation := .load (.stage concatenate) }, source, concatenate,
    stage?_withPlan_self isJoin _, ?_, rfl, member⟩
  rw [SubPlan.get?_modify, if_pos rfl, found, Option.map_some]

theorem ReadsConcatenate.withPlan {id : StageId} {other : OpId}
    (reads : ReadsConcatenate inserted current id other) :
    ReadsConcatenate inserted (current.withPlan join source (reader.plan.modify load fun operator =>
      { operator with operation := .load (.stage concatenate) })) id other := by
  have ⟨stage, operator, source', concatenate', isStage, found, isLoad, memberToo⟩ := reads
  by_cases atJoin : id = join
  · subst atJoin
    obtain rfl := Option.some.inj (isJoin.symm.trans isStage)
    -- The same load may be decided about twice, on two sides or in two joins.
    by_cases atLoad : other = load
    · subst atLoad
      exact readsConcatenate_withPlan isJoin member found
    · refine ⟨_, operator, source', concatenate', stage?_withPlan_self isJoin _, ?_, isLoad,
        memberToo⟩
      rw [SubPlan.get?_modify, if_neg atLoad, found]
  · refine ⟨stage, operator, source', concatenate', ?_, found, isLoad, memberToo⟩
    rw [stage?_withPlan, if_neg atJoin, isStage]

end Repoint

/-- Carrying out a decision to concatenate adds to the record. -/
theorem CarriedOut.repoint {done : List (SideVerdict × RepairState)} {verdict : SideVerdict}
    {files : UInt32} {operator : Operator} (tracked : CarriedOut done inserted current)
    (below : ∀ id other, current.stage? id = some other → id.value < current.nextId)
    (provided : Provided inserted current source verdict.stage concatenate more between)
    (isJoin : between.stage? verdict.stage = some reader)
    (found : reader.plan.get? verdict.load = some operator) :
    CarriedOut (done ++ [(verdict, .stageInserted source concatenate files)]) more
      (between.withPlan verdict.stage source (reader.plan.modify verdict.load fun operator =>
        { operator with operation := .load (.stage concatenate) })) where
  reads entry member source' files' isConcatenate := by
    rcases List.mem_append.mp member with old | new
    · have reads := tracked.reads entry old source' files' isConcatenate
      exact (reads.mono provided below).withPlan isJoin provided.member
    · obtain rfl := List.mem_singleton.mp new
      exact readsConcatenate_withPlan isJoin provided.member found
  reports other := by
    rw [provided.mem_iff, tracked.reports, List.map_append, List.filterMap_append,
      List.mem_append, or_comm]
    simp [reported, Decision.inserted?, eq_comm]
  counted other member stage isStage := by
    rw [stage?_withPlan] at isStage
    split at isStage
    case isTrue same =>
      rw [isJoin, Option.map_some] at isStage
      rw [← Option.some.inj isStage]
      exact provided.counted tracked.counted other member reader (same ▸ isJoin)
    case isFalse => exact provided.counted tracked.counted other member stage isStage
  once := provided.once tracked.once

end StageGraph

end BatchFlow
