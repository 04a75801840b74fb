import BatchFlow.Optimizer.Pipeline
import BatchFlow.Proofs.Graph.Stages
import BatchFlow.Proofs.Engine.Settling

/-!
# Repointing loads

Join repair lets replicated loads of a stage read from concatenate stages.
Everything else of the stage stays as it is, so its tasks do not tell it apart
from the stage before, as long as the loads read the same rows.
-/

namespace BatchFlow

open JoinRepair

/-- The operation without the source of a load. -/
def Operation.withoutSource : Operation → Operation
  | .load _ => .load (.dataset "")
  | operation => operation

namespace Operation

theorem core_withoutSource (operation : Operation) :
    operation.withoutSource.core = operation.core := by
  cases operation <;> rfl

@[simp]
theorem isPackage_withoutSource (operation : Operation) :
    operation.withoutSource.isPackage = operation.isPackage := by
  cases operation <;> rfl

end Operation

namespace SubPlan

variable {plan other : SubPlan}

theorem core_eq_of_withoutSource
    (same : plan.relabel Operation.withoutSource = other.relabel Operation.withoutSource) :
    plan.core = other.core := by
  have coreOf (plan : SubPlan) : (plan.relabel Operation.withoutSource).core = plan.core := by
    rw [core, core, relabel_relabel]
    exact congrArg (plan.relabel ·) (funext Operation.core_withoutSource)
  rw [← coreOf plan, same, coreOf other]

/-- Changing an operator in a way that a relabeling does not see. -/
theorem relabel_modify {relabeling : Operation → Operation} {key : OpId}
    {change : Operator → Operator}
    (unseen : ∀ operator, plan.get? key = some operator →
      (change operator).relabel relabeling = operator.relabel relabeling) :
    (plan.modify key change).relabel relabeling = plan.relabel relabeling := by
  refine ext_get? rfl fun id => ?_
  rw [get?_relabel, get?_relabel, get?_modify]
  split
  case isTrue same =>
    subst same
    cases found : plan.get? id with
    | none => rfl
    | some operator => exact congrArg some (unseen operator found)
  case isFalse => rfl

end SubPlan

namespace JoinRepair

/-- An operator of a stage before and after join repair: the same, or a
replicated load that now reads from a concatenate stage. -/
def Repointed (inserted : Inserted) (stage : Stage) (operator other : Operator) : Prop :=
  other = operator ∨
    ∃ source concatenate, operator.operation = .load (.stage source) ∧
      stage.plan.Replicated operator.id ∧ ((source, stage.id), concatenate) ∈ inserted ∧
        other = { operator with operation := .load (.stage concatenate) }

/-- A stage before and after join repair. -/
structure RepairedStage (inserted : Inserted) (stage other : Stage) : Prop where
  id : other.id = stage.id
  kind : other.kind = stage.kind
  info : other.info = stage.info
  shape : stage.plan.relabel Operation.withoutSource = other.plan.relabel Operation.withoutSource
  operators : ∀ id operator repaired, stage.plan.get? id = some operator →
    other.plan.get? id = some repaired → Repointed inserted stage operator repaired

namespace RepairedStage

variable {inserted more : Inserted} {stage other : Stage}

theorem refl (inserted : Inserted) (stage : Stage) : RepairedStage inserted stage stage where
  id := rfl
  kind := rfl
  info := rfl
  shape := rfl
  operators _ _ _ found foundToo := .inl (Option.some.inj (foundToo.symm.trans found))

theorem mono (repaired : RepairedStage inserted stage other)
    (subset : ∀ entry ∈ inserted, entry ∈ more) : RepairedStage more stage other where
  id := repaired.id
  kind := repaired.kind
  info := repaired.info
  shape := repaired.shape
  operators id operator changed found foundToo := by
    refine (repaired.operators id operator changed found foundToo).imp (fun same => same) ?_
    rintro ⟨source, concatenate, isLoad, replicated, member, same⟩
    exact ⟨source, concatenate, isLoad, replicated, subset _ member, same⟩

theorem core (repaired : RepairedStage inserted stage other) : stage.plan.core = other.plan.core :=
  SubPlan.core_eq_of_withoutSource repaired.shape

theorem ownIds (repaired : RepairedStage inserted stage other) (ownIds : stage.plan.OwnIds) :
    other.plan.OwnIds := by
  rw [← SubPlan.ownIds_relabel Operation.withoutSource, ← repaired.shape, SubPlan.ownIds_relabel]
  exact ownIds

theorem targets (repaired : RepairedStage inserted stage other) :
    other.plan.targets = stage.plan.targets := by
  rw [← SubPlan.targets_core, ← repaired.core, SubPlan.targets_core]

theorem storeTarget? (repaired : RepairedStage inserted stage other) :
    other.plan.storeTarget? = stage.plan.storeTarget? := by
  have coreOf (plan : SubPlan) : plan.core.storeTarget? = plan.storeTarget? :=
    plan.storeTarget?_relabel _ Operation.target?_core
  rw [← coreOf, ← repaired.core, coreOf]

theorem hasReducePhase (repaired : RepairedStage inserted stage other) :
    other.plan.hasReducePhase = stage.plan.hasReducePhase := by
  have phaseOf (plan : SubPlan) :
      (plan.relabel Operation.withoutSource).hasReducePhase = plan.hasReducePhase :=
    plan.hasReducePhase_relabel _ Operation.isPackage_withoutSource
  rw [← phaseOf, ← repaired.shape, phaseOf]

theorem reduceTasks (repaired : RepairedStage inserted stage other) (config : EngineConfig) :
    other.reduceTasks config = stage.reduceTasks config := by
  have parallelismOf (stage : Stage) :
      { stage with plan := stage.plan.relabel Operation.withoutSource }.packageParallelism =
        stage.packageParallelism := by
    rw [Stage.packageParallelism, SubPlan.operators_relabel, List.filterMap_map,
      Stage.packageParallelism]
    congr
    funext operator
    cases kind : operator.operation <;> simp [Operator.relabel, kind, Operation.withoutSource]
  have sameParallelism : other.packageParallelism = stage.packageParallelism := by
    rw [← parallelismOf other, ← parallelismOf stage, Stage.packageParallelism,
      Stage.packageParallelism, repaired.shape]
  rw [Stage.reduceTasks, Stage.reduceTasks, Stage.isConcatenate, Stage.isConcatenate, repaired.kind,
    repaired.info, repaired.hasReducePhase, sameParallelism]

/-- The operators of a stage correspond before and after join repair. -/
theorem forall₂ (repaired : RepairedStage inserted stage other) (ownIds : stage.plan.OwnIds) :
    List.Forall₂ (fun operator changed =>
      SubPlan.Interchangeable operator changed ∧ Repointed inserted stage operator changed)
      stage.plan.operators other.plan.operators := by
  have paired := forall₂_and_mem (SubPlan.forall₂_of_relabel repaired.shape)
  refine paired.imp fun operator changed ⟨same, inPlan, inOther⟩ => ⟨?_, ?_⟩
  · have sameCore := congrArg (Operator.relabel Operation.core) same
    simpa only [SubPlan.Interchangeable, Operator.relabel, Operation.core_withoutSource]
      using sameCore
  · have sameId : (operator.relabel Operation.withoutSource).id =
        (changed.relabel Operation.withoutSource).id := congrArg Operator.id same
    refine repaired.operators operator.id operator changed (ownIds.get?_id inPlan) ?_
    rw [show operator.id = changed.id from sameId]
    exact (repaired.ownIds ownIds).get?_id inOther

end RepairedStage

/-- Repointing a replicated load to a concatenate stage of its source. -/
theorem RepairedStage.repoint {inserted : Inserted} {stage other : Stage} {load : OpId}
    {operator : Operator} {source concatenate : StageId}
    (repaired : RepairedStage inserted stage other) (found : stage.plan.get? load = some operator)
    (isLoad : operator.operation = .load (.stage source))
    (replicated : stage.plan.Replicated operator.id)
    (member : ((source, stage.id), concatenate) ∈ inserted) :
    RepairedStage inserted stage { other with
      plan := other.plan.modify load fun operator =>
        { operator with operation := .load (.stage concatenate) } } where
  id := repaired.id
  kind := repaired.kind
  info := repaired.info
  shape := by
    rw [repaired.shape]
    refine (SubPlan.relabel_modify fun changed foundChanged => ?_).symm
    have isLoadToo : changed.operation.withoutSource = .load (.dataset "") := by
      rcases repaired.operators load operator changed found foundChanged with
        rfl | ⟨_, _, _, _, _, rfl⟩
      · rw [isLoad]
        rfl
      · rfl
    simp only [Operator.relabel, isLoadToo]
    rfl
  operators id before after foundBefore foundAfter := by
    rw [SubPlan.get?_modify] at foundAfter
    split at foundAfter
    case isTrue same =>
      subst same
      obtain rfl := Option.some.inj (found.symm.trans foundBefore)
      obtain ⟨changed, foundChanged, rfl⟩ := Option.map_eq_some_iff.mp foundAfter
      refine .inr ⟨source, concatenate, isLoad, replicated, member, ?_⟩
      rcases repaired.operators id operator changed found foundChanged with
        rfl | ⟨_, _, _, _, _, rfl⟩
      · rfl
      · rfl
    case isFalse => exact repaired.operators id before after foundBefore foundAfter

end JoinRepair

end BatchFlow
