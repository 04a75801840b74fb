import BatchFlow.Proofs.Plan.Divisible
import BatchFlow.Proofs.Task.Step

/-!
# What a task reads of a plan

A task does not read where loads read from, nor how many reduce tasks a grouping
operator asks for.  Plans that agree in everything else have the same phases and
evaluate alike.
-/

namespace BatchFlow

/-- The operation without the source of a load and without the parallelism of a
grouping operator. -/
def Operation.core : Operation → Operation
  | .load _ => .load (.dataset "")
  | .package _ accumulative => .package none accumulative
  | operation => operation

namespace Operation

variable (operation : Operation)

@[simp]
theorem isLoad_core : operation.core.isLoad = operation.isLoad := by
  cases operation <;> rfl

@[simp]
theorem isPackage_core : operation.core.isPackage = operation.isPackage := by
  cases operation <;> rfl

@[simp]
theorem isForEach_core : operation.core.isForEach = operation.isForEach := by
  cases operation <;> rfl

@[simp]
theorem isLimit_core : operation.core.isLimit = operation.isLimit := by
  cases operation <;> rfl

@[simp]
theorem isSort_core : operation.core.isSort = operation.isSort := by
  cases operation <;> rfl

@[simp]
theorem target?_core : operation.core.target? = operation.target? := by
  cases operation <;> rfl

theorem keepsInputs_core : SubPlan.KeepsInputs core where
  inputCount operation := by cases operation <;> rfl
  isLoad := isLoad_core
  join operation keys fragment := by cases operation <;> simp [core]

end Operation

namespace SubPlan

/-- What a task reads of a plan. -/
def core (plan : SubPlan) : SubPlan :=
  plan.relabel Operation.core

theorem get?_core (plan : SubPlan) (id : OpId) :
    plan.core.get? id = (plan.get? id).map (Operator.relabel Operation.core) :=
  plan.get?_relabel ..

theorem wellFormed_core {plan : SubPlan} : plan.core.WellFormed ↔ plan.WellFormed :=
  wellFormed_relabel Operation.keepsInputs_core

theorem phases_core (plan : SubPlan) : plan.core.phases = plan.phases :=
  plan.phases_relabel _ Operation.isPackage_core

theorem packages_core (plan : SubPlan) : plan.core.packages = plan.packages :=
  plan.packages_relabel _ Operation.isPackage_core

theorem broadcastLoads_core (plan : SubPlan) : plan.core.broadcastLoads = plan.broadcastLoads :=
  broadcastLoads_relabel Operation.keepsInputs_core

theorem step_core (plan : SubPlan) : plan.core.step = plan.step := by
  funext groups state id
  simp only [step, get?_core]
  cases plan.get? id with
  | none => rfl
  | some operator =>
      obtain ⟨ownId, operation, inputs⟩ := operator
      have sameProjections : plan.core.feedsOnlyProjections id = plan.feedsOnlyProjections id :=
        plan.feedsOnlyProjections_relabel _ _ Operation.isForEach_core
      cases operation <;>
        simp only [Option.map_some, Operator.relabel, Operation.core, sameProjections]

/-- What tasks read of a plan lets them proceed alike. -/
theorem proceed_core (plan : SubPlan) : Share.proceed plan.core = Share.proceed plan := by
  funext share id
  have sameStep : share.step plan.core id = share.step plan id := by
    rw [Share.step, Share.step, plan.step_core]
  rw [Share.proceed, Share.proceed, plan.get?_core, sameStep]
  cases plan.get? id with
  | none => rfl
  | some operator =>
      obtain ⟨ownId, operation, inputs⟩ := operator
      cases operation <;> rfl

theorem evaluate_core (plan : SubPlan) : plan.core.evaluate = plan.evaluate := by
  funext operators bound groups
  rw [evaluate, evaluate, step_core]

theorem shuffleOf_core (plan : SubPlan) : plan.core.shuffleOf = plan.shuffleOf := by
  funext rows
  rw [shuffleOf, shuffleOf, packages_core]
  refine congrArg OrderedMap.ofList (congrArg (List.filterMap · plan.packages) ?_)
  funext package
  rw [get?_core]
  cases plan.get? package <;> rfl

theorem runMapTask_core (plan : SubPlan) : plan.core.runMapTask = plan.runMapTask := by
  funext phases loads
  rw [runMapTask, runMapTask, evaluate_core, shuffleOf_core]

theorem runReduceTask_core (plan : SubPlan) : plan.core.runReduceTask = plan.runReduceTask := by
  funext phases groups broadcast
  rw [runReduceTask, runReduceTask, evaluate_core]

theorem replicated_core {plan : SubPlan} {id : OpId} :
    plan.core.Replicated id ↔ plan.Replicated id := by
  rw [Replicated, Replicated, broadcastLoads_core]

theorem divisible_core {plan : SubPlan} : plan.core.Divisible ↔ plan.Divisible := by
  have sameFeeds : plan.core.Feeds = plan.Feeds :=
    funext fun _ => funext fun _ => propext (plan.feeds_relabel Operation.core)
  have inCore {id : OpId} {operator : Operator} (found : plan.get? id = some operator) :
      plan.core.get? id = some (operator.relabel Operation.core) := by
    rw [get?_core, found, Option.map_some]
  constructor
  · rintro ⟨noLimit, noSortedGroups, replicasOnly⟩
    rw [sameFeeds, packages_core] at noSortedGroups
    simp only [replicated_core] at replicasOnly
    refine ⟨fun id operator found => ?_, fun sort operator found isSort => ?_,
      fun load reader operator replicated found reads => ?_⟩
    · simpa [Operator.relabel] using noLimit _ _ (inCore found)
    · exact noSortedGroups _ _ (inCore found) (by simpa [Operator.relabel] using isSort)
    · obtain ⟨keys, fragment, isJoin, otherSide⟩ :=
        replicasOnly _ _ _ replicated (inCore found) reads
      exact ⟨keys, fragment, (Operation.keepsInputs_core.join ..).mp isJoin, otherSide⟩
  · rintro ⟨noLimit, noSortedGroups, replicasOnly⟩
    refine ⟨fun id operator found => ?_, fun sort operator found isSort => ?_,
      fun load reader operator replicated found reads => ?_⟩
    all_goals
      rw [get?_core] at found
      obtain ⟨original, foundOriginal, rfl⟩ := Option.map_eq_some_iff.mp found
    · simpa [Operator.relabel] using noLimit _ _ foundOriginal
    · rw [sameFeeds, packages_core]
      exact noSortedGroups _ _ foundOriginal (by simpa [Operator.relabel] using isSort)
    · obtain ⟨keys, fragment, isJoin, otherSide⟩ :=
        replicasOnly _ _ _ (replicated_core.mp replicated) foundOriginal reads
      exact ⟨keys, fragment, (Operation.keepsInputs_core.join ..).mpr isJoin, otherSide⟩

end SubPlan

end BatchFlow
