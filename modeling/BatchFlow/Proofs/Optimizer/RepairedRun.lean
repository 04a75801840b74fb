import BatchFlow.Proofs.Engine.Concatenation
import BatchFlow.Proofs.Optimizer.RepairedGraph

/-!
# Runs of the repaired graph

A store settled for the repaired graph is settled for the original one, and a
store settled for the original graph becomes settled for the repaired one when
the concatenate stages are run on it.  So both graphs run to the same outputs.
-/

namespace BatchFlow

open FileStore JoinRepair

namespace StageGraph

variable {graph current : StageGraph} {inserted : Inserted} {source join concatenate : StageId}
  {stage other : Stage} {config : EngineConfig} {start store : FileStore} {id : StageId}

section Stages

variable (repaired : graph.Repaired inserted none current) (built : graph.Built)

include repaired

theorem Repaired.directoryOf_stage (found : graph.stage? id = some stage) :
    current.directoryOf (.stage id) = graph.directoryOf (.stage id) := by
  obtain ⟨other, isStage, repairedStage⟩ := repaired.kept id stage found
  simp only [directoryOf, found, isStage, repairedStage.storeTarget?]

theorem Repaired.directoryOf_concatenate (member : ((source, join), concatenate) ∈ inserted) :
    current.directoryOf (.stage concatenate) = .ok (concatenateTarget source join) := by
  obtain ⟨info, isConcatenate⟩ := repaired.concatenates source join concatenate member
  exact directoryOf_stage_eq_ok.mpr ⟨_, isConcatenate, rfl⟩

include built in
theorem Repaired.loadsDataset_iff (found : graph.stage? id = some stage)
    (isStage : current.stage? id = some other) {path : String} :
    other.plan.LoadsDataset path ↔ stage.plan.LoadsDataset path := by
  have repairedStage := repaired.repairedStage found isStage
  have paired := repairedStage.forall₂ (built.ownIds id stage found)
  constructor
  · rintro ⟨changed, inOther, isLoad⟩
    obtain ⟨operator, inPlan, -, same | ⟨_, _, -, -, -, rfl⟩⟩ :=
      exists_mem_of_forall₂ paired.flip inOther
    · exact ⟨operator, inPlan, same ▸ isLoad⟩
    · simp at isLoad
  · rintro ⟨operator, inPlan, isLoad⟩
    obtain ⟨changed, inOther, -, same | ⟨source, _, isLoadToo, -⟩⟩ :=
      exists_mem_of_forall₂ paired inPlan
    · exact ⟨changed, inOther, same ▸ isLoad⟩
    · simp [isLoad] at isLoadToo

include built in
/-- If no target of the repaired graph disturbs another, none of the original does. -/
theorem Repaired.separate (separate : current.Separate) : graph.Separate := by
  constructor
  · intro id stage id' stage' found found' different target isTarget target' isTarget'
    obtain ⟨other, isStage, repairedStage⟩ := repaired.kept id stage found
    obtain ⟨other', isStage', repairedStage'⟩ := repaired.kept id' stage' found'
    exact separate.targets id other id' other' isStage isStage' different target
      (repairedStage.targets ▸ isTarget) target' (repairedStage'.targets ▸ isTarget')
  · intro id stage id' stage' found found' target isTarget path loads
    obtain ⟨other, isStage, repairedStage⟩ := repaired.kept id stage found
    obtain ⟨other', isStage', -⟩ := repaired.kept id' stage' found'
    exact separate.datasets id other id' other' isStage isStage' target
      (repairedStage.targets ▸ isTarget) path
      ((repaired.loadsDataset_iff built found' isStage').mpr loads)

end Stages

section Reads

variable {first second : FileStore} (repaired : graph.Repaired inserted none current)
  (built : graph.Built) (backed : graph.Backed)

include repaired built backed

/-- The loads of a stage resolve in the original graph when those of the stage and
of the concatenate stages resolve in the repaired one, and the other way around. -/
theorem Repaired.resolves_iff (found : graph.stage? id = some stage)
    (isStage : current.stage? id = some other)
    (resolved : ∀ source join concatenate, ((source, join), concatenate) ∈ inserted →
      ∃ directory, graph.directoryOf (.stage source) = .ok directory) :
    (∀ operator ∈ other.plan.operators, current.Resolves operator) ↔
      ∀ operator ∈ stage.plan.operators, graph.Resolves operator := by
  have repairedStage := repaired.repairedStage found isStage
  have paired := repairedStage.forall₂ (built.ownIds id stage found)
  have same {operator : Operator} (inPlan : operator ∈ stage.plan.operators) :
      current.Resolves operator ↔ graph.Resolves operator := by
    refine forall₂_congr fun source isLoad => ?_
    cases source with
    | dataset path => rfl
    | stage source =>
        obtain ⟨-, feeder, foundFeeder⟩ :=
          edge_of_loads built backed found ⟨operator, inPlan, isLoad⟩
        rw [repaired.directoryOf_stage foundFeeder]
  constructor
  · intro resolves operator inPlan
    obtain ⟨changed, inOther, -, rfl | ⟨source, concatenate, isLoad, -, member, -⟩⟩ :=
      exists_mem_of_forall₂ paired inPlan
    · exact (same inPlan).mp (resolves changed inOther)
    · intro source' isLoad'
      obtain rfl := Operation.load.inj (isLoad'.symm.trans isLoad)
      exact resolved source _ concatenate member
  · intro resolves changed inOther
    obtain ⟨operator, inPlan, -, rfl | ⟨source, concatenate, -, -, member, rfl⟩⟩ :=
      exists_mem_of_forall₂ paired.flip inOther
    · exact (same inPlan).mpr (resolves changed inPlan)
    · intro source' isLoad'
      obtain rfl := Operation.load.inj isLoad'
      exact ⟨_, repaired.directoryOf_concatenate member⟩

/-- A stage reads the same before and after join repair, if the stores agree within
the directories of its loads and the concatenate stages have run. -/
theorem Repaired.sameReads (found : graph.stage? id = some stage)
    (isStage : current.stage? id = some other)
    (agree : ∀ operator ∈ stage.plan.operators, ∀ source directory,
      operator.operation = .load source → graph.directoryOf source = .ok directory →
        ∀ path, Within directory path → first.files.get? path = second.files.get? path)
    (concatenated : ∀ source join concatenate, ((source, join), concatenate) ∈ inserted →
      ∃ directory, graph.directoryOf (.stage source) = .ok directory ∧
        second.rowsOf (concatenateTarget source join) = first.rowsOf directory) :
    Stage.SameReads stage other graph current first second := by
  have repairedStage := repaired.repairedStage found isStage
  have paired := forall₂_and_mem (repairedStage.forall₂ (built.ownIds id stage found))
  refine ⟨repairedStage.kind.symm, repairedStage.core,
    fun config => (repairedStage.reduceTasks config).symm, paired.imp ?_⟩
  rintro operator changed ⟨⟨alike, repointed⟩, inPlan, -⟩
  refine ⟨alike, ?_⟩
  rcases repointed with rfl | ⟨source, concatenate, isLoad, replicated, member, rfl⟩
  · have same : Stage.SameFiles graph current first second changed changed := by
      refine Stage.sameFiles_of_directory (fun source isLoad => ?_) (agree changed inPlan)
      cases source with
      | dataset path => rfl
      | stage source =>
          obtain ⟨-, feeder, foundFeeder⟩ :=
            edge_of_loads built backed found ⟨changed, inPlan, isLoad⟩
          exact (repaired.directoryOf_stage foundFeeder).symm
    exact ⟨fun _ => same, fun _ => same.loadedRows⟩
  · obtain ⟨directory, resolved, sameRows⟩ := concatenated source _ concatenate member
    have isBroadcast : stage.plan.broadcastLoads.contains operator.id = true :=
      OrderedSet.contains_iff.mpr replicated
    refine ⟨fun spread => ?_, fun _ => ?_⟩
    · simp [Stage.spreads, isBroadcast] at spread
    · rw [loadedRows_of_directory isLoad resolved,
        loadedRows_of_directory rfl (repaired.directoryOf_concatenate member), sameRows]

end Reads

section Settled

variable (repaired : graph.Repaired inserted none current) (built : graph.Built)
  (backed : graph.Backed)

include repaired built backed

/-- A store settled for the repaired graph is settled for the original one. -/
theorem Repaired.settled_original (settled : current.Settled config start store) :
    graph.Settled config start store := by
  have concatenated : ∀ source join concatenate, ((source, join), concatenate) ∈ inserted →
      ∃ directory, graph.directoryOf (.stage source) = .ok directory ∧
        store.rowsOf (concatenateTarget source join) = store.rowsOf directory := by
    intro source join concatenate member
    obtain ⟨info, isConcatenate⟩ := repaired.concatenates source join concatenate member
    obtain ⟨directory, resolved, holds⟩ :=
      (holds_concatenate_iff rfl rfl).mp (settled.stages concatenate _ isConcatenate)
    obtain ⟨-, ⟨feeder, foundFeeder⟩, -⟩ := repaired.edge_of_concatenate built backed member
    rw [repaired.directoryOf_stage foundFeeder] at resolved
    exact ⟨directory, resolved, rowsOf_concatenateTarget holds⟩
  refine ⟨fun id stage directory found loads => ?_, fun id stage found => ?_⟩
  · obtain ⟨other, isStage, -⟩ := repaired.kept id stage found
    exact settled.datasets id other directory isStage
      ((repaired.loadsDataset_iff built found isStage).mpr loads)
  · obtain ⟨other, isStage, repairedStage⟩ := repaired.kept id stage found
    obtain ⟨tasks, ran, content⟩ := settled.stages id other isStage
    have same : Stage.SameReads stage other graph current store store :=
      repaired.sameReads built backed found isStage (fun _ _ _ _ _ _ _ _ => rfl) concatenated
    have resolves := (repaired.resolves_iff built backed found isStage
      fun source join concatenate member =>
        (concatenated source join concatenate member).imp fun _ resolved => resolved.1).mp
      (Stage.resolves_of_runTasks ran)
    obtain ⟨files, ranHere⟩ := same.symm.runTasks resolves ran
    refine ⟨_, ranHere, fun target isTarget path within => ?_⟩
    rw [same.symm.writes]
    exact content target (repairedStage.targets ▸ isTarget) path within

omit repaired built backed in
/-- What the concatenate stages write when they read the store. -/
def concatenations (graph : StageGraph) (inserted : Inserted) (store : FileStore) :
    List (String × List (List Row)) :=
  inserted.map fun entry => (concatenateTarget entry.1.1 entry.1.2,
    [graph.loadedRows store ⟨⟨0⟩, .load (.stage entry.1.1), []⟩])

omit repaired built backed in
/-- The store after the concatenate stages have run on it. -/
def concatenated (graph : StageGraph) (inserted : Inserted) (store : FileStore) : FileStore :=
  store.replaceAll (graph.concatenations inserted store)

omit repaired built backed in
/-- Concatenate stages write nothing within what is apart from their targets. -/
theorem get?_concatenated {directory path : String}
    (apart : ∀ source join concatenate, ((source, join), concatenate) ∈ inserted →
      Apart (concatenateTarget source join) directory) (within : Within directory path) :
    (graph.concatenated inserted store).files.get? path = store.files.get? path := by
  refine get?_replaceAll_of_not_within fun write written => ?_
  obtain ⟨⟨⟨source, join⟩, concatenate⟩, member, rfl⟩ := List.mem_map.mp written
  exact within.not_within (apart source join concatenate member).symm

namespace Repaired

variable (separate : current.Separate)

include separate

omit built backed in
theorem get?_concatenated_target (found : graph.stage? id = some stage) {target path : String}
    (isTarget : target ∈ stage.plan.targets) (within : Within target path) :
    (graph.concatenated inserted store).files.get? path = store.files.get? path := by
  refine get?_concatenated (fun source join concatenate member => ?_) within
  obtain ⟨info, isConcatenate⟩ := repaired.concatenates source join concatenate member
  obtain ⟨other, isStage, repairedStage⟩ := repaired.kept id stage found
  exact separate.targets concatenate _ id other isConcatenate isStage
    (repaired.ne_concatenate found member) _ List.mem_cons_self target
    (repairedStage.targets ▸ isTarget)

omit backed in
theorem get?_concatenated_dataset (found : graph.stage? id = some stage) {directory path : String}
    (loads : stage.plan.LoadsDataset directory) (within : Within directory path) :
    (graph.concatenated inserted store).files.get? path = store.files.get? path := by
  refine get?_concatenated (fun source join concatenate member => ?_) within
  obtain ⟨info, isConcatenate⟩ := repaired.concatenates source join concatenate member
  obtain ⟨other, isStage, -⟩ := repaired.kept id stage found
  exact separate.datasets concatenate _ id other isConcatenate isStage _ List.mem_cons_self
    directory ((repaired.loadsDataset_iff built found isStage).mpr loads)

omit built backed in
theorem get?_concatenated_source {directory path : String}
    (resolved : graph.directoryOf (.stage source) = .ok directory)
    (within : Within directory path) :
    (graph.concatenated inserted store).files.get? path = store.files.get? path := by
  obtain ⟨feeder, foundFeeder, isTarget⟩ := directoryOf_stage_eq_ok.mp resolved
  exact repaired.get?_concatenated_target separate foundFeeder
    (SubPlan.mem_targets_of_storeTarget? isTarget) within

omit built backed in
theorem pairwise_concatenations :
    ((graph.concatenations inserted store).map Prod.fst).Pairwise Apart := by
  rw [concatenations, List.map_map, List.pairwise_map]
  have different : inserted.Pairwise fun entry entry' => entry.2 ≠ entry'.2 :=
    List.pairwise_map.mp repaired.nodup
  refine different.imp_of_mem fun {entry entry'} member member' notSame => ?_
  obtain ⟨info, isStage⟩ := repaired.concatenates _ _ _ member
  obtain ⟨info', isStage'⟩ := repaired.concatenates _ _ _ member'
  exact separate.targets _ _ _ _ isStage isStage' notSame _ List.mem_cons_self _ List.mem_cons_self

omit built backed in
theorem get?_concatenated_self {directory path : String}
    (member : ((source, join), concatenate) ∈ inserted)
    (resolved : graph.directoryOf (.stage source) = .ok directory)
    (within : Within (concatenateTarget source join) path) :
    (graph.concatenated inserted store).files.get? path =
      (FileStore.empty.replace (concatenateTarget source join)
        [store.rowsOf directory]).files.get? path := by
  refine get?_replaceAll_of_within (repaired.pairwise_concatenations separate) ?_ within
  refine List.mem_map.mpr ⟨_, member, ?_⟩
  rw [loadedRows_of_directory rfl resolved]

variable (settled : graph.Settled config start store)

include settled

omit built backed separate in
theorem directoryOf_source (member : ((source, join), concatenate) ∈ inserted) :
    ∃ directory, graph.directoryOf (.stage source) = .ok directory := by
  obtain ⟨reader, found, operator, inPlan, isLoad⟩ := repaired.loaded source join concatenate member
  obtain ⟨tasks, ran, -⟩ := settled.stages join reader found
  exact Stage.resolves_of_runTasks ran operator inPlan _ isLoad

theorem holds_stage (found : graph.stage? id = some stage)
    (isStage : current.stage? id = some other) :
    current.Holds config (graph.concatenated inserted store) other := by
  have repairedStage := repaired.repairedStage found isStage
  obtain ⟨tasks, ran, content⟩ := settled.stages id stage found
  have same : Stage.SameReads stage other graph current store
      (graph.concatenated inserted store) := by
    refine repaired.sameReads built backed found isStage ?_ ?_
    · intro operator inPlan source directory isLoad resolved path within
      cases source with
      | dataset dataset =>
          obtain rfl := Except.ok.inj resolved
          exact (repaired.get?_concatenated_dataset built separate found
            ⟨operator, inPlan, isLoad⟩ within).symm
      | stage source => exact (repaired.get?_concatenated_source separate resolved within).symm
    · intro source join concatenate member
      obtain ⟨directory, resolved⟩ := repaired.directoryOf_source settled member
      exact ⟨directory, resolved, rowsOf_concatenateTarget fun path within =>
        repaired.get?_concatenated_self separate member resolved within⟩
  have resolves := (repaired.resolves_iff built backed found isStage
    fun _ _ _ member => repaired.directoryOf_source settled member).mpr
    (Stage.resolves_of_runTasks ran)
  obtain ⟨files, ranHere⟩ := same.runTasks resolves ran
  refine ⟨_, ranHere, fun target isTarget path within => ?_⟩
  rw [repairedStage.targets] at isTarget
  rw [same.writes, repaired.get?_concatenated_target separate found isTarget within]
  exact content target isTarget path within

theorem holds_concatenate (member : ((source, join), concatenate) ∈ inserted) {info : StageMeta} :
    current.Holds config (graph.concatenated inserted store)
      ⟨concatenate, .concatenate, concatenatePlan source join, info⟩ := by
  obtain ⟨-, ⟨feeder, foundFeeder⟩, -⟩ := repaired.edge_of_concatenate built backed member
  obtain ⟨directory, resolved⟩ := repaired.directoryOf_source settled member
  refine (holds_concatenate_iff rfl rfl).mpr ⟨directory, ?_, fun path within => ?_⟩
  · rw [repaired.directoryOf_stage foundFeeder, resolved]
  · rw [rowsOf_congr fun path within =>
      repaired.get?_concatenated_source separate resolved within]
    exact repaired.get?_concatenated_self separate member resolved within

/-- A store settled for the original graph is settled for the repaired one once the
concatenate stages have run on it. -/
theorem settled_repaired : current.Settled config start (graph.concatenated inserted store) := by
  refine ⟨fun id other directory isStage loads path within => ?_, fun id other isStage => ?_⟩
  · rcases repaired.stage_cases isStage with ⟨stage, found, -⟩ | ⟨source, join, _, -, rfl⟩
    · have loadsToo := (repaired.loadsDataset_iff built found isStage).mp loads
      rw [repaired.get?_concatenated_dataset built separate found loadsToo within]
      exact settled.datasets id stage directory found loadsToo path within
    · exact absurd loads not_loadsDataset_concatenatePlan
  · rcases repaired.stage_cases isStage with ⟨stage, found, -⟩ | ⟨source, join, _, member, rfl⟩
    · exact repaired.holds_stage built backed separate settled found isStage
    · exact repaired.holds_concatenate built backed separate settled member

end Repaired

end Settled

end StageGraph

end BatchFlow
