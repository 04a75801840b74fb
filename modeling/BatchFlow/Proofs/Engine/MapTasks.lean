import BatchFlow.Proofs.Engine.StageInput
import BatchFlow.Proofs.Plan.Divisible
import BatchFlow.Proofs.Task.Core

/-!
# The map tasks of a stage

However the files of a stage are dealt to splits, its map tasks do together what
one task does that reads all loads in full: they store the same rows, and the
same keyed rows reach each grouping operator in the same order.
-/

namespace BatchFlow

open Results

/-- What a task has produced at its end. -/
def Share.output (plan : SubPlan) (share : Share) : TaskOutput :=
  ⟨share.state.stores, plan.shuffleOf share.state.rows⟩

namespace TaskOutput

/-- The rows that some tasks stored under a target. -/
def stored (outputs : List TaskOutput) (target : String) : List Row :=
  outputs.flatMap fun output => (output.stores.get? target).getD []

/-- The keyed rows that some tasks sent to a grouping operator. -/
def keyed (outputs : List TaskOutput) (package : OpId) : List Row :=
  outputs.flatMap fun output => (output.shuffle.get? package).getD []

end TaskOutput

namespace SubPlan

/-- The keyed rows of a grouping operator are the rows of its input. -/
theorem OwnIds.get?_shuffleOf {plan : SubPlan} (ownIds : plan.OwnIds) {package main : OpId}
    {operator : Operator} (found : plan.get? package = some operator)
    (isPackage : operator.operation.isPackage = true)
    (isMain : operator.inputs.head? = some main) (rows : Bindings) :
    (plan.shuffleOf rows).get? package = rows.get? main := by
  have entries : plan.shuffleOf rows = .ofList (plan.packages.filterMap fun package =>
      ((plan.get? package).bind fun operator =>
        operator.inputs.head?.bind rows.get?).map fun found => (package, found)) := by
    rw [shuffleOf]
    refine congrArg OrderedMap.ofList (congrArg (List.filterMap · plan.packages) ?_)
    funext package
    cases plan.get? package with
    | none => rfl
    | some operator =>
        cases head : operator.inputs.head? with
        | none => simp [head]
        | some input => cases rowsOf : rows.get? input <;> simp [head, rowsOf]
  have member : package ∈ plan.packages := ownIds.mem_packages.mpr ⟨operator, found, isPackage⟩
  rw [entries, OrderedMap.get?_ofList_filterMap ownIds.nodup_packages, if_pos member,
    found, Option.bind_some, isMain, Option.bind_some]

end SubPlan

namespace Stage

variable (stage : Stage) (graph : StageGraph) (config : EngineConfig) (store : FileStore)

/-- A task that reads all loads in full. -/
def wholeMapTask : Share :=
  ⟨fun _ => [], stage.rowsOfLoads graph store fun operator => operator.operation.isLoad, [], ∅⟩

/-- The task of one split. -/
def splitTask (split : Split) : Share :=
  ⟨fun _ => [], (stage.rowsOfLoads graph store stage.replicates).insert split.load
    (StageGraph.rowsOfFiles store split.files), [], ∅⟩

variable {stage graph config store}

theorem runSplit_eq {phases : Phases} {split : Split}
    (filesExist : ∀ path ∈ split.files, ∃ rows, store.files.get? path = some rows) :
    stage.runSplit phases store (stage.rowsOfLoads graph store stage.replicates) split =
      (phases.map.foldlM (Share.step stage.plan) (stage.splitTask graph store split)).map
        (Share.output stage.plan) := by
  have read : store.readFiles split.files = .ok (StageGraph.rowsOfFiles store split.files) :=
    FileStore.readFiles_eq_ok.mpr ⟨filesExist, rfl⟩
  rw [runSplit, read, Share.foldlM_step_eq]
  show stage.plan.runMapTask _ _ = _
  rw [SubPlan.runMapTask, SubPlan.evaluate]
  show (phases.map.foldlM (stage.plan.step (stage.splitTask graph store split).groups)
    (stage.splitTask graph store split).state >>= _) = _
  cases phases.map.foldlM (stage.plan.step (stage.splitTask graph store split).groups)
    (stage.splitTask graph store split).state <;> rfl

/-- The tasks of all splits, run one after another. -/
theorem mapM_runSplit_eq (ownIds : stage.plan.OwnIds) (phases : Phases) :
    (stage.allSplits graph config store).mapM
        (stage.runSplit phases store (stage.rowsOfLoads graph store stage.replicates)) =
      (((stage.allSplits graph config store).map (stage.splitTask graph store)).mapM
        fun part => phases.map.foldlM (Share.step stage.plan) part).map
          (List.map (Share.output stage.plan)) := by
  rw [List.mapM_map, ← mapM_map_result]
  exact mapM_congr fun split member => runSplit_eq (mem_allSplits ownIds member).2

theorem mapM_runSplit_eq_ok (ownIds : stage.plan.OwnIds) {phases : Phases}
    {outputs : List TaskOutput} :
    (stage.allSplits graph config store).mapM
        (stage.runSplit phases store (stage.rowsOfLoads graph store stage.replicates)) =
          .ok outputs ↔
      ∃ finals, ((stage.allSplits graph config store).map (stage.splitTask graph store)).mapM
        (fun part => phases.map.foldlM (Share.step stage.plan) part) = .ok finals ∧
          finals.map (Share.output stage.plan) = outputs := by
  rw [mapM_runSplit_eq ownIds, map_eq_ok]

section Start

variable (ownIds : stage.plan.OwnIds)

include ownIds

theorem replicates_iff {id : OpId} {operator : Operator}
    (found : stage.plan.get? id = some operator) :
    stage.replicates operator = true ↔
      operator.operation.isLoad = true ∧ stage.plan.Replicated id := by
  rw [replicates, Bool.and_eq_true, OrderedSet.contains_iff, ownIds id operator found]
  rfl

theorem spreads_iff {id : OpId} {operator : Operator}
    (found : stage.plan.get? id = some operator) :
    stage.spreads operator = true ↔
      operator.operation.isLoad = true ∧ ¬ stage.plan.Replicated id := by
  rw [spreads, Bool.and_eq_true, Bool.not_eq_true', ← Bool.not_eq_true, OrderedSet.contains_iff,
    ownIds id operator found]
  rfl

theorem get?_rowsOfLoads_replicated {id : OpId} (replicated : stage.plan.Replicated id) :
    (stage.rowsOfLoads graph store stage.replicates).get? id =
      (stage.rowsOfLoads graph store fun operator => operator.operation.isLoad).get? id := by
  refine Option.ext fun rows => ?_
  rw [get?_rowsOfLoads ownIds, get?_rowsOfLoads ownIds]
  refine exists_congr fun operator => and_congr_right fun found => and_congr_left fun _ => ?_
  rw [replicates_iff ownIds found]
  exact and_iff_left replicated

theorem get?_rowsOfLoads_not_replicated {id : OpId} (spread : ¬ stage.plan.Replicated id) :
    (stage.rowsOfLoads graph store stage.replicates).get? id = none := by
  refine Option.eq_none_iff_forall_ne_some.mpr fun rows isBound => ?_
  obtain ⟨operator, found, replicated, -⟩ := (get?_rowsOfLoads ownIds).mp isBound
  exact spread ((replicates_iff ownIds found).mp replicated).2

theorem rowsAt_splitTask {split : Split} {id : OpId} (spread : ¬ stage.plan.Replicated id) :
    (stage.splitTask graph store split).rowsAt id =
      StageGraph.rowsOfFiles store (if split.load = id then split.files else []) := by
  rw [Share.rowsAt, splitTask, OrderedMap.get?_insert]
  by_cases same : id = split.load
  · rw [if_pos same, if_pos same.symm, Option.getD_some]
  · rw [if_neg same, if_neg (Ne.symm same), get?_rowsOfLoads_not_replicated ownIds spread]
    rfl

/-- The splits of a load that is not replicated hold its rows in order. -/
theorem flatMap_rowsAt_splitTask {id : OpId} (spread : ¬ stage.plan.Replicated id) :
    ((stage.allSplits graph config store).flatMap fun split =>
        (stage.splitTask graph store split).rowsAt id) =
      (stage.wholeMapTask graph store).rowsAt id := by
  have asFiles : ((stage.allSplits graph config store).flatMap fun split =>
      (stage.splitTask graph store split).rowsAt id) =
        StageGraph.rowsOfFiles store ((stage.allSplits graph config store).flatMap fun split =>
          if split.load = id then split.files else []) := by
    rw [StageGraph.rowsOfFiles, List.flatMap_assoc]
    exact List.flatMap_congr fun split _ => rowsAt_splitTask ownIds spread
  rw [asFiles, Share.rowsAt, wholeMapTask]
  cases bound : (stage.rowsOfLoads graph store fun operator =>
      operator.operation.isLoad).get? id with
  | some rows =>
      obtain ⟨operator, found, isLoad, rfl⟩ := (get?_rowsOfLoads ownIds).mp bound
      rw [files_allSplits ownIds found ((spreads_iff ownIds found).mpr ⟨isLoad, spread⟩)]
      rfl
  | none =>
      have noSplit : ((stage.allSplits graph config store).flatMap fun split =>
          if split.load = id then split.files else []) = [] := by
        refine List.flatMap_eq_nil_iff.mpr fun split member => if_neg fun sameLoad => ?_
        obtain ⟨operator, found, spreads⟩ := (mem_allSplits ownIds member).1
        rw [sameLoad] at found
        have isBound : (stage.rowsOfLoads graph store fun operator =>
            operator.operation.isLoad).get? id = some (graph.loadedRows store operator) :=
          (get?_rowsOfLoads ownIds).mpr
            ⟨operator, found, ((spreads_iff ownIds found).mp spreads).1, rfl⟩
        exact absurd (isBound.symm.trans bound) (Option.some_ne_none _)
      rw [noSplit]
      rfl

/-- What the whole task reads is dealt to the tasks of the splits. -/
theorem gathered_splitTasks (nonempty : stage.allSplits graph config store ≠ []) :
    stage.plan.Gathered stage.plan.Unsorted stage.plan.Replicated []
      (stage.wholeMapTask graph store)
      ((stage.allSplits graph config store).map (stage.splitTask graph store)) := by
  refine ⟨by simpa using nonempty, fun id => ?_, fun part member => ?_,
    fun id member => absurd member (by simp [wholeMapTask]), fun id replicated part member => ?_,
    fun id spread => ?_, fun id isDone => absurd isDone (by simp), fun target => ?_⟩
  · simp [splitTask, wholeMapTask, List.flatMap_map]
  · obtain ⟨split, -, rfl⟩ := List.mem_map.mp member
    rfl
  · obtain ⟨split, isSplit, rfl⟩ := List.mem_map.mp member
    obtain ⟨operator, found, spreads⟩ := (mem_allSplits ownIds isSplit).1
    have different : id ≠ split.load := fun same =>
      ((spreads_iff ownIds found).mp spreads).2 (same ▸ replicated)
    exact (OrderedMap.get?_insert_of_ne different).trans
      (get?_rowsOfLoads_replicated ownIds replicated)
  · refine Gathers.of_flatten_eq ?_
    rw [List.map_map, ← List.flatMap_def]
    exact flatMap_rowsAt_splitTask ownIds spread
  · simp [splitTask, wholeMapTask, Share.storedAt, List.flatMap_map, OrderedMap.get?_empty]

end Start

/-- What the map tasks of a stage produce is what one task produces that reads
all loads in full. -/
structure MapsTo (stage : Stage) (outputs : List TaskOutput) (final : TaskState) : Prop where
  stored : ∀ target, (TaskOutput.stored outputs target).Perm ((final.stores.get? target).getD [])
  keyed : ∀ package ∈ stage.plan.packages, TaskOutput.keyed outputs package =
    ((stage.plan.shuffleOf final.rows).get? package).getD []

section Phase

variable (wellFormed : stage.plan.WellFormed) (divisible : stage.plan.Divisible)

include wellFormed divisible

theorem mapsTo_of_gathered {done : List OpId} {final : Share} {finals : List Share}
    (gathered : stage.plan.Gathered stage.plan.Unsorted stage.plan.Replicated done final finals) :
    stage.MapsTo (finals.map (Share.output stage.plan)) final.state := by
  refine ⟨fun target => ?_, fun package member => ?_⟩
  · rw [TaskOutput.stored, List.flatMap_map]
    exact gathered.stored target
  · obtain ⟨operator, found, isPackage⟩ := wellFormed.ownIds.mem_packages.mp member
    obtain ⟨main, inputs⟩ := (wellFormed.operators package operator found).inputs_of_one
      (by cases kind : operator.operation <;> simp [kind, Operation.isPackage] at isPackage; rfl)
    have isHead : operator.inputs.head? = some main := by rw [inputs]; rfl
    have isMain : operator.mainInput? = some main := by
      cases kind : operator.operation <;> simp [kind, Operation.isPackage] at isPackage
      rw [Operator.mainInput?, kind, isHead]
    have shuffled := wellFormed.ownIds.get?_shuffleOf found isPackage isHead
    have inOrder := (gathered.rows main (divisible.not_replicated_main found isMain)).same
      (divisible.package_unsorted wellFormed found isPackage isMain)
    rw [TaskOutput.keyed, List.flatMap_map]
    simp only [Share.output, shuffled]
    rw [List.flatMap_def]
    exact inOrder

/-- If the map tasks of a stage with splits succeed, one task does that reads all loads in
full and in which no sort stops.  If that task succeeds, the map tasks do, unless a sort
stops one of them.  Either way they produce what it produces. -/
theorem mapM_runSplit_iff_whole {phases : Phases} (split : stage.plan.phases = .ok phases)
    (nonempty : stage.allSplits graph config store ≠ []) :
    (∀ outputs, (stage.allSplits graph config store).mapM
        (stage.runSplit phases store (stage.rowsOfLoads graph store stage.replicates)) =
          .ok outputs →
      ∃ final, phases.map.foldlM (Share.proceed stage.plan) (stage.wholeMapTask graph store) =
        .ok final ∧ stage.MapsTo outputs final.state) ∧
    (∀ final, phases.map.foldlM (Share.proceed stage.plan) (stage.wholeMapTask graph store) =
        .ok final →
      ∃ outputs, OkUnless RunError.IsStop ((stage.allSplits graph config store).mapM
        (stage.runSplit phases store (stage.rowsOfLoads graph store stage.replicates))) outputs ∧
          stage.MapsTo outputs final.state) := by
  have ownIds := wellFormed.ownIds
  obtain ⟨toWhole, toParts⟩ := (gathered_splitTasks ownIds nonempty).evaluate_unless_stopped
    wellFormed (divisible.splittable_map wellFormed split)
  rw [mapM_runSplit_eq ownIds]
  refine ⟨fun outputs run => ?_, fun final run => ?_⟩
  · obtain ⟨finals, inParts, rfl⟩ := map_eq_ok.mp run
    obtain ⟨final, finished, gathered⟩ := toWhole finals inParts
    exact ⟨final, finished, mapsTo_of_gathered wellFormed divisible gathered⟩
  · obtain ⟨finals, inParts, gathered⟩ := toParts final run
    exact ⟨_, inParts.map _, mapsTo_of_gathered wellFormed divisible gathered⟩

end Phase

end Stage

end BatchFlow
