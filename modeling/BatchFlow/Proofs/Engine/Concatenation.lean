import BatchFlow.Proofs.Engine.Settling

/-!
# Running a concatenate stage

A concatenate stage runs one task, which writes the rows of its source, in the
order in which they are read, into one file.
-/

namespace BatchFlow

open FileStore JoinRepair Results

variable {graph : StageGraph} {config : EngineConfig} {store : FileStore} {stage : Stage}
  {source join : StageId} {directory : String}

theorem phases_concatenatePlan (source join : StageId) :
    (concatenatePlan source join).phases = .ok ⟨[⟨0⟩, ⟨1⟩], []⟩ :=
  rfl

theorem operators_concatenatePlan (source join : StageId) :
    (concatenatePlan source join).operators =
      [⟨⟨0⟩, .load (.stage source), []⟩, ⟨⟨1⟩, .store (concatenateTarget source join), [⟨0⟩]⟩] :=
  rfl

theorem targets_concatenatePlan (source join : StageId) :
    (concatenatePlan source join).targets = [concatenateTarget source join] :=
  rfl

theorem loadsStage_concatenatePlan {other : StageId} :
    (concatenatePlan source join).LoadsStage other ↔ other = source := by
  simp [SubPlan.LoadsStage, operators_concatenatePlan, eq_comm]

theorem not_loadsDataset_concatenatePlan {path : String} :
    ¬ (concatenatePlan source join).LoadsDataset path := by
  simp [SubPlan.LoadsDataset, operators_concatenatePlan]

theorem runMapTask_concatenatePlan (source join : StageId) (rows : List Row) :
    (concatenatePlan source join).runMapTask ⟨[⟨0⟩, ⟨1⟩], []⟩ (OrderedMap.insert ∅ ⟨0⟩ rows) =
      .ok ⟨OrderedMap.insert ∅ (concatenateTarget source join) rows, ∅⟩ :=
  rfl

/-- The tasks of a concatenate stage that read some rows. -/
def concatenateTasks (source join : StageId) (rows : List Row) : StageTasks :=
  ⟨⟨[⟨0⟩, ⟨1⟩], []⟩, 0, [⟨OrderedMap.insert ∅ (concatenateTarget source join) rows, ∅⟩], []⟩

theorem writes_concatenateTasks (source join : StageId) (rows : List Row) :
    (concatenateTasks source join rows).writes (concatenatePlan source join) =
      [(concatenateTarget source join, [rows])] := by
  have stored : ((OrderedMap.insert ∅ (concatenateTarget source join) rows :
      OrderedMap String (List Row)).get? (concatenateTarget source join)).getD [] = rows := by
    rw [OrderedMap.get?_insert_self]
    rfl
  exact congrArg (fun rows => [(concatenateTarget source join, [rows])]) stored

/-- A concatenate stage runs when its source has a directory. -/
theorem runTasks_concatenate (kind : stage.kind = .concatenate)
    (plan : stage.plan = concatenatePlan source join)
    (resolved : graph.directoryOf (.stage source) = .ok directory) :
    stage.runTasks graph config store =
      .ok (concatenateTasks source join (store.rowsOf directory)) := by
  have notReplicated (id : OpId) :
      (concatenatePlan source join).broadcastLoads.contains id = false := rfl
  have splits : stage.allSplits graph config store = [⟨⟨0⟩, store.list directory⟩] := by
    rw [Stage.allSplits, plan, operators_concatenatePlan]
    simp [Stage.spreads, plan, notReplicated, Operation.isLoad, Stage.splitsOf, kind]
    exact StageGraph.loadedFiles_of_directory rfl resolved
  have noReplicas : stage.rowsOfLoads graph store stage.replicates = ∅ := by
    rw [Stage.rowsOfLoads, plan, operators_concatenatePlan]
    simp [Stage.replicates, plan, notReplicated]
    rfl
  have resolves : ∀ operator ∈ stage.plan.operators, graph.Resolves operator := by
    rw [plan, operators_concatenatePlan]
    simp [StageGraph.Resolves, resolved]
  refine Stage.runTasks_eq_ok.mpr ⟨?_, ⟨_, Stage.input_eq_ok.mpr ⟨resolves, rfl⟩, ?_⟩, ?_,
    fun _ => rfl, fun some => absurd rfl some⟩
  · rw [plan]
    exact phases_concatenatePlan source join
  · rw [plan, operators_concatenatePlan]
    simp [Stage.extend, Stage.replicates, plan, notReplicated, concatenateTasks]
  · rw [splits, noReplicas, mapM_eq_ok]
    refine .cons ?_ .nil
    rw [Stage.runSplit, store.readFiles_list, plan]
    exact runMapTask_concatenatePlan source join (store.rowsOf directory)

/-- What it is for the target of a concatenate stage to hold what the stage stores. -/
theorem holds_concatenate_iff (kind : stage.kind = .concatenate)
    (plan : stage.plan = concatenatePlan source join) :
    graph.Holds config store stage ↔
      ∃ directory, graph.directoryOf (.stage source) = .ok directory ∧
        ∀ path, Within (concatenateTarget source join) path →
          store.files.get? path =
            (FileStore.empty.replace (concatenateTarget source join)
              [store.rowsOf directory]).files.get? path := by
  have content (directory : String) : (FileStore.empty.replaceAll
      ((concatenateTasks source join (store.rowsOf directory)).writes stage.plan)) =
        FileStore.empty.replace (concatenateTarget source join) [store.rowsOf directory] := by
    rw [plan, writes_concatenateTasks]
    rfl
  have isTarget {target : String} :
      target ∈ stage.plan.targets ↔ target = concatenateTarget source join := by
    rw [plan, targets_concatenatePlan, List.mem_singleton]
  constructor
  · rintro ⟨tasks, ran, holds⟩
    obtain ⟨directory, resolved⟩ :
        ∃ directory, graph.directoryOf (.stage source) = .ok directory := by
      refine Stage.resolves_of_runTasks ran ⟨⟨0⟩, .load (.stage source), []⟩ ?_ _ rfl
      rw [plan, operators_concatenatePlan]
      exact List.mem_cons_self
    rw [runTasks_concatenate kind plan resolved] at ran
    obtain rfl := Except.ok.inj ran
    rw [content] at holds
    exact ⟨directory, resolved, holds _ (isTarget.mpr rfl)⟩
  · rintro ⟨directory, resolved, holds⟩
    refine ⟨_, runTasks_concatenate kind plan resolved, fun target isHere => ?_⟩
    obtain rfl := isTarget.mp isHere
    rw [content]
    exact holds

/-- The target of a concatenate stage holds the rows of its source, in order. -/
theorem rowsOf_concatenateTarget {rows : List Row}
    (holds : ∀ path, Within (concatenateTarget source join) path → store.files.get? path =
      (FileStore.empty.replace (concatenateTarget source join) [rows]).files.get? path) :
    store.rowsOf (concatenateTarget source join) = rows := by
  rw [rowsOf_congr holds, rowsOf_replace_singleton]

end BatchFlow
