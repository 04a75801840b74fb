import BatchFlow.Proofs.Engine.DataFlow
import BatchFlow.Proofs.Optimizer.Idempotence

/-!
# What an optimized graph depends on

Filling in file counts asks a catalog for some datasets: those that an ordinary stage of
unknown count without a reduce phase reads in splits.  Of the answer, only the number of
map tasks matters.  Two catalogs with the same numbers lead to the same optimized graph, and
where they differ, so do the graphs that copy the dataset.
-/

namespace BatchFlow

open Results JoinRepair

namespace Stage

/-- The estimate of a stage depends on the file count of a dataset: the count of the stage
is not known, and its tasks are the splits of a load of the dataset. -/
def AsksFor (stage : Stage) (path : String) : Prop :=
  stage.info.outputFiles = .unknown ∧ stage.kind = .ordinary ∧
    stage.plan.hasReducePhase = false ∧
      ∃ operator ∈ stage.plan.operators, operator.operation = .load (.dataset path) ∧
        stage.plan.broadcastLoads.contains operator.id = false

end Stage

namespace StageGraph

variable {graph : StageGraph} {config : EngineConfig} {first second : String → Option UInt32}

/-- The estimate of a stage of the graph depends on the file count of a dataset. -/
def AsksFor (graph : StageGraph) (path : String) : Prop :=
  ∃ id stage, graph.stage? id = some stage ∧ stage.AsksFor path

/-- The map tasks that read a dataset, if a catalog knows it. -/
def tasksOf (config : EngineConfig) (catalog : String → Option UInt32) (path : String) :
    Option UInt32 :=
  (catalog path).map (loadSplits · config.splitCombinationDisabled)

/-- Two catalogs give rise to the same tasks for every dataset that a graph asks for. -/
def SameTasks (graph : StageGraph) (config : EngineConfig)
    (first second : String → Option UInt32) : Prop :=
  ∀ path, graph.AsksFor path → tasksOf config first path = tasksOf config second path

theorem known?_ofOption (files : Option UInt32) : (FileCount.ofOption files).known? = files := by
  cases files <;> rfl

theorem splits?_filesOf {stage : Stage} {operator : Operator}
    (same : ∀ path, operator.operation = .load (.dataset path) →
      stage.plan.broadcastLoads.contains operator.id = false →
        tasksOf config first path = tasksOf config second path) :
    stage.splits? config (graph.filesOf first) operator =
      stage.splits? config (graph.filesOf second) operator := by
  unfold Stage.splits?
  cases operation : operator.operation with
  | load source =>
      cases source with
      | stage source => rfl
      | dataset path =>
          cases split : stage.plan.broadcastLoads.contains operator.id with
          | true => rfl
          | false =>
              have tasks := congrArg (Option.map UInt32.toNat) (same path operation split)
              rw [tasksOf, tasksOf, Option.map_map, Option.map_map] at tasks
              simpa [filesOf, known?_ofOption, Function.comp_def] using tasks
  | _ => rfl

theorem outputFiles_filesOf {id : StageId} {stage : Stage} (found : graph.stage? id = some stage)
    (unknown : stage.info.outputFiles = .unknown) (same : graph.SameTasks config first second) :
    stage.outputFiles config (graph.filesOf first) =
      stage.outputFiles config (graph.filesOf second) := by
  unfold Stage.outputFiles
  cases ordinary : stage.kind with
  | concatenate => rfl
  | ordinary =>
      cases mapOnly : stage.plan.hasReducePhase with
      | true => rfl
      | false =>
          have splits : stage.plan.operators.mapM (stage.splits? config (graph.filesOf first)) =
              stage.plan.operators.mapM (stage.splits? config (graph.filesOf second)) := by
            refine mapM_of_forall₂ (List.forall₂_same.mpr fun operator inPlan => ?_)
            apply splits?_filesOf
            intro path operation split
            exact same path ⟨id, stage, found, unknown, ordinary, mapOnly, operator, inPlan,
              operation, split⟩
          rw [if_neg Bool.false_ne_true, if_neg Bool.false_ne_true, Stage.mapTasks_eq,
            Stage.mapTasks_eq, splits]

theorem annotateStage_congr (same : graph.SameTasks config first second) (id : StageId) :
    graph.annotateStage first config id = graph.annotateStage second config id := by
  unfold annotateStage
  cases found : graph.stage? id with
  | none => rfl
  | some stage =>
      cases count : stage.info.outputFiles with
      | known files => simp only [count, FileCount.isKnown, if_true]
      | unknown => simp only [count, outputFiles_filesOf found count same]

/-- A graph in which one more count is known asks for no other datasets. -/
theorem AsksFor.of_annotateStage {catalog : String → Option UInt32} {id : StageId} {path : String}
    (asks : (graph.annotateStage catalog config id).1.AsksFor path) : graph.AsksFor path := by
  rcases annotateStage_cases graph catalog config id with ⟨-, unchanged⟩ | ⟨files, filled⟩
  · rwa [unchanged] at asks
  · rw [filled] at asks
    obtain ⟨other, stage, found, unknown, rest⟩ := asks
    rw [stage?_modifyStage] at found
    split at found
    case isFalse => exact ⟨other, stage, found, unknown, rest⟩
    case isTrue =>
      obtain ⟨original, -, rfl⟩ := Option.map_eq_some_iff.mp found
      exact nomatch unknown

/-- Filling in counts depends on a catalog through the tasks of the datasets asked for. -/
theorem annotateOutputFiles_congr (same : graph.SameTasks config first second) :
    graph.annotateOutputFiles first config = graph.annotateOutputFiles second config := by
  have alongOrder (order : List StageId) (state : StageGraph × Nat)
      (same : state.1.SameTasks config first second) :
      order.foldl (annotateNext first config) state =
        order.foldl (annotateNext second config) state := by
    induction order generalizing state with
    | nil => rfl
    | cons id order ih =>
        have step : annotateNext first config state id = annotateNext second config state id := by
          rw [annotateNext, annotateNext, annotateStage_congr same]
        rw [List.foldl_cons, List.foldl_cons, ← step]
        exact ih _ fun path asks => same path asks.of_annotateStage
  exact congrArg (Except.map · graph.order) (funext fun order => alongOrder order (graph, 0) same)

theorem optimized_congr (same : graph.SameTasks config first second) :
    graph.optimized first config = graph.optimized second config := by
  unfold optimized
  rw [annotateOutputFiles_congr same]

section CopyGraph

/-- A graph of one stage that copies a dataset. -/
def copyGraph (path : String) (files : FileCount) : StageGraph :=
  ⟨OrderedMap.insert ∅ ⟨0⟩ ⟨⟨0⟩, .ordinary, copyPlan (.dataset path) "copy", ⟨files, none⟩⟩, ∅, 1⟩

variable {path : String} {files : FileCount}

theorem order_copyGraph (path : String) (files : FileCount) :
    (copyGraph path files).order = .ok [⟨0⟩] := by
  cbv

theorem stage?_copyGraph {id : StageId} {stage : Stage} :
    (copyGraph path files).stage? id = some stage ↔
      id = ⟨0⟩ ∧ stage = ⟨⟨0⟩, .ordinary, copyPlan (.dataset path) "copy", ⟨files, none⟩⟩ := by
  unfold copyGraph stage?
  rw [OrderedMap.get?_insert]
  split <;> simp_all [eq_comm]

theorem copyGraph_injective {other : FileCount}
    (same : copyGraph path files = copyGraph path other) : files = other := by
  have found : (copyGraph path other).stage? ⟨0⟩ =
      some ⟨⟨0⟩, .ordinary, copyPlan (.dataset path) "copy", ⟨files, none⟩⟩ :=
    same ▸ stage?_copyGraph.mpr ⟨rfl, rfl⟩
  obtain ⟨-, sameStage⟩ := stage?_copyGraph.mp found
  exact congrArg (fun stage => stage.info.outputFiles) sameStage

theorem operators_copyPlan (source : LoadSource) (target : String) :
    (copyPlan source target).operators =
      [⟨⟨0⟩, .load source, []⟩, ⟨⟨1⟩, .store target, [⟨0⟩]⟩] :=
  rfl

theorem eq_of_asksFor_copyGraph {asked : String} (asks : (copyGraph path files).AsksFor asked) :
    asked = path := by
  obtain ⟨id, stage, found, -, -, -, operator, inPlan, isLoad, -⟩ := asks
  obtain ⟨rfl, rfl⟩ := stage?_copyGraph.mp found
  rw [operators_copyPlan] at inPlan
  rcases List.mem_cons.mp inPlan with rfl | inRest
  · cases isLoad
    rfl
  · obtain rfl := List.mem_singleton.mp inRest
    exact nomatch isLoad

/-- The files of one split load are its tasks. -/
theorem ofNat_sum_toNat (tasks : UInt32) :
    UInt32.ofNat (min ([tasks.toNat, 0].foldl (· + ·) 0) (UInt32.size - 1)) = tasks := by
  have fits : [tasks.toNat, 0].foldl (· + ·) 0 ≤ UInt32.size - 1 := by
    have bounded := tasks.toNat_lt
    unfold UInt32.size
    simp only [List.foldl_cons, List.foldl_nil]
    omega
  rw [Nat.min_eq_left fits]
  simp

theorem built_copyGraph (path : String) (files : FileCount) : (copyGraph path files).Built := by
  have ownIds : (copyPlan (.dataset path) "copy").OwnIds :=
    (SubPlan.OwnIds.empty.insert _).insert _
  exact Built.empty.addStage .ordinary ⟨files, none⟩ ownIds (by decide) rfl

theorem valid_copyGraph (path : String) (files : FileCount) :
    (copyGraph path files).validate = .ok 1 := by
  rw [validate, order_copyGraph]
  rfl

theorem optimize_copyGraph (path : String) (files : FileCount) (config : EngineConfig) :
    ∃ report, optimize config (copyGraph path files) = .ok report (copyGraph path files) := by
  have raised : (copyGraph path files).AllRaised := by
    intro id stage packages found ordinary qualifies
    obtain ⟨rfl, rfl⟩ := stage?_copyGraph.mp found
    have none : (copyPlan (.dataset path) "copy").packages = [] := rfl
    have ownIds := (built_copyGraph path files).ownIds _ _ found
    obtain ⟨rfl, -⟩ := ownIds.qualified_of_qualify qualifies
    rw [none]
    intro package member
    exact absurd member List.not_mem_nil
  have undecided (verdict : SideVerdict) : ¬ (copyGraph path files).Decided config verdict := by
    rintro ⟨stage, found, -, member⟩
    obtain ⟨isFirst, rfl⟩ := stage?_copyGraph.mp found
    have noJoins : (copyPlan (.dataset path) "copy").joins = [] := rfl
    have isJoin := join_mem_joins ((built_copyGraph path files).ownIds _ _ found) member
    rw [noJoins] at isJoin
    exact List.not_mem_nil isJoin
  obtain ⟨report, ran, -⟩ := optimize_of_settled (built_copyGraph path files)
    ⟨1, valid_copyGraph path files⟩ raised fun verdict decided => absurd decided (undecided verdict)
  exact ⟨report, ran⟩

theorem outputFiles_copyPlan (target : String) (info : StageMeta)
    (catalog : String → Option UInt32) (graph : StageGraph) :
    Stage.outputFiles ⟨⟨0⟩, .ordinary, copyPlan (.dataset path) target, info⟩ config
        (graph.filesOf catalog) =
      .ofOption (tasksOf config catalog path) := by
  have mapOnly : (copyPlan (.dataset path) target).hasReducePhase = false := rfl
  have noBroadcast : (copyPlan (.dataset path) target).broadcastLoads.contains ⟨0⟩ = false := rfl
  unfold Stage.outputFiles tasksOf
  dsimp only
  rw [mapOnly, if_neg Bool.false_ne_true, Stage.mapTasks_eq]
  dsimp only
  rw [operators_copyPlan]
  simp only [Stage.splits?, noBroadcast, filesOf, known?_ofOption, List.mapM_cons, List.mapM_nil]
  cases catalog path with
  | none => rfl
  | some files => exact congrArg FileCount.known (ofNat_sum_toNat (loadSplits files _))

theorem annotateStage_copyGraph (path : String) (catalog : String → Option UInt32)
    (config : EngineConfig) :
    ((copyGraph path .unknown).annotateStage catalog config ⟨0⟩).1 =
      copyGraph path (.ofOption (tasksOf config catalog path)) := by
  unfold annotateStage
  rw [stage?_copyGraph.mpr ⟨rfl, rfl⟩]
  dsimp only
  rw [outputFiles_copyPlan, FileCount.isKnown, if_neg Bool.false_ne_true]
  cases tasksOf config catalog path <;> rfl

theorem optimized_copyGraph (path : String) (catalog : String → Option UInt32)
    (config : EngineConfig) :
    ∃ report, (copyGraph path .unknown).optimized catalog config =
      .ok (copyGraph path (.ofOption (tasksOf config catalog path)), report) := by
  obtain ⟨report, ran⟩ :=
    optimize_copyGraph path (.ofOption (tasksOf config catalog path)) config
  refine ⟨report, optimized_eq_ok.mpr ⟨_, _, annotateOutputFiles_eq_ok.mpr
    ⟨_, order_copyGraph .., rfl⟩, ?_⟩⟩
  show optimize config ((copyGraph path .unknown).annotateStage catalog config ⟨0⟩).1 = _
  rw [annotateStage_copyGraph]
  exact ran

end CopyGraph

/-- Two catalogs agree on the tasks for a dataset exactly when all graphs that ask for no
other dataset are optimized alike. -/
theorem tasksOf_eq_iff {path : String} :
    tasksOf config first path = tasksOf config second path ↔
      ∀ graph : StageGraph, (∀ asked, graph.AsksFor asked → asked = path) →
        graph.optimized first config = graph.optimized second config := by
  constructor
  · intro same graph asksOnly
    apply optimized_congr
    intro asked asks
    rwa [asksOnly asked asks]
  · intro alike
    obtain ⟨firstReport, ofFirst⟩ := optimized_copyGraph path first config
    obtain ⟨secondReport, ofSecond⟩ := optimized_copyGraph path second config
    have same := alike (copyGraph path .unknown) fun asked => eq_of_asksFor_copyGraph
    rw [ofFirst, ofSecond] at same
    obtain ⟨sameGraph, -⟩ := Prod.mk.inj (Except.ok.inj same)
    have counts := congrArg FileCount.known? (copyGraph_injective sameGraph)
    rwa [known?_ofOption, known?_ofOption] at counts

end StageGraph

end BatchFlow
