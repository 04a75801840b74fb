import BatchFlow.Proofs.Document.StoredDatasets
import BatchFlow.Proofs.Optimizer.AskedCounts

/-!
# The plan explained and the plan executed

Explaining a plan counts the files that the plan lists for a dataset, running it counts the
files that the store has at its path.  The two fill in the same counts, and so arrive at the
same graph, if every dataset that the plan asks for is read by as many tasks either way.
This holds for every dataset with files whose name neither contains another dataset nor lies
within one, and for paths apart from all datasets.
-/

namespace BatchFlow

open Results JoinRepair Steps

namespace StageGraph

theorem fingerprint_of_optimize {config : EngineConfig} {current after : StageGraph}
    {report : OptimizationReport} (ran : optimize config current = .ok report after) :
    report.after = after.fingerprint := by
  unfold optimize optimizeWith at ran
  simp only [Steps.bind_eq_ok, Steps.pure_eq_ok, get_eq_ok] at ran
  obtain ⟨-, -, -, -, -, -, outcomes, between, -, result, final, ⟨rfl, rfl⟩, rfl, rfl⟩ := ran
  rfl

theorem optimizeAndRun_apply (graph : StageGraph) (config : EngineConfig) (store : FileStore) :
    graph.optimizeAndRun config store =
      match graph.optimized store.fileCount? config with
      | .error error => .error (.plan error) store
      | .ok (next, report) =>
          match next.run config store with
          | .ok outcome after => .ok (next, report, outcome) after
          | .error error after => .error error after := by
  unfold optimizeAndRun
  rw [Steps.get_bind_apply, Steps.bind_apply]
  cases graph.optimized store.fileCount? config with
  | error error => rfl
  | ok plan =>
      obtain ⟨next, report⟩ := plan
      show ((next.run config >>= fun outcome => pure (next, report, outcome)) : StoreStep _) store =
        match next.run config store with
        | .ok outcome after => .ok (next, report, outcome) after
        | .error error after => .error error after
      rw [Steps.bind_apply]
      cases next.run config store <;> rfl

end StageGraph

namespace StageDocument

open FileStore StageGraph

variable {document : StageDocument} {path : String}

/-- As many tasks read what is stored at a path as its files listed in the plan would take;
nothing is stored where the plan lists no dataset. -/
def CountedAlike (document : StageDocument) (splitCombinationDisabled : Bool) (path : String) :
    Prop :=
  match document.datasets.get? path with
  | none => document.storedFiles path = 0
  | some files =>
      document.storedFiles path ≠ 0 ∧
        loadSplits (.ofNat (document.storedFiles path)) splitCombinationDisabled =
          loadSplits (.ofNat files.length) splitCombinationDisabled

theorem countedAlike_iff {config : EngineConfig} :
    document.CountedAlike config.splitCombinationDisabled path ↔
      tasksOf config document.catalog path = tasksOf config document.store.fileCount? path := by
  unfold tasksOf CountedAlike
  rw [fileCount?_store]
  unfold catalog
  cases document.datasets.get? path <;> by_cases empty : document.storedFiles path = 0 <;>
    simp [empty, eq_comm]

theorem CountedAlike.of_datasets {other : StageDocument} {disabled : Bool}
    (alike : document.CountedAlike disabled path) (same : other.datasets = document.datasets) :
    other.CountedAlike disabled path := by
  unfold CountedAlike storedFiles storedPaths at alike ⊢
  rwa [same]

/-- A dataset with files that is apart from the others is counted alike. -/
theorem countedAlike_of_dataset {files : List (List Row)} (disabled : Bool)
    (isDataset : document.datasets.get? path = some files) (hasFiles : files ≠ [])
    (apart : ∀ other parts, document.datasets.get? other = some parts → other ≠ path →
      Apart other path) :
    document.CountedAlike disabled path := by
  unfold CountedAlike
  rw [isDataset, storedFiles_of_dataset isDataset apart]
  exact ⟨mt List.length_eq_zero_iff.mp hasFiles, rfl⟩

/-- A path that has nothing to do with any dataset is counted alike. -/
theorem countedAlike_of_apart (disabled : Bool)
    (apart : ∀ name files, document.datasets.get? name = some files → Apart name path) :
    document.CountedAlike disabled path := by
  have noDataset : document.datasets.get? path = none := by
    rw [Option.eq_none_iff_forall_not_mem]
    intro files isDataset
    exact (apart path files isDataset).1 (.refl path)
  unfold CountedAlike
  rw [noDataset]
  exact storedFiles_of_apart apart

/-- Settings given later change neither the graph nor the datasets of a plan. -/
theorem override_keeps {loaded : StageDocument} {overrides : List String}
    (accepted : document.override overrides = .ok loaded) :
    loaded.graph = document.graph ∧ loaded.datasets = document.datasets := by
  induction overrides generalizing document with
  | nil =>
      cases accepted
      exact ⟨rfl, rfl⟩
  | cons text overrides ih =>
      unfold override at accepted
      cases setting : splitSetting? text with
      | none =>
          rw [setting] at accepted
          exact nomatch accepted
      | some pair =>
          obtain ⟨key, value⟩ := pair
          rw [setting] at accepted
          have rest : (document.setProperty (Text.trim key) (Text.trim value)).override overrides =
              .ok loaded := accepted
          have kept := ih rest
          exact kept

/-- The optimized graph that a run of a plan executes, and what was decided. -/
def executedPlan (document : StageDocument) :
    Except CommandError (StageGraph × OptimizationReport) :=
  (document.graph.optimized document.store.fileCount? document.config).mapError .plan

/-- Run a graph on the datasets of a plan. -/
def runGraph (document : StageDocument) (graph : StageGraph) : Except CommandError RunOutcome :=
  match graph.run document.config document.store with
  | .ok outcome _ => .ok outcome
  | .error error _ => .error (.run error)

section Execution

variable {graph : StageGraph} {report : OptimizationReport} {outcome : RunOutcome}

theorem execute_eq (document : StageDocument) :
    document.execute =
      match document.graph.optimized document.store.fileCount? document.config with
      | .ok (graph, report) => (document.runGraph graph).map fun outcome => (graph, report, outcome)
      | .error error => .error (.run (.plan error)) := by
  unfold execute EStateM.run
  rw [optimizeAndRun_apply]
  cases document.graph.optimized document.store.fileCount? document.config with
  | error error => rfl
  | ok plan =>
      obtain ⟨graph, report⟩ := plan
      dsimp only
      unfold runGraph
      cases graph.run document.config document.store <;> rfl

theorem planHash_of_runGraph (ran : document.runGraph graph = .ok outcome) :
    outcome.planHash = graph.fingerprint := by
  unfold runGraph at ran
  split at ran
  case h_1 found after succeeded =>
    obtain rfl := Except.ok.inj ran
    obtain ⟨-, queue, jobs, -, -, rfl⟩ := StageGraph.run_unfold.mp succeeded
    rfl
  case h_2 => exact nomatch ran

theorem after_of_explain (explained : document.explain = .ok (graph, report)) :
    report.after = graph.fingerprint := by
  obtain ⟨annotated, count, -, ran⟩ := optimized_eq_ok.mp (mapError_eq_ok.mp explained)
  exact fingerprint_of_optimize ran

/-- What is explained is what is executed, if all datasets asked for are counted alike. -/
theorem explain_eq_executedPlan (alike : ∀ path, document.graph.AsksFor path →
      document.CountedAlike document.config.splitCombinationDisabled path) :
    document.explain = document.executedPlan := by
  have same : document.graph.SameTasks document.config document.catalog
      document.store.fileCount? :=
    fun path asks => countedAlike_iff.mp (alike path asks)
  unfold explain executedPlan
  rw [optimized_congr same]

theorem execute_of_failure {error : CommandError} (fails : document.executedPlan = .error error) :
    ∃ cause, error = .plan cause ∧ document.execute = .error (.run (.plan cause)) := by
  unfold executedPlan at fails
  rw [execute_eq]
  cases optimizes : document.graph.optimized document.store.fileCount? document.config with
  | ok plan =>
      rw [optimizes] at fails
      exact nomatch fails
  | error cause =>
      rw [optimizes] at fails
      exact ⟨cause, (Except.error.inj fails).symm, rfl⟩

theorem execute_of_executedPlan (planned : document.executedPlan = .ok (graph, report)) :
    document.execute = (document.runGraph graph).map fun outcome => (graph, report, outcome) := by
  rw [execute_eq, mapError_eq_ok.mp planned]

theorem executedPlan_of_execute (executed : document.execute = .ok (graph, report, outcome)) :
    document.executedPlan = .ok (graph, report) ∧ document.runGraph graph = .ok outcome := by
  rw [execute_eq] at executed
  unfold executedPlan
  cases optimizes : document.graph.optimized document.store.fileCount? document.config with
  | error error =>
      rw [optimizes] at executed
      exact nomatch executed
  | ok plan =>
      rw [optimizes] at executed
      obtain ⟨found, ran, same⟩ := map_eq_ok.mp executed
      obtain ⟨rfl, rest⟩ := Prod.mk.inj same
      obtain ⟨rfl, rfl⟩ := Prod.mk.inj rest
      exact ⟨rfl, ran⟩

end Execution

/-- The datasets that a run and an explanation count alike are exactly those for which all
plans that ask for nothing else are executed as explained. -/
theorem countedAlike_iff_explain_eq :
    document.CountedAlike document.config.splitCombinationDisabled path ↔
      ∀ graph : StageGraph, (∀ asked, graph.AsksFor asked → asked = path) →
        { document with graph := graph }.explain =
          { document with graph := graph }.executedPlan := by
  rw [countedAlike_iff, tasksOf_eq_iff]
  have injective : Function.Injective CommandError.plan := fun _ _ => CommandError.plan.inj
  exact forall₂_congr fun graph asksOnly => (mapError_inj injective).symm

end StageDocument

namespace Command

open StageDocument

/-- What a run does with the text of a plan that has been explained: it runs the explained
graph on the datasets of the plan. -/
theorem perform_run_of_explain {text : Option String} {overrides : List String} {asJson : Bool}
    {config : EngineConfig} {graph : StageGraph} {report : OptimizationReport}
    (explained : (explain asJson overrides).perform text =
      .ok (.explained asJson config graph report))
    (alike : ∀ document, (run overrides).load text = .ok document →
      ∀ path, document.graph.AsksFor path →
        document.CountedAlike config.splitCombinationDisabled path) :
    ∃ document, (run overrides).load text = .ok document ∧ document.config = config ∧
      (run overrides).perform text = (document.runGraph graph).map .executed := by
  obtain ⟨document, loaded, rest⟩ := bind_eq_ok.mp explained
  obtain ⟨plan, explains, same⟩ := bind_eq_ok.mp rest
  cases same
  refine ⟨document, loaded, rfl, ?_⟩
  have planned := (explain_eq_executedPlan (alike document loaded)).symm.trans explains
  have sameLoad : (run overrides).load text = .ok document := loaded
  unfold perform
  rw [sameLoad]
  show (document.execute >>= fun executed => pure (CommandResult.executed executed.2.2)) = _
  rw [execute_of_executedPlan planned]
  cases document.runGraph plan.1 <;> rfl

end Command

namespace StageDocument

/-- A run executes the plan that is explained, whatever settings are given with the
command, if the datasets that the plan asks for are counted alike.  Where nothing can be
explained, nothing is executed, for the same reason, and the plan hash of a run is the
fingerprint after optimization. -/
theorem executes_explained {document loaded : StageDocument} {overrides : List String}
    (accepted : document.override overrides = .ok loaded)
    (alike : ∀ path, document.graph.AsksFor path →
      document.CountedAlike loaded.config.splitCombinationDisabled path) :
    (∀ error, loaded.explain = .error error →
        ∃ cause, error = .plan cause ∧ loaded.execute = .error (.run (.plan cause))) ∧
      (∀ graph report, loaded.explain = .ok (graph, report) →
        loaded.execute = (loaded.runGraph graph).map fun outcome => (graph, report, outcome)) ∧
      ∀ graph report outcome, loaded.execute = .ok (graph, report, outcome) →
        loaded.explain = .ok (graph, report) ∧ outcome.planHash = report.after := by
  obtain ⟨sameGraph, sameDatasets⟩ := override_keeps accepted
  have planned : loaded.explain = loaded.executedPlan := by
    apply explain_eq_executedPlan
    intro path asks
    rw [sameGraph] at asks
    exact (alike path asks).of_datasets sameDatasets
  rw [planned]
  refine ⟨fun _ => execute_of_failure, fun _ _ => execute_of_executedPlan, ?_⟩
  intro graph report outcome executed
  obtain ⟨isPlan, ran⟩ := executedPlan_of_execute executed
  have after := after_of_explain (planned.trans isPlan)
  exact ⟨isPlan, (planHash_of_runGraph ran).trans after.symm⟩

end StageDocument

/-- The dataset that an operation loads. -/
def Operation.dataset? : Operation → Option String
  | load (.dataset path) => some path
  | _ => none

namespace StageGraph

/-- The graph that joins sales with regions, with other file counts. -/
def countedGraph (regions sales : FileCount) : StageGraph :=
  ⟨(OrderedMap.insert ∅ ⟨0⟩ (regionsStage.withOutputFiles regions)).insert ⟨1⟩
    (salesStage.withOutputFiles sales), OrderedSet.insert ∅ ⟨⟨0⟩, ⟨1⟩⟩, 2⟩

section CountedGraph

variable {regions sales : FileCount}

theorem order_countedGraph : (countedGraph regions sales).order = .ok [⟨0⟩, ⟨1⟩] := by
  cbv

theorem stagesInOrder_countedGraph : (countedGraph regions sales).stagesInOrder =
    .ok [regionsStage.withOutputFiles regions, salesStage.withOutputFiles sales] := by
  rw [stagesInOrder, order_countedGraph]
  rfl

theorem stageIds_optimize_countedGraph :
    (stateOf (optimize repairing (countedGraph regions sales))).stageIds =
      ((countedGraph regions sales).afterJoinRepair repairing).stageIds := by
  obtain ⟨outcome, ran⟩ : ∃ outcome, Pass.accumulation.run repairing (countedGraph regions sales) =
      .ok outcome (countedGraph regions sales) := by
    rw [run_accumulation stagesInOrder_countedGraph]
    exact ⟨_, rfl⟩
  rw [optimize_of_order order_countedGraph, bind_apply, ran, afterJoinRepair]
  dsimp only
  rw [bind_apply]
  cases Pass.joinRepair.run repairing (countedGraph regions sales) <;> rfl

theorem afterJoinRepair_countedGraph (files : UInt32) :
    (countedGraph (.known files) sales).afterJoinRepair repairing = stateOf (Pass.repairSides []
      [⟨⟨1⟩, ⟨2⟩, 1, ⟨1⟩, if 1 < files then .concatenate ⟨0⟩ files
        else .skip (.withinThreshold files 1)⟩] (countedGraph (.known files) sales)) := by
  have decided : [regionsStage.withOutputFiles (.known files),
      salesStage.withOutputFiles sales].mapM
        (stageVerdicts (countedGraph (.known files) sales) repairing) =
        .ok [[], [⟨⟨1⟩, ⟨2⟩, 1, ⟨1⟩, if 1 < files then .concatenate ⟨0⟩ files
          else .skip (.withinThreshold files 1)⟩]] := rfl
  rw [afterJoinRepair, run_joinRepair stagesInOrder_countedGraph decided, bind_apply]
  simp only [List.flatten_cons, List.flatten_nil, List.nil_append, List.append_nil]
  generalize Pass.repairSides [] _ (countedGraph (.known files) sales) = repaired
  cases repaired <;> rfl

theorem asksFor_countedGraph {path : String} (asks : (countedGraph regions sales).AsksFor path) :
    path = "regions" ∨ path = "sales" := by
  obtain ⟨id, stage, found, -, -, -, operator, inPlan, isLoad, -⟩ := asks
  have ofStage : stage.plan = regionsPlan ∨ stage.plan = salesPlan := by
    unfold countedGraph stage? at found
    rw [OrderedMap.get?_insert, OrderedMap.get?_insert] at found
    split_ifs at found
    · exact .inr (Option.some.inj found ▸ rfl)
    · exact .inl (Option.some.inj found ▸ rfl)
    · exact nomatch found
  have inDatasets : path ∈ stage.plan.operators.filterMap fun operator =>
      operator.operation.dataset? :=
    List.mem_filterMap.mpr ⟨operator, inPlan, by rw [isLoad]; rfl⟩
  rcases ofStage with same | same <;> rw [same] at inDatasets
  · exact .inl (List.mem_singleton.mp inDatasets)
  · exact .inr (List.mem_singleton.mp inDatasets)

theorem restaged_countedGraph : salesGraph.Restaged (countedGraph regions sales) :=
  (((Annotated.refl salesGraph).modifyStage ⟨0⟩ regions).modifyStage ⟨1⟩ sales).restaged

theorem annotateOutputFiles_countedGraph {catalog : String → Option UInt32} {files : UInt32}
    (ofRegions : catalog "regions" = some files) (ofSales : catalog "sales" = some 2) :
    (countedGraph .unknown .unknown).annotateOutputFiles catalog repairing =
      .ok (countedGraph (.known files) (.known 2), 2) := by
  have same : (countedGraph .unknown .unknown).SameTasks repairing catalog
      fun path => if path = "regions" then some files else some 2 := by
    intro path asks
    unfold tasksOf
    rcases asksFor_countedGraph asks with rfl | rfl
    · rw [ofRegions]
      rfl
    · rw [ofSales]
      rfl
  rw [annotateOutputFiles_congr same]
  refine annotateOutputFiles_eq_ok.mpr ⟨_, order_countedGraph, ?_⟩
  exact congrArg (fun files => (countedGraph (.known files) (.known 2), 2)) (ofNat_sum_toNat files)

theorem optimize_countedGraph {files : UInt32} {ids : List StageId}
    (isIds : ((countedGraph (.known files) sales).afterJoinRepair repairing).stageIds = ids)
    (room : ∀ id ∈ ids, id.value.toNat + 1 < UInt64.size) :
    ∃ report after, optimize repairing (countedGraph (.known files) sales) = .ok report after ∧
      after.stageIds = ids := by
  rw [← stageIds_optimize_countedGraph] at isIds
  have hasRoom : HasRoom (stateOf (optimize repairing (countedGraph (.known files) sales))) := by
    unfold HasRoom
    rwa [isIds]
  obtain ⟨report, -, -, after, ran, -⟩ := exists_optimized
    (restaged_countedGraph.built built_salesGraph)
    (restaged_countedGraph.valid built_salesGraph valid_salesGraph) hasRoom
  rw [ran] at isIds
  exact ⟨report, after, ran, isIds⟩

end CountedGraph

end StageGraph

namespace StageDocument

open FileStore StageGraph

section JoinDocument

/-- A plan that joins sales with regions, on some datasets. -/
def joinDocument (datasets : OrderedMap String (List (List Row))) : StageDocument :=
  ⟨countedGraph .unknown .unknown, OrderedMap.insert ∅ "merge-files-threshold" "1", datasets⟩

/-- The plan with every file as a split of its own. -/
def splitDocument (datasets : OrderedMap String (List (List Row))) : StageDocument :=
  (joinDocument datasets).setProperty "disable-split-combination" "true"

theorem override_joinDocument (datasets : OrderedMap String (List (List Row))) :
    (joinDocument datasets).override ["disable-split-combination = true"] =
      .ok (splitDocument datasets) :=
  rfl

theorem optimized_splitDocument (datasets : OrderedMap String (List (List Row)))
    {catalog : String → Option UInt32} {files : UInt32} {ids : List StageId}
    (ofRegions : catalog "regions" = some files) (ofSales : catalog "sales" = some 2)
    (isIds : ((countedGraph (.known files) (.known 2)).afterJoinRepair repairing).stageIds = ids)
    (room : ∀ id ∈ ids, id.value.toNat + 1 < UInt64.size) :
    ∃ graph report, (splitDocument datasets).graph.optimized catalog
        (splitDocument datasets).config = .ok (graph, report) ∧ graph.stageIds = ids := by
  obtain ⟨report, after, ran, areIds⟩ := optimize_countedGraph isIds room
  exact ⟨after, report, optimized_eq_ok.mpr
    ⟨_, _, annotateOutputFiles_countedGraph ofRegions ofSales, ran⟩, areIds⟩

/-- Two files of sales. -/
def salesFiles : List (List Row) :=
  [[[.int 1, .int 5]], [[.int 2, .int 7]]]

/-- Three files of regions beside the sales. -/
def plainDatasets : OrderedMap String (List (List Row)) :=
  (OrderedMap.insert ∅ "regions"
    [[[.int 1, .int 10]], [[.int 2, .int 20]], [[.int 3, .int 30]]]).insert "sales" salesFiles

/-- One file of regions beside the sales, and two files of another dataset under it. -/
def nestedDatasets : OrderedMap String (List (List Row)) :=
  ((OrderedMap.insert ∅ "regions" [[[.int 1, .int 10]]]).insert "regions/old"
    [[[.int 2, .int 20]], [[.int 3, .int 30]]]).insert "sales" salesFiles

theorem countedAlike_plainDatasets (path : String)
    (asks : (joinDocument plainDatasets).graph.AsksFor path) :
    (joinDocument plainDatasets).CountedAlike true path := by
  have apart : ∀ other parts, plainDatasets.get? other = some parts →
      ∀ name ∈ plainDatasets.keys, other ≠ name → Apart other name := by
    intro other parts isDataset
    have listed : other ∈ plainDatasets.keys := OrderedMap.mem_keys_iff.mpr ⟨parts, isDataset⟩
    clear isDataset
    revert other
    decide
  rcases asksFor_countedGraph asks with rfl | rfl
  · exact countedAlike_of_dataset true (rfl : plainDatasets.get? "regions" = some _)
      (List.cons_ne_nil _ _) fun other parts isDataset => apart other parts isDataset _ (by decide)
  · exact countedAlike_of_dataset true (rfl : plainDatasets.get? "sales" = some salesFiles)
      (List.cons_ne_nil _ _) fun other parts isDataset => apart other parts isDataset _ (by decide)

/-- Three files of regions are more than the threshold of one, so a stage is inserted. -/
theorem stageIds_threeFiles :
    ((countedGraph (.known 3) (.known 2)).afterJoinRepair repairing).stageIds =
      [⟨0⟩, ⟨1⟩, ⟨2⟩] := by
  rw [afterJoinRepair_countedGraph]
  decide +kernel

theorem stageIds_oneFile :
    ((countedGraph (.known 1) (.known 2)).afterJoinRepair repairing).stageIds = [⟨0⟩, ⟨1⟩] := by
  rw [afterJoinRepair_countedGraph]
  decide +kernel

theorem executes_explained_plainDatasets :
    (joinDocument plainDatasets).override ["disable-split-combination = true"] =
        .ok (splitDocument plainDatasets) ∧
      (∀ path, (joinDocument plainDatasets).graph.AsksFor path →
        (joinDocument plainDatasets).CountedAlike true path) ∧
      ∃ graph report, (splitDocument plainDatasets).explain = .ok (graph, report) ∧
        graph.stageIds = [⟨0⟩, ⟨1⟩, ⟨2⟩] ∧
          (splitDocument plainDatasets).execute =
            ((splitDocument plainDatasets).runGraph graph).map fun outcome =>
              (graph, report, outcome) := by
  obtain ⟨graph, report, ran, ids⟩ := optimized_splitDocument plainDatasets
    (rfl : (splitDocument plainDatasets).catalog "regions" = some 3) rfl stageIds_threeFiles
    (by decide)
  have explained : (splitDocument plainDatasets).explain = .ok (graph, report) :=
    mapError_eq_ok.mpr ran
  exact ⟨override_joinDocument _, countedAlike_plainDatasets, graph, report, explained, ids,
    (executes_explained (override_joinDocument _) countedAlike_plainDatasets).2.1 graph report
      explained⟩

/-- A dataset under another one is counted by a run only: it concatenates the regions, which
the plan explained does not. -/
theorem concatenation_not_explained :
    ∃ loaded explained executed before after,
      (joinDocument nestedDatasets).override ["disable-split-combination = true"] = .ok loaded ∧
        loaded.explain = .ok (explained, before) ∧ explained.stageIds = [⟨0⟩, ⟨1⟩] ∧
          loaded.execute = ((loaded.runGraph executed).map fun outcome =>
            (executed, after, outcome)) ∧ executed.stageIds = [⟨0⟩, ⟨1⟩, ⟨2⟩] := by
  obtain ⟨explained, before, explains, twoStages⟩ :=
    optimized_splitDocument nestedDatasets
      (rfl : (splitDocument nestedDatasets).catalog "regions" = some 1) rfl stageIds_oneFile
      (by decide)
  have storedRegions : (splitDocument nestedDatasets).store.fileCount? "regions" = some 3 := by
    decide +kernel
  have storedSales : (splitDocument nestedDatasets).store.fileCount? "sales" = some 2 := by
    decide +kernel
  obtain ⟨executed, after, executes, threeStages⟩ :=
    optimized_splitDocument nestedDatasets storedRegions storedSales
      stageIds_threeFiles (by decide)
  exact ⟨_, explained, executed, before, after, override_joinDocument _,
    mapError_eq_ok.mpr explains, twoStages, execute_of_executedPlan (mapError_eq_ok.mpr executes),
    threeStages⟩

end JoinDocument

end StageDocument

end BatchFlow
