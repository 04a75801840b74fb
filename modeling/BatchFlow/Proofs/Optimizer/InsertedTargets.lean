import BatchFlow.Proofs.Number.Digits
import BatchFlow.Proofs.Optimizer.KeptValidity
import Mathlib.Data.List.Basic

/-!
# The targets of inserted stages

A concatenate stage stores under `tmp`, in a directory named after the edge it
stands on.  No two of these directories disturb each other, but nothing keeps a
graph from using `tmp`, or such a directory, itself.
-/

namespace BatchFlow

open FileStore JoinRepair Steps

section Names

/-- The name of a concatenate stage's directory within `tmp`. -/
def concatenateName (source join : StageId) : List Char :=
  "concat-".toList ++ Nat.toDigits 10 source.value.toNat ++
    '-' :: Nat.toDigits 10 join.value.toNat

theorem toList_concatenateTarget (source join : StageId) :
    (concatenateTarget source join).toList =
      "tmp".toList ++ '/' :: concatenateName source join := by
  unfold concatenateTarget concatenateName
  simp only [String.toList_append, Nat.toString_eq_repr, Nat.toList_repr]
  rw [List.append_assoc, List.append_assoc]
  rfl

theorem slash_not_mem_concatenateName (source join : StageId) :
    '/' ∉ concatenateName source join := by
  unfold concatenateName
  intro slash
  rw [List.mem_append, List.mem_append, List.mem_cons] at slash
  rcases slash with (inPrefix | inSource) | isDash | inJoin
  · exact absurd inPrefix (by decide)
  · exact absurd (isDigit_toDigits inSource) (by decide)
  · exact absurd isDash (by decide)
  · exact absurd (isDigit_toDigits inJoin) (by decide)

/-- Different edges lead to different targets. -/
theorem concatenateTarget_injective {source join source' join' : StageId}
    (same : concatenateTarget source join = concatenateTarget source' join') :
    source = source' ∧ join = join' := by
  have lists := congrArg String.toList same
  rw [toList_concatenateTarget, toList_concatenateTarget] at lists
  have names := (List.cons.inj (List.append_cancel_left lists)).2
  unfold concatenateName at names
  rw [List.append_assoc, List.append_assoc] at names
  have noDash (id : StageId) : '-' ∉ Nat.toDigits 10 id.value.toNat := fun dash =>
    absurd (isDigit_toDigits dash) (by decide)
  obtain ⟨sources, -, joins⟩ := (List.append_cons_inj_of_notMem (noDash source)
    (noDash join)).mp (List.append_cancel_left names)
  exact ⟨congrArg StageId.mk (toDigits_injective sources),
    congrArg StageId.mk (toDigits_injective joins)⟩

/-- Only `tmp` contains the target of a concatenate stage. -/
theorem within_concatenateTarget_iff {directory : String} {source join : StageId} :
    Within directory (concatenateTarget source join) ↔
      directory = "tmp" ∨ directory = concatenateTarget source join := by
  constructor
  · rintro (same | begins)
    · exact .inr same.symm
    · rw [beginsWith_iff, toList_concatenateTarget, String.toList_append] at begins
      obtain ⟨rest, same⟩ := begins
      rw [List.append_assoc] at same
      -- The target has one slash only, so the directory is what stands before it.
      have noSlash : '/' ∉ "tmp".toList := by decide
      have parts := (List.append_cons_inj_of_notMem noSlash
        (slash_not_mem_concatenateName source join)).mp same.symm
      exact .inl (String.toList_injective parts.1.symm)
  · rintro (rfl | rfl)
    · refine .inr (beginsWith_iff.mpr ?_)
      rw [toList_concatenateTarget, String.toList_append]
      exact ⟨concatenateName source join, by simp⟩
    · exact .refl _

theorem apart_concatenateTarget_iff {directory : String} {source join : StageId} :
    Apart (concatenateTarget source join) directory ↔
      directory ≠ "tmp" ∧ ¬ Within (concatenateTarget source join) directory := by
  rw [Apart, within_concatenateTarget_iff, not_or]
  constructor
  · rintro ⟨outside, notTmp, -⟩
    exact ⟨notTmp, outside⟩
  · rintro ⟨notTmp, outside⟩
    refine ⟨outside, notTmp, ?_⟩
    rintro rfl
    exact outside (.refl _)

theorem isPrefix_of_within_concatenateTarget {path : String} {source join : StageId}
    (within : Within (concatenateTarget source join) path) :
    "tmp/concat-".toList <+: path.toList := by
  have isPrefix : "tmp/concat-".toList <+: (concatenateTarget source join).toList := by
    unfold concatenateTarget
    rw [String.append_assoc, String.append_assoc, String.toList_append]
    exact List.prefix_append _ _
  rcases within with rfl | begins
  · exact isPrefix
  · rw [beginsWith_iff, String.toList_append] at begins
    exact isPrefix.trans ((List.prefix_append _ _).trans begins)

theorem concatenateTarget_ne_tmp (source join : StageId) :
    concatenateTarget source join ≠ "tmp" := by
  intro same
  have lists := congrArg String.toList same
  rw [toList_concatenateTarget] at lists
  exact absurd (congrArg List.length lists) (by simp)

theorem apart_concatenateTarget {source join source' join' : StageId}
    (different : (source, join) ≠ (source', join')) :
    Apart (concatenateTarget source join) (concatenateTarget source' join') := by
  refine apart_concatenateTarget_iff.mpr ⟨concatenateTarget_ne_tmp source' join', ?_⟩
  rw [within_concatenateTarget_iff, not_or]
  refine ⟨concatenateTarget_ne_tmp source join, fun same => different ?_⟩
  obtain ⟨rfl, rfl⟩ := concatenateTarget_injective same
  rfl

end Names

namespace SubPlan

variable {plan : SubPlan} {packages : List OpId} {path : String}

theorem targets_withFlags (plan : SubPlan) (flag : Bool) :
    (plan.withFlags flag).targets = plan.targets := by
  rw [targets, withFlags, operators_relabel, List.filterMap_map, targets]
  congr
  funext operator
  cases kind : operator.operation <;>
    simp [Operator.relabel, kind, Operation.withFlag, Operation.target?]

theorem targets_flagPackages : (plan.flagPackages packages).targets = plan.targets := by
  rw [← targets_withFlags _ false, withFlags_flagPackages, targets_withFlags]

end SubPlan

namespace StageGraph

variable {graph flagging after : StageGraph} {config : EngineConfig} {report : OptimizationReport}
  {inserted : Inserted} {source join concatenate id : StageId} {stage : Stage} {path : String}

/-- The targets of the stage under an identifier. -/
def targetsAt (graph : StageGraph) (id : StageId) : List String :=
  (graph.stage? id).elim [] fun stage => stage.plan.targets

theorem targetsAt_of_stage (found : graph.stage? id = some stage) :
    graph.targetsAt id = stage.plan.targets := by
  rw [targetsAt, found]
  rfl

theorem storeTargets_eq (graph : StageGraph) :
    graph.storeTargets = graph.stageIds.flatMap graph.targetsAt := by
  rw [storeTargets, stages, OrderedMap.values, stageIds, OrderedMap.keys, List.flatMap_map,
    List.flatMap_map]
  refine List.flatMap_congr fun entry member => ?_
  exact (targetsAt_of_stage (OrderedMap.get?_eq_some_iff.mpr member)).symm

theorem mem_loadedDatasets_iff :
    path ∈ graph.loadedDatasets ↔
      ∃ id stage, graph.stage? id = some stage ∧ stage.plan.LoadsDataset path := by
  constructor
  · intro member
    obtain ⟨stage, isStage, inPlan⟩ := List.mem_flatMap.mp member
    obtain ⟨id, found⟩ := OrderedMap.mem_values_iff.mp isStage
    obtain ⟨operator, isOperator, isLoad⟩ := List.mem_filterMap.mp inPlan
    exact ⟨id, stage, found, operator, isOperator, Operation.loadedDataset?_eq_some.mp isLoad⟩
  · rintro ⟨id, stage, found, loads⟩
    exact mem_loadedDatasets found loads

namespace Optimized

variable (optimized : graph.Optimized config report flagging inserted after)

include optimized

theorem targetsAt_stage (found : graph.stage? id = some stage) :
    after.targetsAt id = graph.targetsAt id := by
  obtain ⟨outcome, repaired⟩ := optimized.repaired
  obtain ⟨packages, isFlagged⟩ := optimized.flagged.exists_flagged found
  obtain ⟨other, isStage, repairedStage⟩ := repaired.kept id _ isFlagged
  rw [targetsAt_of_stage isStage, targetsAt_of_stage found, repairedStage.targets,
    SubPlan.targets_flagPackages]

theorem targetsAt_concatenate (member : ((source, join), concatenate) ∈ inserted) :
    after.targetsAt concatenate = [concatenateTarget source join] := by
  obtain ⟨outcome, repaired⟩ := optimized.repaired
  obtain ⟨info, isStage⟩ := repaired.concatenates source join concatenate member
  rw [targetsAt_of_stage isStage]
  rfl

/-- Optimization adds the targets of the concatenate stages. -/
theorem perm_storeTargets :
    after.storeTargets.Perm (graph.storeTargets ++
      inserted.map fun entry => concatenateTarget entry.1.1 entry.1.2) := by
  obtain ⟨outcome, repaired⟩ := optimized.repaired
  have stageIds := repaired.perm_stageIds
  rw [optimized.flagged.restaged.stageIds] at stageIds
  rw [storeTargets_eq, storeTargets_eq]
  refine (stageIds.flatMap_right _).trans (.of_eq ?_)
  have original : graph.stageIds.flatMap after.targetsAt =
      graph.stageIds.flatMap graph.targetsAt := by
    refine List.flatMap_congr fun id isId => ?_
    obtain ⟨stage, found⟩ := mem_stageIds.mp isId
    exact optimized.targetsAt_stage found
  have added : (inserted.map Prod.snd).flatMap after.targetsAt =
      inserted.map fun entry => concatenateTarget entry.1.1 entry.1.2 := by
    rw [List.flatMap_map, List.map_eq_flatMap]
    exact List.flatMap_congr fun entry member => optimized.targetsAt_concatenate member
  rw [List.flatMap_append, original, added]

/-- Optimization keeps the datasets that are loaded. -/
theorem mem_loadedDatasets_iff (built : graph.Built) :
    path ∈ after.loadedDatasets ↔ path ∈ graph.loadedDatasets := by
  obtain ⟨outcome, repaired⟩ := optimized.repaired
  have builtFlagging := optimized.built_flagging built
  rw [StageGraph.mem_loadedDatasets_iff, StageGraph.mem_loadedDatasets_iff]
  constructor
  · rintro ⟨id, other, isStage, loads⟩
    rcases repaired.stage_cases isStage with ⟨flags, found, -⟩ | ⟨source, join, _, -, rfl⟩
    · have loadsToo := (repaired.loadsDataset_iff builtFlagging found isStage).mp loads
      obtain ⟨stage, packages, original, rfl⟩ := optimized.flagged.exists_stage found
      exact ⟨id, stage, original, SubPlan.exists_load_flagPackages.mp loadsToo⟩
    · exact absurd loads not_loadsDataset_concatenatePlan
  · rintro ⟨id, stage, found, loads⟩
    obtain ⟨packages, isFlagged⟩ := optimized.flagged.exists_flagged found
    obtain ⟨other, isStage, -⟩ := repaired.kept id _ isFlagged
    exact ⟨id, other, isStage, (repaired.loadsDataset_iff builtFlagging isFlagged isStage).mpr
      (SubPlan.exists_load_flagPackages.mpr loads)⟩

theorem pairwise_insertedTargets :
    (inserted.map fun entry => concatenateTarget entry.1.1 entry.1.2).Pairwise Apart := by
  obtain ⟨outcome, repaired⟩ := optimized.repaired
  obtain ⟨entries, -, carriedOut, -⟩ := repaired.carriedOut
  rw [List.pairwise_map]
  exact (List.pairwise_map.mp carriedOut.once).imp fun different =>
    apart_concatenateTarget different

/-- The paths stay separate exactly if those of the graph are apart from the inserted targets. -/
theorem separatePaths_iff (built : graph.Built) (paths : graph.SeparatePaths) :
    after.SeparatePaths ↔ ∀ entry ∈ inserted, ∀ path ∈ graph.storeTargets ++ graph.loadedDatasets,
      Apart (concatenateTarget entry.1.1 entry.1.2) path := by
  have perm := optimized.perm_storeTargets
  rw [SeparatePaths, perm.pairwise_iff Apart.symm, List.pairwise_append]
  simp only [perm.mem_iff, optimized.mem_loadedDatasets_iff built]
  constructor
  · rintro ⟨⟨-, -, targets⟩, datasets⟩ entry member path isPath
    have isInserted : concatenateTarget entry.1.1 entry.1.2 ∈
        inserted.map fun entry => concatenateTarget entry.1.1 entry.1.2 :=
      List.mem_map_of_mem member
    rcases List.mem_append.mp isPath with isTarget | isDataset
    · exact (targets path isTarget _ isInserted).symm
    · exact datasets _ (List.mem_append_right _ isInserted) path isDataset
  · intro apart
    refine ⟨⟨paths.1, optimized.pairwise_insertedTargets, ?_⟩, ?_⟩
    · intro target isTarget other isInserted
      obtain ⟨entry, member, rfl⟩ := List.mem_map.mp isInserted
      exact (apart entry member target (List.mem_append_left _ isTarget)).symm
    · intro target isTarget path isDataset
      rcases List.mem_append.mp isTarget with isOld | isInserted
      · exact paths.2 target isOld path isDataset
      · obtain ⟨entry, member, rfl⟩ := List.mem_map.mp isInserted
        exact apart entry member path (List.mem_append_right _ isDataset)

end Optimized

/-- Optimization of a valid graph whose paths are separate keeps them separate, unless the graph
itself stores to or loads from `tmp`, the target of an inserted stage, or a directory within it.
Every stage inserted is a concatenate stage with such a target. -/
theorem separatePaths_optimize_iff (built : graph.Built)
    (valid : ∃ count, graph.validate = .ok count) (paths : graph.SeparatePaths)
    (config : EngineConfig) (room : HasRoom (stateOf (optimize config graph))) :
    ∃ report after, optimize config graph = .ok report after ∧
      (∀ id ∈ report.insertedStages, ∃ source join info, after.stage? id =
        some ⟨id, .concatenate, concatenatePlan source join, info⟩) ∧
      (after.SeparatePaths ↔ ∀ id ∈ report.insertedStages, ∀ stage, after.stage? id = some stage →
        ∀ target ∈ stage.plan.targets, ∀ path ∈ graph.storeTargets ++ graph.loadedDatasets,
          path ≠ "tmp" ∧ ¬ Within target path) := by
  obtain ⟨report, flagging, inserted, after, ran, optimized⟩ := exists_optimized built valid room
  obtain ⟨outcome, repaired⟩ := optimized.repaired
  have isConcatenate {source join id : StageId} (member : ((source, join), id) ∈ inserted) :=
    repaired.concatenates source join id member
  refine ⟨report, after, ran, fun id isInserted => ?_, ?_⟩
  · obtain ⟨⟨⟨source, join⟩, _⟩, member, rfl⟩ :=
      List.mem_map.mp ((optimized.insertedStages id).mp isInserted)
    exact ⟨source, join, isConcatenate member⟩
  rw [optimized.separatePaths_iff built paths]
  constructor
  · intro apart id isInserted stage isStage target isTarget path isPath
    obtain ⟨⟨⟨source, join⟩, _⟩, member, rfl⟩ :=
      List.mem_map.mp ((optimized.insertedStages id).mp isInserted)
    obtain ⟨info, isStageToo⟩ := isConcatenate member
    obtain rfl := Option.some.inj (isStage.symm.trans isStageToo)
    obtain rfl := List.mem_singleton.mp isTarget
    exact apart_concatenateTarget_iff.mp (apart _ member path isPath)
  · rintro outside ⟨⟨source, join⟩, id⟩ member path isPath
    obtain ⟨info, isStage⟩ := isConcatenate member
    have isInserted := (optimized.insertedStages id).mpr (List.mem_map_of_mem member)
    exact apart_concatenateTarget_iff.mpr
      (outside id isInserted _ isStage _ List.mem_cons_self path isPath)

theorem separatePaths_optimize_salesGraph :
    salesGraph.Built ∧ (∃ count, salesGraph.validate = .ok count) ∧ salesGraph.SeparatePaths ∧
      HasRoom (stateOf (optimize repairing salesGraph)) ∧
      ∃ report after, optimize repairing salesGraph = .ok report after ∧ after.SeparatePaths ∧
        after.stageIds = [⟨0⟩, ⟨1⟩, ⟨2⟩] := by
  have paths : salesGraph.SeparatePaths := by decide +kernel
  obtain ⟨report, after, ran, concatenates, separate⟩ := separatePaths_optimize_iff
    built_salesGraph valid_salesGraph paths repairing hasRoom_optimize_salesGraph
  refine ⟨built_salesGraph, valid_salesGraph, paths, hasRoom_optimize_salesGraph, report, after,
    ran, separate.mpr ?_, ?_⟩
  · intro id isInserted stage isStage target isTarget path isPath
    obtain ⟨source, join, info, isConcatenate⟩ := concatenates id isInserted
    obtain rfl := Option.some.inj (isStage.symm.trans isConcatenate)
    obtain rfl := List.mem_singleton.mp isTarget
    have areElsewhere : ∀ path ∈ salesGraph.storeTargets ++ salesGraph.loadedDatasets,
        path ≠ "tmp" ∧ ¬ "tmp/concat-".toList <+: path.toList := by decide +kernel
    exact (areElsewhere path isPath).imp_right (mt isPrefix_of_within_concatenateTarget)
  · rw [← stageIds_optimize_salesGraph, ran]
    rfl

/-- A stage that joins the rows of the dataset `tmp` with the output of the stage before. -/
def tmpStage : Stage :=
  ⟨⟨1⟩, .ordinary, (((SubPlan.empty.insert ⟨⟨0⟩, .load (.dataset "tmp"), []⟩).insert
    ⟨⟨1⟩, .load (.stage ⟨0⟩), []⟩).insert ⟨⟨2⟩, .join [0, 0] 0, [⟨0⟩, ⟨1⟩]⟩).insert
    ⟨⟨3⟩, .store "totals", [⟨2⟩]⟩, {}⟩

/-- A stage that writes two files of regions. -/
def middleStage : Stage :=
  ⟨⟨0⟩, .ordinary, (SubPlan.empty.insert ⟨⟨0⟩, .load (.dataset "regions"), []⟩).insert
    ⟨⟨1⟩, .store "mid", [⟨0⟩]⟩, { outputFiles := .known 2 }⟩

/-- The graph of the two stages. -/
def tmpGraph : StageGraph :=
  ⟨(OrderedMap.insert ∅ ⟨0⟩ middleStage).insert ⟨1⟩ tmpStage, OrderedSet.insert ∅ ⟨⟨0⟩, ⟨1⟩⟩, 2⟩

theorem built_tmpGraph : tmpGraph.Built := by
  have middleIds : middleStage.plan.OwnIds := (SubPlan.OwnIds.empty.insert _).insert _
  have tmpIds : tmpStage.plan.OwnIds :=
    (((SubPlan.OwnIds.empty.insert _).insert _).insert _).insert _
  have first :=
    Built.empty.addStage .ordinary { outputFiles := .known 2 } middleIds (by decide) rfl
  have second := first.addStage .ordinary {} tmpIds (by decide) rfl
  exact second.connect (by rfl : connect ⟨0⟩ ⟨1⟩ _ = .ok ⟨⟩ tmpGraph)

theorem order_tmpGraph : tmpGraph.order = .ok [⟨0⟩, ⟨1⟩] := by
  cbv

theorem valid_tmpGraph : ∃ count, tmpGraph.validate = .ok count := by
  rw [validate, order_tmpGraph]
  exact ⟨2, rfl⟩

theorem stateOf_optimize_tmpGraph :
    stateOf (optimize repairing tmpGraph) = stateOf (Pass.repairSides []
      [⟨⟨1⟩, ⟨2⟩, 1, ⟨1⟩, .concatenate ⟨0⟩ 2⟩] tmpGraph) := by
  have inOrder : tmpGraph.stagesInOrder = .ok [middleStage, tmpStage] := by
    rw [stagesInOrder, order_tmpGraph]
    rfl
  have decided : [middleStage, tmpStage].mapM (stageVerdicts tmpGraph repairing) =
      .ok [[], [⟨⟨1⟩, ⟨2⟩, 1, ⟨1⟩, .concatenate ⟨0⟩ 2⟩]] := rfl
  obtain ⟨outcome, ran⟩ : ∃ outcome, Pass.accumulation.run repairing tmpGraph =
      .ok outcome tmpGraph := by
    rw [run_accumulation inOrder]
    exact ⟨_, rfl⟩
  rw [optimize_of_order order_tmpGraph, bind_apply, ran]
  dsimp only
  rw [bind_apply, run_joinRepair inOrder decided]
  rfl

theorem hasRoom_optimize_tmpGraph : HasRoom (stateOf (optimize repairing tmpGraph)) := by
  rw [stateOf_optimize_tmpGraph]
  show ∀ id ∈ _, _
  decide +kernel

/-- The dataset `tmp` then holds what the concatenate stage stores. -/
theorem tmpGraph_loads_inserted_target :
    tmpGraph.Built ∧ (∃ count, tmpGraph.validate = .ok count) ∧ tmpGraph.SeparatePaths ∧
      HasRoom (stateOf (optimize repairing tmpGraph)) ∧
      ∃ report after, optimize repairing tmpGraph = .ok report after ∧ ¬ after.SeparatePaths := by
  obtain ⟨report, flagging, inserted, after, ran, -⟩ :=
    exists_optimized built_tmpGraph valid_tmpGraph hasRoom_optimize_tmpGraph
  have isAfter : after = stateOf (optimize repairing tmpGraph) := by rw [ran]; rfl
  refine ⟨built_tmpGraph, valid_tmpGraph, by decide +kernel, hasRoom_optimize_tmpGraph, report,
    after, ran, ?_⟩
  rw [isAfter, stateOf_optimize_tmpGraph]
  decide +kernel

end StageGraph

end BatchFlow
