import BatchFlow.Proofs.Document.DefinedStages
import Mathlib.Data.List.Perm.Basic

/-!
# The order of definitions

A stage may be defined after the stages that wait for it, and an operator after those that
read it.  Definitions that differ in the order of their stages, and of the operators of each
stage, describe the same plan, if they describe one at all.
-/

namespace BatchFlow

namespace StageDefinition

/-- Two definitions of a stage that differ in the order of the operators. -/
structure Reorders (first second : StageDefinition) : Prop where
  id : first.id = second.id
  after : first.after = second.after
  kind : first.kind = second.kind
  info : first.info = second.info
  operators : first.operators.Perm second.operators

/-- What a definition says about a stage: its operators are those defined. -/
structure Describes (definition : StageDefinition) (stage : Stage) : Prop where
  id : stage.id = definition.id
  kind : stage.kind = definition.kind
  info : stage.info = definition.info
  operatorIds : stage.plan.operatorMap.keys.Perm (definition.operators.map OperatorDefinition.id)
  operators : ∀ operator ∈ definition.operators,
    ∃ made, stage.plan.get? operator.id = some made ∧ operator.Defines made

variable {first second definition : StageDefinition} {plan : SubPlan} {stage : Stage}

namespace Reorders

theorem symm (reorders : first.Reorders second) : second.Reorders first where
  id := reorders.id.symm
  after := reorders.after.symm
  kind := reorders.kind.symm
  info := reorders.info.symm
  operators := reorders.operators.symm

theorem dependsOn_iff (reorders : first.Reorders second) {earlier : StageId} :
    first.DependsOn earlier ↔ second.DependsOn earlier := by
  simp only [DependsOn, reorders.after, reorders.operators.mem_iff]

/-- Operators in another order make the same plan. -/
theorem plan_eq (reorders : first.Reorders second) (isPlan : first.plan = .ok plan) :
    second.plan = .ok plan := by
  obtain ⟨operators, defines, nodup, rfl⟩ := plan_eq_ok.mp isPlan
  obtain ⟨others, definesOthers, perm⟩ :=
    List.perm_comp_forall₂ reorders.operators.symm defines
  have nodupOthers := (perm.map Operator.id).nodup_iff.mpr nodup
  exact plan_eq_ok.mpr
    ⟨others, definesOthers, nodupOthers, (SubPlan.ofOperators_eq_of_perm perm nodupOthers).symm⟩

theorem defines (reorders : first.Reorders second) (defines : first.Defines stage) :
    second.Defines stage where
  id := defines.id.trans reorders.id
  kind := defines.kind.trans reorders.kind
  info := defines.info.trans reorders.info
  plan := reorders.plan_eq defines.plan

end Reorders

theorem map_id_of_defines {operators : List Operator}
    (defines : List.Forall₂ OperatorDefinition.Defines definition.operators operators) :
    operators.map Operator.id = definition.operators.map OperatorDefinition.id := by
  rw [← List.forall₂_eq_eq_eq, List.forall₂_map_left_iff, List.forall₂_map_right_iff]
  exact (defines.imp fun _ _ defines => defines.id_eq).flip

theorem exists_plan_iff :
    (∃ plan, definition.plan = .ok plan) ↔
      (definition.operators.map OperatorDefinition.id).Nodup ∧
        ∀ operator ∈ definition.operators, operator.step.HasOneSource := by
  simp only [plan_eq_ok, ← OperatorDefinition.exists_defines_iff]
  rw [← Results.exists_forall₂_iff]
  constructor
  · rintro ⟨-, operators, defines, nodup, rfl⟩
    exact ⟨map_id_of_defines defines ▸ nodup, operators, defines⟩
  · rintro ⟨nodup, operators, defines⟩
    exact ⟨_, operators, defines, (map_id_of_defines defines).symm ▸ nodup, rfl⟩

theorem forall₂_defines {definitions others : List StageDefinition} {stages : List Stage}
    (paired : List.Forall₂ Reorders definitions others)
    (defines : List.Forall₂ Defines definitions stages) : List.Forall₂ Defines others stages := by
  induction paired generalizing stages with
  | nil =>
      cases defines
      exact .nil
  | cons reorders _ ih =>
      cases defines with
      | cons definesFirst definesRest =>
          exact .cons (reorders.defines definesFirst) (ih definesRest)

theorem Defines.describes (defines : definition.Defines stage) : definition.Describes stage := by
  obtain ⟨operators, definesAll, nodup, isPlan⟩ := plan_eq_ok.mp defines.plan
  refine ⟨defines.id, defines.kind, defines.info, ?_, fun operator member => ?_⟩
  · rw [isPlan, ← map_id_of_defines definesAll]
    exact OrderedMap.keys_keyed_perm nodup
  · obtain ⟨made, inPlan, definesMade⟩ := exists_mem_of_forall₂ definesAll member
    refine ⟨made, ?_, definesMade⟩
    rw [isPlan]
    exact (SubPlan.get?_ofOperators nodup).mpr ⟨inPlan, definesMade.id_eq⟩

end StageDefinition

namespace PlanDefinition

/-- Two definitions that differ in the order of the stages and of the operators of each. -/
structure Reorders (first second : PlanDefinition) : Prop where
  settings : first.settings = second.settings
  datasets : first.datasets = second.datasets
  stages : ∃ between, List.Forall₂ StageDefinition.Reorders first.stages between ∧
    between.Perm second.stages

/-- There is something to do, the settings have texts, no identifier is given twice, every
load has one source, and stages wait for other stages of the plan only. -/
structure WellFormed (definition : PlanDefinition) : Prop where
  nonempty : definition.stages ≠ []
  settings : ∀ entry ∈ definition.settings.entries, ∃ text, entry.2.settingText? = some text
  stageIds : definition.stageIds.Nodup
  operatorIds : ∀ stage ∈ definition.stages,
    (stage.operators.map OperatorDefinition.id).Nodup
  sources : ∀ stage ∈ definition.stages, ∀ operator ∈ stage.operators,
    operator.step.HasOneSource
  dependencies : ∀ stage ∈ definition.stages, ∀ earlier, stage.DependsOn earlier →
    earlier ∈ definition.stageIds ∧ earlier ≠ stage.id

/-- What a definition says about a graph: its stages are those defined, and one waits for
another exactly if its definition says so. -/
structure Describes (definition : PlanDefinition) (graph : StageGraph) : Prop where
  stageIds : graph.stageIds.Perm definition.stageIds
  stages : ∀ stage ∈ definition.stages,
    ∃ made, graph.stage? stage.id = some made ∧ stage.Describes made
  edges : ∀ edge, edge ∈ graph.edges.elements ↔
    ∃ stage ∈ definition.stages, edge.later = stage.id ∧ stage.DependsOn edge.earlier
  ends : ∀ edge ∈ graph.edges.elements, edge.earlier ≠ edge.later ∧
    (∃ stage, graph.stage? edge.earlier = some stage) ∧
      ∃ stage, graph.stage? edge.later = some stage

variable {first second definition : PlanDefinition} {graph : StageGraph} {stages : List Stage}

namespace Reorders

theorem symm (reorders : first.Reorders second) : second.Reorders first where
  settings := reorders.settings.symm
  datasets := reorders.datasets.symm
  stages := by
    obtain ⟨between, paired, perm⟩ := reorders.stages
    have flipped : List.Forall₂ StageDefinition.Reorders between first.stages :=
      (paired.imp fun _ _ reorders => reorders.symm).flip
    exact List.perm_comp_forall₂ perm.symm flipped

theorem stageIds_perm (reorders : first.Reorders second) :
    first.stageIds.Perm second.stageIds := by
  obtain ⟨between, paired, perm⟩ := reorders.stages
  have same : first.stageIds = between.map StageDefinition.id := by
    rw [stageIds, ← List.forall₂_eq_eq_eq, List.forall₂_map_left_iff, List.forall₂_map_right_iff]
    exact paired.imp fun _ _ reorders => reorders.id
  exact same ▸ perm.map StageDefinition.id

theorem hasEdge (reorders : first.Reorders second) {edge : Edge} (hasEdge : first.HasEdge edge) :
    second.HasEdge edge := by
  obtain ⟨between, paired, perm⟩ := reorders.stages
  obtain ⟨stage, member, isLater, depends⟩ := hasEdge
  obtain ⟨other, inBetween, reordersStage⟩ := exists_mem_of_forall₂ paired member
  exact ⟨other, perm.mem_iff.mp inBetween, isLater.trans reordersStage.id,
    reordersStage.dependsOn_iff.mp depends⟩

theorem hasEdge_iff (reorders : first.Reorders second) {edge : Edge} :
    first.HasEdge edge ↔ second.HasEdge edge :=
  ⟨reorders.hasEdge, reorders.symm.hasEdge⟩

/-- Stages in another order make the same graph. -/
theorem graph_eq (reorders : first.Reorders second) (isGraph : first.graph = .ok graph) :
    second.graph = .ok graph := by
  obtain ⟨stages, makes⟩ := graph_eq_ok.mp isGraph
  obtain ⟨between, paired, perm⟩ := reorders.stages
  have defines := StageDefinition.forall₂_defines paired makes.defines
  obtain ⟨others, definesOthers, permOthers⟩ := List.perm_comp_forall₂ perm.symm defines
  have nodupOthers := (permOthers.map Stage.id).nodup_iff.mpr makes.nodup
  refine graph_eq_ok.mpr ⟨others, definesOthers, nodupOthers, fun edge hasEdge => ?_, ?_, ?_, ?_⟩
  · obtain ⟨isEarlier, different⟩ := makes.ends edge (reorders.hasEdge_iff.mpr hasEdge)
    exact ⟨reorders.stageIds_perm.mem_iff.mp isEarlier, different⟩
  · rw [makes.stageMap, OrderedMap.keyed_eq_of_perm permOthers nodupOthers]
  · rw [makes.nextId, wordAbove_eq_of_perm (permOthers.map fun stage => stage.id.value)]
  · exact fun edge => (makes.edges edge).trans reorders.hasEdge_iff

end Reorders

theorem document_eq_ok {document : StageDocument} :
    definition.document = .ok document ↔ definition.stages ≠ [] ∧
      definition.graph = .ok document.graph ∧ definition.properties = .ok document.properties ∧
      definition.datasets = document.datasets := by
  rw [PlanDefinition.document]
  cases definition.stages with
  | nil => exact iff_of_false nofun fun parts => parts.1 rfl
  | cons first rest =>
      simp only [List.isEmpty_cons, Bool.false_eq_true, if_false, Results.bind_eq_ok,
        Results.pure_eq_ok]
      constructor
      · rintro ⟨graph, isGraph, properties, areProperties, rfl⟩
        exact ⟨List.cons_ne_nil _ _, isGraph, areProperties, rfl⟩
      · rintro ⟨-, isGraph, areProperties, areDatasets⟩
        exact ⟨_, isGraph, _, areProperties, by rw [areDatasets]⟩

theorem Reorders.document_eq (reorders : first.Reorders second) {document : StageDocument}
    (isDocument : first.document = .ok document) : second.document = .ok document := by
  obtain ⟨nonempty, isGraph, areProperties, areDatasets⟩ := document_eq_ok.mp isDocument
  refine document_eq_ok.mpr ⟨?_, reorders.graph_eq isGraph, ?_, ?_⟩
  · have sameLength := reorders.stageIds_perm.length_eq
    rw [stageIds, stageIds, List.length_map, List.length_map] at sameLength
    exact fun none => nonempty (List.length_eq_zero_iff.mp (by rw [sameLength, none]; rfl))
  · rw [← areProperties, properties, properties, reorders.settings]
  · rw [← areDatasets, reorders.datasets]

theorem exists_properties_iff :
    (∃ properties, definition.properties = .ok properties) ↔
      ∀ entry ∈ definition.settings.entries, ∃ text, entry.2.settingText? = some text := by
  have ofEntry (entry : String × Yaml.Value) :
      (∃ text, (settingText entry.2).map (entry.1, ·) = .ok text) ↔
        ∃ text, entry.2.settingText? = some text := by
    rw [settingText]
    cases entry.2.settingText? <;> simp [Except.map]
  simp only [← ofEntry, ← Results.exists_mapM_iff]
  simp only [properties, Results.bind_eq_ok, Results.pure_eq_ok]
  constructor
  · rintro ⟨-, entries, areEntries, -⟩
    exact ⟨entries, areEntries⟩
  · rintro ⟨entries, areEntries⟩
    exact ⟨_, entries, areEntries, rfl⟩

theorem exists_defines_iff :
    (∃ stages, List.Forall₂ StageDefinition.Defines definition.stages stages) ↔
      ∀ stage ∈ definition.stages, ∃ plan, stage.plan = .ok plan := by
  rw [Results.exists_forall₂_iff]
  refine forall₂_congr fun stage _ => ⟨?_, ?_⟩
  · rintro ⟨made, defines⟩
    exact ⟨made.plan, defines.plan⟩
  · rintro ⟨plan, isPlan⟩
    exact ⟨⟨stage.id, stage.kind, plan, stage.info⟩, rfl, rfl, rfl, isPlan⟩

theorem exists_graph_iff :
    (∃ graph, definition.graph = .ok graph) ↔
      definition.stageIds.Nodup ∧
        (∀ stage ∈ definition.stages, ∃ plan, stage.plan = .ok plan) ∧
        ∀ edge, definition.HasEdge edge →
          edge.earlier ∈ definition.stageIds ∧ edge.earlier ≠ edge.later := by
  simp only [graph_eq_ok, ← exists_defines_iff]
  constructor
  · rintro ⟨graph, stages, makes⟩
    exact ⟨map_id_eq makes.defines ▸ makes.nodup, ⟨stages, makes.defines⟩, makes.ends⟩
  · rintro ⟨nodup, ⟨stages, defines⟩, ends⟩
    obtain ⟨made, makes, rfl⟩ := exists_made defines
    refine ⟨⟨.keyed Stage.id (made.map Prod.fst), .ofList (made.flatMap Prod.snd), _⟩, _, defines,
      (map_id_eq defines).symm ▸ nodup, ends, rfl, rfl, fun edge => ?_⟩
    exact OrderedSet.mem_ofList.trans (mem_flatMap_edges makes)

theorem exists_document_iff :
    (∃ document, definition.document = .ok document) ↔ definition.WellFormed := by
  have parts : (∃ document, definition.document = .ok document) ↔ definition.stages ≠ [] ∧
      (∃ graph, definition.graph = .ok graph) ∧
        ∃ properties, definition.properties = .ok properties := by
    simp only [document_eq_ok]
    constructor
    · rintro ⟨document, nonempty, isGraph, areProperties, -⟩
      exact ⟨nonempty, ⟨_, isGraph⟩, _, areProperties⟩
    · rintro ⟨nonempty, ⟨graph, isGraph⟩, properties, areProperties⟩
      exact ⟨⟨graph, properties, _⟩, nonempty, isGraph, areProperties, rfl⟩
  simp only [parts, exists_graph_iff, exists_properties_iff, StageDefinition.exists_plan_iff]
  constructor
  · rintro ⟨nonempty, ⟨stageIds, plans, ends⟩, settings⟩
    refine ⟨nonempty, settings, stageIds, fun stage member => (plans stage member).1,
      fun stage member => (plans stage member).2, fun stage member earlier depends => ?_⟩
    exact ends ⟨earlier, stage.id⟩ ⟨stage, member, rfl, depends⟩
  · intro wellFormed
    refine ⟨wellFormed.nonempty, ⟨wellFormed.stageIds, fun stage member =>
      ⟨wellFormed.operatorIds stage member, wellFormed.sources stage member⟩, ?_⟩,
      wellFormed.settings⟩
    rintro edge ⟨stage, member, isLater, depends⟩
    exact isLater ▸ wellFormed.dependencies stage member edge.earlier depends

theorem Makes.describes (makes : definition.Makes stages graph) : definition.Describes graph where
  stageIds := by
    rw [StageGraph.stageIds, makes.stageMap, ← map_id_eq makes.defines]
    exact OrderedMap.keys_keyed_perm makes.nodup
  stages stage member := by
    obtain ⟨made, isMade, defines⟩ := exists_mem_of_forall₂ makes.defines member
    refine ⟨made, ?_, defines.describes⟩
    rw [StageGraph.stage?, makes.stageMap, OrderedMap.get?_keyed makes.nodup]
    exact ⟨isMade, defines.id⟩
  edges := makes.edges
  ends edge member := by
    have hasEdge := (makes.edges edge).mp member
    obtain ⟨isEarlier, different⟩ := makes.ends edge hasEdge
    have exists_iff (id : StageId) :
        (∃ stage, graph.stage? id = some stage) ↔ id ∈ definition.stageIds :=
      exists_stage?_iff makes.defines makes.nodup makes.stageMap
    exact ⟨different, (exists_iff _).mpr isEarlier, (exists_iff _).mpr hasEdge.later_mem⟩

/-- Definitions in another order describe the same plan, or none.  They describe one exactly
if they are well-formed, and its graph then has one stage for every definition of a stage, with
one operator for every definition of an operator, and the edges that the definitions ask for. -/
theorem document_of_reorders (reorders : first.Reorders second) :
    (∀ document, first.document = .ok document ↔ second.document = .ok document) ∧
      ((∃ document, first.document = .ok document) ↔ first.WellFormed) ∧
      ∀ document, first.document = .ok document → first.Describes document.graph := by
  refine ⟨fun document => ⟨reorders.document_eq, reorders.symm.document_eq⟩,
    exists_document_iff, fun document isDocument => ?_⟩
  obtain ⟨-, isGraph, -⟩ := document_eq_ok.mp isDocument
  obtain ⟨stages, makes⟩ := graph_eq_ok.mp isGraph
  exact makes.describes

/-- The definitions of a stage that loads from another one and waits for a third one. -/
def reportStages : List StageDefinition :=
  [⟨⟨7⟩, [⟨3⟩], .ordinary, {}, [⟨⟨2⟩, [⟨1⟩], .other (.store "report")⟩,
      ⟨⟨1⟩, [], .load none (some ⟨5⟩)⟩]⟩,
    ⟨⟨5⟩, [], .ordinary, {}, [⟨⟨1⟩, [⟨0⟩], .other (.store "tmp")⟩,
      ⟨⟨0⟩, [], .load (some "sales") none⟩]⟩,
    ⟨⟨3⟩, [], .ordinary, {}, []⟩]

/-- The same stages in the order in which they complete. -/
def completionStages : List StageDefinition :=
  [⟨⟨3⟩, [], .ordinary, {}, []⟩,
    ⟨⟨5⟩, [], .ordinary, {}, [⟨⟨0⟩, [], .load (some "sales") none⟩,
      ⟨⟨1⟩, [⟨0⟩], .other (.store "tmp")⟩]⟩,
    ⟨⟨7⟩, [⟨3⟩], .ordinary, {}, [⟨⟨1⟩, [], .load none (some ⟨5⟩)⟩,
      ⟨⟨2⟩, [⟨1⟩], .other (.store "report")⟩]⟩]

theorem document_of_reorders_reportStages :
    PlanDefinition.Reorders ⟨∅, ∅, reportStages⟩ ⟨∅, ∅, completionStages⟩ ∧
      ∃ document, PlanDefinition.document ⟨∅, ∅, reportStages⟩ = .ok document ∧
        PlanDefinition.document ⟨∅, ∅, completionStages⟩ = .ok document ∧
        document.graph.stageIds.Perm [⟨7⟩, ⟨5⟩, ⟨3⟩] ∧
        document.graph.hasEdge ⟨5⟩ ⟨7⟩ = true := by
  have reorders : PlanDefinition.Reorders ⟨∅, ∅, reportStages⟩ ⟨∅, ∅, completionStages⟩ := by
    refine ⟨rfl, rfl, completionStages.reverse, ?_, List.reverse_perm _⟩
    exact .cons ⟨rfl, rfl, rfl, rfl, .swap ..⟩ (.cons ⟨rfl, rfl, rfl, rfl, .swap ..⟩
      (.cons ⟨rfl, rfl, rfl, rfl, .refl _⟩ .nil))
  obtain ⟨same, -, describes⟩ := document_of_reorders reorders
  obtain ⟨document, isDocument⟩ := Results.exists_of_isOk
    (show (PlanDefinition.document ⟨∅, ∅, reportStages⟩).isOk = true by decide)
  have described := describes document isDocument
  refine ⟨reorders, document, isDocument, (same document).mp isDocument, described.stageIds, ?_⟩
  refine StageGraph.hasEdge_iff.mpr ((described.edges _).mpr ?_)
  exact ⟨_, List.mem_cons_self, rfl, .inr ⟨⟨⟨1⟩, [], .load none (some ⟨5⟩)⟩, by simp, rfl⟩⟩

end PlanDefinition

end BatchFlow
