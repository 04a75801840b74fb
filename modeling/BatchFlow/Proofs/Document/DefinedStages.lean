import BatchFlow.Document.Stages
import BatchFlow.Proofs.Graph.Building
import BatchFlow.Proofs.Results

/-!
# The stages of a definition

A definition is carried out one operator and one stage after the other.  That succeeds
exactly if every one of them can be made and no two have the same identifier, and the
result is then known by the stages that were made and by which edges they ask for.
-/

namespace BatchFlow

section Putting

variable {σ δ β κ ε : Type} {step : σ → δ → Except ε σ} (makes : δ → β → Prop) (key : β → κ)
  (free : σ → κ → Prop) (put : σ → β → σ)

/-- Making elements and putting them in one after the other succeeds exactly if each can
be made, and their keys are free and differ. -/
theorem foldlM_put_eq_ok
    (step_eq_ok : ∀ state definition next, step state definition = .ok next ↔
      ∃ made, makes definition made ∧ free state (key made) ∧ next = put state made)
    (free_put : ∀ state made other,
      free (put state made) other ↔ other ≠ key made ∧ free state other)
    {definitions : List δ} {start final : σ} :
    definitions.foldlM step start = .ok final ↔
      ∃ made, List.Forall₂ makes definitions made ∧ (made.map key).Nodup ∧
        (∀ other ∈ made.map key, free start other) ∧ final = made.foldl put start := by
  induction definitions generalizing start with
  | nil =>
      rw [List.foldlM_nil, Results.pure_eq_ok]
      constructor
      · rintro rfl
        exact ⟨[], .nil, .nil, nofun, rfl⟩
      · rintro ⟨made, none, -, -, rfl⟩
        cases none
        rfl
  | cons definition rest ih =>
      rw [List.foldlM_cons, Results.bind_eq_ok]
      constructor
      · rintro ⟨between, stepped, restStepped⟩
        obtain ⟨first, makesFirst, isFree, rfl⟩ := (step_eq_ok ..).mp stepped
        obtain ⟨made, makesRest, nodup, allFree, rfl⟩ := ih.mp restStepped
        have fresh (other : κ) (member : other ∈ made.map key) :=
          (free_put start first other).mp (allFree other member)
        refine ⟨first :: made, .cons makesFirst makesRest, ?_, ?_, rfl⟩
        · exact List.nodup_cons.mpr ⟨fun member => (fresh _ member).1 rfl, nodup⟩
        · exact List.forall_mem_cons.mpr ⟨isFree, fun other member => (fresh other member).2⟩
      · rintro ⟨made, makesAll, nodup, allFree, rfl⟩
        obtain ⟨first, made, makesFirst, makesRest, rfl⟩ :=
          List.forall₂_cons_left_iff.mp makesAll
        obtain ⟨fresh, nodupRest⟩ := List.nodup_cons.mp nodup
        obtain ⟨isFree, restFree⟩ := List.forall_mem_cons.mp allFree
        refine ⟨put start first, (step_eq_ok ..).mpr ⟨first, makesFirst, isFree, rfl⟩, ?_⟩
        refine ih.mpr ⟨made, makesRest, nodupRest, fun other member => ?_, rfl⟩
        refine (free_put start first other).mpr ⟨?_, restFree other member⟩
        rintro rfl
        exact fresh member

end Putting

namespace OrderedMap

variable {κ ν : Type}

theorem map_fst_keyed (key : ν → κ) (elements : List ν) :
    (elements.map fun element => (key element, element)).map Prod.fst = elements.map key := by
  rw [List.map_map]
  rfl

variable [Ord κ] [Std.TransOrd κ]

/-- The map of elements under keys of their own. -/
def keyed (key : ν → κ) (elements : List ν) : OrderedMap κ ν :=
  .ofList (elements.map fun element => (key element, element))

variable [Std.LawfulEqOrd κ] [DecidableEq κ] {key : ν → κ} {elements : List ν}

theorem get?_keyed (nodup : (elements.map key).Nodup) {id : κ} {element : ν} :
    (keyed key elements).get? id = some element ↔ element ∈ elements ∧ key element = id := by
  rw [keyed, get?_ofList (by rwa [map_fst_keyed]), List.mem_map]
  simp only [Prod.mk.injEq]
  constructor
  · rintro ⟨other, member, isKey, rfl⟩
    exact ⟨member, isKey⟩
  · rintro ⟨member, isKey⟩
    exact ⟨element, member, isKey, rfl⟩

theorem keys_keyed_perm (nodup : (elements.map key).Nodup) :
    (keyed key elements).keys.Perm (elements.map key) := by
  rw [← map_fst_keyed] at nodup ⊢
  exact keys_ofList_perm nodup

theorem keyed_eq_of_perm {other : List ν} (perm : elements.Perm other)
    (nodup : (elements.map key).Nodup) : keyed key elements = keyed key other :=
  ofList_eq_of_perm (perm.map _) (by rwa [map_fst_keyed])

end OrderedMap

/-- A word above the given ones, unless one of them is the greatest word. -/
def wordAbove (words : List UInt64) : UInt64 :=
  words.foldl (fun next word => max next (word + 1)) 0

theorem wordAbove_eq_of_perm {first second : List UInt64} (perm : first.Perm second) :
    wordAbove first = wordAbove second := by
  have toNat_max (first second : UInt64) :
      (max first second).toNat = max first.toNat second.toNat := by
    rw [UInt64.max_def]
    split <;> simp only [UInt64.le_iff_toNat_le] at * <;> omega
  refine perm.foldl_eq' (fun first _ second _ next => ?_) 0
  simp only [← UInt64.toNat_inj, toNat_max]
  omega

namespace StepDefinition

/-- The stage that a step loads from. -/
def source? : StepDefinition → Option StageId
  | .load _ stage => stage
  | .other operation => operation.loadedStage?

/-- A load names a dataset or a stage, and not both. -/
def HasOneSource : StepDefinition → Prop
  | .load dataset stage => dataset.isSome ≠ stage.isSome
  | .other _ => True

end StepDefinition

namespace OperatorDefinition

variable {definition : OperatorDefinition} {operator : Operator}

/-- The operator that a definition stands for. -/
inductive Defines : OperatorDefinition → Operator → Prop
  | dataset (id : OpId) (inputs : List OpId) (path : String) :
      Defines ⟨id, inputs, .load (some path) none⟩ ⟨id, .load (.dataset path), inputs⟩
  | stage (id : OpId) (inputs : List OpId) (source : StageId) :
      Defines ⟨id, inputs, .load none (some source)⟩ ⟨id, .load (.stage source), inputs⟩
  | other (id : OpId) (inputs : List OpId) (operation : Operation) :
      Defines ⟨id, inputs, .other operation⟩ ⟨id, operation, inputs⟩

theorem operator_eq_ok {stage : StageId} :
    definition.operator stage = .ok operator ↔ definition.Defines operator := by
  obtain ⟨id, inputs, step⟩ := definition
  constructor
  · intro made
    cases step with
    | other operation =>
        cases made
        exact .other id inputs operation
    | load dataset source =>
        cases dataset <;> cases source <;> cases made
        · exact .stage id inputs _
        · exact .dataset id inputs _
  · intro defines
    cases defines <;> rfl

namespace Defines

theorem id_eq (defines : definition.Defines operator) : operator.id = definition.id := by
  cases defines <;> rfl

theorem loadedStage?_eq (defines : definition.Defines operator) :
    operator.operation.loadedStage? = definition.step.source? := by
  cases defines <;> rfl

end Defines

theorem exists_defines_iff :
    (∃ operator, definition.Defines operator) ↔ definition.step.HasOneSource := by
  obtain ⟨id, inputs, step⟩ := definition
  constructor
  · rintro ⟨operator, defines⟩
    cases defines <;> simp [StepDefinition.HasOneSource]
  · intro oneSource
    cases step with
    | other operation => exact ⟨_, .other id inputs operation⟩
    | load dataset source =>
        cases dataset with
        | none =>
            cases source with
            | none => exact absurd rfl oneSource
            | some source => exact ⟨_, .stage id inputs source⟩
        | some path =>
            cases source with
            | none => exact ⟨_, .dataset id inputs path⟩
            | some source => exact absurd rfl oneSource

end OperatorDefinition

namespace SubPlan

/-- The plan of some operators. -/
def ofOperators (operators : List Operator) : SubPlan where
  operatorMap := .keyed Operator.id operators
  nextId := wordAbove (operators.map fun operator => operator.id.value)

theorem foldl_insert_empty (operators : List Operator) :
    operators.foldl insert .empty = .ofOperators operators := by
  have inserted (plan : SubPlan) : operators.foldl insert plan =
      ⟨(operators.map fun operator => (operator.id, operator)).foldl
          (fun map entry => map.insert entry.1 entry.2) plan.operatorMap,
        (operators.map fun operator => operator.id.value).foldl
          (fun next word => max next (word + 1)) plan.nextId⟩ := by
    induction operators generalizing plan with
    | nil => rfl
    | cons operator rest ih => exact ih (plan.insert operator)
  exact inserted .empty

theorem ofOperators_eq_of_perm {first second : List Operator} (perm : first.Perm second)
    (nodup : (first.map Operator.id).Nodup) : ofOperators first = ofOperators second :=
  (SubPlan.mk.injEq ..).mpr
    ⟨OrderedMap.keyed_eq_of_perm perm nodup, wordAbove_eq_of_perm (perm.map _)⟩

theorem get?_ofOperators {operators : List Operator} (nodup : (operators.map Operator.id).Nodup)
    {id : OpId} {operator : Operator} :
    (ofOperators operators).get? id = some operator ↔
      operator ∈ operators ∧ operator.id = id :=
  OrderedMap.get?_keyed nodup

theorem mem_stageInputs_ofOperators {operators : List Operator}
    (nodup : (operators.map Operator.id).Nodup) {source : StageId} :
    source ∈ (ofOperators operators).stageInputs.elements ↔
      ∃ operator ∈ operators, operator.operation.loadedStage? = some source := by
  rw [stageInputs, OrderedSet.mem_ofList, List.mem_filterMap]
  simp only [mem_operators, get?_ofOperators nodup, exists_and_left, exists_eq', and_true]

end SubPlan

namespace StageDefinition

variable {definition : StageDefinition} {plan : SubPlan}

theorem addOperator_eq_ok {stage : StageId} {next : SubPlan} {operator : OperatorDefinition} :
    addOperator stage plan operator = .ok next ↔
      ∃ made, operator.Defines made ∧ plan.get? made.id = none ∧ next = plan.insert made := by
  rw [addOperator]
  split
  case isTrue taken =>
    refine ⟨nofun, ?_⟩
    rintro ⟨made, defines, isFree, -⟩
    rw [← defines.id_eq, isFree] at taken
    cases taken
  case isFalse notTaken =>
    rw [Results.map_eq_ok]
    refine exists_congr fun made => ?_
    rw [OperatorDefinition.operator_eq_ok, eq_comm (b := next)]
    refine and_congr_right fun defines => (and_iff_right ?_).symm
    rw [defines.id_eq]
    exact Option.not_isSome_iff_eq_none.mp notTaken

/-- A plan is made exactly of operators with different identifiers, one for every
definition of an operator. -/
theorem plan_eq_ok :
    definition.plan = .ok plan ↔
      ∃ operators, List.Forall₂ OperatorDefinition.Defines definition.operators operators ∧
        (operators.map Operator.id).Nodup ∧ plan = .ofOperators operators := by
  have free_insert (plan : SubPlan) (made : Operator) (id : OpId) :
      (plan.insert made).get? id = none ↔ id ≠ made.id ∧ plan.get? id = none := by
    rw [SubPlan.get?, SubPlan.insert, OrderedMap.get?_insert]
    by_cases same : id = made.id <;> simp [same, SubPlan.get?]
  rw [StageDefinition.plan, foldlM_put_eq_ok OperatorDefinition.Defines Operator.id
    (fun plan id => plan.get? id = none) .insert (fun _ _ _ => addOperator_eq_ok) free_insert]
  refine exists_congr fun operators => and_congr_right fun _ => and_congr_right fun _ => ?_
  rw [SubPlan.foldl_insert_empty]
  exact and_iff_right fun _ _ => rfl

/-- The stage waits for the stages it names and for those its loads read. -/
def DependsOn (definition : StageDefinition) (earlier : StageId) : Prop :=
  earlier ∈ definition.after ∨
    ∃ operator ∈ definition.operators, operator.step.source? = some earlier

theorem mem_edges (isPlan : definition.plan = .ok plan) {edge : Edge} :
    edge ∈ definition.edges plan ↔
      edge.later = definition.id ∧ definition.DependsOn edge.earlier := by
  obtain ⟨operators, defines, nodup, rfl⟩ := plan_eq_ok.mp isPlan
  have isLoaded : edge.earlier ∈ (SubPlan.ofOperators operators).stageInputs.elements ↔
      ∃ operator ∈ definition.operators, operator.step.source? = some edge.earlier := by
    rw [SubPlan.mem_stageInputs_ofOperators nodup]
    constructor
    · rintro ⟨operator, member, loads⟩
      obtain ⟨source, inDefinition, defined⟩ := exists_mem_of_forall₂ defines.flip member
      exact ⟨source, inDefinition, defined.loadedStage?_eq ▸ loads⟩
    · rintro ⟨source, inDefinition, loads⟩
      obtain ⟨operator, member, defined⟩ := exists_mem_of_forall₂ defines inDefinition
      exact ⟨operator, member, defined.loadedStage?_eq.symm ▸ loads⟩
  rw [edges, List.mem_map, DependsOn, ← isLoaded]
  simp only [List.mem_append]
  constructor
  · rintro ⟨earlier, member, rfl⟩
    exact ⟨rfl, member⟩
  · rintro ⟨isLater, member⟩
    exact ⟨edge.earlier, member, (Edge.mk.injEq ..).mpr ⟨rfl, isLater.symm⟩⟩

/-- The stage that a definition stands for. -/
structure Defines (definition : StageDefinition) (stage : Stage) : Prop where
  id : stage.id = definition.id
  kind : stage.kind = definition.kind
  info : stage.info = definition.info
  plan : definition.plan = .ok stage.plan

end StageDefinition

namespace PlanDefinition

open StageGraph Steps

variable {definition : PlanDefinition} {graph next : StageGraph}

theorem edit_eq_ok {step : GraphEdit Unit} :
    edit graph step = .ok next ↔ step graph = .ok ⟨⟩ next := by
  rw [edit, EStateM.run]
  cases step graph <;> simp

/-- A state of building a graph with one more stage and the edges it asks for. -/
def putStage (state : StageGraph × List Edge) (made : Stage × List Edge) :
    StageGraph × List Edge :=
  (state.1.withStage made.1 (max state.1.nextId (made.1.id.value + 1)), state.2 ++ made.2)

theorem addStage_eq_ok {state next : StageGraph × List Edge} {definition : StageDefinition} :
    addStage state definition = .ok next ↔ ∃ made : Stage × List Edge,
      (definition.Defines made.1 ∧ made.2 = definition.edges made.1.plan) ∧
        state.1.stage? made.1.id = none ∧ next = putStage state made := by
  simp only [addStage, Results.bind_eq_ok, Results.pure_eq_ok, edit_eq_ok, insertStage_eq_ok]
  constructor
  · rintro ⟨plan, isPlan, _, ⟨isFree, rfl⟩, rfl⟩
    exact ⟨(⟨definition.id, definition.kind, plan, definition.info⟩, definition.edges plan),
      ⟨⟨rfl, rfl, rfl, isPlan⟩, rfl⟩, isFree, rfl⟩
  · rintro ⟨⟨stage, edges⟩, ⟨defines, isEdges⟩, isFree, rfl⟩
    obtain rfl : edges = definition.edges stage.plan := isEdges
    have isStage : ⟨definition.id, definition.kind, stage.plan, definition.info⟩ = stage := by
      rw [← defines.id, ← defines.kind, ← defines.info]
    exact ⟨stage.plan, defines.plan, _, ⟨defines.id ▸ isFree, rfl⟩, isStage ▸ rfl⟩

theorem foldl_putStage_empty (made : List (Stage × List Edge)) :
    made.foldl putStage (.empty, []) =
      (⟨.keyed Stage.id (made.map Prod.fst), ∅,
        wordAbove ((made.map Prod.fst).map fun stage => stage.id.value)⟩,
        made.flatMap Prod.snd) := by
  have put (state : StageGraph × List Edge) : made.foldl putStage state =
      (⟨((made.map Prod.fst).map fun stage => (stage.id, stage)).foldl
          (fun map entry => map.insert entry.1 entry.2) state.1.stageMap, state.1.edges,
        ((made.map Prod.fst).map fun stage => stage.id.value).foldl
          (fun next word => max next (word + 1)) state.1.nextId⟩,
        state.2 ++ made.flatMap Prod.snd) := by
    induction made generalizing state with
    | nil => simp
    | cons first rest ih =>
        rw [List.foldl_cons, ih, List.flatMap_cons, ← List.append_assoc]
        rfl
  exact put (.empty, [])

/-- Edges are made exactly if each is between two different stages that exist. -/
theorem foldlM_connect_eq_ok {edges : List Edge} :
    edges.foldlM (fun graph edge => edit graph (connect edge.earlier edge.later)) graph =
        .ok next ↔
      (∀ edge ∈ edges, (∃ stage, graph.stage? edge.earlier = some stage) ∧
        (∃ stage, graph.stage? edge.later = some stage) ∧ edge.earlier ≠ edge.later) ∧
      next = { graph with edges := edges.foldl .insert graph.edges } := by
  induction edges generalizing graph with
  | nil =>
      rw [List.foldlM_nil, Results.pure_eq_ok, eq_comm]
      exact (and_iff_right nofun).symm
  | cons edge rest ih =>
      rw [List.foldlM_cons, Results.bind_eq_ok, List.forall_mem_cons]
      constructor
      · rintro ⟨between, connected, restConnected⟩
        obtain ⟨isEarlier, isLater, different, rfl⟩ := connect_eq_ok.mp (edit_eq_ok.mp connected)
        obtain ⟨restConnectable, rfl⟩ := ih.mp restConnected
        exact ⟨⟨⟨isEarlier, isLater, different⟩, restConnectable⟩, rfl⟩
      · rintro ⟨⟨⟨isEarlier, isLater, different⟩, restConnectable⟩, rfl⟩
        exact ⟨_, edit_eq_ok.mpr (connect_eq_ok.mpr ⟨isEarlier, isLater, different, rfl⟩),
          ih.mpr ⟨restConnectable, rfl⟩⟩

/-- The edges that the stages of a definition ask for. -/
def HasEdge (definition : PlanDefinition) (edge : Edge) : Prop :=
  ∃ stage ∈ definition.stages, edge.later = stage.id ∧ stage.DependsOn edge.earlier

/-- The identifiers of the stages of a definition. -/
def stageIds (definition : PlanDefinition) : List StageId :=
  definition.stages.map StageDefinition.id

/-- A graph consists of given stages, which a definition stands for, and of the edges
that the definition asks for. -/
structure Makes (definition : PlanDefinition) (stages : List Stage) (graph : StageGraph) :
    Prop where
  defines : List.Forall₂ StageDefinition.Defines definition.stages stages
  nodup : (stages.map Stage.id).Nodup
  ends : ∀ edge, definition.HasEdge edge →
    edge.earlier ∈ definition.stageIds ∧ edge.earlier ≠ edge.later
  stageMap : graph.stageMap = .keyed Stage.id stages
  nextId : graph.nextId = wordAbove (stages.map fun stage => stage.id.value)
  edges : ∀ edge, edge ∈ graph.edges.elements ↔ definition.HasEdge edge

section

variable {stages : List Stage}
  (defines : List.Forall₂ StageDefinition.Defines definition.stages stages)

include defines

theorem map_id_eq : stages.map Stage.id = definition.stageIds := by
  rw [stageIds, ← List.forall₂_eq_eq_eq, List.forall₂_map_left_iff, List.forall₂_map_right_iff]
  exact (defines.imp fun _ _ defines => defines.id).flip

/-- The stages of a graph made of different ones are those of the definition. -/
theorem exists_stage?_iff (nodup : (stages.map Stage.id).Nodup)
    (isMap : graph.stageMap = .keyed Stage.id stages) {id : StageId} :
    (∃ stage, graph.stage? id = some stage) ↔ id ∈ definition.stageIds := by
  rw [← mem_stageIds, StageGraph.stageIds, isMap, ← map_id_eq defines]
  exact (OrderedMap.keys_keyed_perm nodup).mem_iff

end

theorem HasEdge.later_mem {edge : Edge} (hasEdge : definition.HasEdge edge) :
    edge.later ∈ definition.stageIds := by
  obtain ⟨stage, member, isLater, -⟩ := hasEdge
  exact isLater ▸ List.mem_map_of_mem member

/-- The stages made and their edges. -/
def MakesStage (definition : StageDefinition) (made : Stage × List Edge) : Prop :=
  definition.Defines made.1 ∧ made.2 = definition.edges made.1.plan

theorem foldlM_addStage_eq_ok {edges : List Edge} :
    definition.stages.foldlM addStage (.empty, []) = .ok (graph, edges) ↔
      ∃ made, List.Forall₂ MakesStage definition.stages made ∧
        ((made.map Prod.fst).map Stage.id).Nodup ∧
        graph = ⟨.keyed Stage.id (made.map Prod.fst), ∅,
          wordAbove ((made.map Prod.fst).map fun stage => stage.id.value)⟩ ∧
        edges = made.flatMap Prod.snd := by
  have free_putStage (state : StageGraph × List Edge) (made : Stage × List Edge) (id : StageId) :
      (putStage state made).1.stage? id = none ↔
        id ≠ made.1.id ∧ state.1.stage? id = none := by
    rw [putStage, stage?_withStage]
    by_cases same : id = made.1.id <;> simp [same]
  rw [foldlM_put_eq_ok MakesStage (fun made => made.1.id) (fun state id => state.1.stage? id = none)
    putStage (fun _ _ _ => addStage_eq_ok) free_putStage]
  refine exists_congr fun made => and_congr_right fun _ => ?_
  have keys : made.map (fun made => made.1.id) = (made.map Prod.fst).map Stage.id := by
    rw [List.map_map]
    rfl
  rw [foldl_putStage_empty, Prod.mk.injEq, keys]
  exact and_congr_right fun _ => and_iff_right fun _ _ => rfl

theorem exists_made {definitions : List StageDefinition} {stages : List Stage}
    (defines : List.Forall₂ StageDefinition.Defines definitions stages) :
    ∃ made, List.Forall₂ MakesStage definitions made ∧ made.map Prod.fst = stages := by
  induction defines with
  | nil => exact ⟨[], .nil, rfl⟩
  | @cons definition stage _ _ first _ ih =>
      obtain ⟨made, makesRest, rfl⟩ := ih
      exact ⟨(stage, definition.edges stage.plan) :: made, .cons ⟨first, rfl⟩ makesRest, rfl⟩

theorem mem_flatMap_edges {made : List (Stage × List Edge)}
    (makes : List.Forall₂ MakesStage definition.stages made) {edge : Edge} :
    edge ∈ made.flatMap Prod.snd ↔ definition.HasEdge edge := by
  rw [List.mem_flatMap]
  constructor
  · rintro ⟨⟨stage, edges⟩, member, isEdge⟩
    obtain ⟨source, inDefinition, defines, isEdges⟩ := exists_mem_of_forall₂ makes.flip member
    obtain rfl : edges = source.edges stage.plan := isEdges
    exact ⟨source, inDefinition, (StageDefinition.mem_edges defines.plan).mp isEdge⟩
  · rintro ⟨source, inDefinition, isEdge⟩
    obtain ⟨⟨stage, edges⟩, member, defines, isEdges⟩ := exists_mem_of_forall₂ makes inDefinition
    obtain rfl : edges = source.edges stage.plan := isEdges
    exact ⟨_, member, (StageDefinition.mem_edges defines.plan).mpr isEdge⟩

/-- A graph is made exactly of stages with different identifiers, one for every definition
of a stage, and of the edges they ask for, all between two different ones of them. -/
theorem graph_eq_ok : definition.graph = .ok graph ↔ ∃ stages, definition.Makes stages graph := by
  rw [PlanDefinition.graph, Results.bind_eq_ok]
  constructor
  · rintro ⟨⟨between, edges⟩, built, connected⟩
    obtain ⟨made, makes, nodup, rfl, rfl⟩ := foldlM_addStage_eq_ok.mp built
    obtain ⟨connectable, rfl⟩ := foldlM_connect_eq_ok.mp connected
    have defines : List.Forall₂ StageDefinition.Defines definition.stages (made.map Prod.fst) :=
      List.forall₂_map_right_iff.mpr (makes.imp fun _ _ makes => makes.1)
    refine ⟨made.map Prod.fst, defines, nodup, fun edge hasEdge => ?_, rfl, rfl, fun edge => ?_⟩
    · obtain ⟨isEarlier, -, different⟩ := connectable edge ((mem_flatMap_edges makes).mpr hasEdge)
      exact ⟨(exists_stage?_iff defines nodup rfl).mp isEarlier, different⟩
    · exact OrderedSet.mem_ofList.trans (mem_flatMap_edges makes)
  · rintro ⟨stages, makes⟩
    obtain ⟨made, makesAll, rfl⟩ := exists_made makes.defines
    refine ⟨_, foldlM_addStage_eq_ok.mpr ⟨made, makesAll, makes.nodup, rfl, rfl⟩, ?_⟩
    refine foldlM_connect_eq_ok.mpr ⟨fun edge member => ?_, ?_⟩
    · have hasEdge := (mem_flatMap_edges makesAll).mp member
      obtain ⟨isEarlier, different⟩ := makes.ends edge hasEdge
      exact ⟨(exists_stage?_iff makes.defines makes.nodup rfl).mpr isEarlier,
        (exists_stage?_iff makes.defines makes.nodup rfl).mpr hasEdge.later_mem, different⟩
    · refine (StageGraph.mk.injEq ..).mpr ⟨makes.stageMap, ?_, makes.nextId⟩
      refine OrderedSet.ext_mem fun edge => (makes.edges edge).trans ?_
      exact (mem_flatMap_edges makesAll).symm.trans OrderedSet.mem_ofList.symm

end PlanDefinition

end BatchFlow
