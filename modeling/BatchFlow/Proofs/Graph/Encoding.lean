import BatchFlow.Graph.Encoding
import BatchFlow.Proofs.Json.Formats
import BatchFlow.Proofs.Plan.Encoding

/-!
# Reading graphs back

The compact text of a graph without doubles gives the graph back exactly where it is
nested no deeper than text is read.  However deep it is, no other such graph has the
text.
-/

namespace BatchFlow

namespace FileCount

theorem readable_toJson (count : FileCount) : count.toJson.Readable := by
  cases count with
  | known files => exact .single (by decide) (Json.readable_halfWord files)
  | unknown => exact .string

theorem depth_toJson_le (count : FileCount) : count.toJson.depth ≤ 1 := by
  cases count <;> simp [toJson, Json.depth]

@[simp]
theorem ofJson?_toJson (count : FileCount) : ofJson? count.toJson = some count := by
  cases count <;> simp [toJson, ofJson?]

end FileCount

@[simp]
theorem StageKind.ofJson?_name (kind : StageKind) : ofJson? (.string kind.name) = some kind := by
  cases kind <;> rfl

namespace StageMeta

theorem readable_toJson (info : StageMeta) : info.toJson.Readable := by
  simp +decide [toJson, info.outputFiles.readable_toJson,
    Json.readable_optional Json.readable_halfWord]

theorem depth_toJson_le (info : StageMeta) : info.toJson.depth ≤ 2 := by
  have depth : info.toJson.depth = info.outputFiles.toJson.depth + 1 := by
    simp [toJson, Json.depth, Json.depthOfEntries]
  have shallow := info.outputFiles.depth_toJson_le
  omega

@[simp]
theorem ofJson?_toJson (info : StageMeta) : ofJson? info.toJson = some info := by
  simp [toJson, ofJson?, Json.record?]

end StageMeta

namespace Stage

theorem readable_toJson {stage : Stage} (free : stage.plan.FloatFree) :
    stage.toJson.Readable := by
  simp +decide [toJson, SubPlan.readable_toJson free, stage.info.readable_toJson]

theorem ofJson?_toJson {stage : Stage} (free : stage.plan.FloatFree) {room : Nat}
    (enough : 11 ≤ room) :
    ofJson? room stage.toJson = if stage.toJson.depth ≤ room then some stage else none := by
  have shallow := stage.info.depth_toJson_le
  have depth : stage.toJson.depth = max stage.plan.toJson.depth stage.info.toJson.depth + 1 := by
    simp [toJson, Json.depth, Json.depthOfEntries]
  have decoded : ofJson? room stage.toJson =
      if stage.plan.toJson.depth ≤ room - 1 then some stage else none := by
    simp [toJson, ofJson?, Json.record?,
      SubPlan.ofJson?_toJson free (show 10 ≤ room - 1 by omega)]
  rw [decoded, depth]
  exact if_congr (by omega) rfl rfl

end Stage

namespace Edge

theorem readable_toJson (edge : Edge) : edge.toJson.Readable := by
  simp [toJson]

theorem depth_toJson (edge : Edge) : edge.toJson.depth = 1 := by
  simp [toJson, Json.depth, Json.depthOfList]

@[simp]
theorem ofJson?_toJson (edge : Edge) : ofJson? edge.toJson = some edge := by
  simp [toJson, ofJson?]

end Edge

namespace StageGraph

/-- Whether no double occurs in the literals of the graph. -/
def FloatFree (graph : StageGraph) : Prop :=
  ∀ stage ∈ graph.stages, stage.plan.FloatFree

theorem readable_toJson {graph : StageGraph} (free : graph.FloatFree) :
    graph.toJson.Readable := by
  have stages := Json.readable_numbered graph.stageMap.entries
    (fun entry => entry.1.value.toNat) (fun entry => entry.2.toJson) fun entry member =>
      Stage.readable_toJson (free entry.2 (List.mem_map_of_mem member))
  rw [toJson, Json.readable_object_iff]
  simp +decide [-Json.readable_object_iff, stages, Edge.readable_toJson]

theorem entryOfJson?_eq_ite {entry : StageId × Stage} (free : entry.2.plan.FloatFree)
    {room : Nat} (enough : 11 ≤ room) :
    entryOfJson? room (entry.1.value.toNat.repr, entry.2.toJson) =
      if entry.2.toJson.depth ≤ room then some entry else none := by
  simp [entryOfJson?, Stage.ofJson?_toJson free enough]

/-- A graph is read back if it is nested no deeper than the room left. -/
theorem ofJson?_toJson {graph : StageGraph} (free : graph.FloatFree) {room : Nat}
    (enough : 13 ≤ room) :
    ofJson? room graph.toJson = if graph.toJson.depth ≤ room then some graph else none := by
  have each (entry : StageId × Stage) (member : entry ∈ graph.stageMap.entries) :=
    entryOfJson?_eq_ite (free entry.2 (List.mem_map_of_mem member)) (show 11 ≤ room - 2 by omega)
  have entries := Json.mapM_entries_eq_ite each
  have shallow : Json.depthOfList (graph.edges.elements.map Edge.toJson) ≤ 1 :=
    Json.depthOfList_le_iff.mpr (by simp [Edge.depth_toJson])
  have depth : graph.toJson.depth = max (Json.depthOfEntries (graph.stageMap.entries.map
      fun entry => (entry.1.value.toNat.repr, entry.2.toJson)) + 1)
        (Json.depthOfList (graph.edges.elements.map Edge.toJson) + 1) + 1 := by
    simp [toJson, Json.depth, Json.depthOfEntries]
  have decoded : ofJson? room graph.toJson =
      if Json.depthOfEntries (graph.stageMap.entries.map
        fun entry => (entry.1.value.toNat.repr, entry.2.toJson)) ≤ room - 2 then some graph
      else none := by
    simp [-List.mapM_map, toJson, ofJson?, Json.record?, Json.object?, entries,
      Json.list?_map Edge.ofJson?_toJson, graph.stageMap.ofList_entries,
      graph.edges.ofList_elements]
  rw [decoded, depth]
  exact if_congr (by omega) rfl rfl

section Text

variable {write : Json → String} {read : String → Option Json}
  (writer : Json.CompactWriter write) (reader : Json.CompactReader read)

include writer reader

theorem read_textBy {graph : StageGraph} (free : graph.FloatFree) :
    read (graph.textBy write) = some graph.toJson :=
  reader write writer graph.toJson (readable_toJson free)

/-- Graphs without doubles are told apart by their texts. -/
theorem textBy_injective {graph other : StageGraph} (free : graph.FloatFree)
    (otherFree : other.FloatFree) (same : other.textBy write = graph.textBy write) :
    other = graph := by
  have forms : some other.toJson = some graph.toJson := by
    rw [← read_textBy writer reader otherFree, same, read_textBy writer reader free]
  -- With enough room, both graphs are decoded from their common form.
  have fits : graph.toJson.depth ≤ max 13 graph.toJson.depth := le_max_right ..
  have decoded := ofJson?_toJson free (le_max_left 13 graph.toJson.depth)
  have otherDecoded := ofJson?_toJson otherFree (le_max_left 13 graph.toJson.depth)
  rw [if_pos fits] at decoded
  rw [Option.some.inj forms, if_pos fits, decoded] at otherDecoded
  exact (Option.some.inj otherDecoded).symm

theorem ofTextBy?_textBy_eq_ite {room : Nat} (enough : 13 ≤ room) {graph : StageGraph}
    (free : graph.FloatFree) :
    ofTextBy? read room (graph.textBy write) =
      if graph.toJson.depth ≤ room then some graph else none := by
  rw [ofTextBy?, read_textBy writer reader free, Option.bind_some]
  exact ofJson?_toJson free enough

end Text

section Nesting

/-- A null within bags. -/
def nestedBags : Nat → Scalar
  | 0 => .null
  | levels + 1 => .bag [[nestedBags levels]]

theorem floatFree_nestedBags (levels : Nat) : (nestedBags levels).FloatFree := by
  induction levels with
  | zero => trivial
  | succ levels ih => exact ⟨⟨ih, trivial⟩, trivial⟩

/-- A bag is nested by three: an object, an array of rows and an array of cells. -/
theorem depth_nestedBags (levels : Nat) : (nestedBags levels).toJson.depth = 3 * levels := by
  induction levels with
  | zero => rfl
  | succ levels ih =>
      simp [nestedBags, Scalar.toJson, Scalar.rowsToJson, Scalar.cellsToJson, Json.depth,
        Json.depthOfList, ih]
      omega

/-- A plan that keeps the rows whose first cell is a nested bag. -/
def nestedPlan (levels : Nat) : SubPlan :=
  ((SubPlan.empty.insert ⟨⟨0⟩, .load (.dataset "in"), []⟩).insert
    ⟨⟨1⟩, .filter ⟨0, .equal, nestedBags levels⟩, [⟨0⟩]⟩).insert
    ⟨⟨2⟩, .store "out", [⟨1⟩]⟩

/-- The graph of one stage with this plan. -/
def nestedGraph (levels : Nat) : StageGraph :=
  ⟨(∅ : OrderedMap StageId Stage).insert ⟨0⟩ ⟨⟨0⟩, .ordinary, nestedPlan levels, {}⟩, ∅, 1⟩

theorem floatFree_nestedGraph (levels : Nat) : (nestedGraph levels).FloatFree := by
  have operators : (nestedPlan levels).FloatFree := by
    rintro operator (isLoad | ⟨_, isFilter | ⟨_, isStore | ⟨_, ⟨⟩⟩⟩⟩)
    · trivial
    · exact floatFree_nestedBags levels
    · trivial
  rintro stage (isStage | ⟨_, ⟨⟩⟩)
  exact operators

theorem depth_nestedGraph (levels : Nat) :
    (nestedGraph levels).toJson.depth = 3 * levels + 9 := by
  have plan : (nestedPlan levels).toJson.depth = (nestedBags levels).toJson.depth + 6 := by
    have operators : (nestedPlan levels).operatorMap.entries =
        [(⟨0⟩, ⟨⟨0⟩, .load (.dataset "in"), []⟩),
          (⟨1⟩, ⟨⟨1⟩, .filter ⟨0, .equal, nestedBags levels⟩, [⟨0⟩]⟩),
          (⟨2⟩, ⟨⟨2⟩, .store "out", [⟨1⟩]⟩)] :=
      rfl
    simp [SubPlan.toJson, operators, Operator.toJson, Operation.toJson, Predicate.toJson,
      Json.depth, Json.depthOfEntries, Json.depthOfList]
  have graph : (nestedGraph levels).toJson.depth = max (nestedPlan levels).toJson.depth 1 + 3 := by
    have stages : (nestedGraph levels).stageMap.entries =
        [(⟨0⟩, ⟨⟨0⟩, .ordinary, nestedPlan levels, {}⟩)] :=
      rfl
    have edges : (nestedGraph levels).edges.elements = [] := rfl
    simp [StageGraph.toJson, stages, edges, Stage.toJson, StageMeta.toJson, FileCount.toJson,
      Json.depth, Json.depthOfEntries, Json.depthOfList]
  rw [graph, plan, depth_nestedBags]
  omega

end Nesting

end StageGraph

end BatchFlow
