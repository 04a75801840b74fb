import BatchFlow.Graph.Walk
import BatchFlow.Proofs.Plan.WellFormed

/-!
# The stages of a graph

A graph built by adding and connecting stages keeps every stage under its own
identifier, below the identifier of the next one, and has edges only between two
different stages that exist.
-/

namespace BatchFlow

/-- Edges are ordered by their first stages, and those from one stage by their second ones. -/
theorem Edge.compare_eq_lt_iff {first second : Edge} :
    compare first second = .lt ↔ first.earlier.value < second.earlier.value ∨
      first.earlier = second.earlier ∧ first.later.value < second.later.value := by
  have parts : compare first second =
      (compare first.earlier.value second.earlier.value).then
        (compare first.later.value second.later.value) := rfl
  rw [parts, Ordering.then_eq_lt, Std.LawfulEqOrd.compare_eq_iff_eq, Std.compare_eq_lt,
    Std.compare_eq_lt, ← StageId.mk.injEq]

namespace StageGraph

/-- What adding, inserting and connecting stages ensures. -/
structure Built (graph : StageGraph) : Prop where
  ownId : ∀ id stage, graph.stage? id = some stage → stage.id = id
  ownIds : ∀ id stage, graph.stage? id = some stage → stage.plan.OwnIds
  below : ∀ id stage, graph.stage? id = some stage → id.value < graph.nextId
  edges : ∀ edge ∈ graph.edges.elements, edge.earlier ≠ edge.later ∧
    (∃ stage, graph.stage? edge.earlier = some stage) ∧
      ∃ stage, graph.stage? edge.later = some stage

variable {graph : StageGraph}

theorem mem_stageIds {id : StageId} :
    id ∈ graph.stageIds ↔ ∃ stage, graph.stage? id = some stage :=
  OrderedMap.mem_keys_iff

theorem nodup_stageIds (graph : StageGraph) : graph.stageIds.Nodup :=
  graph.stageMap.nodup_keys

theorem length_stageIds (graph : StageGraph) : graph.stageIds.length = graph.size := by
  simp [stageIds, size, OrderedMap.keys, OrderedMap.size]

theorem contains_stageMap {id : StageId} :
    graph.stageMap.contains id = true ↔ ∃ stage, graph.stage? id = some stage :=
  OrderedMap.contains_iff

theorem mem_predecessors {earlier later : StageId} :
    earlier ∈ graph.predecessors later ↔ ⟨earlier, later⟩ ∈ graph.edges.elements := by
  simp only [predecessors, List.mem_map, List.mem_filter, beq_iff_eq]
  constructor
  · rintro ⟨edge, ⟨member, rfl⟩, rfl⟩
    exact member
  · intro member
    exact ⟨_, ⟨member, rfl⟩, rfl⟩

/-- The run of edges from a stage holds all edges that start there. -/
theorem successors_eq_filter (graph : StageGraph) (id : StageId) :
    graph.successors id =
      (graph.edges.elements.filter fun edge => edge.earlier == id).map Edge.later := by
  have isBelow (edge : Edge) : (compare edge ⟨id, ⟨0⟩⟩ == .lt) = true ↔
      edge.earlier.value < id.value := by
    rw [beq_iff_eq, Edge.compare_eq_lt_iff]
    simp [UInt64.not_lt_zero]
  have notBelow (edge : Edge) : (compare edge ⟨id, ⟨0⟩⟩ == .lt) = false ↔
      id.value ≤ edge.earlier.value := by
    rw [← Bool.not_eq_true, isBelow, UInt64.not_lt]
  have grows {first second : Edge} (before : compare first second = .lt) :
      first.earlier.value ≤ second.earlier.value := by
    rcases Edge.compare_eq_lt_iff.mp before with less | ⟨same, -⟩
    · exact UInt64.le_of_lt less
    · exact same ▸ UInt64.le_refl _
  refine congrArg (List.map Edge.later)
    (takeWhile_dropWhile_eq_filter graph.edges.ascending ?_ ?_ ?_)
  · intro edge startsHere
    rw [notBelow, eq_of_beq startsHere]
    exact UInt64.le_refl _
  · intro first second before above
    exact (notBelow second).mpr (UInt64.le_trans ((notBelow first).mp above) (grows before))
  · intro first second before above startsHere
    have atMost := grows before
    rw [eq_of_beq startsHere] at atMost
    have same := UInt64.le_antisymm atMost ((notBelow first).mp above)
    rw [beq_iff_eq]
    exact StageId.mk.injEq .. ▸ same

theorem mem_successors {earlier later : StageId} :
    later ∈ graph.successors earlier ↔ ⟨earlier, later⟩ ∈ graph.edges.elements := by
  rw [successors_eq_filter]
  simp only [List.mem_map, List.mem_filter, beq_iff_eq]
  constructor
  · rintro ⟨edge, ⟨member, rfl⟩, rfl⟩
    exact member
  · intro member
    exact ⟨_, ⟨member, rfl⟩, rfl⟩

theorem hasEdge_iff {earlier later : StageId} :
    graph.hasEdge earlier later = true ↔ ⟨earlier, later⟩ ∈ graph.edges.elements :=
  OrderedSet.contains_iff

/-- A root is a stage without predecessors. -/
theorem mem_roots {id : StageId} :
    id ∈ graph.roots ↔ id ∈ graph.stageIds ∧ ∀ earlier, ⟨earlier, id⟩ ∉ graph.edges.elements := by
  simp only [roots, List.mem_filter, Bool.not_eq_true', ← Bool.not_eq_true,
    List.contains_iff_mem, List.mem_map, not_exists, not_and]
  refine and_congr_right fun _ => ⟨fun none earlier member => none _ member rfl, ?_⟩
  rintro none edge member rfl
  exact none edge.earlier member

/-- A leaf is a stage without successors. -/
theorem mem_leaves {id : StageId} :
    id ∈ graph.leaves ↔ id ∈ graph.stageIds ∧ ∀ later, ⟨id, later⟩ ∉ graph.edges.elements := by
  simp only [leaves, List.mem_filter, Bool.not_eq_true', ← Bool.not_eq_true,
    List.contains_iff_mem, List.mem_map, not_exists, not_and]
  refine and_congr_right fun _ => ⟨fun none later member => none _ member rfl, ?_⟩
  rintro none edge member rfl
  exact none edge.later member

theorem require_eq_ok {id : StageId} {stage : Stage} :
    graph.require id = .ok stage ↔ graph.stage? id = some stage := by
  rw [require]
  cases graph.stage? id <;> simp

/-- A check of a stage looks for it, checks its plan, and asks for an edge from
every stage it loads. -/
theorem checkStage_eq_ok {id : StageId} :
    graph.checkStage id = .ok () ↔
      ∃ stage, graph.stage? id = some stage ∧ stage.plan.validate = .ok () ∧
        ∀ operator ∈ stage.plan.operators, ∀ source,
          operator.operation = .load (.stage source) →
            ⟨source, id⟩ ∈ graph.edges.elements := by
  have noFault : graph.checkStage id = .ok () ↔ graph.stageFault? id = none := by
    rw [checkStage]
    cases graph.stageFault? id <;> simp
  rw [noFault, stageFault?]
  cases found : graph.stage? id with
  | none => simp
  | some stage =>
      simp only [Option.some.injEq, exists_eq_left']
      cases valid : stage.plan.validate with
      | error fault => simp
      | ok =>
          simp only [true_and]
          rw [List.findSome?_eq_none_iff]
          refine forall₂_congr fun operator _ => ?_
          cases operator.operation with
          | load source =>
              cases source with
              | dataset path => simp [Operation.loadedStage?]
              | stage source => simp [Operation.loadedStage?, mem_predecessors]
          | _ => simp [Operation.loadedStage?]

theorem checkStage_ne_ok {id : StageId} :
    graph.checkStage id ≠ .ok () ↔ ∃ fault, graph.stageFault? id = some fault := by
  rw [checkStage]
  cases graph.stageFault? id <;> simp

/-- An ordinary stage that fails its check. -/
def Malformed (graph : StageGraph) (id : StageId) : Prop :=
  ∃ stage, graph.stage? id = some stage ∧ stage.kind = .ordinary ∧ graph.checkStage id ≠ .ok ()

theorem Malformed.exists_fault {id : StageId} (malformed : graph.Malformed id) :
    ∃ fault, graph.stageFault? id = some fault := by
  obtain ⟨-, -, -, failed⟩ := malformed
  exact checkStage_ne_ok.mp failed

theorem checkStage_of_not_malformed {id : StageId} {stage : Stage}
    (found : graph.stage? id = some stage) (isOrdinary : stage.kind = .ordinary)
    (sound : ¬ graph.Malformed id) : graph.checkStage id = .ok () := by
  by_contra failed
  exact sound ⟨stage, found, isOrdinary, failed⟩

end StageGraph

end BatchFlow
