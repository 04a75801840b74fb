import BatchFlow.Graph.StageGraph

/-!
# Walking a stage graph

The walk lists every stage once, after all its predecessors.  It goes
depth-first over predecessors from each stage in turn, in the order of
identifiers, and fails when it comes back to a stage it is still inside.
-/

namespace BatchFlow

namespace StageGraph

/-- A stage the walk is inside of, with the predecessors it has yet to look at. -/
structure Frame where
  stage : StageId
  pending : List StageId

/-- The number of frames of a path and of predecessors yet to be looked at. -/
def pendingCount : List Frame → Nat
  | [] => 0
  | frame :: path => frame.pending.length + 1 + pendingCount path

/-- The frame of a stage just entered. -/
def enter (graph : StageGraph) (id : StageId) : Frame :=
  ⟨id, graph.predecessors id⟩

/-- The cycle closed by coming back to `id` along a path, innermost frame first. -/
def closedCycle (id : StageId) (path : List Frame) : PlanError :=
  .cycle id ((path.map Frame.stage).takeWhile (· != id)).reverse

/-- Continue a walk from the stages not yet entered, the stages already placed,
latest first, and the path of frames, innermost first. -/
def walkFrom (graph : StageGraph) (unseen placed : List StageId) :
    List Frame → Except PlanError (List StageId)
  | [] =>
      match unseen with
      | [] => .ok placed.reverse
      | start :: unseen => walkFrom graph unseen placed [graph.enter start]
  | ⟨stage, []⟩ :: path => walkFrom graph unseen (stage :: placed) path
  | ⟨stage, next :: pending⟩ :: path =>
      if next ∈ unseen then
        walkFrom graph (unseen.erase next) placed
          (graph.enter next :: ⟨stage, pending⟩ :: path)
      else if next ∈ placed then
        walkFrom graph unseen placed (⟨stage, pending⟩ :: path)
      else .error (closedCycle next (⟨stage, pending⟩ :: path))
termination_by path =>
  (unseen.length, pendingCount path)
decreasing_by
  · exact .left _ _ (by simp)
  · exact .right _ (by simp [pendingCount])
  · have positive := List.length_pos_of_mem ‹next ∈ unseen›
    exact .left _ _ (by rw [List.length_erase_of_mem ‹next ∈ unseen›]; omega)
  · exact .right _ (by simp [pendingCount])

/-- The first edge with an end outside the graph. -/
def danglingEdge? (graph : StageGraph) : Option PlanError :=
  graph.edges.elements.findSome? fun edge =>
    if !graph.stageMap.contains edge.earlier then
      some (.edgeFromUnknown edge.earlier edge.later)
    else if !graph.stageMap.contains edge.later then
      some (.edgeIntoUnknown edge.earlier edge.later)
    else none

/-- Every stage once, each after all its predecessors. -/
def order (graph : StageGraph) : Except PlanError (List StageId) :=
  match graph.danglingEdge? with
  | some error => .error error
  | none => graph.walkFrom graph.stageIds [] []

/-- Visit every stage in order; the number of stages visited.  A failing visit
ends the walk and keeps the visitor's state. -/
def walk {σ : Type} (graph : StageGraph) (visit : Stage → EStateM PlanError σ Unit) :
    EStateM PlanError σ Nat := do
  let order ← liftExcept graph.order
  for id in order do
    visit (← liftExcept (graph.require id))
  return order.length
where
  /-- A result as a step that changes no state. -/
  liftExcept {α : Type} : Except PlanError α → EStateM PlanError σ α
    | .ok value => pure value
    | .error error => throw error

/-- Check the whole graph: edges, cycles, and every stage in order.  Yields the
number of stages. -/
def validate (graph : StageGraph) : Except PlanError Nat := do
  let order ← graph.order
  order.forM graph.checkStage
  return order.length

/-- How a list of stages fails to be an order of the graph. -/
inductive OrderFault where
  | predecessorMissing (predecessor stage : StageId)
  | repeated (stage : StageId)
  | coverage (visited expected : Nat)

/-- The text of a fault of an order. -/
def OrderFault.text : OrderFault → String
  | predecessorMissing predecessor stage =>
      "predecessor " ++ predecessor.text ++ " not visited before stage " ++ stage.text
  | repeated stage => "stage " ++ stage.text ++ " visited twice"
  | coverage visited expected =>
      "order covers " ++ toString visited ++ " of " ++ toString expected ++ " stages"

/-- Check the rest of an order, given the stages seen. -/
def checkOrderFrom (graph : StageGraph) (seen : List StageId) :
    List StageId → Except OrderFault Unit
  | [] =>
      if seen.length = graph.size then .ok ()
      else .error (.coverage seen.length graph.size)
  | id :: rest =>
      match (graph.predecessors id).find? fun predecessor => !seen.contains predecessor with
      | some predecessor => .error (.predecessorMissing predecessor id)
      | none =>
          if seen.contains id then .error (.repeated id)
          else checkOrderFrom graph (id :: seen) rest

/-- Check that a list has as many stages as the graph, none twice, each after
its predecessors. -/
def checkOrder (graph : StageGraph) (order : List StageId) : Except OrderFault Unit :=
  graph.checkOrderFrom [] order

end StageGraph

end BatchFlow
