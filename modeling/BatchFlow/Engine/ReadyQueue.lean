import BatchFlow.Graph.StageGraph

/-!
# Releasing stages

A stage is released once every edge into it has been completed.  Stages released
together leave the queue in the order of their identifiers.  An edge into a
stage that the graph does not have counts as one more stage to complete.
-/

namespace BatchFlow

/-- The stages of a frozen graph on their way to completion: how many edges into
each are still open, the stages released and not yet taken, and the number
completed. -/
structure ReadyQueue where
  edges : List Edge
  pending : OrderedMap StageId Nat
  ready : List StageId
  completed : Nat

namespace ReadyQueue

/-- The queue before any stage is taken. -/
def ofGraph (graph : StageGraph) : ReadyQueue :=
  let pending := graph.edges.elements.foldl
    (fun pending edge => pending.upsert edge.later fun count => count.getD 0 + 1)
    (graph.stageMap.mapValues fun _ => 0)
  { edges := graph.edges.elements
    pending := pending
    ready := (pending.filter fun _ count => count == 0).keys
    completed := 0 }

/-- Take the next released stage. -/
def pop (queue : ReadyQueue) : Option (StageId × ReadyQueue) :=
  match queue.ready with
  | [] => none
  | next :: rest => some (next, { queue with ready := rest })

/-- Close one edge into a stage, which is released if it was the last. -/
def closeEdge (queue : ReadyQueue) (later : StageId) : ReadyQueue :=
  match queue.pending.get? later with
  | none => queue
  | some count =>
      { queue with
        pending := queue.pending.insert later (count - 1)
        ready := if count - 1 = 0 then queue.ready ++ [later] else queue.ready }

/-- Complete a stage. -/
def complete (queue : ReadyQueue) (id : StageId) : ReadyQueue :=
  ((queue.edges.filter fun edge => edge.earlier == id).map Edge.later).foldl closeEdge
    { queue with completed := queue.completed + 1 }

/-- The number of stages not completed. -/
def remaining (queue : ReadyQueue) : Nat :=
  queue.pending.size - queue.completed

/-- Whether every stage is completed. -/
def isFinished (queue : ReadyQueue) : Bool :=
  queue.completed == queue.pending.size

end ReadyQueue

end BatchFlow
