import BatchFlow.Proofs.Graph.Walk
import Mathlib.Data.List.Chain

/-!
# Orders and cycles

The walk of a graph either lists every stage once, after all its predecessors, or
says why there is no such list: an edge has an end outside the graph, or the edges
form a cycle.  The path of the walk is a path of edges, so coming back to a stage
of it closes a cycle, and this is the cycle that the error prints.
-/

namespace BatchFlow

namespace StageGraph

variable {graph : StageGraph}

/-- Coming back to a stage of a path closes the part of the path up to this stage. -/
theorem isChain_takeWhile {follows : StageId → StageId → Prop} {first last : StageId}
    {path : List StageId} (chain : (first :: path).IsChain follows) (member : last ∈ path) :
    (first :: (path.takeWhile (· != last) ++ [last])).IsChain follows := by
  induction path generalizing first with
  | nil => simp at member
  | cons next path ih =>
      obtain ⟨step, rest⟩ := List.isChain_cons_cons.mp chain
      by_cases found : next = last
      · subst found
        simpa using step
      · have further : last ∈ path := by
          simpa [Ne.symm found] using member
        rw [List.takeWhile_cons_of_pos (by simpa using found)]
        exact List.isChain_cons_cons.mpr ⟨step, ih rest further⟩

/-- Every stage of the path is a predecessor of the one that the walk entered it from. -/
theorem Tracks.isChain {placed : List StageId} {entered : StageId} {path : List Frame}
    (tracks : graph.Tracks placed (some entered) path) :
    (entered :: path.map Frame.stage).IsChain fun inner outer =>
      inner ∈ graph.predecessors outer := by
  induction path generalizing entered with
  | nil => simp
  | cons frame path ih =>
      obtain ⟨-, -, inner, rest⟩ := tracks
      exact List.isChain_cons_cons.mpr ⟨inner entered rfl, ih rest⟩

/-- A path of stages, each waiting for the next, that ends where it begins. -/
structure IsCycle (graph : StageGraph) (path : List StageId) : Prop where
  waits : path.IsChain fun later earlier => earlier ∈ graph.predecessors later
  moves : 2 ≤ path.length
  closed : path.head? = path.getLast?

/-- The error points at a stage of a cycle and prints the cycle. -/
def NamesCycle (graph : StageGraph) (error : PlanError) : Prop :=
  ∃ path stage, graph.IsCycle path ∧ stage ∈ path ∧ error.stage? = some stage ∧
    error.message = PlanError.malformedText (some stage)
      ("stage graph has a cycle: " ++ String.intercalate " <- " (path.map StageId.text))

/-- The error names an edge of the graph and the end of it that does not exist. -/
def NamesDangling (graph : StageGraph) (error : PlanError) : Prop :=
  ∃ edge ∈ graph.edges.elements,
    error = .edgeFromUnknown edge.earlier edge.later ∧ edge.earlier ∉ graph.stageIds ∨
      error = .edgeIntoUnknown edge.earlier edge.later ∧ edge.later ∉ graph.stageIds

theorem Walking.namesCycle {unseen placed : List StageId} {stage next : StageId}
    {pending : List StageId} {path : List Frame} (exist : graph.EdgesExist)
    (walking : graph.Walking unseen placed (⟨stage, next :: pending⟩ :: path))
    (notUnseen : next ∉ unseen) (notPlaced : next ∉ placed) :
    graph.NamesCycle (closedCycle next (⟨stage, pending⟩ :: path)) := by
  obtain ⟨-, isPredecessor, -, rest⟩ := walking.tracks
  have waits : next ∈ graph.predecessors stage := isPredecessor next List.mem_cons_self
  have onPath : next ∈ stage :: path.map Frame.stage := by
    have somewhere := walking.all.mem_iff.mpr (exist _ (mem_predecessors.mp waits)).1
    simpa [notUnseen, notPlaced] using somewhere
  -- The path runs from the innermost frame outwards, the cycle is printed the other way.
  have forwards : (next :: ((stage :: path.map Frame.stage).takeWhile (· != next) ++
      [next])).IsChain fun inner outer => inner ∈ graph.predecessors outer :=
    isChain_takeWhile (List.isChain_cons_cons.mpr ⟨waits, rest.isChain⟩) onPath
  refine ⟨next :: (((stage :: path.map Frame.stage).takeWhile (· != next)).reverse ++ [next]),
    next, ⟨?_, by simp, ?_⟩, List.mem_cons_self, rfl, rfl⟩
  · apply List.isChain_reverse.mp
    simpa using forwards
  · rw [← List.cons_append, List.getLast?_concat]
    rfl

/-- A walk that fails has come back to a stage that it is inside of. -/
theorem walkFrom_error (exist : graph.EdgesExist) {unseen placed : List StageId}
    {path : List Frame} {error : PlanError} (walking : graph.Walking unseen placed path)
    (failed : graph.walkFrom unseen placed path = .error error) : graph.NamesCycle error := by
  fun_induction walkFrom graph unseen placed path with
  | case1 placed => cases failed
  | case2 placed start unseen ih => exact ih walking.start failed
  | case3 unseen placed stage path ih => exact ih walking.place failed
  | case4 unseen placed stage next pending path isUnseen ih =>
      exact ih (walking.enter isUnseen) failed
  | case5 unseen placed stage next pending path _ isPlaced ih =>
      exact ih (walking.skip isPlaced) failed
  | case6 unseen placed stage next pending path notUnseen notPlaced =>
      cases failed
      exact walking.namesCycle exist notUnseen notPlaced

theorem namesDangling_of_danglingEdge? {error : PlanError}
    (found : graph.danglingEdge? = some error) : graph.NamesDangling error := by
  obtain ⟨edge, member, cause⟩ := List.exists_of_findSome?_eq_some found
  refine ⟨edge, member, ?_⟩
  simp only [mem_stageIds, ← contains_stageMap]
  cases isEarlier : graph.stageMap.contains edge.earlier with
  | false =>
      left
      simpa [isEarlier, eq_comm] using cause
  | true =>
      right
      cases isLater : graph.stageMap.contains edge.later with
      | false => simpa [isEarlier, isLater, eq_comm] using cause
      | true => simp [isEarlier, isLater] at cause

theorem order_error {error : PlanError} (failed : graph.order = .error error) :
    ¬ graph.EdgesExist ∧ graph.NamesDangling error ∨
      graph.EdgesExist ∧ graph.NamesCycle error := by
  rw [StageGraph.order] at failed
  split at failed
  case h_1 cause found =>
    cases failed
    left
    refine ⟨fun exist => ?_, namesDangling_of_danglingEdge? found⟩
    rw [danglingEdge?_eq_none_iff.mpr exist] at found
    cases found
  case h_2 noDangling =>
    right
    have exist := danglingEdge?_eq_none_iff.mp noDangling
    exact ⟨exist, walkFrom_error exist (.initial graph) failed⟩

/-- A graph has an order exactly when the ends of all its edges exist and no path of
edges comes back to where it starts.  The order lists every stage once, after all its
predecessors; an error names an edge that leaves the graph, or prints a cycle. -/
theorem order_correct (graph : StageGraph) :
    ((∃ order, graph.order = .ok order) ↔ graph.EdgesExist ∧ graph.Acyclic) ∧
      match graph.order with
      | .ok order =>
          order.Nodup ∧ (∀ id, id ∈ order ↔ ∃ stage, graph.stage? id = some stage) ∧
            graph.PredecessorsFirst order
      | .error error =>
          ¬ graph.EdgesExist ∧ graph.NamesDangling error ∨
            graph.EdgesExist ∧ graph.NamesCycle error := by
  refine ⟨exists_order_iff_acyclic, ?_⟩
  cases ordered : graph.order with
  | ok order =>
      obtain ⟨-, all, first⟩ := order_sound ordered
      refine ⟨all.nodup_iff.mpr graph.nodup_stageIds, fun id => ?_, first⟩
      rw [all.mem_iff, mem_stageIds]
  | error error => exact order_error ordered

end StageGraph

end BatchFlow
