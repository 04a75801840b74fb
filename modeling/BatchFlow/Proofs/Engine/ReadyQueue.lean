import BatchFlow.Engine.ReadyQueue
import BatchFlow.Proofs.Graph.Walk

/-!
# The order in which stages are released

The queue keeps one invariant: for every stage it counts the edges into it whose
earlier end is not completed, and the released stages are those without such an
edge that are not yet completed.  So stages leave the queue after all their
predecessors, and if the edges form no cycle, every stage leaves it once.
-/

namespace BatchFlow

open StageGraph

namespace ReadyQueue

section CloseEdge

variable {laters : List StageId}

theorem get?_foldl_closeEdge (nodup : laters.Nodup) (queue : ReadyQueue) (id : StageId) :
    (laters.foldl closeEdge queue).pending.get? id =
      if id ∈ laters then (queue.pending.get? id).map (· - 1) else queue.pending.get? id := by
  induction laters generalizing queue with
  | nil => simp
  | cons later rest ih =>
      obtain ⟨fresh, restNodup⟩ := List.nodup_cons.mp nodup
      rw [List.foldl_cons, ih restNodup]
      have closed : (queue.closeEdge later).pending.get? id =
          if id = later then (queue.pending.get? id).map (· - 1) else queue.pending.get? id := by
        by_cases same : id = later
        · subst same
          cases counts : queue.pending.get? id <;> simp [closeEdge, counts]
        · cases counts : queue.pending.get? later <;>
            simp [closeEdge, counts, same, OrderedMap.get?_insert]
      rw [closed]
      by_cases same : id = later
      · simp [same, fresh]
      · simp [same]

theorem mem_foldl_closeEdge (nodup : laters.Nodup) (queue : ReadyQueue) (id : StageId) :
    id ∈ (laters.foldl closeEdge queue).ready ↔
      id ∈ queue.ready ∨ id ∈ laters ∧
        ∃ count, queue.pending.get? id = some count ∧ count - 1 = 0 := by
  induction laters generalizing queue with
  | nil => simp
  | cons later rest ih =>
      obtain ⟨fresh, restNodup⟩ := List.nodup_cons.mp nodup
      rw [List.foldl_cons, ih restNodup]
      have unchanged (member : id ∈ rest) :
          (queue.closeEdge later).pending.get? id = queue.pending.get? id := by
        have different : id ≠ later := fun same => fresh (same ▸ member)
        cases counts : queue.pending.get? later <;>
          simp [closeEdge, counts, different, OrderedMap.get?_insert]
      have released : id ∈ (queue.closeEdge later).ready ↔
          id ∈ queue.ready ∨ id = later ∧
            ∃ count, queue.pending.get? id = some count ∧ count - 1 = 0 := by
        cases counts : queue.pending.get? later with
        | none =>
            have absent (same : id = later) : queue.pending.get? id = none := same ▸ counts
            simp only [closeEdge, counts]
            constructor
            · exact .inl
            · rintro (old | ⟨same, count, found, -⟩)
              · exact old
              · simp [absent same] at found
        | some count =>
            simp only [closeEdge, counts]
            by_cases last : count - 1 = 0
            · rw [if_pos last, List.mem_append, List.mem_singleton]
              constructor
              · rintro (old | rfl)
                · exact .inl old
                · exact .inr ⟨rfl, count, counts, last⟩
              · rintro (old | ⟨same, -⟩)
                · exact .inl old
                · exact .inr same
            · rw [if_neg last]
              constructor
              · exact .inl
              · rintro (old | ⟨rfl, other, found, none⟩)
                · exact old
                · obtain rfl : count = other := Option.some.inj (counts ▸ found)
                  exact absurd none last
      rw [released, List.mem_cons]
      constructor
      · rintro ((old | ⟨same, found⟩) | ⟨member, count, found, none⟩)
        · exact .inl old
        · exact .inr ⟨.inl same, found⟩
        · exact .inr ⟨.inr member, count, unchanged member ▸ found, none⟩
      · rintro (old | ⟨same | member, count, found, none⟩)
        · exact .inl (.inl old)
        · exact .inl (.inr ⟨same, count, found, none⟩)
        · exact .inr ⟨member, count, (unchanged member).symm ▸ found, none⟩

theorem nodup_foldl_closeEdge (nodup : laters.Nodup) {queue : ReadyQueue}
    (readyNodup : queue.ready.Nodup) (disjoint : ∀ id ∈ laters, id ∉ queue.ready) :
    (laters.foldl closeEdge queue).ready.Nodup := by
  induction laters generalizing queue with
  | nil => exact readyNodup
  | cons later rest ih =>
      obtain ⟨fresh, restNodup⟩ := List.nodup_cons.mp nodup
      have notReady : later ∉ queue.ready := disjoint later (by simp)
      rw [List.foldl_cons]
      refine ih restNodup ?_ fun id member => ?_
      · rw [closeEdge]
        split
        · exact readyNodup
        · dsimp only
          split
          · rw [List.nodup_append]
            refine ⟨readyNodup, List.nodup_singleton _, fun old isOld other isLater => ?_⟩
            rw [List.mem_singleton.mp isLater]
            exact fun same => notReady (same ▸ isOld)
          · exact readyNodup
      · have different : id ≠ later := fun same => fresh (same ▸ member)
        have old : id ∉ queue.ready := disjoint id (by simp [member])
        rw [closeEdge]
        split
        · exact old
        · dsimp only
          split
          · simp [old, different]
          · exact old

@[simp]
theorem edges_foldl_closeEdge (laters : List StageId) (queue : ReadyQueue) :
    (laters.foldl closeEdge queue).edges = queue.edges := by
  induction laters generalizing queue with
  | nil => rfl
  | cons later rest ih =>
      rw [List.foldl_cons, ih, closeEdge]
      split <;> rfl

@[simp]
theorem completed_foldl_closeEdge (laters : List StageId) (queue : ReadyQueue) :
    (laters.foldl closeEdge queue).completed = queue.completed := by
  induction laters generalizing queue with
  | nil => rfl
  | cons later rest ih =>
      rw [List.foldl_cons, ih, closeEdge]
      split <;> rfl

end CloseEdge

section Counting

/-- The number of edges into a stage whose earlier end is not done. -/
def openEdges (graph : StageGraph) (done : List StageId) (id : StageId) : Nat :=
  graph.edges.elements.countP fun edge => edge.later = id ∧ edge.earlier ∉ done

variable {graph : StageGraph} {done : List StageId} {id next : StageId}

theorem openEdges_eq_zero_iff :
    openEdges graph done id = 0 ↔ ∀ predecessor ∈ graph.predecessors id, predecessor ∈ done := by
  rw [openEdges, List.countP_eq_zero]
  constructor
  · intro none predecessor isPredecessor
    by_contra isOpen
    have edge := mem_predecessors.mp isPredecessor
    exact none _ edge (by simpa using isOpen)
  · intro all edge member isOpen
    obtain ⟨rfl, notDone⟩ := of_decide_eq_true isOpen
    exact notDone (all _ (mem_predecessors.mpr member))

/-- Completing a stage closes the edge from it, if there is one. -/
theorem openEdges_concat (fresh : next ∉ done) :
    openEdges graph done id =
      openEdges graph (done ++ [next]) id + if next ∈ graph.predecessors id then 1 else 0 := by
  have countEdge : (if next ∈ graph.predecessors id then 1 else 0) =
      graph.edges.elements.count ⟨next, id⟩ := by
    rw [List.Nodup.count graph.edges.nodup_elements]
    exact if_congr mem_predecessors rfl rfl
  have counts (edges : List Edge) :
      edges.countP (fun edge => edge.later = id ∧ edge.earlier ∉ done) =
        edges.countP (fun edge => edge.later = id ∧ edge.earlier ∉ done ++ [next]) +
          edges.count ⟨next, id⟩ := by
    induction edges with
    | nil => rfl
    | cons edge edges ih =>
        rw [List.countP_cons, List.countP_cons, List.count_cons, ih]
        by_cases same : edge = ⟨next, id⟩
        · subst same
          simp [fresh]
          omega
        · have unequal : (edge == ⟨next, id⟩) = false := by simpa using same
          have sameTest : (edge.later = id ∧ edge.earlier ∉ done) ↔
              (edge.later = id ∧ edge.earlier ∉ done ++ [next]) := by
            rw [List.mem_append, List.mem_singleton]
            refine and_congr_right fun isLater => not_congr ⟨.inl, ?_⟩
            rintro (isDone | isNext)
            · exact isDone
            · exact absurd (by rw [← isLater, ← isNext]) same
          simp only [unequal, sameTest]
          simp
          omega
  rw [countEdge]
  exact counts _

end Counting

/-- The queue after some stages were taken and some of these completed. -/
structure Underway (graph : StageGraph) (taken done : List StageId) (queue : ReadyQueue) :
    Prop where
  edges : queue.edges = graph.edges.elements
  pending : ∀ id, queue.pending.get? id =
    if id ∈ graph.stageIds then some (openEdges graph done id) else none
  ready : ∀ id, id ∈ queue.ready ↔
    id ∈ graph.stageIds ∧ id ∉ taken ∧ ∀ predecessor ∈ graph.predecessors id, predecessor ∈ done
  readyNodup : queue.ready.Nodup
  takenNodup : taken.Nodup
  takenExist : ∀ id ∈ taken, id ∈ graph.stageIds
  takenAfter : ∀ id ∈ taken, ∀ predecessor ∈ graph.predecessors id, predecessor ∈ done
  doneNodup : done.Nodup
  doneTaken : ∀ id ∈ done, id ∈ taken
  ordered : graph.PredecessorsFirst done
  completed : queue.completed = done.length

variable {graph : StageGraph} {taken done : List StageId} {queue : ReadyQueue} {next : StageId}
  {rest : List StageId}

theorem mem_laters {id : StageId} (sameEdges : queue.edges = graph.edges.elements) :
    id ∈ (queue.edges.filter fun edge => edge.earlier == next).map Edge.later ↔
      next ∈ graph.predecessors id := by
  rw [sameEdges, mem_predecessors, List.mem_map]
  constructor
  · rintro ⟨edge, member, rfl⟩
    obtain ⟨inEdges, fromNext⟩ := List.mem_filter.mp member
    rwa [← beq_iff_eq.mp fromNext]
  · intro edge
    exact ⟨_, List.mem_filter.mpr ⟨edge, beq_self_eq_true _⟩, rfl⟩

theorem nodup_laters (next : StageId) (sameEdges : queue.edges = graph.edges.elements) :
    ((queue.edges.filter fun edge => edge.earlier == next).map Edge.later).Nodup := by
  rw [sameEdges]
  refine List.Nodup.map_on ?_ (graph.edges.nodup_elements.filter _)
  rintro ⟨earlier, later⟩ first ⟨earlier', later'⟩ second rfl
  have isNext := beq_iff_eq.mp (List.mem_filter.mp first).2
  have isNext' := beq_iff_eq.mp (List.mem_filter.mp second).2
  rw [show earlier = earlier' from isNext.trans isNext'.symm]

theorem nodup_concat {ids : List StageId} (nodup : ids.Nodup) (fresh : next ∉ ids) :
    (ids ++ [next]).Nodup :=
  List.nodup_append.mpr ⟨nodup, List.nodup_singleton _, fun _ isOld _ isNext same =>
    fresh (List.mem_singleton.mp isNext ▸ same ▸ isOld)⟩

namespace Underway

variable (underway : Underway graph taken done queue)

include underway

/-- A released stage exists, is not yet taken, and waits for nothing. -/
theorem released (isReady : queue.ready = next :: rest) :
    next ∈ graph.stageIds ∧ next ∉ taken ∧ ∀ predecessor ∈ graph.predecessors next,
      predecessor ∈ done :=
  (underway.ready next).mp (isReady ▸ List.mem_cons_self)

/-- Taking a released stage. -/
theorem take (isReady : queue.ready = next :: rest) :
    Underway graph (taken ++ [next]) done { queue with ready := rest } := by
  obtain ⟨isStage, fresh, waitsForNone⟩ := underway.released isReady
  obtain ⟨notInRest, restNodup⟩ := List.nodup_cons.mp (isReady ▸ underway.readyNodup)
  refine { underway with
    ready := fun id => ?_
    readyNodup := restNodup
    takenNodup := nodup_concat underway.takenNodup fresh
    takenExist := fun id member => ?_
    takenAfter := fun id member => ?_
    doneTaken := fun id member => List.mem_append_left _ (underway.doneTaken id member) }
  · have inReady : id ∈ next :: rest ↔ _ := isReady ▸ underway.ready id
    by_cases same : id = next
    · subst same
      simp [notInRest]
    · simpa [same] using inReady
  · rcases List.mem_append.mp member with old | isNext
    · exact underway.takenExist id old
    · exact List.mem_singleton.mp isNext ▸ isStage
  · rcases List.mem_append.mp member with old | isNext
    · exact underway.takenAfter id old
    · exact List.mem_singleton.mp isNext ▸ waitsForNone

section Complete

variable (fresh : next ∉ done)

include fresh

theorem get?_pending_complete (id : StageId) :
    (queue.complete next).pending.get? id =
      if id ∈ graph.stageIds then some (openEdges graph (done ++ [next]) id) else none := by
  rw [complete, get?_foldl_closeEdge (nodup_laters next underway.edges)]
  simp only [mem_laters underway.edges, underway.pending id]
  by_cases member : id ∈ graph.stageIds
  · rw [if_pos member, if_pos member, openEdges_concat fresh]
    split <;> simp
  · simp [member]

/-- A stage that waits for one not completed has not been taken. -/
theorem not_taken_of_waits {id : StageId} (waits : next ∈ graph.predecessors id) : id ∉ taken :=
  fun old => fresh (underway.takenAfter id old next waits)

theorem mem_ready_complete (id : StageId) :
    id ∈ (queue.complete next).ready ↔
      id ∈ graph.stageIds ∧ id ∉ taken ∧
        ∀ predecessor ∈ graph.predecessors id, predecessor ∈ done ++ [next] := by
  rw [complete, mem_foldl_closeEdge (nodup_laters next underway.edges)]
  simp only [mem_laters underway.edges, underway.pending id, underway.ready id]
  constructor
  · rintro (⟨member, notTaken, allDone⟩ | ⟨waits, count, isCount, last⟩)
    · exact ⟨member, notTaken, fun predecessor isPredecessor =>
        List.mem_append_left _ (allDone predecessor isPredecessor)⟩
    · obtain ⟨member, isCount⟩ := Option.ite_none_right_eq_some.mp isCount
      obtain rfl := Option.some.inj isCount
      rw [openEdges_concat fresh, if_pos waits, Nat.add_sub_cancel, openEdges_eq_zero_iff] at last
      exact ⟨member, underway.not_taken_of_waits fresh waits, last⟩
  · rintro ⟨member, notTaken, allDone⟩
    by_cases waits : next ∈ graph.predecessors id
    · refine .inr ⟨waits, _, if_pos member, ?_⟩
      rw [openEdges_concat fresh, if_pos waits, Nat.add_sub_cancel]
      exact openEdges_eq_zero_iff.mpr allDone
    · refine .inl ⟨member, notTaken, fun predecessor isPredecessor => ?_⟩
      rcases List.mem_append.mp (allDone predecessor isPredecessor) with isDone | isNext
      · exact isDone
      · exact absurd (List.mem_singleton.mp isNext ▸ isPredecessor) waits

/-- Completing a stage that was taken. -/
theorem complete (isTaken : next ∈ taken) :
    Underway graph taken (done ++ [next]) (queue.complete next) where
  edges := by rw [ReadyQueue.complete, edges_foldl_closeEdge]; exact underway.edges
  pending := underway.get?_pending_complete fresh
  ready := underway.mem_ready_complete fresh
  readyNodup := by
    rw [ReadyQueue.complete]
    refine nodup_foldl_closeEdge (nodup_laters next underway.edges) underway.readyNodup ?_
    intro id waits isReady
    exact fresh (((underway.ready id).mp isReady).2.2 next ((mem_laters underway.edges).mp waits))
  takenNodup := underway.takenNodup
  takenExist := underway.takenExist
  takenAfter id member predecessor isPredecessor :=
    List.mem_append_left _ (underway.takenAfter id member predecessor isPredecessor)
  doneNodup := nodup_concat underway.doneNodup fresh
  doneTaken id member := by
    rcases List.mem_append.mp member with old | isNext
    · exact underway.doneTaken id old
    · exact List.mem_singleton.mp isNext ▸ isTaken
  ordered := underway.ordered.concat (underway.takenAfter next isTaken)
  completed := by
    rw [ReadyQueue.complete, completed_foldl_closeEdge, List.length_append,
      ← underway.completed]
    rfl

end Complete

/-- The queue counts open edges for every stage of the graph. -/
theorem size_pending : queue.pending.size = graph.stageIds.length := by
  have sameKeys : queue.pending.keys.Perm graph.stageIds := by
    refine (List.perm_ext_iff_of_nodup (OrderedMap.nodup_keys _) graph.nodup_stageIds).mpr ?_
    intro id
    rw [OrderedMap.mem_keys_iff, underway.pending]
    by_cases member : id ∈ graph.stageIds <;> simp [member]
  rw [← sameKeys.length_eq]
  simp [OrderedMap.keys, OrderedMap.size]

end Underway

/-- The queue after some stages are completed, each before the next was taken. -/
structure Releasing (graph : StageGraph) (done : List StageId) (queue : ReadyQueue) : Prop where
  edges : queue.edges = graph.edges.elements
  pending : ∀ id, queue.pending.get? id =
    if id ∈ graph.stageIds then some (openEdges graph done id) else none
  ready : ∀ id, id ∈ queue.ready ↔
    id ∈ graph.stageIds ∧ id ∉ done ∧ ∀ predecessor ∈ graph.predecessors id, predecessor ∈ done
  readyNodup : queue.ready.Nodup
  doneNodup : done.Nodup
  doneExist : ∀ id ∈ done, id ∈ graph.stageIds
  ordered : graph.PredecessorsFirst done
  completed : queue.completed = done.length

theorem Underway.releasing (underway : Underway graph done done queue) :
    Releasing graph done queue where
  edges := underway.edges
  pending := underway.pending
  ready := underway.ready
  readyNodup := underway.readyNodup
  doneNodup := underway.doneNodup
  doneExist := underway.takenExist
  ordered := underway.ordered
  completed := underway.completed

theorem Releasing.underway (releasing : Releasing graph done queue) :
    Underway graph done done queue where
  edges := releasing.edges
  pending := releasing.pending
  ready := releasing.ready
  readyNodup := releasing.readyNodup
  takenNodup := releasing.doneNodup
  takenExist := releasing.doneExist
  takenAfter _ member _ isPredecessor := releasing.ordered.closed member isPredecessor
  doneNodup := releasing.doneNodup
  doneTaken _ member := member
  ordered := releasing.ordered
  completed := releasing.completed

theorem Releasing.next_released (releasing : Releasing graph done queue)
    (isReady : queue.ready = next :: rest) :
    next ∈ graph.stageIds ∧ next ∉ done ∧ ∀ predecessor ∈ graph.predecessors next,
      predecessor ∈ done :=
  releasing.underway.released isReady

/-- Taking a released stage and completing it at once. -/
theorem Releasing.step (releasing : Releasing graph done queue)
    (isReady : queue.ready = next :: rest) :
    Releasing graph (done ++ [next]) ({ queue with ready := rest }.complete next) := by
  have taken := releasing.underway.take isReady
  have fresh : next ∉ done := (releasing.underway.released isReady).2.1
  exact (taken.complete fresh (by simp)).releasing

theorem get?_foldl_upsert_of_some (edges : List Edge) {pending : OrderedMap StageId Nat}
    {id : StageId} {count : Nat} (found : pending.get? id = some count) :
    (edges.foldl (fun pending edge =>
      pending.upsert edge.later fun count => count.getD 0 + 1) pending).get? id =
        some (count + edges.countP fun edge => edge.later = id) := by
  induction edges generalizing pending count with
  | nil => exact found
  | cons edge edges ih =>
      rw [List.foldl_cons, List.countP_cons]
      by_cases same : id = edge.later
      · have counted : (pending.upsert edge.later fun count => count.getD 0 + 1).get? id =
            some (count + 1) := by
          rw [OrderedMap.get?_upsert, if_pos same, ← same, found]
          rfl
        rw [ih counted]
        simp [same]
        omega
      · have kept : (pending.upsert edge.later fun count => count.getD 0 + 1).get? id =
            some count := by
          rw [OrderedMap.get?_upsert, if_neg same, found]
        rw [ih kept]
        simp [Ne.symm same]

theorem get?_foldl_upsert_of_none (edges : List Edge) {pending : OrderedMap StageId Nat}
    {id : StageId} (found : pending.get? id = none) (others : ∀ edge ∈ edges, edge.later ≠ id) :
    (edges.foldl (fun pending edge =>
      pending.upsert edge.later fun count => count.getD 0 + 1) pending).get? id = none := by
  induction edges generalizing pending with
  | nil => exact found
  | cons edge edges ih =>
      obtain ⟨other, othersRest⟩ := List.forall_mem_cons.mp others
      rw [List.foldl_cons]
      exact ih (by rw [OrderedMap.get?_upsert, if_neg (Ne.symm other), found]) othersRest

/-- Before any stage is taken, those without predecessors are released. -/
theorem Underway.initial (exist : graph.EdgesExist) : Underway graph [] [] (ofGraph graph) := by
  have pending (id : StageId) : (ofGraph graph).pending.get? id =
      if id ∈ graph.stageIds then some (openEdges graph [] id) else none := by
    by_cases member : id ∈ graph.stageIds
    · obtain ⟨stage, found⟩ := mem_stageIds.mp member
      have start : (graph.stageMap.mapValues fun _ => 0).get? id = some 0 := by
        rw [OrderedMap.get?_mapValues]
        exact congrArg (Option.map fun _ => 0) found
      rw [if_pos member]
      refine (get?_foldl_upsert_of_some graph.edges.elements start).trans ?_
      simp [openEdges]
    · have start : (graph.stageMap.mapValues fun _ => 0).get? id = none := by
        rw [OrderedMap.get?_mapValues, Option.map_eq_none_iff]
        cases found : graph.stage? id with
        | none => exact found
        | some stage => exact absurd (mem_stageIds.mpr ⟨stage, found⟩) member
      rw [if_neg member]
      refine get?_foldl_upsert_of_none graph.edges.elements start fun edge inEdges same => ?_
      exact member (same ▸ (exist edge inEdges).2)
  refine ⟨rfl, pending, fun id => ?_, OrderedMap.nodup_keys _, List.nodup_nil, by simp, by simp,
    List.nodup_nil, by simp, fun before id after split => by simp at split, rfl⟩
  have released : id ∈ (ofGraph graph).ready ↔ (ofGraph graph).pending.get? id = some 0 := by
    show id ∈ ((ofGraph graph).pending.filter fun _ count => count == 0).keys ↔ _
    rw [OrderedMap.mem_keys_iff]
    simp [OrderedMap.get?_filter, Option.filter_eq_some_iff]
  rw [released, pending]
  by_cases member : id ∈ graph.stageIds
  · simp [member, openEdges_eq_zero_iff]
  · simp [member]

theorem Releasing.initial (exist : graph.EdgesExist) : Releasing graph [] (ofGraph graph) :=
  (Underway.initial exist).releasing

/-- The stages that leave the queue when each is completed before the next is
taken, and the queue after the last of them. -/
def drain : (fuel : Nat) → ReadyQueue → List StageId × ReadyQueue
  | 0, queue => ([], queue)
  | fuel + 1, queue =>
      match queue.pop with
      | none => ([], queue)
      | some (next, queue) =>
          let rest := drain fuel (queue.complete next)
          (next :: rest.1, rest.2)

theorem drain_of_ready (fuel : Nat) (isReady : queue.ready = next :: rest) :
    queue.drain (fuel + 1) =
      (next :: (({ queue with ready := rest }.complete next).drain fuel).1,
        (({ queue with ready := rest }.complete next).drain fuel).2) := by
  rw [drain, pop, isReady]

theorem drain_of_stuck (fuel : Nat) (isReady : queue.ready = []) :
    queue.drain fuel = ([], queue) := by
  cases fuel with
  | zero => rfl
  | succ fuel => rw [drain, pop, isReady]

theorem Releasing.drain (fuel : Nat) (releasing : Releasing graph done queue) :
    Releasing graph (done ++ (queue.drain fuel).1) (queue.drain fuel).2 ∧
      ((queue.drain fuel).1.length = fuel ∨ (queue.drain fuel).2.ready = []) := by
  induction fuel generalizing done queue with
  | zero =>
      refine ⟨?_, .inl rfl⟩
      rwa [ReadyQueue.drain, List.append_nil]
  | succ fuel ih =>
      cases isReady : queue.ready with
      | nil =>
          rw [drain_of_stuck _ isReady, List.append_nil]
          exact ⟨releasing, .inr isReady⟩
      | cons next rest =>
          obtain ⟨drained, ends⟩ := ih (releasing.step isReady)
          rw [drain_of_ready fuel isReady]
          refine ⟨?_, ends.imp (fun length => by rw [List.length_cons, length]) fun stuck => stuck⟩
          rwa [List.append_assoc, List.singleton_append] at drained

/-- Without a cycle, some stage is released until all are completed. -/
theorem Releasing.covers_of_stuck {rank : StageId → Nat} (ranked : graph.Ranked rank)
    (exist : graph.EdgesExist) (releasing : Releasing graph done queue)
    (isReady : queue.ready = []) : ∀ id ∈ graph.stageIds, id ∈ done := by
  intro id member
  induction level : rank id using Nat.strong_induction_on generalizing id with
  | _ level ih =>
      subst level
      by_contra notDone
      have released : id ∈ queue.ready := by
        refine (releasing.ready id).mpr ⟨member, notDone, fun predecessor isPredecessor => ?_⟩
        have edge := mem_predecessors.mp isPredecessor
        exact ih _ (ranked _ edge) predecessor (exist _ edge).1 rfl
      exact absurd (isReady ▸ released) List.not_mem_nil

/-- The order in which the stages of a graph are taken. -/
def releaseOrder (graph : StageGraph) : List StageId :=
  ((ofGraph graph).drain graph.size).1

/-- If the edges form no cycle, every stage is taken once, after all its
predecessors, and the queue is finished then. -/
theorem releaseOrder_covers {rank : StageId → Nat} (ranked : graph.Ranked rank)
    (exist : graph.EdgesExist) :
    (releaseOrder graph).Perm graph.stageIds ∧ graph.PredecessorsFirst (releaseOrder graph) ∧
      ((ofGraph graph).drain graph.size).2.isFinished = true := by
  obtain ⟨drained, ends⟩ := (Releasing.initial exist).drain graph.size
  rw [List.nil_append] at drained
  have subperm := List.subperm_of_subset drained.doneNodup fun id => drained.doneExist id
  have all : (releaseOrder graph).Perm graph.stageIds := by
    rcases ends with length | stuck
    · exact subperm.perm_of_length_le (by rw [length, length_stageIds])
    · have covers := drained.covers_of_stuck ranked exist stuck
      exact subperm.antisymm (List.subperm_of_subset graph.nodup_stageIds fun id => covers id)
  refine ⟨all, drained.ordered, ?_⟩
  have sameSize : ((ofGraph graph).drain graph.size).2.pending.size = graph.stageIds.length :=
    drained.underway.size_pending
  rw [isFinished, drained.completed, sameSize]
  exact beq_iff_eq.mpr all.length_eq

end ReadyQueue

end BatchFlow
