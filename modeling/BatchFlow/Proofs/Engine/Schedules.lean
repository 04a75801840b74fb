import BatchFlow.Proofs.Engine.ReadyQueue

/-!
# Stages in flight

Any number of released stages may be taken before one of them is completed.  The
invariant of the queue speaks of the stages taken and of those completed apart from
each other, and it is kept by every order of taking and completing.  When nothing is
released and nothing is in flight any more, a stage that is not completed waits for
another such stage, and going back along these edges ends on a cycle.
-/

namespace BatchFlow

open StageGraph

namespace StageGraph

variable {graph : StageGraph}

/-- The stage is on a cycle of edges, or a path of edges leads to it from one. -/
def BehindCycle (graph : StageGraph) (id : StageId) : Prop :=
  ∃ onCycle, Relation.TransGen graph.Precedes onCycle onCycle ∧
    Relation.ReflTransGen graph.Precedes onCycle id

theorem BehindCycle.later {earlier later : StageId} (behind : graph.BehindCycle earlier)
    (precedes : graph.Precedes earlier later) : graph.BehindCycle later := by
  obtain ⟨onCycle, cycle, leads⟩ := behind
  exact ⟨onCycle, cycle, leads.tail precedes⟩

/-- A path of edges into an order stays in it, and goes forwards. -/
theorem PredecessorsFirst.idxOf_lt_of_path {order : List StageId}
    (ordered : graph.PredecessorsFirst order) (nodup : order.Nodup) {first last : StageId}
    (path : Relation.TransGen graph.Precedes first last) (member : last ∈ order) :
    order.idxOf first < order.idxOf last := by
  induction path with
  | single precedes => exact ordered.idxOf_lt nodup member (mem_predecessors.mpr precedes)
  | @tail middle last _ precedes ih =>
      have isPredecessor := mem_predecessors.mpr precedes
      have forwards := ordered.idxOf_lt nodup member isPredecessor
      exact (ih (ordered.closed member isPredecessor)).trans forwards

/-- No stage of an order is behind a cycle. -/
theorem PredecessorsFirst.not_behindCycle {order : List StageId}
    (ordered : graph.PredecessorsFirst order) (nodup : order.Nodup) {id : StageId}
    (member : id ∈ order) : ¬ graph.BehindCycle id := by
  rintro ⟨onCycle, cycle, leads⟩
  have inOrder : onCycle ∈ order := by
    clear cycle
    induction leads with
    | refl => exact member
    | tail _ precedes ih => exact ih (ordered.closed member (mem_predecessors.mpr precedes))
  exact lt_irrefl _ (ordered.idxOf_lt_of_path nodup cycle inOrder)

theorem acyclic_iff_not_behindCycle (exist : graph.EdgesExist) :
    graph.Acyclic ↔ ∀ id ∈ graph.stageIds, ¬ graph.BehindCycle id := by
  constructor
  · rintro acyclic id - ⟨onCycle, cycle, -⟩
    exact acyclic onCycle cycle
  · intro none id cycle
    obtain ⟨next, precedes, -⟩ := Relation.TransGen.head'_iff.mp cycle
    exact none id (exist _ precedes).1 ⟨id, cycle, .refl⟩

end StageGraph

namespace ReadyQueue

/-- The queue of a graph after some stages have been taken and some of them completed,
in any order: a stage is completed once, after it was taken. -/
inductive Schedule (graph : StageGraph) :
    (taken done : List StageId) → ReadyQueue → Prop
  | start : Schedule graph [] [] (ofGraph graph)
  | pop {taken done : List StageId} {queue rest : ReadyQueue} {next : StageId}
      (earlier : Schedule graph taken done queue) (popped : queue.pop = some (next, rest)) :
      Schedule graph (taken ++ [next]) done rest
  | complete {taken done : List StageId} {queue : ReadyQueue} {id : StageId}
      (earlier : Schedule graph taken done queue) (isTaken : id ∈ taken) (once : id ∉ done) :
      Schedule graph taken (done ++ [id]) (queue.complete id)

variable {graph : StageGraph} {taken done : List StageId} {queue : ReadyQueue}

theorem pop_eq_some {next : StageId} {after : ReadyQueue} :
    queue.pop = some (next, after) ↔
      ∃ rest, queue.ready = next :: rest ∧ after = { queue with ready := rest } := by
  unfold pop
  cases queue.ready with
  | nil => simp
  | cons first rest => simp [eq_comm]

theorem pop_eq_none : queue.pop = none ↔ queue.ready = [] := by
  unfold pop
  cases queue.ready with
  | nil => simp
  | cons first rest => simp

/-- Every schedule keeps the invariant of the queue. -/
theorem Schedule.underway (exist : graph.EdgesExist) (schedule : Schedule graph taken done queue) :
    Underway graph taken done queue := by
  induction schedule with
  | start => exact .initial exist
  | pop _ popped ih =>
      obtain ⟨rest, isReady, rfl⟩ := pop_eq_some.mp popped
      exact ih.take isReady
  | complete _ isTaken once ih => exact ih.complete once isTaken

namespace Underway

variable (underway : Underway graph taken done queue)

include underway

theorem doneExist {id : StageId} (member : id ∈ done) : id ∈ graph.stageIds :=
  underway.takenExist id (underway.doneTaken id member)

theorem perm_filter_done : (graph.stageIds.filter (· ∈ done)).Perm done := by
  apply (List.perm_ext_iff_of_nodup (graph.nodup_stageIds.filter _) underway.doneNodup).mpr
  intro id
  simp only [List.mem_filter, decide_eq_true_iff]
  constructor
  · exact And.right
  · intro member
    exact ⟨underway.doneExist member, member⟩

/-- The stages left are those not completed. -/
theorem remaining_eq : queue.remaining = (graph.stageIds.filter (· ∉ done)).length := by
  have parts := graph.stageIds.length_eq_length_filter_add (· ∈ done)
  have completed := underway.perm_filter_done.length_eq
  simp only [decide_not]
  rw [remaining, underway.size_pending, underway.completed]
  omega

theorem isFinished_iff : queue.isFinished = true ↔ ∀ id ∈ graph.stageIds, id ∈ done := by
  have parts := graph.stageIds.length_eq_length_filter_add (· ∈ done)
  have completed := underway.perm_filter_done.length_eq
  rw [isFinished, beq_iff_eq, underway.size_pending, underway.completed]
  constructor
  · intro all id member
    have noneLeft : (graph.stageIds.filter fun id => !decide (id ∈ done)).length = 0 := by
      omega
    simpa using List.filter_eq_nil_iff.mp (List.length_eq_zero_iff.mp noneLeft) id member
  · intro all
    have isAll : graph.stageIds.filter (· ∈ done) = graph.stageIds :=
      List.filter_eq_self.mpr fun id member => by simpa using all id member
    rw [← completed, isAll]

/-- Once nothing is released and nothing in flight, the stages that are not completed are
those behind a cycle. -/
theorem mem_done_iff (exist : graph.EdgesExist) (stuck : queue.ready = [])
    (idle : ∀ id ∈ taken, id ∈ done) {id : StageId} :
    id ∈ done ↔ id ∈ graph.stageIds ∧ ¬ graph.BehindCycle id := by
  constructor
  · intro member
    exact ⟨underway.doneExist member,
      underway.ordered.not_behindCycle underway.doneNodup member⟩
  · rintro ⟨isStage, free⟩
    -- By induction on the number of ancestors: none of a free stage is on a cycle.
    induction count : (graph.ancestors id).card using Nat.strong_induction_on generalizing id with
    | _ count ih =>
        subst count
        by_contra notDone
        have released : id ∈ queue.ready := by
          apply (underway.ready id).mpr
          refine ⟨isStage, mt (idle id) notDone, fun predecessor isPredecessor => ?_⟩
          have precedes : graph.Precedes predecessor id := mem_predecessors.mp isPredecessor
          have freeToo : ¬ graph.BehindCycle predecessor := mt (·.later precedes) free
          have noCycle : ¬ Relation.TransGen graph.Precedes predecessor predecessor :=
            fun cycle => freeToo ⟨predecessor, cycle, .refl⟩
          exact ih _ (card_ancestors_lt precedes noCycle) (exist _ precedes).1 freeToo rfl
        simp [stuck] at released

end Underway

/-- In every schedule a stage is taken at most once, after all its predecessors are
completed, and the queue counts the stages not completed.  When it has none to give and
nothing is in flight, exactly the stages behind no cycle are completed, so the queue is
finished then if and only if the graph has an order. -/
theorem schedule_correct (exist : graph.EdgesExist) (schedule : Schedule graph taken done queue) :
    taken.Nodup ∧
      (∀ next rest, queue.pop = some (next, rest) →
        next ∉ taken ∧ ∀ predecessor ∈ graph.predecessors next, predecessor ∈ done) ∧
      queue.remaining = (graph.stageIds.filter (· ∉ done)).length ∧
      (queue.pop = none → (∀ id ∈ taken, id ∈ done) →
        (∀ id, id ∈ done ↔ id ∈ graph.stageIds ∧ ¬ graph.BehindCycle id) ∧
          (queue.isFinished = true ↔ ∃ order, graph.order = .ok order)) := by
  have underway := schedule.underway exist
  refine ⟨underway.takenNodup, fun next after popped => ?_, underway.remaining_eq,
    fun stuck idle => ?_⟩
  · obtain ⟨rest, isReady, -⟩ := pop_eq_some.mp popped
    exact (underway.released isReady).2
  · have completed (id : StageId) : id ∈ done ↔ id ∈ graph.stageIds ∧ ¬ graph.BehindCycle id :=
      underway.mem_done_iff exist (pop_eq_none.mp stuck) idle
    refine ⟨completed, ?_⟩
    rw [underway.isFinished_iff, exists_order_iff_acyclic, acyclic_iff_not_behindCycle exist]
    constructor
    · intro all
      exact ⟨exist, fun id member => ((completed id).mp (all id member)).2⟩
    · rintro ⟨-, free⟩ id member
      exact (completed id).mpr ⟨member, free id member⟩

/-- Two stages side by side, one after both, and a cycle of two behind it. -/
def loopedGraph : StageGraph where
  stageMap := .ofList ([0, 1, 2, 3, 4].map fun id => (⟨id⟩, ⟨⟨id⟩, .ordinary, .empty, {}⟩))
  edges := .ofList [⟨⟨0⟩, ⟨2⟩⟩, ⟨⟨1⟩, ⟨2⟩⟩, ⟨⟨2⟩, ⟨3⟩⟩, ⟨⟨3⟩, ⟨4⟩⟩, ⟨⟨4⟩, ⟨3⟩⟩]
  nextId := 5

/-- The queue without the next released stage. -/
def popped (queue : ReadyQueue) : ReadyQueue :=
  { queue with ready := queue.ready.tail }

/-- The queue of the looped graph once the first two stages were in flight together and
the third has been completed after them. -/
def loopedQueue : ReadyQueue :=
  ((((ofGraph loopedGraph).popped.popped.complete ⟨1⟩).complete ⟨0⟩).popped).complete ⟨2⟩

theorem schedule_loopedQueue :
    Schedule loopedGraph [⟨0⟩, ⟨1⟩, ⟨2⟩] [⟨1⟩, ⟨0⟩, ⟨2⟩] loopedQueue := by
  have both : Schedule loopedGraph [⟨0⟩, ⟨1⟩] [] (ofGraph loopedGraph).popped.popped :=
    (Schedule.start.pop rfl).pop rfl
  have completed : Schedule loopedGraph [⟨0⟩, ⟨1⟩] [⟨1⟩, ⟨0⟩]
      (((ofGraph loopedGraph).popped.popped.complete ⟨1⟩).complete ⟨0⟩) :=
    (both.complete (by decide) (by decide)).complete (by decide) (by decide)
  exact (completed.pop rfl).complete (by decide) (by decide)

theorem schedule_correct_loopedQueue :
    loopedGraph.EdgesExist ∧ Schedule loopedGraph [⟨0⟩, ⟨1⟩, ⟨2⟩] [⟨1⟩, ⟨0⟩, ⟨2⟩] loopedQueue ∧
      loopedQueue.pop = none ∧ loopedQueue.remaining = 2 ∧ loopedGraph.BehindCycle ⟨4⟩ ∧
      ¬ ∃ order, loopedGraph.order = .ok order := by
  have exist : loopedGraph.EdgesExist := by
    unfold EdgesExist
    decide
  obtain ⟨-, -, -, ends⟩ := schedule_correct exist schedule_loopedQueue
  obtain ⟨completed, finished⟩ := ends rfl (by decide)
  refine ⟨exist, schedule_loopedQueue, rfl, by decide, ?_, ?_⟩
  · by_contra free
    exact absurd ((completed ⟨4⟩).mpr ⟨by decide, free⟩) (by decide)
  · rw [← finished]
    decide

end ReadyQueue

end BatchFlow
