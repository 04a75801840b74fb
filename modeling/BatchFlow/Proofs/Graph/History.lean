import BatchFlow.Proofs.Graph.Insertion

/-!
# Histories of a graph

A graph is edited by calls, of which any may fail.  A call that fails leaves the
graph as it is, and what a call that succeeds changes is one of five effects.  So
the graph stays consistent over every sequence of calls, as long as identifiers
do not run out.
-/

namespace BatchFlow

open Relation Steps

namespace StageGraph

variable {graph next : StageGraph} {id : StageId} {stage : Stage}

/-- A call that edits a graph. -/
inductive Call where
  | addStage (kind : StageKind) (plan : SubPlan) (info : StageMeta)
  | insertStage (stage : Stage)
  | connect (earlier later : StageId)
  | disconnect (earlier later : StageId)
  | insertBetween (earlier later : StageId) (kind : StageKind) (plan : SubPlan) (info : StageMeta)

namespace Call

/-- Carry out a call; its answer is left out. -/
def perform : Call → GraphEdit Unit
  | addStage kind plan info => discard (StageGraph.addStage kind plan info)
  | insertStage stage => StageGraph.insertStage stage
  | connect earlier later => StageGraph.connect earlier later
  | disconnect earlier later => discard (StageGraph.disconnect earlier later)
  | insertBetween earlier later kind plan info =>
      discard (StageGraph.insertBetween earlier later kind plan info)

/-- The identifier of a stage that the call adds is less than the greatest number of 64 bits. -/
def Fits (graph : StageGraph) : Call → Prop
  | addStage _ _ _ => graph.nextId.toNat + 1 < UInt64.size
  | insertStage stage => stage.id.value.toNat + 1 < UInt64.size
  | connect _ _ => True
  | disconnect _ _ => True
  | insertBetween earlier later _ _ _ =>
      graph.hasEdge earlier later = true → graph.nextId.toNat + 1 < UInt64.size

instance (graph : StageGraph) : (call : Call) → Decidable (call.Fits graph)
  | addStage _ _ _ => inferInstanceAs (Decidable (_ < _))
  | insertStage _ => inferInstanceAs (Decidable (_ < _))
  | connect _ _ => inferInstanceAs (Decidable True)
  | disconnect _ _ => inferInstanceAs (Decidable True)
  | insertBetween _ _ _ _ _ => inferInstanceAs (Decidable (_ = true → _ < _))

/-- What a call that succeeds changes. -/
inductive Effect (graph : StageGraph) : Call → StageGraph → Prop
  | addStage (kind : StageKind) (plan : SubPlan) (info : StageMeta) :
      Effect graph (.addStage kind plan info)
        (graph.withStage ⟨⟨graph.nextId⟩, kind, plan, info⟩ (graph.nextId + 1))
  | insertStage {stage : Stage} (free : graph.stage? stage.id = none) :
      Effect graph (.insertStage stage)
        (graph.withStage stage (max graph.nextId (stage.id.value + 1)))
  | connect {earlier later : StageId} (isEarlier : ∃ stage, graph.stage? earlier = some stage)
      (isLater : ∃ stage, graph.stage? later = some stage) (different : earlier ≠ later) :
      Effect graph (.connect earlier later)
        { graph with edges := graph.edges.insert ⟨earlier, later⟩ }
  | disconnect (earlier later : StageId) :
      Effect graph (.disconnect earlier later)
        { graph with edges := graph.edges.erase ⟨earlier, later⟩ }
  | insertBetween {earlier later : StageId} (isEdge : graph.Precedes earlier later)
      (kind : StageKind) (plan : SubPlan) (info : StageMeta) :
      Effect graph (.insertBetween earlier later kind plan info)
        (graph.withStageOn earlier later ⟨⟨graph.nextId⟩, kind, plan, info⟩)

end Call

/-- A call fails and leaves the graph as it is, or it has its effect. -/
theorem Consistent.perform_cases (consistent : graph.Consistent) (call : Call) :
    (∃ error, call.perform graph = .error error graph) ∨
      ∃ next, call.perform graph = .ok ⟨⟩ next ∧ call.Effect graph next := by
  cases call with
  | addStage kind plan info => exact .inr ⟨_, rfl, .addStage kind plan info⟩
  | insertStage stage =>
      rw [Call.perform, insertStage_apply]
      cases found : graph.stage? stage.id with
      | some other =>
          rw [if_pos (contains_stageMap.mpr ⟨other, found⟩)]
          exact .inl ⟨_, rfl⟩
      | none =>
          have free : ¬ graph.stageMap.contains stage.id = true := by
            simp [contains_stageMap, found]
          rw [if_neg free]
          exact .inr ⟨_, rfl, .insertStage found⟩
  | connect earlier later =>
      rw [Call.perform]
      cases connected : StageGraph.connect earlier later graph with
      | error error next =>
          obtain rfl := connect_eq_error connected
          exact .inl ⟨error, rfl⟩
      | ok value next =>
          obtain ⟨isEarlier, isLater, different, rfl⟩ := connect_eq_ok.mp connected
          exact .inr ⟨_, rfl, .connect isEarlier isLater different⟩
  | disconnect earlier later => exact .inr ⟨_, rfl, .disconnect earlier later⟩
  | insertBetween earlier later kind plan info =>
      rw [Call.perform, discard_apply, bind_apply, consistent.insertBetween_apply]
      cases hasEdge : graph.hasEdge earlier later with
      | false => exact .inl ⟨_, rfl⟩
      | true => exact .inr ⟨_, rfl, .insertBetween (hasEdge_iff.mp hasEdge) kind plan info⟩

namespace Call.Effect

variable {call : Call} (effect : call.Effect graph next)

include effect

theorem consistent (consistent : graph.Consistent) (fits : call.Fits graph) : next.Consistent := by
  cases effect with
  | addStage kind plan info =>
      have above : graph.nextId < graph.nextId + 1 := lt_add_one fits
      exact consistent.withStage above (UInt64.le_of_lt above)
  | @insertStage stage free =>
      obtain ⟨below, grows⟩ := lt_max_add_one graph.nextId fits
      exact consistent.withStage below grows
  | connect isEarlier isLater different =>
      exact consistent.connect (connect_eq_ok.mpr ⟨isEarlier, isLater, different, rfl⟩)
  | disconnect earlier later =>
      exact { consistent with
        edges := fun edge member => consistent.edges edge (OrderedSet.mem_erase.mp member).2 }
  | insertBetween isEdge kind plan info =>
      exact consistent.withStageOn rfl isEdge (fits (hasEdge_iff.mpr isEdge))

/-- No call replaces a stage. -/
theorem keeps (consistent : graph.Consistent) (found : graph.stage? id = some stage) :
    next.stage? id = some stage := by
  have notNew := consistent.ne_nextId ⟨stage, found⟩
  cases effect with
  | addStage kind plan info => rw [stage?_withStage, if_neg notNew, found]
  | @insertStage other free =>
      have notOther : id ≠ other.id := by
        rintro rfl
        simp [found] at free
      rw [stage?_withStage, if_neg notOther, found]
  | connect isEarlier isLater different => exact found
  | disconnect earlier later => exact found
  | insertBetween isEdge kind plan info => rw [stage?_withStageOn, if_neg notNew, found]

end Call.Effect

/-- The graph after a call, whether it fails or not. -/
def afterCall (graph : StageGraph) (call : Call) : StageGraph :=
  stateOf (call.perform graph)

/-- The graph after a sequence of calls. -/
def afterCalls (graph : StageGraph) (calls : List Call) : StageGraph :=
  calls.foldl afterCall graph

/-- Every call of the sequence fits the graph that the calls before it leave. -/
def FitsAll : StageGraph → List Call → Prop
  | _, [] => True
  | graph, call :: rest => call.Fits graph ∧ FitsAll (graph.afterCall call) rest

instance decidableFitsAll : (graph : StageGraph) → (calls : List Call) →
    Decidable (graph.FitsAll calls)
  | _, [] => inferInstanceAs (Decidable True)
  | graph, call :: rest =>
      have := decidableFitsAll (graph.afterCall call) rest
      inferInstanceAs (Decidable (_ ∧ _))

namespace Consistent

theorem afterCall (consistent : graph.Consistent) {call : Call} (fits : call.Fits graph) :
    (graph.afterCall call).Consistent := by
  rw [StageGraph.afterCall]
  obtain ⟨error, failed⟩ | ⟨next, performed, effect⟩ := consistent.perform_cases call
  · rw [failed]
    exact consistent
  · rw [performed]
    exact effect.consistent consistent fits

theorem afterCalls {calls : List Call} (consistent : graph.Consistent)
    (fits : graph.FitsAll calls) : (graph.afterCalls calls).Consistent := by
  induction calls generalizing graph with
  | nil => exact consistent
  | cons call rest ih =>
      obtain ⟨fitsFirst, fitsRest⟩ := fits
      exact ih (consistent.afterCall fitsFirst) fitsRest

/-- A stage stays what it is over a call. -/
theorem stage?_afterCall (consistent : graph.Consistent) (call : Call)
    (found : graph.stage? id = some stage) : (graph.afterCall call).stage? id = some stage := by
  rw [StageGraph.afterCall]
  obtain ⟨error, failed⟩ | ⟨next, performed, effect⟩ := consistent.perform_cases call
  · rw [failed]
    exact found
  · rw [performed]
    exact effect.keeps consistent found

theorem perform_eq_error (consistent : graph.Consistent) {call : Call} {error : PlanError}
    (failed : call.perform graph = .error error next) : next = graph := by
  obtain ⟨other, failedToo⟩ | ⟨after, performed, -⟩ := consistent.perform_cases call
  · rw [failed] at failedToo
    exact (EStateM.Result.error.inj failedToo).2
  · rw [failed] at performed
    exact nomatch performed

/-- A stage goes on an edge that exists, and the paths between the others stay. -/
theorem paths_of_insertBetween (consistent : graph.Consistent) {earlier later : StageId}
    {kind : StageKind} {plan : SubPlan} {info : StageMeta}
    (inserted : insertBetween earlier later kind plan info graph = .ok id next) :
    (graph.Acyclic → next.Acyclic) ∧ ∀ first ∈ graph.stageIds, ∀ last ∈ graph.stageIds,
      (TransGen next.Precedes first last ↔ TransGen graph.Precedes first last) := by
  rw [consistent.insertBetween_apply] at inserted
  split at inserted
  case isFalse => exact nomatch inserted
  case isTrue hasEdge =>
    cases inserted
    have isEdge := hasEdge_iff.mp hasEdge
    refine ⟨consistent.acyclic_withStageOn rfl isEdge, fun first isFirst last isLast => ?_⟩
    have oldFirst := consistent.ne_nextId (mem_stageIds.mp isFirst)
    have oldLast := consistent.ne_nextId (mem_stageIds.mp isLast)
    exact consistent.reaches_withStageOn rfl isEdge oldFirst oldLast

theorem exists_insertBetween_iff (consistent : graph.Consistent) {earlier later : StageId}
    {kind : StageKind} {plan : SubPlan} {info : StageMeta} :
    (∃ id next, insertBetween earlier later kind plan info graph = .ok id next) ↔
      graph.hasEdge earlier later = true := by
  rw [consistent.insertBetween_apply]
  cases graph.hasEdge earlier later <;> simp

end Consistent

/-- Over every history the graph stays consistent, a further call fails without a trace or
keeps all stages, the views of the edges agree, and putting a stage on an edge neither
closes a cycle nor changes which of the other stages reach which. -/
theorem consistent_of_history {calls : List Call} (fits : empty.FitsAll calls)
    (isAfter : empty.afterCalls calls = graph) :
    graph.Consistent ∧
      (∀ (call : Call) error next, call.perform graph = .error error next → next = graph) ∧
      (∀ call id stage, graph.stage? id = some stage →
        (graph.afterCall call).stage? id = some stage) ∧
      (∀ earlier later, (graph.hasEdge earlier later = true ↔ graph.Precedes earlier later) ∧
        (later ∈ graph.successors earlier ↔ graph.Precedes earlier later) ∧
        (earlier ∈ graph.predecessors later ↔ graph.Precedes earlier later)) ∧
      (∀ id, id ∈ graph.roots ↔ id ∈ graph.stageIds ∧ ∀ earlier, ¬ graph.Precedes earlier id) ∧
      (∀ id, id ∈ graph.leaves ↔ id ∈ graph.stageIds ∧ ∀ later, ¬ graph.Precedes id later) ∧
      ∀ earlier later kind plan info,
        ((∃ id next, insertBetween earlier later kind plan info graph = .ok id next) ↔
          graph.Precedes earlier later) ∧
        ∀ id next, insertBetween earlier later kind plan info graph = .ok id next →
          (graph.Acyclic → next.Acyclic) ∧
            ∀ first ∈ graph.stageIds, ∀ last ∈ graph.stageIds,
              (TransGen next.Precedes first last ↔ TransGen graph.Precedes first last) := by
  have consistent : graph.Consistent := isAfter ▸ Consistent.empty.afterCalls fits
  refine ⟨consistent, ?_, ?_, ?_, fun _ => mem_roots, fun _ => mem_leaves, ?_⟩
  · exact fun call error next failed => consistent.perform_eq_error failed
  · exact fun call id stage found => consistent.stage?_afterCall call found
  · exact fun earlier later => ⟨hasEdge_iff, mem_successors, mem_predecessors⟩
  · intro earlier later kind plan info
    refine ⟨consistent.exists_insertBetween_iff.trans hasEdge_iff, ?_⟩
    exact fun id next inserted => consistent.paths_of_insertBetween inserted

/-- Calls of all kinds, of which four fail: an edge from a stage to itself, an edge to a stage
that does not exist, a second stage under one identifier, and a stage on no edge. -/
def sampleCalls : List Call :=
  [.addStage .ordinary default {}, .addStage .ordinary default {}, .connect ⟨0⟩ ⟨1⟩,
    .connect ⟨1⟩ ⟨1⟩, .connect ⟨1⟩ ⟨7⟩, .insertStage ⟨⟨1⟩, .concatenate, default, {}⟩,
    .insertStage ⟨⟨5⟩, .ordinary, default, {}⟩, .connect ⟨1⟩ ⟨5⟩, .connect ⟨0⟩ ⟨5⟩,
    .insertBetween ⟨0⟩ ⟨1⟩ .concatenate default {}, .insertBetween ⟨1⟩ ⟨0⟩ .ordinary default {},
    .disconnect ⟨0⟩ ⟨5⟩]

theorem consistent_of_history_sampleCalls :
    empty.FitsAll sampleCalls ∧ (empty.afterCalls sampleCalls).Consistent ∧
      (empty.afterCalls sampleCalls).stageIds = [⟨0⟩, ⟨1⟩, ⟨5⟩, ⟨6⟩] ∧
      (empty.afterCalls sampleCalls).edges.elements = [⟨⟨0⟩, ⟨6⟩⟩, ⟨⟨1⟩, ⟨5⟩⟩, ⟨⟨6⟩, ⟨1⟩⟩] := by
  have fits : empty.FitsAll sampleCalls := by decide
  obtain ⟨consistent, -⟩ := consistent_of_history fits rfl
  exact ⟨fits, consistent, by decide, by decide⟩

end StageGraph

end BatchFlow
