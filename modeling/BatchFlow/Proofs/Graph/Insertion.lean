import BatchFlow.Proofs.Graph.Building
import BatchFlow.Proofs.Graph.Walk

/-!
# Stages put on edges

Putting a stage on an edge replaces the edge by two.  A path between two of the
stages there were goes over the new stage exactly where it went over the edge,
so the same stages reach each other, and no cycle comes about.
-/

namespace BatchFlow

open Relation Steps

namespace StageGraph

variable {graph : StageGraph} {earlier later : StageId} {stage : Stage}

/-- The graph with one more stage, put on an edge. -/
def withStageOn (graph : StageGraph) (earlier later : StageId) (stage : Stage) : StageGraph :=
  { graph.withStage stage (graph.nextId + 1) with
    edges := ((graph.edges.erase ⟨earlier, later⟩).insert ⟨earlier, stage.id⟩).insert
      ⟨stage.id, later⟩ }

theorem stage?_withStageOn (graph : StageGraph) (earlier later : StageId) (stage : Stage)
    (id : StageId) :
    (graph.withStageOn earlier later stage).stage? id =
      if id = stage.id then some stage else graph.stage? id :=
  stage?_withStage graph stage (graph.nextId + 1) id

theorem mem_edges_withStageOn {edge : Edge} :
    edge ∈ (graph.withStageOn earlier later stage).edges.elements ↔
      edge = ⟨stage.id, later⟩ ∨ edge = ⟨earlier, stage.id⟩ ∨
        edge ≠ ⟨earlier, later⟩ ∧ edge ∈ graph.edges.elements := by
  rw [withStageOn, OrderedSet.mem_insert, OrderedSet.mem_insert, OrderedSet.mem_erase]

/-- Without the edge there is nothing to remove. -/
theorem disconnect_of_noEdge (noEdge : graph.hasEdge earlier later = false) :
    disconnect earlier later graph = .ok false graph := by
  have unchanged : graph.edges.erase ⟨earlier, later⟩ = graph.edges := by
    apply OrderedSet.ext
    refine List.filter_eq_self.mpr fun edge member => ?_
    rw [bne_iff_ne, ne_eq, Std.LawfulEqOrd.compare_eq_iff_eq]
    rintro rfl
    exact Bool.false_ne_true (noEdge.symm.trans (hasEdge_iff.mpr member))
  show EStateM.Result.ok (graph.hasEdge earlier later)
    { graph with edges := graph.edges.erase ⟨earlier, later⟩ } = _
  rw [noEdge, unchanged]

theorem insertBetween_eq_ok (isEdge : graph.Precedes earlier later)
    (isEarlier : ∃ other, graph.stage? earlier = some other)
    (isLater : ∃ other, graph.stage? later = some other) (newEarlier : earlier ≠ ⟨graph.nextId⟩)
    (newLater : later ≠ ⟨graph.nextId⟩) (kind : StageKind) (plan : SubPlan) (info : StageMeta) :
    insertBetween earlier later kind plan info graph = .ok ⟨graph.nextId⟩
      (graph.withStageOn earlier later ⟨⟨graph.nextId⟩, kind, plan, info⟩) := by
  let stage : Stage := ⟨⟨graph.nextId⟩, kind, plan, info⟩
  have hasNew : ∃ other, (graph.withStage stage (graph.nextId + 1)).stage? stage.id =
      some other := ⟨stage, by rw [stage?_withStage, if_pos rfl]⟩
  have hasEarlier := exists_stage?_withStage stage (graph.nextId + 1) isEarlier
  have hasLater := exists_stage?_withStage stage (graph.nextId + 1) isLater
  have removed : disconnect earlier later graph =
      .ok true { graph with edges := graph.edges.erase ⟨earlier, later⟩ } :=
    congrArg (EStateM.Result.ok · _) (hasEdge_iff.mpr isEdge)
  refine bind_eq_ok.mpr ⟨true, _, removed, ?_⟩
  refine bind_eq_ok.mpr ⟨stage.id, _, rfl, ?_⟩
  refine bind_eq_ok.mpr ⟨⟨⟩, _, connect_eq_ok.mpr ⟨hasEarlier, hasNew, newEarlier, rfl⟩, ?_⟩
  exact bind_eq_ok.mpr ⟨⟨⟩, _, connect_eq_ok.mpr ⟨hasNew, hasLater, newLater.symm, rfl⟩, rfl⟩

namespace Consistent

variable (consistent : graph.Consistent)

include consistent

/-- A new stage can be put on every edge, and on nothing else. -/
theorem insertBetween_apply (earlier later : StageId) (kind : StageKind) (plan : SubPlan)
    (info : StageMeta) :
    insertBetween earlier later kind plan info graph =
      if graph.hasEdge earlier later then .ok ⟨graph.nextId⟩
        (graph.withStageOn earlier later ⟨⟨graph.nextId⟩, kind, plan, info⟩)
      else .error (.noEdge earlier later) graph := by
  cases hasEdge : graph.hasEdge earlier later with
  | false =>
      rw [insertBetween, bind_apply, disconnect_of_noEdge hasEdge]
      rfl
  | true =>
      have isEdge := hasEdge_iff.mp hasEdge
      obtain ⟨-, isEarlier, isLater⟩ := consistent.edges _ isEdge
      exact insertBetween_eq_ok isEdge isEarlier isLater (consistent.ne_nextId isEarlier)
        (consistent.ne_nextId isLater) kind plan info

variable (isNew : stage.id = ⟨graph.nextId⟩)

include isNew

/-- No edge of the graph touches the stage to be put in. -/
theorem ends_ne_of_precedes {first last : StageId} (precedes : graph.Precedes first last) :
    first ≠ stage.id ∧ last ≠ stage.id := by
  obtain ⟨-, isFirst, isLast⟩ := consistent.edges _ precedes
  exact ⟨isNew ▸ consistent.ne_nextId isFirst, isNew ▸ consistent.ne_nextId isLast⟩

variable (isEdge : graph.Precedes earlier later)

include isEdge

/-- A stage put on an edge stands between two stages there were. -/
theorem withStageOn (room : graph.nextId.toNat + 1 < UInt64.size) :
    (graph.withStageOn earlier later stage).Consistent := by
  have grown : (graph.withStage stage (graph.nextId + 1)).Consistent :=
    consistent.withStage (isNew ▸ lt_add_one room) (UInt64.le_of_lt (lt_add_one room))
  obtain ⟨-, isEarlier, isLater⟩ := consistent.edges _ isEdge
  have hasNew : ∃ other, (graph.withStage stage (graph.nextId + 1)).stage? stage.id =
      some other := ⟨stage, by rw [stage?_withStage, if_pos rfl]⟩
  have hasEarlier := exists_stage?_withStage stage (graph.nextId + 1) isEarlier
  have hasLater := exists_stage?_withStage stage (graph.nextId + 1) isLater
  refine { grown with edges := fun edge member => ?_ }
  rcases mem_edges_withStageOn.mp member with rfl | rfl | ⟨-, old⟩
  · exact ⟨isNew ▸ (consistent.ne_nextId isLater).symm, hasNew, hasLater⟩
  · exact ⟨isNew ▸ consistent.ne_nextId isEarlier, hasEarlier, hasNew⟩
  · exact grown.edges edge old

/-- Where a path from a stage there was comes to: another such stage, which it reached
before, or the new one, by the edge it was put on. -/
theorem path_withStageOn {first last : StageId} (isOld : first ≠ stage.id)
    (path : TransGen (graph.withStageOn earlier later stage).Precedes first last) :
    last ≠ stage.id ∧ TransGen graph.Precedes first last ∨
      last = stage.id ∧ ReflTransGen graph.Precedes first earlier := by
  have old {first last : StageId} (precedes : graph.Precedes first last) :
      first ≠ stage.id ∧ last ≠ stage.id := consistent.ends_ne_of_precedes isNew precedes
  induction path with
  | single precedes =>
      rcases mem_edges_withStageOn.mp precedes with fromNew | toNew | ⟨-, kept⟩
      · exact absurd (Edge.mk.inj fromNew).1 isOld
      · obtain ⟨rfl, rfl⟩ := Edge.mk.inj toNew
        exact .inr ⟨rfl, .refl⟩
      · exact .inl ⟨(old kept).2, .single kept⟩
  | tail _ precedes ih =>
      rcases mem_edges_withStageOn.mp precedes with fromNew | toNew | ⟨-, kept⟩
      · obtain ⟨rfl, rfl⟩ := Edge.mk.inj fromNew
        obtain ⟨isOld, -⟩ | ⟨-, leads⟩ := ih
        · exact absurd rfl isOld
        · exact .inl ⟨(old isEdge).2, .tail' leads isEdge⟩
      · obtain ⟨rfl, rfl⟩ := Edge.mk.inj toNew
        obtain ⟨-, leads⟩ | ⟨isNew, -⟩ := ih
        · exact .inr ⟨rfl, leads.to_reflTransGen⟩
        · exact absurd isNew (old isEdge).1
      · obtain ⟨-, leads⟩ | ⟨isNew, -⟩ := ih
        · exact .inl ⟨(old kept).2, leads.tail kept⟩
        · exact absurd isNew (old kept).1

/-- A stage put on an edge changes nothing about which of the others reach which. -/
theorem reaches_withStageOn {first last : StageId} (isOldFirst : first ≠ stage.id)
    (isOldLast : last ≠ stage.id) :
    TransGen (graph.withStageOn earlier later stage).Precedes first last ↔
      TransGen graph.Precedes first last := by
  constructor
  case mp =>
    intro path
    obtain ⟨-, leads⟩ | ⟨isNewLast, -⟩ := consistent.path_withStageOn isNew isEdge isOldFirst path
    · exact leads
    · exact absurd isNewLast isOldLast
  case mpr =>
    -- Every edge is still there, or has become two.
    refine fun path => TransGen.closed (fun first last precedes => ?_) first last path
    by_cases same : (⟨first, last⟩ : Edge) = ⟨earlier, later⟩
    · obtain ⟨rfl, rfl⟩ := Edge.mk.inj same
      exact .tail (.single (mem_edges_withStageOn.mpr (.inr (.inl rfl))))
        (mem_edges_withStageOn.mpr (.inl rfl))
    · exact .single (mem_edges_withStageOn.mpr (.inr (.inr ⟨same, precedes⟩)))

theorem acyclic_withStageOn (acyclic : graph.Acyclic) :
    (graph.withStageOn earlier later stage).Acyclic := by
  intro id cycle
  by_cases isStage : id = stage.id
  case neg =>
    exact acyclic id ((consistent.reaches_withStageOn isNew isEdge isStage isStage).mp cycle)
  case pos =>
    -- A cycle through the new stage goes through the one after it, too.
    obtain ⟨second, precedes, leads⟩ := TransGen.head'_iff.mp (isStage ▸ cycle)
    have isLater : second = later := by
      rcases mem_edges_withStageOn.mp precedes with fromNew | toNew | ⟨-, kept⟩
      · exact (Edge.mk.inj fromNew).2
      · have isEarlier := (Edge.mk.inj toNew).1
        exact absurd isEarlier.symm (consistent.ends_ne_of_precedes isNew isEdge).1
      · exact absurd rfl (consistent.ends_ne_of_precedes isNew kept).1
    have around := TransGen.tail' (isLater ▸ leads) (isLater ▸ precedes)
    have isOld := (consistent.ends_ne_of_precedes isNew isEdge).2
    exact acyclic later ((consistent.reaches_withStageOn isNew isEdge isOld isOld).mp around)

end Consistent

end StageGraph

end BatchFlow
