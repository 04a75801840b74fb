import BatchFlow.Proofs.Optimizer.RepairPass

/-!
# Validity and leaves of the repaired graph

Putting stages on edges keeps a graph without cycles, and every load of the
repaired graph is backed by an edge, so the graph stays valid.  A concatenate
stage always has a successor, so the leaves are those of the original graph.
-/

namespace BatchFlow

open JoinRepair

namespace StageGraph

variable {graph current : StageGraph} {inserted : Inserted} {source join concatenate : StageId}
  {stage : Stage}

/-- The stage that reads from a concatenate stage. -/
def readerOf? (inserted : Inserted) (concatenate : StageId) : Option StageId :=
  (inserted.find? fun entry => entry.2 == concatenate).map fun entry => entry.1.2

/-- The rank of a stage of the repaired graph: room is made right before every
stage of the original graph. -/
def rankAfter (inserted : Inserted) (rank : StageId → Nat) (id : StageId) : Nat :=
  match readerOf? inserted id with
  | some join => 2 * rank join
  | none => 2 * rank id + 1

namespace Repaired

variable (repaired : graph.Repaired inserted none current)

include repaired

theorem readerOf?_concatenate (member : ((source, join), concatenate) ∈ inserted) :
    readerOf? inserted concatenate = some join := by
  have isSome : (inserted.find? fun entry => entry.2 == concatenate).isSome := by
    rw [List.find?_isSome]
    exact ⟨_, member, beq_self_eq_true concatenate⟩
  obtain ⟨entry, isFirst⟩ := Option.isSome_iff_exists.mp isSome
  have same : entry.2 = concatenate := by simpa using List.find?_some isFirst
  have isEntry : entry = ((source, join), concatenate) :=
    List.inj_on_of_nodup_map repaired.nodup (List.mem_of_find?_eq_some isFirst) member same
  rw [readerOf?, isFirst, isEntry]
  rfl

theorem readerOf?_stage {id : StageId} (found : graph.stage? id = some stage) :
    readerOf? inserted id = none := by
  rw [readerOf?, Option.map_eq_none_iff, List.find?_eq_none]
  intro entry member isConcatenate
  exact repaired.ne_concatenate found member (by simpa using isConcatenate)

theorem rankAfter_concatenate (rank : StageId → Nat)
    (member : ((source, join), concatenate) ∈ inserted) :
    rankAfter inserted rank concatenate = 2 * rank join := by
  rw [rankAfter, repaired.readerOf?_concatenate member]

theorem rankAfter_stage (rank : StageId → Nat) {id : StageId}
    (found : graph.stage? id = some stage) :
    rankAfter inserted rank id = 2 * rank id + 1 := by
  rw [rankAfter, repaired.readerOf?_stage found]

theorem ownId (built : graph.Built) {id : StageId} {other : Stage}
    (isStage : current.stage? id = some other) : other.id = id := by
  rcases repaired.stage_cases isStage with ⟨stage, found, repairedStage⟩ | ⟨_, _, _, _, rfl⟩
  · rw [repairedStage.id, built.ownId id stage found]
  · rfl

theorem exists_kept {id : StageId} (exist : ∃ stage, graph.stage? id = some stage) :
    ∃ other, current.stage? id = some other := by
  obtain ⟨stage, found⟩ := exist
  obtain ⟨other, isStage, -⟩ := repaired.kept id stage found
  exact ⟨other, isStage⟩

variable (built : graph.Built) (backed : graph.Backed)

omit repaired in
include built backed in
theorem edge_of_loads {id : StageId} (found : graph.stage? id = some stage)
    (loads : stage.plan.LoadsStage source) :
    ⟨source, id⟩ ∈ graph.edges.elements ∧ ∃ feeder, graph.stage? source = some feeder := by
  have isEdge := mem_predecessors.mp (backed id stage found source loads)
  exact ⟨isEdge, (built.edges _ isEdge).2.1⟩

include built backed

/-- A concatenate stage stands on an edge of the original graph. -/
theorem edge_of_concatenate (member : ((source, join), concatenate) ∈ inserted) :
    ⟨source, join⟩ ∈ graph.edges.elements ∧ (∃ feeder, graph.stage? source = some feeder) ∧
      ∃ reader, graph.stage? join = some reader := by
  obtain ⟨reader, found, loads⟩ := repaired.loaded source join concatenate member
  obtain ⟨isEdge, feeder, foundFeeder⟩ := edge_of_loads built backed found loads
  exact ⟨isEdge, ⟨feeder, foundFeeder⟩, reader, found⟩

theorem edgesExist : current.EdgesExist := by
  intro edge isEdge
  simp only [mem_stageIds]
  rcases repaired.edges edge isEdge with isOld | ⟨source, join, concatenate, member, ends⟩
  · obtain ⟨-, earlier, later⟩ := built.edges edge isOld
    exact ⟨repaired.exists_kept earlier, repaired.exists_kept later⟩
  · obtain ⟨-, isSource, isJoin⟩ := repaired.edge_of_concatenate built backed member
    obtain ⟨info, isConcatenate⟩ := repaired.concatenates source join concatenate member
    rcases ends with rfl | rfl
    · exact ⟨repaired.exists_kept isSource, _, isConcatenate⟩
    · exact ⟨⟨_, isConcatenate⟩, repaired.exists_kept isJoin⟩

theorem ranked {rank : StageId → Nat} (ranked : graph.Ranked rank) :
    current.Ranked (rankAfter inserted rank) := by
  intro edge isEdge
  rcases repaired.edges edge isEdge with isOld | ⟨source, join, concatenate, member, ends⟩
  · obtain ⟨-, ⟨first, foundFirst⟩, ⟨second, foundSecond⟩⟩ := built.edges edge isOld
    rw [repaired.rankAfter_stage rank foundFirst, repaired.rankAfter_stage rank foundSecond]
    have below := ranked edge isOld
    omega
  · obtain ⟨isOld, ⟨first, foundFirst⟩, ⟨second, foundSecond⟩⟩ :=
      repaired.edge_of_concatenate built backed member
    have below : rank source < rank join := ranked _ isOld
    rcases ends with rfl | rfl
    · rw [repaired.rankAfter_stage rank foundFirst, repaired.rankAfter_concatenate rank member]
      omega
    · rw [repaired.rankAfter_concatenate rank member, repaired.rankAfter_stage rank foundSecond]
      omega

omit built backed in
theorem isBacked : current.Backed := by
  intro id other isStage source loads
  rcases repaired.backed id other isStage source loads with isEdge | isPending
  · exact mem_predecessors.mpr isEdge
  · exact nomatch isPending

omit repaired built backed in
theorem validate_concatenatePlan (source join : StageId) :
    (concatenatePlan source join).validate = .ok () := by
  rfl

omit backed in
theorem validate_eq_ok (checked : ∀ id ∈ graph.stageIds, graph.checkStage id = .ok ())
    {id : StageId} {other : Stage} (isStage : current.stage? id = some other) :
    other.plan.validate = .ok () := by
  rcases repaired.stage_cases isStage with
    ⟨stage, found, repairedStage⟩ | ⟨source, join, _, _, rfl⟩
  · obtain ⟨_, foundToo, valid, -⟩ :=
      checkStage_eq_ok.mp (checked id (mem_stageIds.mpr ⟨stage, found⟩))
    obtain rfl := Option.some.inj (found.symm.trans foundToo)
    have ownIds := built.ownIds id stage found
    refine (repairedStage.ownIds ownIds).validate_eq_ok_iff.mpr ?_
    rw [← SubPlan.wellFormed_core, ← repairedStage.core, SubPlan.wellFormed_core]
    exact ownIds.wellFormed valid
  · exact validate_concatenatePlan source join

omit backed in
/-- Join repair keeps a graph valid. -/
theorem valid (valid : ∃ count, graph.validate = .ok count) :
    ∃ count, current.validate = .ok count := by
  obtain ⟨-, ⟨rank, ranked⟩, checked⟩ := validate_eq_ok_iff.mp valid
  have backed := backed_of_valid checked
  refine validate_eq_ok_iff.mpr ⟨repaired.edgesExist built backed,
    ⟨_, repaired.ranked built backed ranked⟩, fun id isId => ?_⟩
  obtain ⟨other, isStage⟩ := mem_stageIds.mp isId
  refine checkStage_eq_ok.mpr ⟨other, isStage, repaired.validate_eq_ok built checked isStage, ?_⟩
  intro operator inPlan source isLoad
  exact mem_predecessors.mp (repaired.isBacked id other isStage source ⟨operator, inPlan, isLoad⟩)

/-- The leaves of the repaired graph are those of the original one. -/
theorem leaves_eq : current.leaves = graph.leaves := by
  have isLeaf {graph : StageGraph} {id : StageId} : id ∈ graph.leaves ↔
      (∃ stage, graph.stage? id = some stage) ∧
        ∀ edge ∈ graph.edges.elements, edge.earlier ≠ id := by
    simp [leaves, mem_stageIds]
  refine OrderedMap.eq_of_ascending (current.stageMap.pairwise_keys.sublist List.filter_sublist)
    (graph.stageMap.pairwise_keys.sublist List.filter_sublist) fun id => ?_
  rw [isLeaf, isLeaf]
  constructor
  · rintro ⟨⟨other, isStage⟩, noSuccessor⟩
    rcases repaired.only id other isStage with isOriginal | ⟨source, join, member⟩
    · refine ⟨isOriginal, fun edge isOld same => ?_⟩
      rcases repaired.continued edge isOld with isEdge | ⟨concatenate, member⟩
      · exact noSuccessor edge isEdge same
      · exact noSuccessor _ (repaired.through _ _ _ member).1 same
    · exact absurd rfl (noSuccessor _ (repaired.through source join id member).2)
  · rintro ⟨⟨stage, found⟩, noSuccessor⟩
    refine ⟨repaired.exists_kept ⟨stage, found⟩, fun edge isEdge same => ?_⟩
    rcases repaired.edges edge isEdge with isOld | ⟨source, join, concatenate, member, ends⟩
    · exact noSuccessor edge isOld same
    · rcases ends with rfl | rfl
      · exact noSuccessor _ (repaired.edge_of_concatenate built backed member).1 same
      · exact repaired.ne_concatenate found member same

theorem leafTargets_eq : current.leafTargets = graph.leafTargets := by
  rw [leafTargets, leafTargets, repaired.leaves_eq built backed]
  refine List.filterMap_congr fun id isLeaf => ?_
  obtain ⟨stage, found⟩ := mem_stageIds.mp (List.mem_filter.mp isLeaf).1
  obtain ⟨other, isStage, repairedStage⟩ := repaired.kept id stage found
  rw [found, isStage, Option.bind_some, Option.bind_some, repairedStage.storeTarget?]

end Repaired

end StageGraph

end BatchFlow
