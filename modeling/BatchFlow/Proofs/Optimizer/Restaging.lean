import BatchFlow.Proofs.Engine.Settling

/-!
# Graphs restaged in place

Some passes change stages where they stand, in ways that no check reads: they set
flags or fill in file counts.  Such a graph is built, ordered and checked like the
one before.
-/

namespace BatchFlow

/-- Two stages that no check tells apart. -/
structure Stage.ChecksAlike (stage other : Stage) : Prop where
  id : other.id = stage.id
  kind : other.kind = stage.kind
  ownIds : other.plan.OwnIds ↔ stage.plan.OwnIds
  wellFormed : other.plan.WellFormed ↔ stage.plan.WellFormed
  loadsStage : ∀ source, other.plan.LoadsStage source ↔ stage.plan.LoadsStage source

theorem Stage.ChecksAlike.symm {stage other : Stage} (alike : stage.ChecksAlike other) :
    other.ChecksAlike stage where
  id := alike.id.symm
  kind := alike.kind.symm
  ownIds := alike.ownIds.symm
  wellFormed := alike.wellFormed.symm
  loadsStage source := (alike.loadsStage source).symm

namespace StageGraph

/-- A graph whose stages have been changed where they stand. -/
structure Restaged (graph current : StageGraph) : Prop where
  kept : ∀ id stage, graph.stage? id = some stage → ∃ other, current.stage? id = some other
  only : ∀ id other, current.stage? id = some other →
    ∃ stage, graph.stage? id = some stage ∧ stage.ChecksAlike other
  edges : current.edges = graph.edges
  nextId : current.nextId = graph.nextId

namespace Restaged

variable {graph current : StageGraph} (restaged : graph.Restaged current)

include restaged

theorem exists_alike {id : StageId} {stage : Stage} (found : graph.stage? id = some stage) :
    ∃ other, current.stage? id = some other ∧ stage.ChecksAlike other := by
  obtain ⟨other, isStage⟩ := restaged.kept id stage found
  obtain ⟨_, foundToo, alike⟩ := restaged.only id other isStage
  obtain rfl := Option.some.inj (found.symm.trans foundToo)
  exact ⟨other, isStage, alike⟩

theorem symm : current.Restaged graph where
  kept id other isStage := by
    obtain ⟨stage, found, -⟩ := restaged.only id other isStage
    exact ⟨stage, found⟩
  only id stage found := by
    obtain ⟨other, isStage, alike⟩ := restaged.exists_alike found
    exact ⟨other, isStage, alike.symm⟩
  edges := restaged.edges.symm
  nextId := restaged.nextId.symm

theorem stageIds : current.stageIds = graph.stageIds := by
  refine OrderedMap.eq_of_ascending current.stageMap.pairwise_keys graph.stageMap.pairwise_keys
    fun id => ?_
  show id ∈ current.stageIds ↔ id ∈ graph.stageIds
  rw [mem_stageIds, mem_stageIds]
  constructor
  · rintro ⟨other, isStage⟩
    obtain ⟨stage, found, -⟩ := restaged.only id other isStage
    exact ⟨stage, found⟩
  · rintro ⟨stage, found⟩
    exact restaged.kept id stage found

theorem built (built : graph.Built) : current.Built where
  ownId id other isStage := by
    obtain ⟨stage, found, alike⟩ := restaged.only id other isStage
    rw [alike.id, built.ownId id stage found]
  ownIds id other isStage := by
    obtain ⟨stage, found, alike⟩ := restaged.only id other isStage
    exact alike.ownIds.mpr (built.ownIds id stage found)
  below id other isStage := by
    obtain ⟨stage, found, -⟩ := restaged.only id other isStage
    rw [restaged.nextId]
    exact built.below id stage found
  edges edge member := by
    rw [restaged.edges] at member
    obtain ⟨different, ⟨first, foundFirst⟩, second, foundSecond⟩ := built.edges edge member
    exact ⟨different, restaged.kept _ first foundFirst, restaged.kept _ second foundSecond⟩

theorem checkStage_eq_ok (built : graph.Built) {id : StageId}
    (checked : graph.checkStage id = .ok ()) : current.checkStage id = .ok () := by
  obtain ⟨stage, found, valid, waits⟩ := StageGraph.checkStage_eq_ok.mp checked
  obtain ⟨other, isStage, alike⟩ := restaged.exists_alike found
  have ownIds := built.ownIds id stage found
  refine StageGraph.checkStage_eq_ok.mpr
    ⟨other, isStage, ?_, fun operator inPlan source isLoad => ?_⟩
  · exact (alike.ownIds.mpr ownIds).validate_eq_ok_iff.mpr
      (alike.wellFormed.mpr (ownIds.wellFormed valid))
  · obtain ⟨original, inOriginal, isLoadToo⟩ :=
      (alike.loadsStage source).mp ⟨operator, inPlan, isLoad⟩
    rw [restaged.edges]
    exact waits original inOriginal source isLoadToo

theorem not_malformed (built : graph.Built) {id : StageId} (sound : ¬ graph.Malformed id) :
    ¬ current.Malformed id := by
  rintro ⟨other, isStage, isOrdinary, failed⟩
  obtain ⟨stage, found, alike⟩ := restaged.only id other isStage
  have isOrdinaryToo : stage.kind = .ordinary := alike.kind.symm.trans isOrdinary
  exact failed (restaged.checkStage_eq_ok built
    (checkStage_of_not_malformed found isOrdinaryToo sound))

/-- The walk goes by the edges and the identifiers alone. -/
theorem order_eq : current.order = graph.order := by
  have sameEnter (id : StageId) : current.enter id = graph.enter id := by
    rw [enter, enter, predecessors, predecessors, restaged.edges]
  have sameWalk (unseen placed : List StageId) (path : List Frame) :
      current.walkFrom unseen placed path = graph.walkFrom unseen placed path := by
    fun_induction graph.walkFrom unseen placed path <;> simp_all [walkFrom]
  have sameStages (id : StageId) : current.stageMap.contains id = graph.stageMap.contains id := by
    rw [Bool.eq_iff_iff, contains_stageMap, contains_stageMap, ← mem_stageIds, ← mem_stageIds,
      restaged.stageIds]
  simp only [order, danglingEdge?, restaged.edges, restaged.stageIds, sameWalk, sameStages]

theorem exists_order (ordered : ∃ order, graph.order = .ok order) :
    ∃ order, current.order = .ok order := by
  rwa [restaged.order_eq]

theorem valid (built : graph.Built) (valid : ∃ count, graph.validate = .ok count) :
    ∃ count, current.validate = .ok count := by
  obtain ⟨exist, ranked, checked⟩ := validate_eq_ok_iff.mp valid
  obtain ⟨existToo, rankedToo⟩ :=
    exists_order_iff.mp (restaged.exists_order (exists_order_iff.mpr ⟨exist, ranked⟩))
  refine validate_eq_ok_iff.mpr ⟨existToo, rankedToo, fun id isId => ?_⟩
  rw [restaged.stageIds] at isId
  exact restaged.checkStage_eq_ok built (checked id isId)

end Restaged

end StageGraph

end BatchFlow
