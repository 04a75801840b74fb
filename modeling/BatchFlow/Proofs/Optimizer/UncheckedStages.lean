import BatchFlow.Proofs.Optimizer.KeptValidity

/-!
# Optimizing invalid graphs

Both passes check the ordinary stages and leave the concatenate stages unchecked.
So an invalid graph is rejected, unless its concatenate stages alone are to blame.
Then it is optimized, but no pass touches these stages or leads an edge into
them, so the result is as invalid as the graph was.
-/

namespace BatchFlow

open JoinRepair Steps

namespace StageGraph

variable {graph current next : StageGraph} {config : EngineConfig} {inserted : Inserted}
  {source join id : StageId} {stage : Stage}

/-- The concatenate stages of a graph are still there, and no further edge leads into them. -/
def KeepsConcatenates (graph current : StageGraph) : Prop :=
  ∀ id stage, graph.stage? id = some stage → stage.kind = .concatenate →
    current.stage? id = some stage ∧
      ∀ source, ⟨source, id⟩ ∈ current.edges.elements → ⟨source, id⟩ ∈ graph.edges.elements

namespace KeepsConcatenates

theorem refl (graph : StageGraph) : graph.KeepsConcatenates graph :=
  fun _ _ found _ => ⟨found, fun _ isEdge => isEdge⟩

variable (keeps : graph.KeepsConcatenates current)

include keeps

/-- A concatenate stage that fails its check still does. -/
theorem checkStage_ne_ok (found : graph.stage? id = some stage)
    (isConcatenate : stage.kind = .concatenate) (failed : graph.checkStage id ≠ .ok ()) :
    current.checkStage id ≠ .ok () := by
  intro checked
  obtain ⟨isStage, edges⟩ := keeps id stage found isConcatenate
  obtain ⟨_, isStageToo, valid, waits⟩ := checkStage_eq_ok.mp checked
  obtain rfl := Option.some.inj (isStage.symm.trans isStageToo)
  exact failed (checkStage_eq_ok.mpr ⟨stage, found, valid, fun operator inPlan source isLoad =>
    edges source (waits operator inPlan source isLoad)⟩)

variable (notConcatenate : ∀ stage, graph.stage? join = some stage → stage.kind ≠ .concatenate)

include notConcatenate

theorem withConcatenate (below : ∀ id other, current.stage? id = some other →
    id.value < current.nextId) :
    graph.KeepsConcatenates (current.withConcatenate source join) := by
  intro id stage found isConcatenate
  obtain ⟨isStage, edges⟩ := keeps id stage found isConcatenate
  have notNext := ne_nextId_of_below below isStage
  refine ⟨by rw [stage?_withConcatenate, if_neg notNext, isStage], fun origin isEdge => ?_⟩
  rcases mem_edges_withConcatenate.mp isEdge with isNew | isNew | ⟨-, isOld⟩
  · obtain ⟨-, rfl⟩ := Edge.mk.inj isNew
    exact absurd isConcatenate (notConcatenate stage found)
  · exact absurd (Edge.mk.inj isNew).2 notNext
  · exact edges origin isOld

theorem withPlan (plan : SubPlan) :
    graph.KeepsConcatenates (current.withPlan join source plan) := by
  intro id stage found isConcatenate
  obtain ⟨isStage, edges⟩ := keeps id stage found isConcatenate
  have notJoin : id ≠ join := by
    rintro rfl
    exact notConcatenate stage found isConcatenate
  refine ⟨by rw [stage?_withPlan, if_neg notJoin, isStage], fun origin isEdge => ?_⟩
  have different : (⟨origin, id⟩ : Edge) ≠ ⟨source, join⟩ := fun same =>
    notJoin (Edge.mk.inj same).2
  exact edges origin ((mem_edges_withPlan different).mp isEdge)

/-- Carrying out a decision about an ordinary stage leaves the concatenate stages as they are. -/
theorem apply {verdict : SideVerdict} {applied : RepairState × Inserted} (built : graph.Built)
    (atJoin : verdict.stage = join) (editable : graph.Editable inserted current)
    (feasible : graph.Feasible verdict)
    (ran : JoinRepair.apply inserted verdict current = .ok applied next) :
    graph.KeepsConcatenates next := by
  subst atJoin
  cases decision : verdict.decision with
  | skip reason =>
      rw [apply_of_skip decision] at ran
      cases ran
      exact keeps
  | concatenate source files =>
      obtain ⟨concatenate, more, between, reader, provided, -, carriedOut⟩ :=
        editable.apply_concatenate built feasible decision
      rw [carriedOut] at ran
      cases ran
      cases provided with
      | already => exact keeps.withPlan notConcatenate _
      | now => exact (keeps.withConcatenate notConcatenate editable.below).withPlan notConcatenate _

end KeepsConcatenates

/-- Join repair succeeds if the ordinary stages are well formed, and keeps the concatenate
stages. -/
theorem exists_run_joinRepair_keepsConcatenates (built : graph.Built)
    (ordered : ∃ order, graph.order = .ok order) (sound : ∀ id, ¬ graph.Malformed id)
    (room : (graph.afterJoinRepair config).HasRoom) :
    ∃ repair after, Pass.joinRepair.run config graph = .ok repair after ∧
      graph.KeepsConcatenates after := by
  refine exists_run_joinRepair_keeping graph.KeepsConcatenates built ordered sound room
    (.refl graph) ?_
  intro verdict decided feasible inserted current editable keeps applied next ran
  -- Only the sides of joins in ordinary stages are decided about.
  have notConcatenate (stage : Stage) (found : graph.stage? verdict.stage = some stage) :
      stage.kind ≠ .concatenate := by
    obtain ⟨reader, isReader, isOrdinary, -⟩ := decided
    obtain rfl := Option.some.inj (isReader.symm.trans found)
    exact fun isConcatenate => nomatch isOrdinary.symm.trans isConcatenate
  exact keeps.apply notConcatenate built rfl editable feasible ran

/-- The concatenate stages that fail their check still do once the ordinary stages have been
optimized. -/
theorem exists_optimize_keeping (built : graph.Built)
    (ordered : ∃ order, graph.order = .ok order) (sound : ∀ id, ¬ graph.Malformed id)
    (room : HasRoom (stateOf (optimize config graph))) :
    ∃ report after, optimize config graph = .ok report after ∧
      ∀ id stage, graph.stage? id = some stage → stage.kind = .concatenate →
        graph.checkStage id ≠ .ok () → id ∈ after.stageIds ∧ after.checkStage id ≠ .ok () := by
  obtain ⟨flags, flagging, ran, flagged⟩ := accumulation_succeeds built ordered sound config
  have restaged := flagged.restaged
  have builtFlagging := restaged.built built
  have ⟨order, isOrder⟩ := ordered
  obtain ⟨repair, after, repaired, keeps⟩ := exists_run_joinRepair_keepsConcatenates builtFlagging
    (restaged.exists_order ordered) (fun id => restaged.not_malformed built (sound id))
    (hasRoom_afterJoinRepair isOrder ran room)
  refine ⟨_, after, optimize_of_passes isOrder ran repaired,
    fun id stage found isConcatenate failed => ?_⟩
  obtain ⟨other, isStage, alike⟩ := restaged.exists_alike found
  have isConcatenateToo : other.kind = .concatenate := alike.kind.trans isConcatenate
  have failedToo : flagging.checkStage id ≠ .ok () := fun checked =>
    failed (restaged.symm.checkStage_eq_ok builtFlagging checked)
  exact ⟨mem_stageIds.mpr ⟨other, (keeps id other isStage isConcatenateToo).1⟩,
    keeps.checkStage_ne_ok isStage isConcatenateToo failedToo⟩

/-- A graph without cycles is invalid because a stage fails its check. -/
theorem exists_failing_of_invalid (built : graph.Built)
    (invalid : ∀ count, graph.validate ≠ .ok count) (acyclic : graph.Acyclic) :
    ∃ id stage, graph.stage? id = some stage ∧ graph.checkStage id ≠ .ok () := by
  by_contra! allPass
  have checked : ∀ id ∈ graph.stageIds, graph.checkStage id = .ok () := fun id isId => by
    obtain ⟨stage, found⟩ := mem_stageIds.mp isId
    exact allPass id stage found
  obtain ⟨count, valid⟩ :=
    validate_eq_ok_iff.mpr ⟨built.edgesExist, acyclic.exists_ranked, checked⟩
  exact invalid count valid

/-- An invalid graph is rejected, and left as it was, if it has a cycle or one of its ordinary
stages is malformed.  Otherwise it has concatenate stages that fail their check.  Then it is
optimized, as long as identifiers do not run out, and is invalid afterwards. -/
theorem optimize_of_invalid (built : graph.Built) (invalid : ∀ count, graph.validate ≠ .ok count)
    (config : EngineConfig) :
    ((¬ graph.Acyclic ∨ ∃ id, graph.Malformed id) →
        ∃ error, optimize config graph = .error error graph) ∧
      (graph.Acyclic → (∀ id, ¬ graph.Malformed id) →
        (∃ id stage, graph.stage? id = some stage ∧ stage.kind = .concatenate ∧
          graph.checkStage id ≠ .ok ()) ∧
        (HasRoom (stateOf (optimize config graph)) →
          ∃ report after, optimize config graph = .ok report after ∧
            ∀ count, after.validate ≠ .ok count)) := by
  constructor
  · intro faulty
    obtain ⟨error, failed⟩ : ∃ error, Pass.accumulation.run config graph = .error error graph := by
      refine accumulation_fails built ?_ config
      rintro ⟨ordered, sound⟩
      rcases faulty with cyclic | ⟨id, malformed⟩
      · exact cyclic (exists_order_iff_acyclic.mp ordered).2
      · exact sound id malformed
    exact ⟨error, optimize_of_accumulation_error failed⟩
  · intro acyclic sound
    obtain ⟨id, stage, found, failed⟩ := exists_failing_of_invalid built invalid acyclic
    have isConcatenate : stage.kind = .concatenate := by
      cases kind : stage.kind with
      | concatenate => rfl
      | ordinary => exact absurd ⟨stage, found, kind, failed⟩ (sound id)
    refine ⟨⟨id, stage, found, isConcatenate, failed⟩, fun room => ?_⟩
    obtain ⟨report, after, ran, keeps⟩ := exists_optimize_keeping built
      (exists_order_iff_acyclic.mpr ⟨built.edgesExist, acyclic⟩) sound room
    obtain ⟨isKept, stillFails⟩ := keeps id stage found isConcatenate failed
    exact ⟨report, after, ran, fun count valid =>
      stillFails ((validate_eq_ok_iff.mp ⟨count, valid⟩).2.2 id isKept)⟩

/-- A concatenate stage that does not wait for the stage whose output it merges. -/
def strayStage : Stage :=
  ⟨⟨1⟩, .concatenate, (SubPlan.empty.insert ⟨⟨0⟩, .load (.stage ⟨0⟩), []⟩).insert
    ⟨⟨1⟩, .store "merged", [⟨0⟩]⟩, {}⟩

/-- A graph of this stage and the one whose output it merges. -/
def strayGraph : StageGraph :=
  ⟨(OrderedMap.insert ∅ ⟨0⟩ regionsStage).insert ⟨1⟩ strayStage, ∅, 2⟩

theorem built_strayGraph : strayGraph.Built := by
  have regionsIds : regionsPlan.OwnIds := (SubPlan.OwnIds.empty.insert _).insert _
  have strayIds : strayStage.plan.OwnIds := (SubPlan.OwnIds.empty.insert _).insert _
  have first :=
    Built.empty.addStage .ordinary { outputFiles := .known 3 } regionsIds (by decide) rfl
  exact first.addStage .concatenate {} strayIds (by decide)
    (by rfl : addStage _ _ _ _ = .ok ⟨1⟩ strayGraph)

theorem order_strayGraph : strayGraph.order = .ok [⟨0⟩, ⟨1⟩] := by
  cbv

theorem invalid_strayGraph (count : Nat) : strayGraph.validate ≠ .ok count := by
  rw [validate, order_strayGraph]
  exact nofun

theorem optimize_strayGraph :
    ∃ report, optimize repairing strayGraph = .ok report strayGraph := by
  have inOrder : strayGraph.stagesInOrder = .ok [regionsStage, strayStage] := by
    rw [stagesInOrder, order_strayGraph]
    rfl
  have decided : [regionsStage, strayStage].mapM (stageVerdicts strayGraph repairing) =
      .ok [[], []] := rfl
  have flagged : ∃ flags, Pass.accumulation.run repairing strayGraph = .ok flags strayGraph := by
    rw [run_accumulation inOrder]
    exact ⟨_, rfl⟩
  have repaired : ∃ repair, Pass.joinRepair.run repairing strayGraph = .ok repair strayGraph := by
    rw [run_joinRepair inOrder decided]
    exact ⟨_, rfl⟩
  obtain ⟨flags, ran⟩ := flagged
  obtain ⟨repair, ranToo⟩ := repaired
  exact ⟨_, optimize_of_passes order_strayGraph ran ranToo⟩

theorem optimize_of_invalid_brokenGraph :
    brokenGraph.Built ∧ (∀ count, brokenGraph.validate ≠ .ok count) ∧
      (∃ error, optimize repairing brokenGraph = .error error brokenGraph) ∧
      strayGraph.Built ∧ (∀ count, strayGraph.validate ≠ .ok count) ∧
      HasRoom (stateOf (optimize repairing strayGraph)) ∧
      ∃ report after, optimize repairing strayGraph = .ok report after ∧
        ∀ count, after.validate ≠ .ok count := by
  have invalid (count : Nat) : brokenGraph.validate ≠ .ok count := fun valid => by
    obtain ⟨stage, found, -, failed⟩ := malformed_hollowStage
    exact failed ((validate_eq_ok_iff.mp ⟨count, valid⟩).2.2 _ (mem_stageIds.mpr ⟨stage, found⟩))
  have rejected := (optimize_of_invalid built_brokenGraph invalid repairing).1
    (.inr ⟨⟨1⟩, malformed_hollowStage⟩)
  have room : HasRoom (stateOf (optimize repairing strayGraph)) := by
    obtain ⟨report, ran⟩ := optimize_strayGraph
    rw [ran]
    show ∀ id ∈ strayGraph.stageIds, id.value.toNat + 1 < UInt64.size
    decide
  have acyclic := (exists_order_iff_acyclic.mp ⟨_, order_strayGraph⟩).2
  have sound (id : StageId) : ¬ strayGraph.Malformed id := by
    rintro ⟨stage, found, isOrdinary, failed⟩
    have isId : id ∈ [⟨0⟩, ⟨1⟩] := mem_stageIds.mpr ⟨stage, found⟩
    rcases List.mem_pair.mp isId with rfl | rfl
    · exact failed rfl
    · obtain rfl := Option.some.inj found
      exact nomatch isOrdinary
  exact ⟨built_brokenGraph, invalid, rejected, built_strayGraph, invalid_strayGraph, room,
    ((optimize_of_invalid built_strayGraph invalid_strayGraph repairing).2 acyclic sound).2 room⟩

/-- A graph that fails its check is optimized. -/
theorem strayGraph_optimized :
    strayGraph.Built ∧ (∀ count, strayGraph.validate ≠ .ok count) ∧
      ∃ report after, optimize repairing strayGraph = .ok report after := by
  obtain ⟨report, ran⟩ := optimize_strayGraph
  exact ⟨built_strayGraph, invalid_strayGraph, report, _, ran⟩

end StageGraph

end BatchFlow
