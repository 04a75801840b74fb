import BatchFlow.Proofs.Optimizer.KeptResults
import BatchFlow.Proofs.Optimizer.RepairDecisions
import BatchFlow.Proofs.Optimizer.RepairedEdges

/-!
# The effect of join repair

The decisions are made on the original graph and carried out one by one on a changing one.
What each of them keeps determines the graph that the last one leaves: its stages with their
plans, its edges, and what is reported.
-/

namespace BatchFlow

open JoinRepair Steps

/-- The side of a join that the decision is about. -/
def Decision.side? : Decision → Option (StageId × OpId × Nat)
  | joinRepair stage join side _ => some (stage, join, side)
  | accumulative _ _ => none

namespace StageGraph

variable {graph current between after : StageGraph} {config : EngineConfig}
  {inserted more : Inserted} {source join concatenate : StageId} {stage : Stage}
  {done : List (SideVerdict × RepairState)} {verdict : SideVerdict} {outcome : PassOutcome}

def concatenateStage (source join concatenate : StageId) : Stage :=
  ⟨concatenate, .concatenate, concatenatePlan source join, { outputFiles := .known 1 }⟩

/-- A load of a stage that a join reads on a side other than its fragment, together with the
concatenate stage that stands between its source and the stage. -/
def Redirects (inserted : Inserted) (stage : Stage) (load : OpId) (operator : Operator)
    (concatenate : StageId) : Prop :=
  ∃ source, stage.plan.get? load = some operator ∧ operator.operation = .load (.stage source) ∧
    stage.plan.FeedsSide load ∧ ((source, stage.id), concatenate) ∈ inserted

/-- The plan of a stage once these loads, and no other operator, have been changed. -/
structure RedirectedPlan (inserted : Inserted) (stage : Stage) (plan : SubPlan) : Prop where
  redirected : ∀ load operator concatenate, Redirects inserted stage load operator concatenate →
    plan.get? load = some { operator with operation := .load (.stage concatenate) }
  unchanged : ∀ key, (¬ ∃ operator concatenate,
    Redirects inserted stage key operator concatenate) → plan.get? key = stage.plan.get? key
  nextId : plan.nextId = stage.plan.nextId

/-- All that join repair does to a graph, and what it reports.  The inserted concatenate stages
are listed with the pairs they stand between. -/
structure RepairEffect (graph : StageGraph) (config : EngineConfig) (inserted : Inserted)
    (outcome : PassOutcome) (after : StageGraph) : Prop where
  crowded : ∀ source join, (∃ concatenate, ((source, join), concatenate) ∈ inserted) ↔
    graph.Crowded config source join
  once : (inserted.map Prod.fst).Nodup
  distinct : (inserted.map Prod.snd).Nodup
  added : ∀ source join concatenate, ((source, join), concatenate) ∈ inserted →
    graph.stage? concatenate = none ∧
      after.stage? concatenate = some (concatenateStage source join concatenate)
  kept : ∀ id stage, graph.stage? id = some stage →
    ∃ plan, after.stage? id = some { stage with plan := plan } ∧
      RedirectedPlan inserted stage plan
  only : ∀ id stage, after.stage? id = some stage →
    (∃ original, graph.stage? id = some original) ∨
      ∃ source join, ((source, join), id) ∈ inserted
  edges : ∀ edge, edge ∈ after.edges.elements ↔
    (edge ∈ graph.edges.elements ∧ (graph.Crowded config edge.earlier edge.later →
      after.Loads edge.earlier edge.later)) ∨ TouchesConcatenate inserted edge
  decided : ∀ side, side ∈ outcome.decisions.map Decision.side? ↔
    ∃ stage join index, side = some (stage, join, index) ∧ graph.ReplicatesSide stage join index
  decidedOnce : (outcome.decisions.map Decision.side?).Nodup

/-- Join repair removes no stage, and adds as many as there are crowded pairs. -/
theorem RepairEffect.perm_stageIds (effect : graph.RepairEffect config inserted outcome after) :
    after.stageIds.Perm (graph.stageIds ++ inserted.map Prod.snd) := by
  have apart : graph.stageIds.Disjoint (inserted.map Prod.snd) := by
    intro id isOld isNew
    obtain ⟨stage, found⟩ := mem_stageIds.mp isOld
    obtain ⟨⟨⟨source, join⟩, _⟩, member, rfl⟩ := List.mem_map.mp isNew
    exact Option.some_ne_none stage (found.symm.trans (effect.added source join _ member).1)
  have nodup : (graph.stageIds ++ inserted.map Prod.snd).Nodup :=
    graph.nodup_stageIds.append effect.distinct apart
  refine (List.perm_ext_iff_of_nodup after.nodup_stageIds nodup).mpr fun id => ?_
  rw [List.mem_append, mem_stageIds, mem_stageIds]
  constructor
  · rintro ⟨stage, isStage⟩
    refine (effect.only id stage isStage).imp_right ?_
    rintro ⟨source, join, member⟩
    exact List.mem_map_of_mem member
  · rintro (⟨stage, found⟩ | isNew)
    · obtain ⟨plan, isStage, -⟩ := effect.kept id stage found
      exact ⟨_, isStage⟩
    · obtain ⟨⟨⟨source, join⟩, _⟩, member, rfl⟩ := List.mem_map.mp isNew
      exact ⟨_, (effect.added source join _ member).2⟩

/-- A graph while join repair is carried out, together with all that has been done. -/
structure Repairing (graph : StageGraph) (done : List (SideVerdict × RepairState))
    (inserted : Inserted) (current : StageGraph) : Prop
    extends graph.RepairedStages inserted current, CarriedOut done inserted current where
  placed : ∀ source join concatenate, ((source, join), concatenate) ∈ inserted →
    current.stage? concatenate = some (concatenateStage source join concatenate)
  asked : ∀ source join, (∃ concatenate, ((source, join), concatenate) ∈ inserted) ↔
    ∃ entry ∈ done, entry.1.stage = join ∧ ∃ files, entry.1.decision = .concatenate source files
  settled : ∀ edge, graph.SettledEdge inserted current edge

namespace Repairing

theorem initial (built : graph.Built) : graph.Repairing [] [] graph where
  kept id stage found := ⟨stage, found, .refl [] stage⟩
  fresh := by simp
  concatenates := by simp
  loaded := by simp
  nodup := List.nodup_nil
  only id other found := .inl ⟨other, found⟩
  below := built.below
  toCarriedOut := .initial graph
  placed := by simp
  asked := by simp
  settled := graph.settledEdge_initial

variable (repairing : graph.Repairing done inserted current)

include repairing

theorem editable : graph.Editable inserted current where
  kept := repairing.operators_kept
  below := repairing.below
  continued edge isEdge := by
    by_cases isInserted : ∃ concatenate, ((edge.earlier, edge.later), concatenate) ∈ inserted
    · exact .inr isInserted
    · refine .inl ((repairing.settled edge).mpr (.inl ⟨isEdge, fun concatenate member => ?_⟩))
      exact absurd ⟨concatenate, member⟩ isInserted

theorem skip {reason : SkipReason} (decision : verdict.decision = .skip reason) :
    graph.Repairing (done ++ [(verdict, .noOp reason)]) inserted current where
  toRepairedStages := repairing.toRepairedStages
  toCarriedOut := repairing.toCarriedOut.skip decision
  placed := repairing.placed
  asked source join := by
    rw [repairing.asked]
    simp [or_and_right, exists_or, decision]
  settled := repairing.settled

end Repairing

section Provided

variable (provided : Provided inserted current source join concatenate more between)

include provided

theorem Provided.exists_iff {other reader : StageId} :
    (∃ concatenate, ((other, reader), concatenate) ∈ more) ↔
      (∃ concatenate, ((other, reader), concatenate) ∈ inserted) ∨
        reader = join ∧ other = source := by
  cases provided with
  | already member =>
      refine (or_iff_left_of_imp ?_).symm
      rintro ⟨rfl, rfl⟩
      exact ⟨concatenate, member⟩
  | now =>
      simp only [List.mem_cons, Prod.mk.injEq, exists_or]
      constructor
      · rintro (⟨_, ⟨rfl, rfl⟩, -⟩ | old)
        · exact .inr ⟨rfl, rfl⟩
        · exact .inl old
      · rintro (old | ⟨rfl, rfl⟩)
        · exact .inr old
        · exact .inl ⟨_, ⟨rfl, rfl⟩, rfl⟩

theorem Provided.repairedStages (repaired : graph.RepairedStages inserted current)
    (found : graph.stage? join = some stage) (loads : stage.plan.LoadsStage source)
    (room : between.HasRoom) : graph.RepairedStages more between := by
  cases provided with
  | already => exact repaired
  | now => exact repaired.insert found loads room.next

theorem Provided.placed (repaired : graph.RepairedStages inserted current)
    (placed : ∀ source join concatenate, ((source, join), concatenate) ∈ inserted →
      current.stage? concatenate = some (concatenateStage source join concatenate)) :
    ∀ source join concatenate, ((source, join), concatenate) ∈ more →
      between.stage? concatenate = some (concatenateStage source join concatenate) := by
  cases provided with
  | already => exact placed
  | now =>
      intro source' join' concatenate' member
      rcases List.mem_cons.mp member with same | old
      · cases same
        rw [stage?_withConcatenate, if_pos rfl]
        rfl
      · exact repaired.stage?_withConcatenate_of_some (placed source' join' concatenate' old)

end Provided

section CarryOut

variable (built : graph.Built)

include built

theorem Repairing.apply (repairing : graph.Repairing done inserted current)
    (sound : graph.Sound verdict) (feasible : graph.Feasible verdict)
    (room : HasRoom (stateOf (JoinRepair.apply inserted verdict current))) :
    ∃ applied next, JoinRepair.apply inserted verdict current = .ok applied next ∧
      graph.Repairing (done ++ [(verdict, applied.1)]) applied.2 next := by
  cases decision : verdict.decision with
  | skip reason =>
      rw [apply_of_skip decision]
      exact ⟨_, current, rfl, repairing.skip decision⟩
  | concatenate source files =>
      obtain ⟨stage, operator, found, foundLoad, isLoad, replicated⟩ := sound source files decision
      obtain ⟨isEdge, -⟩ := feasible source files decision
      have loads : stage.plan.LoadsStage source :=
        ⟨operator, SubPlan.mem_operators.mpr ⟨_, foundLoad⟩, isLoad⟩
      obtain ⟨concatenate, more, between, reader, provided, isJoin, carriedOut⟩ :=
        repairing.editable.apply_concatenate built feasible decision
      rw [carriedOut] at room
      have roomBetween : between.HasRoom := fun id member => room id (mem_stageIds_withPlan member)
      have repaired := provided.repairedStages repairing.toRepairedStages found loads roomBetween
      have placed := provided.placed repairing.toRepairedStages repairing.placed
      have settled (edge : Edge) (different : edge ≠ ⟨source, verdict.stage⟩) :=
        repairing.toRepairedStages.settledEdge_provided built provided (repairing.settled edge)
          different
      obtain ⟨changed, foundChanged⟩ : ∃ changed, reader.plan.get? verdict.load = some changed := by
        obtain ⟨_, isStage, operators⟩ := repaired.operators_kept _ stage found
        obtain rfl := Option.some.inj (isJoin.symm.trans isStage)
        exact operators verdict.load operator foundLoad
      have ownId := built.ownId verdict.stage stage found
      refine ⟨_, _, carriedOut, ?_⟩
      constructor
      case toRepairedStages =>
        rw [← ownId] at found isJoin provided ⊢
        exact repaired.repoint found foundLoad isLoad replicated provided.member isJoin
      case toCarriedOut =>
        exact repairing.toCarriedOut.repoint repairing.below provided isJoin foundChanged
      case placed =>
        intro source' join' concatenate' member
        rw [stage?_withPlan, if_neg (repaired.ne_concatenate found member)]
        exact placed source' join' concatenate' member
      case asked =>
        intro source' join'
        rw [provided.exists_iff, repairing.asked]
        simp [or_and_right, exists_or, decision, eq_comm]
      case settled =>
        exact repaired.settledEdge_repoint built isEdge found foundLoad isLoad provided.member
          isJoin settled

theorem exists_repairing (ran : Pass.joinRepair.run config graph = .ok outcome after)
    (room : after.HasRoom) :
    ∃ entries inserted, outcome.decisions = entries.map reported ∧
      graph.Repairing entries inserted after ∧
        (∀ verdict, verdict ∈ entries.map Prod.fst ↔ graph.Decided config verdict) ∧
          ((entries.map Prod.fst).map place).Nodup := by
  obtain ⟨stages, verdicts, inOrder, decided, ranSides⟩ := exists_decided_of_run ran
  obtain ⟨order, ordered, -⟩ := Results.bind_eq_ok.mp inOrder
  obtain ⟨_, inOrderToo, mem_stages⟩ := exists_stagesInOrder built ⟨order, ordered⟩
  obtain rfl := Except.ok.inj (inOrder.symm.trans inOrderToo)
  obtain ⟨sound, mem_verdicts⟩ := decisions_of_stages built mem_stages decided
  have roomSides : HasRoom (stateOf (Pass.repairSides [] verdicts.flatten graph)) := by
    rw [ranSides]
    exact room
  have carryOut (verdict : SideVerdict) (isVerdict : verdict ∈ verdicts.flatten)
      (done : List (SideVerdict × RepairState)) (inserted : Inserted) (current : StageGraph)
      (repairing : graph.Repairing done inserted current) :=
    repairing.apply built (sound verdict isVerdict).1 (sound verdict isVerdict).2
  obtain ⟨entries, next, inserted, isVerdicts, ranToo, repairing⟩ :=
    exists_repairSides graph.Repairing [] carryOut (.initial built) roomSides
  obtain ⟨isReported, rfl⟩ := EStateM.Result.ok.inj (ranSides.symm.trans ranToo)
  refine ⟨entries, inserted, isReported, repairing, fun verdict => ?_, ?_⟩
  · rw [isVerdicts, mem_verdicts]
  · rw [isVerdicts]
    exact nodup_place_verdicts built inOrder decided

theorem mem_map_side_reported {entries : List (SideVerdict × RepairState)}
    (decided : ∀ verdict, verdict ∈ entries.map Prod.fst ↔ graph.Decided config verdict)
    {side : Option (StageId × OpId × Nat)} :
    side ∈ (entries.map reported).map Decision.side? ↔
      ∃ stage join index, side = some (stage, join, index) ∧
        graph.ReplicatesSide stage join index := by
  rw [List.map_map, List.mem_map]
  constructor
  · rintro ⟨entry, member, rfl⟩
    obtain ⟨stage, found, isOrdinary, joinsSide, -⟩ :=
      (decided_iff built).mp ((decided entry.1).mp (List.mem_map_of_mem member))
    exact ⟨_, _, _, rfl, stage, entry.1.load, found, isOrdinary, joinsSide⟩
  · rintro ⟨id, join, index, rfl, stage, load, found, isOrdinary, joinsSide⟩
    have isDecided : graph.Decided config
        ⟨id, join, index, load, JoinRepair.decide graph stage.plan load config⟩ :=
      (decided_iff built).mpr ⟨stage, found, isOrdinary, joinsSide, rfl⟩
    obtain ⟨entry, member, same⟩ := List.mem_map.mp ((decided _).mpr isDecided)
    refine ⟨entry, member, ?_⟩
    rw [Function.comp_apply, reported, same]
    rfl

namespace Repairing

variable (repairing : graph.Repairing done inserted current)
  (decided : ∀ verdict, verdict ∈ done.map Prod.fst ↔ graph.Decided config verdict)

include repairing decided

theorem inserted_iff : (∃ concatenate, ((source, join), concatenate) ∈ inserted) ↔
    graph.Crowded config source join := by
  rw [repairing.asked, crowded_iff built]
  constructor
  · rintro ⟨entry, member, atJoin, files, decision⟩
    exact ⟨entry.1, (decided entry.1).mp (List.mem_map_of_mem member), atJoin, files, decision⟩
  · rintro ⟨verdict, isDecided, atJoin, files, decision⟩
    obtain ⟨entry, member, rfl⟩ := List.mem_map.mp ((decided verdict).mpr isDecided)
    exact ⟨entry, member, atJoin, files, decision⟩

/-- Once all decisions are carried out, every load to redirect has been repointed. -/
theorem get?_of_redirects (found : graph.stage? stage.id = some stage) {other : Stage}
    (isStage : current.stage? stage.id = some other) {load : OpId} {operator : Operator}
    (redirects : Redirects inserted stage load operator concatenate) :
    other.plan.get? load = some { operator with operation := .load (.stage concatenate) } := by
  obtain ⟨source, foundLoad, isLoad, feedsSide, member⟩ := redirects
  have crowded := (repairing.inserted_iff built decided).mp ⟨concatenate, member⟩
  obtain ⟨verdict, files, isDecided, atStage, rfl, decision⟩ :=
    crowded.decided built found foundLoad isLoad feedsSide
  obtain ⟨entry, inDone, rfl⟩ := List.mem_map.mp ((decided verdict).mpr isDecided)
  obtain ⟨_, changed, source', concatenate', isStageToo, foundChanged, isLoadToo, memberToo⟩ :=
    repairing.reads entry inDone source files decision
  rw [atStage] at isStageToo memberToo
  obtain rfl := Option.some.inj (isStage.symm.trans isStageToo)
  rw [foundChanged]
  rcases (repairing.repairedStage found isStage).operators _ operator changed foundLoad foundChanged
    with rfl | ⟨_, concatenate'', isLoadFrom, -, memberFrom, rfl⟩
  · -- a source of the original graph is no concatenate stage
    obtain ⟨-, -, feeder, _, foundSource, -⟩ := crowded
    cases isLoad.symm.trans isLoadToo
    exact absurd rfl (repairing.ne_concatenate foundSource memberToo)
  · cases isLoad.symm.trans isLoadFrom
    cases List.inj_on_of_nodup_map repairing.once member memberFrom rfl
    rfl

theorem redirectedPlan (found : graph.stage? stage.id = some stage) {other : Stage}
    (isStage : current.stage? stage.id = some other) :
    RedirectedPlan inserted stage other.plan where
  redirected load operator concatenate redirects :=
    repairing.get?_of_redirects built decided found isStage redirects
  unchanged key noRedirect := by
    have repairedStage := repairing.repairedStage found isStage
    have sameGet := congrArg (fun plan : SubPlan => plan.get? key) repairedStage.shape
    simp only [SubPlan.get?_relabel] at sameGet
    cases foundKey : stage.plan.get? key with
    | none =>
        rw [foundKey] at sameGet
        exact Option.map_eq_none_iff.mp sameGet.symm
    | some operator =>
        rw [foundKey] at sameGet
        obtain ⟨changed, foundChanged, -⟩ := Option.map_eq_some_iff.mp sameGet.symm
        rcases repairedStage.operators key operator changed foundKey foundChanged with
          rfl | ⟨source, concatenate, isLoad, replicated, member, -⟩
        · exact foundChanged
        · have ownId := built.ownIds _ stage found key operator foundKey
          exact absurd ⟨operator, concatenate, source, foundKey, isLoad,
            ownId ▸ replicated.feedsSide, member⟩ noRedirect
  nextId := by
    have sameNext := congrArg SubPlan.nextId (repairing.repairedStage found isStage).shape
    exact sameNext.symm

end Repairing

/-- The exact effect of join repair on every graph on which it succeeds. -/
theorem joinRepair_effect (ran : Pass.joinRepair.run config graph = .ok outcome after)
    (room : after.HasRoom) : ∃ inserted, graph.RepairEffect config inserted outcome after := by
  obtain ⟨entries, inserted, isDecisions, repairing, decided, nodup⟩ :=
    exists_repairing built ran room
  refine ⟨inserted, ?_⟩
  constructor
  case crowded => exact fun source join => repairing.inserted_iff built decided
  case once => exact repairing.once
  case distinct => exact repairing.nodup
  case added =>
    exact fun source join concatenate member =>
      ⟨repairing.fresh source join concatenate member,
        repairing.placed source join concatenate member⟩
  case kept =>
    intro id stage found
    obtain ⟨other, isStage, repairedStage⟩ := repairing.kept id stage found
    obtain rfl := built.ownId id stage found
    refine ⟨other.plan, ?_, repairing.redirectedPlan built decided found isStage⟩
    rw [isStage, ← repairedStage.kind, ← repairedStage.info, ← repairedStage.id]
  case only => exact repairing.only
  case edges =>
    intro edge
    refine (repairing.settled edge).trans (or_congr_left (and_congr_right fun _ => ?_))
    rw [← repairing.inserted_iff built decided, exists_imp]
  case decided =>
    intro side
    rw [isDecisions]
    exact mem_map_side_reported built decided
  case decidedOnce =>
    have isPlace : (entries.map reported).map Decision.side? =
        ((entries.map Prod.fst).map place).map some := by
      simp only [List.map_map]
      rfl
    rw [isDecisions, isPlace]
    exact nodup.map (Option.some_injective _)

end CarryOut

theorem stageIds_afterJoinRepair_salesGraph :
    (salesGraph.afterJoinRepair repairing).stageIds = [⟨0⟩, ⟨1⟩, ⟨2⟩] := by
  rw [afterJoinRepair_salesGraph]
  decide +kernel

theorem crowded_salesGraph : salesGraph.Crowded repairing ⟨0⟩ ⟨1⟩ := by
  have feedsSide : salesPlan.FeedsSide ⟨1⟩ :=
    ⟨⟨2⟩, 1, ⟨⟨2⟩, .join [0, 0] 0, [⟨0⟩, ⟨1⟩]⟩, [0, 0], 0, rfl, rfl, rfl, by decide⟩
  exact ⟨rfl, ⟨salesStage, ⟨1⟩, ⟨⟨1⟩, .load (.stage ⟨0⟩), []⟩, rfl, rfl, rfl, rfl, feedsSide⟩,
    regionsStage, 3, rfl, by decide, rfl, by decide⟩

theorem joinRepair_effect_salesGraph :
    salesGraph.Built ∧ (salesGraph.afterJoinRepair repairing).HasRoom ∧
      ∃ outcome, Pass.joinRepair.run repairing salesGraph =
          .ok outcome (salesGraph.afterJoinRepair repairing) ∧
        ∃ inserted, ((⟨0⟩, ⟨1⟩), ⟨2⟩) ∈ inserted ∧
          salesGraph.RepairEffect repairing inserted outcome
            (salesGraph.afterJoinRepair repairing) := by
  have room : (salesGraph.afterJoinRepair repairing).HasRoom := by
    rw [HasRoom, stageIds_afterJoinRepair_salesGraph]
    decide
  obtain ⟨outcome, ran⟩ := (joinRepair_eq_ok built_salesGraph valid_salesGraph room).1
  obtain ⟨inserted, effect⟩ := joinRepair_effect built_salesGraph ran room
  obtain ⟨concatenate, member⟩ := (effect.crowded ⟨0⟩ ⟨1⟩).mpr crowded_salesGraph
  obtain ⟨fresh, isStage⟩ := effect.added _ _ _ member
  have isId := mem_stageIds.mpr ⟨_, isStage⟩
  rw [stageIds_afterJoinRepair_salesGraph] at isId
  refine ⟨built_salesGraph, room, outcome, ran, inserted, ?_, effect⟩
  rcases List.mem_cons.mp isId with rfl | isId
  · exact absurd fresh (Option.some_ne_none regionsStage)
  · rcases List.mem_cons.mp isId with rfl | isId
    · exact absurd fresh (Option.some_ne_none salesStage)
    · rwa [List.mem_singleton.mp isId] at member

end StageGraph

end BatchFlow
