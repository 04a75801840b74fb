import BatchFlow.Proofs.Optimizer.AccumulationPass

/-!
# Flags are raised once

Whether a plan qualifies depends neither on its flags nor on the sources of its
loads.  The accumulation pass raises the flags of every stage that qualifies, and
where they are raised already it changes nothing.
-/

namespace BatchFlow

open Results Steps

namespace SubPlan

variable {plan other : SubPlan} {packages more : List OpId}

/-- A change of operations that brings up no obstacle and removes none. -/
structure KeepsObstacles (change : Operation → Operation) : Prop where
  isPackage : ∀ operation, (change operation).isPackage = operation.isPackage
  obstacle : ∀ operation, (change operation).obstacle? = none ↔ operation.obstacle? = none
  consumer : ∀ operation,
    (change operation).consumerObstacle? = none ↔ operation.consumerObstacle? = none

theorem keepsObstacles_withFlag (flag : Bool) : KeepsObstacles (Operation.withFlag flag) where
  isPackage := Operation.isPackage_withFlag flag
  obstacle operation := by cases operation <;> simp [Operation.withFlag, Operation.obstacle?]
  consumer operation := by
    cases operation <;> simp [Operation.withFlag, Operation.consumerObstacle?]

theorem keepsObstacles_withoutSource : KeepsObstacles Operation.withoutSource where
  isPackage := Operation.isPackage_withoutSource
  obstacle operation := by cases operation <;> simp [Operation.withoutSource, Operation.obstacle?]
  consumer operation := by
    cases operation <;> simp [Operation.withoutSource, Operation.consumerObstacle?]

theorem qualify_relabel {change : Operation → Operation} (keeps : KeepsObstacles change) :
    (plan.relabel change).qualify = .qualifies packages ↔ plan.qualify = .qualifies packages := by
  simp only [qualify_eq_qualifies, packages_relabel change plan keeps.isPackage,
    packageObstacle?_eq_none, consumers_relabel, downstreamOf_relabel, get?_relabel]
  simp [Operator.relabel, keeps.obstacle, keeps.consumer]

theorem qualify_congr {change : Operation → Operation} (keeps : KeepsObstacles change)
    (same : plan.relabel change = other.relabel change) :
    plan.qualify = .qualifies packages ↔ other.qualify = .qualifies packages := by
  rw [← qualify_relabel keeps, same, qualify_relabel keeps]

/-- All these grouping operators are flagged as accumulative. -/
def Raised (plan : SubPlan) (packages : List OpId) : Prop :=
  ∀ package ∈ packages, ∀ operator, plan.get? package = some operator →
    operator.operation.withFlag true = operator.operation

theorem raised_flagPackages : (plan.flagPackages packages).Raised packages := by
  intro package member operator found
  rw [get?_flagPackages, if_pos member] at found
  obtain ⟨original, -, rfl⟩ := Option.map_eq_some_iff.mp found
  exact Operation.withFlag_withFlag ..

theorem Raised.flagPackages (raised : plan.Raised packages) (more : List OpId) :
    (plan.flagPackages more).Raised packages := by
  intro package member operator found
  rw [get?_flagPackages] at found
  split at found
  · obtain ⟨original, -, rfl⟩ := Option.map_eq_some_iff.mp found
    exact Operation.withFlag_withFlag ..
  · exact raised package member operator found

theorem Raised.flagPackages_eq (raised : plan.Raised packages) :
    plan.flagPackages packages = plan := by
  refine ext_get? (nextId_flagPackages packages) fun id => ?_
  rw [get?_flagPackages]
  split
  case isFalse => rfl
  case isTrue member =>
    cases found : plan.get? id with
    | none => rfl
    | some operator =>
        have isRaised := raised id member operator found
        rw [Option.map_some, Operator.relabel, isRaised]

end SubPlan

namespace StageGraph

variable {graph current next : StageGraph} {config : EngineConfig}
  {verdict : StageId × Qualification} {verdicts : List (StageId × Qualification)}

/-- The flags that a verdict asks for are raised. -/
def HasRaised (current : StageGraph) (verdict : StageId × Qualification) : Prop :=
  ∀ packages stage, verdict.2 = .qualifies packages → current.stage? verdict.1 = some stage →
    stage.plan.Raised packages

theorem modifyStage_eq_self {id : StageId} {change : Stage → Stage}
    (same : ∀ stage, graph.stage? id = some stage → change stage = stage) :
    graph.modifyStage id change = graph := by
  have sameStages : graph.stageMap.modify id change = graph.stageMap := by
    refine OrderedMap.ext_get? fun other => ?_
    rw [OrderedMap.get?_modify]
    split
    case isFalse => rfl
    case isTrue atStage =>
      subst atStage
      cases found : graph.stageMap.get? other with
      | none => rfl
      | some stage => rw [Option.map_some, same stage found]
  rw [modifyStage, sameStages]

theorem apply_cases (applied : Accumulation.apply verdict current = .ok ⟨⟩ next) :
    (next = current ∧ ∀ packages, verdict.2 ≠ .qualifies packages) ∨
      ∃ packages, verdict.2 = .qualifies packages ∧
        next = current.modifyStage verdict.1 fun stage =>
          { stage with plan := stage.plan.flagPackages packages } := by
  obtain ⟨id, outcome⟩ := verdict
  cases outcome with
  | noGrouping | disqualified =>
      cases applied
      exact .inl ⟨rfl, nofun⟩
  | qualifies packages =>
      rw [Accumulation.apply, get_bind_apply] at applied
      cases isStage : current.stageMap.contains id with
      | false =>
          rw [isStage] at applied
          exact absurd applied throw_ne_ok
      | true =>
          rw [isStage] at applied
          cases applied
          exact .inr ⟨packages, rfl, rfl⟩

theorem hasRaised_of_apply (applied : Accumulation.apply verdict current = .ok ⟨⟩ next) :
    next.HasRaised verdict := by
  intro packages stage qualifies isStage
  rcases apply_cases applied with ⟨-, other⟩ | ⟨_, qualifiesToo, rfl⟩
  · exact absurd qualifies (other packages)
  · obtain rfl := Qualification.qualifies.inj (qualifies.symm.trans qualifiesToo)
    rw [stage?_modifyStage, if_pos rfl] at isStage
    obtain ⟨original, -, rfl⟩ := Option.map_eq_some_iff.mp isStage
    exact SubPlan.raised_flagPackages

theorem HasRaised.apply {other : StageId × Qualification} (raised : current.HasRaised other)
    (applied : Accumulation.apply verdict current = .ok ⟨⟩ next) : next.HasRaised other := by
  intro packages stage qualifies isStage
  rcases apply_cases applied with ⟨rfl, -⟩ | ⟨more, -, rfl⟩
  · exact raised packages stage qualifies isStage
  · rw [stage?_modifyStage] at isStage
    split at isStage
    case isFalse => exact raised packages stage qualifies isStage
    case isTrue same =>
      obtain ⟨original, found, rfl⟩ := Option.map_eq_some_iff.mp isStage
      exact (raised packages original qualifies (same ▸ found)).flagPackages more

theorem hasRaised_of_forM (applied : verdicts.forM Accumulation.apply current = .ok ⟨⟩ next)
    {other : StageId × Qualification} (either : other ∈ verdicts ∨ current.HasRaised other) :
    next.HasRaised other := by
  -- A flag once raised stays raised while the rest is carried out.
  induction verdicts generalizing current with
  | nil =>
      cases applied
      exact either.resolve_left List.not_mem_nil
  | cons verdict rest ih =>
      obtain ⟨⟨⟩, between, appliedFirst, appliedRest⟩ := bind_eq_ok.mp applied
      refine ih appliedRest ?_
      rcases either with member | raised
      · rcases List.mem_cons.mp member with rfl | inRest
        · exact .inr (hasRaised_of_apply appliedFirst)
        · exact .inl inRest
      · exact .inr (raised.apply appliedFirst)

theorem HasRaised.apply_eq (raised : current.HasRaised verdict)
    (isStage : ∃ stage, current.stage? verdict.1 = some stage) :
    Accumulation.apply verdict current = .ok ⟨⟩ current := by
  obtain ⟨id, outcome⟩ := verdict
  cases outcome with
  | noGrouping | disqualified => rfl
  | qualifies packages =>
      have same : current.modifyStage id (fun stage =>
          { stage with plan := stage.plan.flagPackages packages }) = current := by
        refine modifyStage_eq_self fun stage found => ?_
        rw [(raised packages stage rfl found).flagPackages_eq]
      rw [Accumulation.apply, get_bind_apply, contains_stageMap.mpr isStage]
      exact congrArg (EStateM.Result.ok PUnit.unit) same

theorem forM_apply_eq (raised : ∀ verdict ∈ verdicts, current.HasRaised verdict ∧
    ∃ stage, current.stage? verdict.1 = some stage) :
    verdicts.forM Accumulation.apply current = .ok ⟨⟩ current := by
  induction verdicts with
  | nil => rfl
  | cons verdict rest ih =>
      obtain ⟨⟨raisedFirst, isStage⟩, raisedRest⟩ := List.forall_mem_cons.mp raised
      exact bind_eq_ok.mpr ⟨⟨⟩, current, raisedFirst.apply_eq isStage, ih raisedRest⟩

/-- Every ordinary stage that qualifies has its flags raised. -/
def AllRaised (graph : StageGraph) : Prop :=
  ∀ id stage packages, graph.stage? id = some stage → stage.kind = .ordinary →
    stage.plan.qualify = .qualifies packages → stage.plan.Raised packages

section Valid

variable (built : graph.Built) (valid : ∃ count, graph.validate = .ok count)

include built valid

/-- On a valid graph the pass reaches a verdict about every ordinary stage, and
carries them out. -/
theorem accumulation_of_valid :
    ∃ outcome : PassOutcome, outcome.decisions.filterMap Decision.inserted? = [] ∧
      ∃ verdicts : List (StageId × Qualification),
        (∀ verdict ∈ verdicts, ∃ stage, graph.stage? verdict.1 = some stage ∧
          (verdict.2 = .noGrouping ∨ stage.kind = .ordinary ∧ verdict.2 = stage.plan.qualify)) ∧
        (∀ id stage, graph.stage? id = some stage → stage.kind = .ordinary →
          (id, stage.plan.qualify) ∈ verdicts) ∧
        ∀ next, verdicts.forM Accumulation.apply graph = .ok ⟨⟩ next →
          Pass.accumulation.run config graph = .ok outcome next := by
  obtain ⟨stages, inOrder, mem_stages⟩ :=
    exists_stagesInOrder built (exists_order_of_valid valid)
  have noFault {id : StageId} {stage : Stage} (found : graph.stage? id = some stage) :
      graph.stageFault? id = none := by
    have isChecked := checkStage_of_valid valid found
    cases fault : graph.stageFault? id with
    | none => rfl
    | some => exact absurd isChecked (checkStage_ne_ok.mpr ⟨_, fault⟩)
  have noneReported : stages.filterMap graph.reportedFault? = [] := by
    refine List.filterMap_eq_nil_iff.mpr fun stage member => ?_
    rw [reportedFault?, noFault ((mem_stages stage).mp member)]
    cases stage.kind <;> rfl
  let verdicts := Accumulation.values (stages.map (Accumulation.assess graph))
  refine ⟨⟨Pass.accumulation.name, stages.length,
    verdicts.map fun verdict => .accumulative verdict.1 verdict.2⟩, ?_, verdicts, ?_, ?_, ?_⟩
  · rw [List.filterMap_map]
    exact List.filterMap_eq_nil_iff.mpr fun _ _ => rfl
  · intro verdict member
    obtain ⟨stage, inStages, assessed⟩ := mem_values_assess.mp member
    have found := (mem_stages stage).mp inStages
    rcases assess_eq_ok.mp assessed with ⟨-, rfl⟩ | ⟨isOrdinary, -, rfl⟩
    · exact ⟨stage, found, .inl rfl⟩
    · exact ⟨stage, found, .inr ⟨isOrdinary, rfl⟩⟩
  · intro id stage found isOrdinary
    obtain rfl := built.ownId id stage found
    exact mem_values_assess.mpr ⟨stage, (mem_stages stage).mpr found,
      assess_eq_ok.mpr (.inr ⟨isOrdinary, noFault found, rfl⟩)⟩
  · intro next applied
    rw [run_accumulation inOrder, noneReported]
    exact bind_eq_ok.mpr ⟨⟨⟩, next, applied, rfl⟩

/-- The pass raises the flags of every stage that qualifies. -/
theorem exists_allRaised :
    ∃ outcome next, Pass.accumulation.run config graph = .ok outcome next ∧
      outcome.decisions.filterMap Decision.inserted? = [] ∧ graph.Flagged next ∧
        next.AllRaised := by
  obtain ⟨outcome, noneInserted, verdicts, areStages, covers, run⟩ :=
    accumulation_of_valid built valid
  obtain ⟨next, applied, flagged⟩ := (Flagged.refl graph).forM_apply fun verdict member =>
    (areStages verdict member).imp fun _ ofStage => ofStage.1
  refine ⟨outcome, next, run next applied, noneInserted, flagged, ?_⟩
  intro id other packages isStage isOrdinary qualifies
  obtain ⟨stage, more, found, rfl⟩ := flagged.exists_stage isStage
  -- The verdict was reached before any flag was raised.
  have qualified : stage.plan.qualify = .qualifies packages :=
    (SubPlan.qualify_congr (SubPlan.keepsObstacles_withFlag false)
      (SubPlan.withFlags_flagPackages false more)).mp qualifies
  have member := covers id stage found isOrdinary
  exact hasRaised_of_forM applied (.inl member) packages _ qualified isStage

/-- Where all flags are raised, the pass changes nothing. -/
theorem accumulation_of_allRaised (raised : graph.AllRaised) :
    ∃ outcome, Pass.accumulation.run config graph = .ok outcome graph ∧
      outcome.decisions.filterMap Decision.inserted? = [] := by
  obtain ⟨outcome, noneInserted, verdicts, areStages, -, run⟩ := accumulation_of_valid built valid
  refine ⟨outcome, run graph (forM_apply_eq fun verdict member => ?_), noneInserted⟩
  obtain ⟨stage, found, isVerdict⟩ := areStages verdict member
  refine ⟨fun packages other qualifies foundToo => ?_, stage, found⟩
  obtain rfl := Option.some.inj (found.symm.trans foundToo)
  rcases isVerdict with noGrouping | ⟨isOrdinary, isQualify⟩
  · exact nomatch noGrouping.symm.trans qualifies
  · exact raised _ stage packages found isOrdinary (isQualify.symm.trans qualifies)

end Valid

end StageGraph

end BatchFlow
