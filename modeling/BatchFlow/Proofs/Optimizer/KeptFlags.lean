import BatchFlow.Proofs.Optimizer.RaisedFlags

/-!
# Flags that stay

The accumulation pass raises flags and lowers none.  After it a grouping operator is flagged
exactly if it was before or if its stage qualifies, and nothing but flags is changed.  So a
flag that a plan carried while it qualified stays when the plan no longer does.
-/

namespace BatchFlow

open Results Steps

namespace Qualification

/-- The grouping operators that a verdict asks to flag. -/
def packages : Qualification → List OpId
  | qualifies packages => packages
  | _ => []

theorem mem_packages {outcome : Qualification} {package : OpId} :
    package ∈ outcome.packages ↔
      ∃ packages, outcome = qualifies packages ∧ package ∈ packages := by
  cases outcome <;> simp [packages]

theorem isQualifies_iff {outcome : Qualification} :
    outcome.isQualifies = true ↔ ∃ packages, outcome = qualifies packages := by
  cases outcome <;> simp [isQualifies]

end Qualification

namespace SubPlan

def HasPackage (plan : SubPlan) (id : OpId) : Prop :=
  ∃ operator, plan.get? id = some operator ∧ operator.operation.isPackage = true

def IsFlagged (plan : SubPlan) (id : OpId) : Prop :=
  ∃ operator, plan.get? id = some operator ∧ operator.operation.isAccumulative = true

/-- Flagging raises the flags of the named grouping operators and lowers none. -/
theorem isFlagged_flagPackages {plan : SubPlan} {packages : List OpId} {id : OpId} :
    (plan.flagPackages packages).IsFlagged id ↔
      plan.IsFlagged id ∨ plan.HasPackage id ∧ id ∈ packages := by
  unfold IsFlagged HasPackage
  rw [get?_flagPackages]
  cases plan.get? id with
  | none => simp
  | some operator =>
      have isPackage :
          operator.operation.isAccumulative = true → operator.operation.isPackage = true :=
        Operation.isPackage_of_isAccumulative
      split
      case isFalse notNamed => simp [notNamed]
      case isTrue named =>
        simp only [Option.map_some, Option.some.injEq, exists_eq_left', named, and_true,
          Operator.relabel, Operation.isAccumulative_withFlag, Bool.and_true]
        exact ⟨.inr, fun either => either.elim isPackage fun isToo => isToo⟩

theorem hasPackage_flagPackages {plan : SubPlan} {packages : List OpId} {id : OpId} :
    (plan.flagPackages packages).HasPackage id ↔ plan.HasPackage id := by
  unfold HasPackage
  rw [get?_flagPackages]
  split <;> cases plan.get? id <;> simp [Operator.relabel]

theorem isQualifies_flagPackages {plan : SubPlan} {packages : List OpId} :
    (plan.flagPackages packages).qualify.isQualifies = true ↔
      plan.qualify.isQualifies = true := by
  simp only [Qualification.isQualifies_iff]
  refine exists_congr fun qualified => ?_
  exact qualify_congr (keepsObstacles_withFlag false) (withFlags_flagPackages false packages)

theorem not_isFlagged_withFlags_false {plan : SubPlan} {id : OpId} :
    ¬ (plan.withFlags false).IsFlagged id := by
  rintro ⟨operator, isOperator, accumulative⟩
  rw [get?_withFlags] at isOperator
  obtain ⟨original, -, rfl⟩ := Option.map_eq_some_iff.mp isOperator
  simp [Operator.relabel, Operation.isAccumulative_withFlag] at accumulative

end SubPlan

namespace StageGraph

variable {graph current next after : StageGraph} {config : EngineConfig} {outcome : PassOutcome}
  {verdict : StageId × Qualification} {verdicts done : List (StageId × Qualification)}
  {id : StageId} {package : OpId}

/-- The graph with the flags of all grouping operators set to one value. -/
def withFlags (flag : Bool) (graph : StageGraph) : StageGraph :=
  { graph with
    stageMap := graph.stageMap.mapValues fun stage =>
      { stage with plan := stage.plan.withFlags flag } }

/-- A stage has a flagged grouping operator under an identifier. -/
def IsFlagged (graph : StageGraph) (id : StageId) (package : OpId) : Prop :=
  ∃ stage, graph.stage? id = some stage ∧ stage.plan.IsFlagged package

/-- A stage has a grouping operator under an identifier. -/
def HasPackage (graph : StageGraph) (id : StageId) (package : OpId) : Prop :=
  ∃ stage, graph.stage? id = some stage ∧ stage.plan.HasPackage package

/-- An ordinary stage with the identifier qualifies with some grouping operators. -/
def Qualifies (graph : StageGraph) (id : StageId) (packages : List OpId) : Prop :=
  ∃ key stage, graph.stage? key = some stage ∧ stage.id = id ∧ stage.kind = .ordinary ∧
    stage.plan.qualify = .qualifies packages

/-- The grouping operators of a stage that some verdicts ask to flag. -/
def namedPackages (verdicts : List (StageId × Qualification)) (id : StageId) : List OpId :=
  verdicts.flatMap fun verdict => if verdict.1 = id then verdict.2.packages else []

theorem mem_namedPackages :
    package ∈ namedPackages verdicts id ↔
      ∃ packages, (id, .qualifies packages) ∈ verdicts ∧ package ∈ packages := by
  rw [namedPackages, List.mem_flatMap]
  constructor
  · rintro ⟨⟨stage, outcome⟩, member, named⟩
    split at named
    case isFalse => cases named
    case isTrue same =>
      obtain rfl := same
      obtain ⟨packages, rfl, isNamed⟩ := Qualification.mem_packages.mp named
      exact ⟨packages, member, isNamed⟩
  · rintro ⟨packages, member, isNamed⟩
    refine ⟨_, member, ?_⟩
    rw [if_pos rfl]
    exact isNamed

/-- The graph after some verdicts have been carried out. -/
structure FlaggedBy (graph : StageGraph) (verdicts : List (StageId × Qualification))
    (current : StageGraph) : Prop where
  stages : ∀ id, current.stage? id = (graph.stage? id).map fun stage =>
    { stage with plan := stage.plan.flagPackages (namedPackages verdicts id) }
  edges : current.edges = graph.edges
  nextId : current.nextId = graph.nextId

namespace FlaggedBy

theorem start (graph : StageGraph) : graph.FlaggedBy [] graph where
  stages id := by cases graph.stage? id <;> rfl
  edges := rfl
  nextId := rfl

theorem apply (flagged : graph.FlaggedBy done current)
    (applied : Accumulation.apply verdict current = .ok ⟨⟩ next) :
    graph.FlaggedBy (done ++ [verdict]) next := by
  have named (id : StageId) : namedPackages (done ++ [verdict]) id =
      namedPackages done id ++ if verdict.1 = id then verdict.2.packages else [] := by
    simp [namedPackages]
  rcases apply_cases applied with ⟨rfl, other⟩ | ⟨packages, qualifies, rfl⟩
  · have noPackages : verdict.2.packages = [] := by
      cases isOutcome : verdict.2 with
      | noGrouping | disqualified => rfl
      | qualifies packages => exact absurd isOutcome (other packages)
    refine ⟨fun id => ?_, flagged.edges, flagged.nextId⟩
    rw [named, noPackages, ite_self, List.append_nil]
    exact flagged.stages id
  · refine ⟨fun id => ?_, flagged.edges, flagged.nextId⟩
    rw [stage?_modifyStage, named, qualifies]
    by_cases same : id = verdict.1
    · subst same
      rw [if_pos rfl, if_pos rfl, flagged.stages, Option.map_map]
      refine congrArg (fun change => (graph.stage? verdict.1).map change) (funext fun stage => ?_)
      simp only [Function.comp_apply, SubPlan.flagPackages, List.foldl_append,
        Qualification.packages]
    · rw [if_neg same, if_neg (Ne.symm same), List.append_nil]
      exact flagged.stages id

theorem forM_apply (flagged : graph.FlaggedBy done current)
    (applied : verdicts.forM Accumulation.apply current = .ok ⟨⟩ next) :
    graph.FlaggedBy (done ++ verdicts) next := by
  induction verdicts generalizing done current with
  | nil =>
      cases applied
      rwa [List.append_nil]
  | cons verdict rest ih =>
      obtain ⟨⟨⟩, between, appliedFirst, appliedRest⟩ := bind_eq_ok.mp applied
      rw [List.append_cons]
      exact ih (flagged.apply appliedFirst) appliedRest

variable (flagged : graph.FlaggedBy verdicts after)

include flagged

theorem withFlags_eq : after.withFlags false = graph.withFlags false := by
  have sameStages : (after.withFlags false).stageMap = (graph.withFlags false).stageMap := by
    refine OrderedMap.ext_get? fun id => ?_
    simp only [withFlags, OrderedMap.get?_mapValues]
    rw [← stage?, flagged.stages id, ← stage?, Option.map_map]
    refine congrArg (fun change => (graph.stage? id).map change) (funext fun stage => ?_)
    simp only [Function.comp_apply, SubPlan.withFlags_flagPackages]
  show StageGraph.mk _ _ _ = StageGraph.mk _ _ _
  rw [StageGraph.mk.injEq]
  exact ⟨sameStages, flagged.edges, flagged.nextId⟩

theorem isFlagged_iff :
    after.IsFlagged id package ↔ graph.IsFlagged id package ∨
      graph.HasPackage id package ∧ package ∈ namedPackages verdicts id := by
  unfold IsFlagged HasPackage
  rw [flagged.stages]
  cases graph.stage? id with
  | none => simp
  | some stage =>
      simp only [Option.map_some, Option.some.injEq, exists_eq_left']
      exact SubPlan.isFlagged_flagPackages

end FlaggedBy

/-- A pass that succeeds carries out the verdicts on all stages and reports them. -/
theorem exists_judged (ran : Pass.accumulation.run config graph = .ok outcome after) :
    ∃ stages verdicts, graph.stagesInOrder = .ok stages ∧
      verdicts = Accumulation.values (stages.map (Accumulation.assess graph)) ∧
      outcome.decisions = verdicts.map (fun verdict => .accumulative verdict.1 verdict.2) ∧
      graph.FlaggedBy verdicts after ∧
      ∀ id packages, (id, .qualifies packages) ∈ verdicts ↔ graph.Qualifies id packages := by
  cases isOrder : graph.order with
  | error error =>
      rw [run_accumulation_of_disorder isOrder] at ran
      exact nomatch ran
  | ok order =>
      obtain ⟨stages, inOrder, mem_stages⟩ := exists_stagesInOrder_of_order ⟨order, isOrder⟩
      rw [run_accumulation inOrder] at ran
      cases combined : Accumulation.combineFaults Pass.accumulation.name
          (stages.filterMap graph.reportedFault?) with
      | some error =>
          rw [combined] at ran
          exact absurd ran throw_ne_ok
      | none =>
          rw [combined] at ran
          obtain ⟨⟨⟩, between, applied, returned⟩ := bind_eq_ok.mp ran
          obtain ⟨rfl, rfl⟩ := pure_eq_ok.mp returned
          refine ⟨stages, _, inOrder, rfl, rfl, (FlaggedBy.start graph).forM_apply applied,
            fun id packages => ?_⟩
          have noFault := List.filterMap_eq_nil_iff.mp (combineFaults_eq_none.mp combined)
          rw [mem_values_assess]
          constructor
          · rintro ⟨stage, member, assessed⟩
            obtain ⟨key, found⟩ := (mem_stages stage).mp member
            rcases assess_eq_ok.mp assessed with ⟨-, isVerdict⟩ | ⟨isOrdinary, -, isVerdict⟩
            · cases isVerdict
            · obtain ⟨rfl, qualifies⟩ := Prod.mk.inj isVerdict
              exact ⟨key, stage, found, rfl, isOrdinary, qualifies.symm⟩
          · rintro ⟨key, stage, found, rfl, isOrdinary, qualifies⟩
            have member := (mem_stages stage).mpr ⟨key, found⟩
            have checked := noFault stage member
            rw [reportedFault?, isOrdinary] at checked
            exact ⟨stage, member, assess_eq_ok.mpr (.inr ⟨isOrdinary, checked, by rw [qualifies]⟩)⟩

theorem exists_flaggedBy (ran : Pass.accumulation.run config graph = .ok outcome after) :
    ∃ verdicts, graph.FlaggedBy verdicts after ∧
      ∀ id packages, (id, .qualifies packages) ∈ verdicts ↔ graph.Qualifies id packages := by
  obtain ⟨-, verdicts, -, -, -, flagged, isVerdict⟩ := exists_judged ran
  exact ⟨verdicts, flagged, isVerdict⟩

/-- Stages and operators stand under their own identifiers. -/
def OwnIds (graph : StageGraph) : Prop :=
  ∀ id stage, graph.stage? id = some stage → stage.id = id ∧ stage.plan.OwnIds

/-- The grouping operators of ordinary stages are flagged exactly where the plan qualifies. -/
def FlagsQualified (graph : StageGraph) : Prop :=
  ∀ id stage package, graph.stage? id = some stage → stage.kind = .ordinary →
    stage.plan.HasPackage package →
      (stage.plan.IsFlagged package ↔ stage.plan.qualify.isQualifies = true)

/-- Ordinary stages whose plans do not qualify carry no flags. -/
def NoStrayFlags (graph : StageGraph) : Prop :=
  ∀ id stage package, graph.stage? id = some stage → stage.kind = .ordinary →
    stage.plan.IsFlagged package → stage.plan.qualify.isQualifies = true

/-- The verdict on a stage that stands under its own identifier is about all of its grouping
operators. -/
theorem OwnIds.named_iff (ownIds : graph.OwnIds) {stage : Stage}
    (found : graph.stage? id = some stage) (isOrdinary : stage.kind = .ordinary)
    (hasPackage : stage.plan.HasPackage package) :
    (∃ packages, graph.Qualifies id packages ∧ package ∈ packages) ↔
      stage.plan.qualify.isQualifies = true := by
  obtain ⟨ownId, ownOperators⟩ := ownIds id stage found
  rw [Qualification.isQualifies_iff]
  constructor
  · rintro ⟨packages, ⟨key, other, foundOther, isId, -, qualifies⟩, -⟩
    obtain rfl : key = id := (ownIds key other foundOther).1.symm.trans isId
    obtain rfl := Option.some.inj (found.symm.trans foundOther)
    exact ⟨packages, qualifies⟩
  · rintro ⟨packages, qualifies⟩
    refine ⟨packages, ⟨id, stage, found, ownId, isOrdinary, qualifies⟩, ?_⟩
    obtain ⟨rfl, -, -⟩ := SubPlan.qualify_eq_qualifies.mp qualifies
    exact ownOperators.mem_packages.mpr hasPackage

/-- The pass changes nothing but flags.  It flags exactly the grouping operators that were
flagged before or that an ordinary stage qualifies with, so the flags agree with the verdicts
afterwards exactly if no other stage carried one. -/
theorem flags_after_accumulation
    (ran : Pass.accumulation.run config graph = .ok outcome after) :
    after.withFlags false = graph.withFlags false ∧
      (∀ id package, after.IsFlagged id package ↔ graph.IsFlagged id package ∨
        graph.HasPackage id package ∧
          ∃ packages, graph.Qualifies id packages ∧ package ∈ packages) ∧
      (graph.OwnIds → (after.FlagsQualified ↔ graph.NoStrayFlags)) := by
  obtain ⟨verdicts, flagged, isVerdict⟩ := exists_flaggedBy ran
  have isNamed (id : StageId) (package : OpId) : package ∈ namedPackages verdicts id ↔
      ∃ packages, graph.Qualifies id packages ∧ package ∈ packages := by
    simp only [mem_namedPackages, isVerdict]
  refine ⟨flagged.withFlags_eq, fun id package => ?_, fun ownIds => ⟨?_, ?_⟩⟩
  · rw [flagged.isFlagged_iff, isNamed]
  · intro qualified id stage package found isOrdinary isFlagged
    have isStage := flagged.stages id
    rw [found, Option.map_some] at isStage
    have hasPackage : stage.plan.HasPackage package := by
      obtain ⟨operator, isOperator, accumulative⟩ := isFlagged
      exact ⟨operator, isOperator, Operation.isPackage_of_isAccumulative accumulative⟩
    have agree := qualified id _ package isStage isOrdinary
      (SubPlan.hasPackage_flagPackages.mpr hasPackage)
    rw [SubPlan.isFlagged_flagPackages, SubPlan.isQualifies_flagPackages] at agree
    exact agree.mp (.inl isFlagged)
  · intro noStray id other package isStage isOrdinary hasPackage
    rw [flagged.stages id] at isStage
    obtain ⟨stage, found, rfl⟩ := Option.map_eq_some_iff.mp isStage
    have hadPackage := SubPlan.hasPackage_flagPackages.mp hasPackage
    rw [SubPlan.isFlagged_flagPackages, SubPlan.isQualifies_flagPackages, isNamed,
      ownIds.named_iff found isOrdinary hadPackage, and_iff_right hadPackage]
    exact or_iff_right_of_imp (noStray id stage package found isOrdinary)

def ofPlan (plan : SubPlan) : StageGraph :=
  ⟨OrderedMap.insert ∅ ⟨0⟩ ⟨⟨0⟩, .ordinary, plan, {}⟩, ∅, 1⟩

theorem stage?_ofPlan {plan : SubPlan} {stage : Stage} :
    (ofPlan plan).stage? id = some stage ↔ id = ⟨0⟩ ∧ stage = ⟨⟨0⟩, .ordinary, plan, {}⟩ := by
  rw [stage?, ofPlan, OrderedMap.get?_insert, OrderedMap.get?_empty]
  split <;> simp_all [eq_comm]

theorem ownIds_ofPlan {plan : SubPlan} (ownIds : plan.OwnIds) : (ofPlan plan).OwnIds := by
  intro id stage found
  obtain ⟨rfl, rfl⟩ := stage?_ofPlan.mp found
  exact ⟨rfl, ownIds⟩

theorem stagesInOrder_ofPlan (plan : SubPlan) :
    (ofPlan plan).stagesInOrder = .ok [⟨⟨0⟩, .ordinary, plan, {}⟩] := by
  have ordered : (ofPlan plan).order = .ok [⟨0⟩] := by cbv
  rw [stagesInOrder, ordered]
  rfl

theorem run_accumulation_ofPlan (plan : SubPlan) (config : EngineConfig)
    (checked : (ofPlan plan).stageFault? ⟨0⟩ = none) :
    ∃ outcome, Pass.accumulation.run config (ofPlan plan) =
      .ok outcome (ofPlan (plan.flagPackages plan.qualify.packages)) := by
  have assessed : Accumulation.assess (ofPlan plan) ⟨⟨0⟩, .ordinary, plan, {}⟩ =
      .ok (⟨0⟩, plan.qualify) := assess_eq_ok.mpr (.inr ⟨rfl, checked, rfl⟩)
  rw [run_accumulation (stagesInOrder_ofPlan plan)]
  simp only [List.filterMap_cons, reportedFault?, checked, List.map_cons, assessed]
  cases plan.qualify <;> exact ⟨_, rfl⟩

/-- The groups of the sales totals, which were materialized, are streamed after the pass. -/
theorem flags_after_accumulation_salesTotals :
    ∃ outcome after, Pass.accumulation.run {}
        (ofPlan ((SubPlan.salesTotals .sum).withFlags false)) = .ok outcome after ∧
      after.withFlags false =
        (ofPlan ((SubPlan.salesTotals .sum).withFlags false)).withFlags false ∧
      (ofPlan ((SubPlan.salesTotals .sum).withFlags false)).OwnIds ∧ after.FlagsQualified ∧
      ¬ (ofPlan ((SubPlan.salesTotals .sum).withFlags false)).IsFlagged ⟨0⟩ ⟨2⟩ ∧
      after.IsFlagged ⟨0⟩ ⟨2⟩ := by
  obtain ⟨outcome, ran⟩ :=
    run_accumulation_ofPlan ((SubPlan.salesTotals .sum).withFlags false) {} rfl
  have isVerdict : ((SubPlan.salesTotals .sum).withFlags false).qualify = .qualifies [⟨2⟩] := by
    cbv
  rw [isVerdict] at ran
  have ownIds := ownIds_ofPlan ((SubPlan.OwnIds.salesTotals .sum).withFlags false)
  have noFlag (id : StageId) (package : OpId) :
      ¬ (ofPlan ((SubPlan.salesTotals .sum).withFlags false)).IsFlagged id package := by
    rintro ⟨stage, found, flagged⟩
    obtain ⟨-, rfl⟩ := stage?_ofPlan.mp found
    exact SubPlan.not_isFlagged_withFlags_false flagged
  obtain ⟨unchanged, isFlagged, qualified⟩ := flags_after_accumulation ran
  refine ⟨outcome, _, ran, unchanged, ownIds, (qualified ownIds).mpr ?_, noFlag _ _, ?_⟩
  · intro id stage package found _ flagged
    exact absurd ⟨stage, found, flagged⟩ (noFlag id package)
  · exact (isFlagged ⟨0⟩ ⟨2⟩).mpr (.inr ⟨⟨_, rfl, _, rfl, rfl⟩,
      [⟨2⟩], ⟨⟨0⟩, _, rfl, rfl, rfl, isVerdict⟩, List.mem_singleton_self _⟩)

/-- The plan of the sales totals, in which the groups are streamed, after operators that store
the groups themselves have been appended. -/
def salesGroupsPlan : SubPlan :=
  ((SubPlan.salesTotals .sum).insert ⟨⟨5⟩, .forEach [.groupKey, .bag], [⟨2⟩]⟩).insert
    ⟨⟨6⟩, .store "groups", [⟨5⟩]⟩

/-- The pass leaves the flag, although the plan no longer qualifies. -/
theorem salesGroups_kept_flagged :
    (ofPlan salesGroupsPlan).OwnIds ∧
      salesGroupsPlan.qualify = .disqualified ⟨5⟩ (.expression .bag) ∧
      ∃ outcome, Pass.accumulation.run {} (ofPlan salesGroupsPlan) =
          .ok outcome (ofPlan salesGroupsPlan) ∧
        (ofPlan salesGroupsPlan).IsFlagged ⟨0⟩ ⟨2⟩ ∧ ¬ (ofPlan salesGroupsPlan).FlagsQualified := by
  have isVerdict : salesGroupsPlan.qualify = .disqualified ⟨5⟩ (.expression .bag) := by cbv
  have isFlagged : salesGroupsPlan.IsFlagged ⟨2⟩ := ⟨_, rfl, rfl⟩
  obtain ⟨outcome, ran⟩ := run_accumulation_ofPlan salesGroupsPlan {} rfl
  rw [isVerdict] at ran
  refine ⟨ownIds_ofPlan ?_, isVerdict, outcome, ran, ⟨_, rfl, isFlagged⟩, fun qualified => ?_⟩
  · exact ((SubPlan.OwnIds.salesTotals .sum).insert _).insert _
  · have qualifies := (qualified ⟨0⟩ _ ⟨2⟩ rfl rfl ⟨_, rfl, rfl⟩).mp isFlagged
    rw [show (Stage.plan _).qualify = _ from isVerdict] at qualifies
    cases qualifies

end StageGraph

end BatchFlow
