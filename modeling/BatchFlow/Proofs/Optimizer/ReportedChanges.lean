import BatchFlow.Proofs.Optimizer.AllOrNothing
import BatchFlow.Proofs.Optimizer.KeptFlags
import BatchFlow.Proofs.Optimizer.RepairEffect

/-!
# Reported changes

A pass counts the decisions that ask for a change.  Each such decision of join repair adds a
stage or reads from one that was added, so the pass reports no change exactly if it makes
none.  The accumulation pass counts the stages that qualify, and reports them as flagged, also
where every flag was raised before.
-/

namespace BatchFlow

open JoinRepair Steps

theorem PassOutcome.changed_eq_zero_iff {outcome : PassOutcome} :
    outcome.changed = 0 ↔ ∀ decision ∈ outcome.decisions, decision.isChange = false := by
  rw [PassOutcome.changed, List.countP_eq_zero]
  exact forall₂_congr fun _ _ => (Bool.not_eq_true _).to_iff

theorem Operation.withFlag_true_eq_self {operation : Operation} :
    operation.withFlag true = operation ↔
      (operation.isPackage = true → operation.isAccumulative = true) := by
  cases operation <;> simp [withFlag, isPackage, isAccumulative, eq_comm]

namespace SubPlan

variable {plan other : SubPlan} {packages : List OpId} {id : OpId}

theorem raised_iff :
    plan.Raised packages ↔
      ∀ package ∈ packages, plan.HasPackage package → plan.IsFlagged package := by
  refine forall₂_congr fun package _ => ⟨?_, fun flagged operator found => ?_⟩
  · rintro raised ⟨operator, found, isPackage⟩
    exact ⟨operator, found, Operation.withFlag_true_eq_self.mp (raised operator found) isPackage⟩
  · refine Operation.withFlag_true_eq_self.mpr fun isPackage => ?_
    obtain ⟨other, foundToo, accumulative⟩ := flagged ⟨operator, found, isPackage⟩
    rwa [Option.some.inj (found.symm.trans foundToo)]

/-- The sources of loads do not matter for flags. -/
theorem isFlagged_of_withoutSource
    (same : plan.relabel Operation.withoutSource = other.relabel Operation.withoutSource) :
    plan.IsFlagged id ↔ other.IsFlagged id := by
  have relabeled (plan : SubPlan) :
      (plan.relabel Operation.withoutSource).IsFlagged id ↔ plan.IsFlagged id := by
    have keeps (operation : Operation) :
        operation.withoutSource.isAccumulative = operation.isAccumulative := by
      cases operation <;> rfl
    unfold IsFlagged
    rw [get?_relabel]
    cases plan.get? id <;> simp [Operator.relabel, keeps]
  rw [← relabeled plan, same, relabeled other]

theorem not_isFlagged_concatenatePlan {source join : StageId} :
    ¬ (concatenatePlan source join).IsFlagged id := by
  rintro ⟨operator, found, accumulative⟩
  have member := mem_operators.mpr ⟨id, found⟩
  rw [operators_concatenatePlan, List.mem_pair] at member
  rcases member with rfl | rfl <;> exact nomatch accumulative

end SubPlan

namespace StageGraph

section Kinds

variable {graph current next after : StageGraph} {config : EngineConfig} {outcome : PassOutcome}
  {inserted : Inserted} {verdict : SideVerdict} {verdicts : List SideVerdict}
  {decisions : List Decision} {source join concatenate : StageId}

/-- The kind of the stage under an identifier. -/
def kind? (graph : StageGraph) (id : StageId) : Option StageKind :=
  (graph.stage? id).map Stage.kind

/-- Two graphs with the same next identifier and the same kinds of stages. -/
structure SameKinds (graph current : StageGraph) : Prop where
  nextId : current.nextId = graph.nextId
  kinds : ∀ id, current.kind? id = graph.kind? id

theorem SameKinds.trans (first : graph.SameKinds current) (second : current.SameKinds next) :
    graph.SameKinds next where
  nextId := second.nextId.trans first.nextId
  kinds id := (second.kinds id).trans (first.kinds id)

theorem sameKinds_connect {earlier later : StageId}
    (connected : connect earlier later current = .ok ⟨⟩ next) : current.SameKinds next := by
  obtain ⟨-, -, -, rfl⟩ := connect_eq_ok.mp connected
  exact ⟨rfl, fun _ => rfl⟩

theorem sameKinds_disconnect {earlier later : StageId} {removed : Bool}
    (disconnected : disconnect earlier later current = .ok removed next) :
    current.SameKinds next := by
  cases disconnected
  exact ⟨rfl, fun _ => rfl⟩

theorem sameKinds_repointLoad {stage : StageId} {load : OpId}
    (repointed : repointLoad stage load source concatenate current = .ok ⟨⟩ next) :
    current.SameKinds next := by
  rw [repointLoad, get_bind_apply] at repointed
  cases found : current.stage? stage with
  | none =>
      rw [found] at repointed
      exact absurd repointed throw_ne_ok
  | some reader =>
      cases hasLoad : reader.plan.operatorMap.contains load with
      | false =>
          simp only [found, hasLoad] at repointed
          exact absurd repointed throw_ne_ok
      | true =>
          simp only [found, hasLoad] at repointed
          obtain ⟨⟨⟩, edited, isEdited, rewired⟩ := bind_eq_ok.mp repointed
          obtain rfl := set_eq_ok.mp isEdited
          have sameEdited : current.SameKinds (current.modifyStage stage fun reader' =>
              { reader' with plan := reader.plan.modify load fun operator =>
                { operator with operation := .load (.stage concatenate) } }) := by
            refine ⟨rfl, fun id => ?_⟩
            rw [kind?, stage?_modifyStage, kind?]
            split
            · next same => rw [same, Option.map_map]; rfl
            · rfl
          refine sameEdited.trans ?_
          split at rewired
          · exact sameKinds_connect rewired
          · obtain ⟨_, disconnected⟩ := discard_eq_ok.mp rewired
            exact sameKinds_disconnect disconnected

/-- A stage added to a graph takes the next identifier, also if there is a stage under it. -/
theorem kinds_insertConcatenate
    (ran : insertConcatenate source join current = .ok concatenate next) :
    next.nextId = current.nextId + 1 ∧ next.kind? ⟨current.nextId⟩ = some .concatenate ∧
      ∀ id, current.kind? id = some .concatenate → next.kind? id = some .concatenate := by
  rw [insertConcatenate, insertBetween] at ran
  obtain ⟨removed, between, disconnected, ran⟩ := bind_eq_ok.mp ran
  split at ran
  case isTrue => exact absurd ran throw_ne_ok
  case isFalse =>
    obtain ⟨id, added, isAdded, ran⟩ := bind_eq_ok.mp ran
    obtain ⟨⟨⟩, linked, toNew, ran⟩ := bind_eq_ok.mp ran
    obtain ⟨⟨⟩, final, fromNew, ran⟩ := bind_eq_ok.mp ran
    obtain ⟨rfl, rfl⟩ := pure_eq_ok.mp ran
    have same := (sameKinds_connect toNew).trans (sameKinds_connect fromNew)
    obtain ⟨sameNext, sameKinds⟩ := sameKinds_disconnect disconnected
    cases isAdded
    have addedKind (id : StageId) : final.kind? id =
        if id = ⟨current.nextId⟩ then some .concatenate else current.kind? id := by
      rw [same.kinds, kind?, ← sameKinds, kind?, ← sameNext]
      show ((between.stageMap.insert ⟨between.nextId⟩ _).get? id).map _ = _
      rw [OrderedMap.get?_insert]
      split <;> rfl
    refine ⟨?_, ?_, fun id isConcatenate => ?_⟩
    · rw [same.nextId, ← sameNext]
    · rw [addedKind, if_pos rfl]
    · rw [addedKind, isConcatenate, ite_self]

/-- A graph to which concatenate stages have been added under consecutive identifiers. -/
structure Extended (graph : StageGraph) (count : Nat) (current : StageGraph) : Prop where
  nextId : current.nextId = graph.nextId + UInt64.ofNat count
  concatenates : ∀ index < count,
    current.kind? ⟨graph.nextId + UInt64.ofNat index⟩ = some .concatenate

namespace Extended

variable {count : Nat}

theorem initial (graph : StageGraph) : graph.Extended 0 graph where
  nextId := by simp
  concatenates := by simp

theorem sameKinds (extended : graph.Extended count current) (same : current.SameKinds next) :
    graph.Extended count next where
  nextId := by rw [same.nextId, extended.nextId]
  concatenates index below := by rw [same.kinds, extended.concatenates index below]

theorem insert (extended : graph.Extended count current)
    (ran : insertConcatenate source join current = .ok concatenate next) :
    graph.Extended (count + 1) next := by
  obtain ⟨nextId, isNew, kept⟩ := kinds_insertConcatenate ran
  refine ⟨?_, fun index below => ?_⟩
  · rw [nextId, extended.nextId, UInt64.ofNat_add, UInt64.add_assoc]
    rfl
  · rcases Nat.lt_succ_iff_lt_or_eq.mp below with old | rfl
    · exact kept _ (extended.concatenates index old)
    · rw [← extended.nextId]
      exact isNew

/-- An identifier returns only after all others: then every stage is a concatenate stage. -/
theorem count_eq_zero (extended : graph.Extended count graph) {id : StageId}
    (isOrdinary : graph.kind? id = some .ordinary) : count = 0 := by
  by_contra some
  have wrapped : UInt64.ofNat count = 0 := by
    have sameId := extended.nextId
    rwa [eq_comm, UInt64.add_eq_left] at sameId
  have all : UInt64.size ≤ count := by
    have divides := congrArg UInt64.toNat wrapped
    rw [UInt64.toNat_ofNat'] at divides
    exact Nat.le_of_dvd (Nat.pos_of_ne_zero some) (Nat.dvd_of_mod_eq_zero divides)
  have isConcatenate := extended.concatenates (id.value - graph.nextId).toNat
    ((id.value - graph.nextId).toNat_lt_size.trans_le all)
  rw [UInt64.ofNat_toNat, UInt64.add_comm, UInt64.sub_add_cancel, isOrdinary] at isConcatenate
  exact nomatch isConcatenate

end Extended

/-- A decision that is carried out changes nothing and is reported so, or there is a concatenate
stage for it afterwards. -/
theorem Extended.apply {applied : RepairState × Inserted}
    (extended : graph.Extended inserted.length current)
    (ran : JoinRepair.apply inserted verdict current = .ok applied next) :
    graph.Extended applied.2.length next ∧
      (applied.1.isStageInserted = false ∧ applied.2 = inserted ∧ next = current ∨
        applied.1.isStageInserted = true ∧ applied.2 ≠ []) := by
  cases decision : verdict.decision with
  | skip reason =>
      rw [apply_of_skip decision] at ran
      obtain ⟨rfl, rfl⟩ := pure_eq_ok.mp ran
      exact ⟨extended, .inl ⟨rfl, rfl, rfl⟩⟩
  | concatenate source files =>
      cases isInserted : inserted.lookup (source, verdict.stage) with
      | some existing =>
          rw [apply_of_inserted decision isInserted] at ran
          obtain ⟨⟨⟩, between, repointed, returned⟩ := bind_eq_ok.mp ran
          obtain ⟨rfl, rfl⟩ := pure_eq_ok.mp returned
          refine ⟨extended.sameKinds (sameKinds_repointLoad repointed), .inr ⟨rfl, ?_⟩⟩
          rintro rfl
          exact nomatch isInserted
      | none =>
          rw [apply_of_not_inserted decision isInserted] at ran
          obtain ⟨fresh, between, ranInsert, rest⟩ := bind_eq_ok.mp ran
          obtain ⟨⟨⟩, final, repointed, returned⟩ := bind_eq_ok.mp rest
          obtain ⟨rfl, rfl⟩ := pure_eq_ok.mp returned
          exact ⟨(extended.insert ranInsert).sameKinds (sameKinds_repointLoad repointed),
            .inr ⟨rfl, List.cons_ne_nil _ _⟩⟩

/-- Decisions carried out change nothing and are reported so, or there are concatenate stages
for them afterwards. -/
theorem Extended.repairSides (extended : graph.Extended inserted.length current)
    (ran : Pass.repairSides inserted verdicts current = .ok decisions next) :
    ∃ more : Inserted, graph.Extended more.length next ∧ (inserted ≠ [] → more ≠ []) ∧
      ((∀ decision ∈ decisions, decision.isChange = false) ∧ next = current ∨
        (∃ decision ∈ decisions, decision.isChange = true) ∧ verdicts ≠ [] ∧ more ≠ []) := by
  induction verdicts generalizing inserted current decisions with
  | nil =>
      obtain ⟨rfl, rfl⟩ := pure_eq_ok.mp ran
      exact ⟨inserted, extended, id, .inl ⟨by simp, rfl⟩⟩
  | cons verdict rest ih =>
      rw [Pass.repairSides] at ran
      obtain ⟨applied, between, ranFirst, ran⟩ := bind_eq_ok.mp ran
      obtain ⟨others, final, ranRest, returned⟩ := bind_eq_ok.mp ran
      obtain ⟨rfl, rfl⟩ := pure_eq_ok.mp returned
      obtain ⟨extendedFirst, effect⟩ := extended.apply ranFirst
      obtain ⟨more, extendedRest, kept, effectRest⟩ := ih extendedFirst ranRest
      refine ⟨more, extendedRest, ?_⟩
      rcases effect with ⟨noChange, same, rfl⟩ | ⟨isChange, notEmpty⟩
      · rw [same] at kept
        refine ⟨kept, effectRest.imp ?_ ?_⟩
        · rintro ⟨noChanges, unchanged⟩
          exact ⟨List.forall_mem_cons.mpr ⟨noChange, noChanges⟩, unchanged⟩
        · rintro ⟨⟨decision, member, isChange⟩, -, notEmpty⟩
          exact ⟨⟨decision, List.mem_cons_of_mem _ member, isChange⟩, List.cons_ne_nil _ _,
            notEmpty⟩
      · exact ⟨fun _ => kept notEmpty, .inr ⟨⟨_, List.mem_cons_self, isChange⟩,
          List.cons_ne_nil _ _, kept notEmpty⟩⟩

/-- Only ordinary stages are decided about. -/
theorem exists_ordinary_of_verdicts {stages : List Stage} {ofStages : List (List SideVerdict)}
    (inOrder : graph.stagesInOrder = .ok stages)
    (decided : stages.mapM (stageVerdicts graph config) = .ok ofStages)
    (notEmpty : ofStages.flatten ≠ []) : ∃ id, graph.kind? id = some .ordinary := by
  obtain ⟨verdict, member⟩ := List.exists_mem_of_ne_nil _ notEmpty
  obtain ⟨ofStage, inVerdicts, isVerdict⟩ := List.mem_flatten.mp member
  obtain ⟨stage, inStages, decidedStage⟩ :=
    exists_mem_of_forall₂ (Results.mapM_eq_ok.mp decided).flip inVerdicts
  obtain ⟨order, -, required⟩ := Results.bind_eq_ok.mp inOrder
  obtain ⟨id, -, found⟩ := exists_mem_of_forall₂ (Results.mapM_eq_ok.mp required).flip inStages
  refine ⟨id, ?_⟩
  rw [kind?, require_eq_ok.mp found, Option.map_some]
  cases isKind : stage.kind with
  | ordinary => rfl
  | concatenate =>
      rw [stageVerdicts, isKind] at decidedStage
      obtain rfl := Except.ok.inj decidedStage
      exact absurd isVerdict List.not_mem_nil

/-- Join repair reports no change exactly if it makes none. -/
theorem changed_eq_zero_iff_of_joinRepair
    (ran : Pass.joinRepair.run config graph = .ok outcome after) :
    outcome.changed = 0 ↔ after = graph := by
  obtain ⟨stages, ofStages, inOrder, decided, ranSides⟩ := exists_decided_of_run ran
  rw [PassOutcome.changed_eq_zero_iff]
  obtain ⟨more, extended, -, ⟨noChange, rfl⟩ | ⟨⟨decision, member, isChange⟩, some, added⟩⟩ :=
    (Extended.initial graph).repairSides ranSides
  · exact iff_of_true noChange rfl
  · refine iff_of_false (fun noChange => ?_) ?_
    · rw [noChange decision member] at isChange
      exact Bool.false_ne_true isChange
    · rintro rfl
      obtain ⟨id, isOrdinary⟩ := exists_ordinary_of_verdicts inOrder decided some
      exact added (List.length_eq_zero_iff.mp (extended.count_eq_zero isOrdinary))

end Kinds

variable {graph current after : StageGraph} {config : EngineConfig} {outcome : PassOutcome}
  {report : OptimizationReport} {verdicts : List (StageId × Qualification)} {inserted : Inserted}
  {id : StageId}

/-- Some grouping operator of a stage is flagged afterwards that was not before. -/
def RaisesFlag (graph after : StageGraph) (id : StageId) : Prop :=
  ∃ package, ¬ graph.IsFlagged id package ∧ after.IsFlagged id package

theorem FlaggedBy.raisesFlag_iff (flagged : graph.FlaggedBy verdicts after) :
    graph.RaisesFlag after id ↔ ∃ package ∈ namedPackages verdicts id,
      graph.HasPackage id package ∧ ¬ graph.IsFlagged id package := by
  refine exists_congr fun package => ?_
  rw [flagged.isFlagged_iff]
  tauto

/-- Verdicts that raise no flag change nothing. -/
theorem FlaggedBy.eq_self_iff (flagged : graph.FlaggedBy verdicts after) :
    after = graph ↔ ∀ id, ¬ graph.RaisesFlag after id := by
  constructor
  · rintro rfl id ⟨package, notFlagged, isFlagged⟩
    exact notFlagged isFlagged
  · intro noneRaised
    have sameStages : after.stageMap = graph.stageMap := by
      refine OrderedMap.ext_get? fun id => ?_
      rw [← stage?, flagged.stages id, ← stage?]
      cases found : graph.stage? id with
      | none => rfl
      | some stage =>
          have raised : stage.plan.Raised (namedPackages verdicts id) := by
            refine SubPlan.raised_iff.mpr fun package named hasPackage => ?_
            by_contra notFlagged
            refine noneRaised id (flagged.raisesFlag_iff.mpr
              ⟨package, named, ⟨stage, found, hasPackage⟩, ?_⟩)
            rintro ⟨other, foundToo, isFlagged⟩
            rw [Option.some.inj (foundToo.symm.trans found)] at isFlagged
            exact notFlagged isFlagged
          rw [Option.map_some, raised.flagPackages_eq]
    show StageGraph.mk _ _ _ = StageGraph.mk _ _ _
    rw [StageGraph.mk.injEq]
    exact ⟨sameStages, flagged.edges, flagged.nextId⟩

theorem FlaggedBy.flagged (flagged : graph.FlaggedBy verdicts after) : graph.Flagged after where
  stages id := ⟨_, flagged.stages id⟩
  edges := flagged.edges
  nextId := flagged.nextId

theorem RepairedStages.isFlagged_iff (repaired : graph.RepairedStages inserted current)
    {package : OpId} : current.IsFlagged id package ↔ graph.IsFlagged id package := by
  constructor
  · rintro ⟨other, isStage, isFlagged⟩
    rcases repaired.stage_cases isStage with ⟨stage, found, repairedStage⟩ | ⟨_, _, _, -, rfl⟩
    · exact ⟨stage, found, (SubPlan.isFlagged_of_withoutSource repairedStage.shape).mpr isFlagged⟩
    · exact absurd isFlagged SubPlan.not_isFlagged_concatenatePlan
  · rintro ⟨stage, found, isFlagged⟩
    obtain ⟨other, isStage, repairedStage⟩ := repaired.kept id stage found
    exact ⟨other, isStage, (SubPlan.isFlagged_of_withoutSource repairedStage.shape).mp isFlagged⟩

/-- A pipeline that succeeds has run the passes one after another. -/
theorem exists_passes_of_optimize (ran : optimize config graph = .ok report after) :
    ∃ flags flagging repair, Pass.accumulation.run config graph = .ok flags flagging ∧
      Pass.joinRepair.run config flagging = .ok repair after ∧ report.passes = [flags, repair] := by
  cases isOrder : graph.order with
  | error disorder =>
      rw [optimize, optimizeWith, get_bind_apply, isOrder] at ran
      cases ran
  | ok order =>
      rw [optimize_of_order isOrder] at ran
      obtain ⟨flags, flagging, flagged, rest⟩ := bind_eq_ok.mp ran
      obtain ⟨repair, repaired, ranRepair, final⟩ := bind_eq_ok.mp rest
      obtain ⟨_, _, isFinal, returned⟩ := bind_eq_ok.mp final
      obtain ⟨rfl, rfl⟩ := get_eq_ok.mp isFinal
      obtain ⟨rfl, rfl⟩ := pure_eq_ok.mp returned
      exact ⟨flags, flagging, repair, flagged, ranRepair, rfl⟩

/-- The stage that a decision reports as flagged. -/
def flaggedStage? : Decision → Option StageId
  | .accumulative stage (.qualifies _) => some stage
  | _ => none

theorem repairSides_flags_none {inserted : Inserted} {sides : List SideVerdict}
    {decisions : List Decision}
    (ran : Pass.repairSides inserted sides current = .ok decisions after) :
    decisions.filterMap flaggedStage? = [] := by
  induction sides generalizing inserted current decisions with
  | nil =>
      obtain ⟨rfl, -⟩ := pure_eq_ok.mp ran
      rfl
  | cons side rest ih =>
      rw [Pass.repairSides] at ran
      obtain ⟨applied, between, -, ran⟩ := bind_eq_ok.mp ran
      obtain ⟨others, final, ranRest, returned⟩ := bind_eq_ok.mp ran
      obtain ⟨rfl, rfl⟩ := pure_eq_ok.mp returned
      rw [List.filterMap_cons_none rfl]
      exact ih ranRest

/-- The stages reported as flagged are those that the accumulation pass reached such a verdict
about. -/
theorem accumulativeStages_eq {flags repair : PassOutcome}
    (passes : report.passes = [flags, repair])
    (isReported : flags.decisions =
      verdicts.map fun verdict => .accumulative verdict.1 verdict.2)
    (ran : Pass.joinRepair.run config current = .ok repair after) :
    report.accumulativeStages =
      verdicts.filterMap fun verdict => if verdict.2.isQualifies then some verdict.1 else none := by
  have noneRepaired : repair.decisions.filterMap flaggedStage? = [] := by
    obtain ⟨_, _, -, -, ranSides⟩ := exists_decided_of_run ran
    exact repairSides_flags_none ranSides
  have decisions : report.decisions = flags.decisions ++ repair.decisions := by
    rw [OptimizationReport.decisions, passes]
    simp
  show report.decisions.filterMap flaggedStage? = _
  rw [decisions, List.filterMap_append, noneRepaired, List.append_nil, isReported,
    List.filterMap_map]
  refine List.filterMap_congr fun verdict _ => ?_
  obtain ⟨stage, verdict⟩ := verdict
  cases verdict <;> rfl

/-- The accumulation pass reports no change exactly if no stage qualifies. -/
theorem changed_eq_zero_iff_of_accumulation
    (ran : Pass.accumulation.run config graph = .ok outcome after) :
    outcome.changed = 0 ↔ ∀ id packages, ¬ graph.Qualifies id packages := by
  obtain ⟨-, verdicts, -, -, isReported, -, isVerdict⟩ := exists_judged ran
  rw [PassOutcome.changed_eq_zero_iff, isReported, List.forall_mem_map]
  constructor
  · intro noChange id packages qualifies
    exact nomatch noChange _ ((isVerdict id packages).mpr qualifies)
  · rintro noneQualifies ⟨id, _ | packages | _⟩ member
    · rfl
    · exact absurd ((isVerdict id packages).mp member) (noneQualifies id packages)
    · rfl

theorem exists_named_iff {property : OpId → Prop}
    (isVerdict : ∀ id packages, (id, .qualifies packages) ∈ verdicts ↔
      graph.Qualifies id packages) :
    (∃ package ∈ namedPackages verdicts id, property package) ↔
      ∃ packages, graph.Qualifies id packages ∧ ∃ package ∈ packages, property package := by
  simp only [mem_namedPackages, isVerdict]
  constructor
  · rintro ⟨package, ⟨packages, qualifies, member⟩, holds⟩
    exact ⟨packages, qualifies, package, member, holds⟩
  · rintro ⟨packages, qualifies, package, member, holds⟩
    exact ⟨package, ⟨packages, qualifies, member⟩, holds⟩

theorem Built.graphOwnIds (built : graph.Built) : graph.OwnIds :=
  fun id stage found => ⟨built.ownId id stage found, built.ownIds id stage found⟩

/-- Where stages stand under their own identifiers, a flag is raised exactly where a stage
qualifies and has a grouping operator that was not flagged. -/
theorem FlaggedBy.raisesFlag_iff_of_ownIds (flagged : graph.FlaggedBy verdicts after)
    (isVerdict : ∀ id packages, (id, .qualifies packages) ∈ verdicts ↔
      graph.Qualifies id packages) (ownIds : graph.OwnIds) :
    graph.RaisesFlag after id ↔ (∃ packages, graph.Qualifies id packages) ∧
      ∃ package, graph.HasPackage id package ∧ ¬ graph.IsFlagged id package := by
  rw [flagged.raisesFlag_iff, exists_named_iff isVerdict]
  constructor
  · rintro ⟨packages, qualifies, package, -, unflagged⟩
    exact ⟨⟨packages, qualifies⟩, package, unflagged⟩
  · rintro ⟨⟨packages, key, stage, found, rfl, isOrdinary, qualifies⟩, package, hasPackage,
      notFlagged⟩
    obtain rfl := (ownIds key stage found).1
    obtain ⟨other, foundToo, isPackage⟩ := hasPackage
    obtain rfl := Option.some.inj (found.symm.trans foundToo)
    have named := (ownIds.named_iff found isOrdinary isPackage).mpr
      (Qualification.isQualifies_iff.mpr ⟨packages, qualifies⟩)
    obtain ⟨others, qualifiesToo, member⟩ := named
    exact ⟨others, qualifiesToo, package, member, ⟨stage, found, isPackage⟩, notFlagged⟩

theorem nodup_verdicts (built : graph.Built) {stages : List Stage}
    (inOrder : graph.stagesInOrder = .ok stages) :
    ((Accumulation.values (stages.map (Accumulation.assess graph))).map Prod.fst).Nodup := by
  have ids := List.pairwise_map.mp (nodup_map_id_stagesInOrder built inOrder)
  rw [Accumulation.values, List.Nodup, List.pairwise_map, List.pairwise_filterMap,
    List.pairwise_map]
  refine ids.imp fun {first second} different verdict isFirst other isSecond same => different ?_
  split at isFirst
  case h_1 => cases isFirst
  case h_2 assessed =>
    split at isSecond
    case h_1 => cases isSecond
    case h_2 assessedToo =>
      cases isFirst
      cases isSecond
      rw [← stage_of_assess assessed, same, stage_of_assess assessedToo]

/-- A stage is reported as flagged exactly if it qualifies. -/
theorem mem_accumulativeStages_of_optimize (ran : optimize config graph = .ok report after) :
    id ∈ report.accumulativeStages ↔ ∃ packages, graph.Qualifies id packages := by
  obtain ⟨flags, flagging, repair, ranFlags, ranRepair, passes⟩ := exists_passes_of_optimize ran
  obtain ⟨-, verdicts, -, -, isReported, -, isVerdict⟩ := exists_judged ranFlags
  rw [accumulativeStages_eq passes isReported ranRepair]
  simp only [← isVerdict, List.mem_filterMap, Option.ite_none_right_eq_some, Option.some.injEq,
    Qualification.isQualifies_iff]
  constructor
  · rintro ⟨⟨_, _⟩, member, ⟨packages, rfl⟩, rfl⟩
    exact ⟨packages, member⟩
  · rintro ⟨packages, member⟩
    exact ⟨_, member, ⟨packages, rfl⟩, rfl⟩

section Built

variable (built : graph.Built)

include built

theorem nodup_accumulativeStages_of_optimize (ran : optimize config graph = .ok report after) :
    report.accumulativeStages.Nodup := by
  obtain ⟨flags, flagging, repair, ranFlags, ranRepair, passes⟩ := exists_passes_of_optimize ran
  obtain ⟨stages, verdicts, inOrder, rfl, isReported, -⟩ := exists_judged ranFlags
  have nodup := List.pairwise_map.mp (nodup_verdicts built inOrder)
  rw [accumulativeStages_eq passes isReported ranRepair, List.Nodup, List.pairwise_filterMap]
  refine nodup.imp fun different first isFirst second isSecond => ?_
  rw [Option.ite_none_right_eq_some, Option.some.injEq] at isFirst isSecond
  rwa [← isFirst.2, ← isSecond.2]

/-- A flag is raised exactly in the stages that qualify and have one to raise. -/
theorem raisesFlag_iff_of_optimize (ran : optimize config graph = .ok report after)
    (room : after.HasRoom) :
    graph.RaisesFlag after id ↔ (∃ packages, graph.Qualifies id packages) ∧
      ∃ package, graph.HasPackage id package ∧ ¬ graph.IsFlagged id package := by
  obtain ⟨flags, flagging, repair, ranFlags, ranRepair, -⟩ := exists_passes_of_optimize ran
  obtain ⟨-, verdicts, -, -, -, flagged, isVerdict⟩ := exists_judged ranFlags
  obtain ⟨_, _, -, repaired, -⟩ :=
    exists_repairing (flagged.flagged.restaged.built built) ranRepair room
  rw [← flagged.raisesFlag_iff_of_ownIds isVerdict built.graphOwnIds, RaisesFlag, RaisesFlag]
  simp only [repaired.toRepairedStages.isFlagged_iff]

end Built

/-- What the reports say of changes.  Join repair counts a change exactly if it makes one.  The
accumulation pass counts the stages that qualify, and it makes a change exactly if one of them
has a grouping operator that was not flagged.  The stages reported as flagged are those that
qualify, each once; a flag was raised in exactly those that had one to raise. -/
theorem reported_changes (config : EngineConfig) (graph : StageGraph) :
    (∀ outcome after, Pass.joinRepair.run config graph = .ok outcome after →
      (outcome.changed = 0 ↔ after = graph)) ∧
    (∀ outcome after, Pass.accumulation.run config graph = .ok outcome after →
      (outcome.changed = 0 ↔ ∀ id packages, ¬ graph.Qualifies id packages) ∧
      (after = graph ↔ ∀ id, ¬ graph.RaisesFlag after id) ∧
      ∀ id, graph.RaisesFlag after id ↔ ∃ packages, graph.Qualifies id packages ∧
        ∃ package ∈ packages, graph.HasPackage id package ∧ ¬ graph.IsFlagged id package) ∧
    ∀ report after, optimize config graph = .ok report after →
      (∀ id, id ∈ report.accumulativeStages ↔ ∃ packages, graph.Qualifies id packages) ∧
      (graph.Built → report.accumulativeStages.Nodup) ∧
      (graph.Built → after.HasRoom → ∀ id, graph.RaisesFlag after id ↔
        id ∈ report.accumulativeStages ∧
          ∃ package, graph.HasPackage id package ∧ ¬ graph.IsFlagged id package) := by
  refine ⟨fun outcome after => changed_eq_zero_iff_of_joinRepair, fun outcome after ran => ?_,
    fun report after ran => ?_⟩
  · obtain ⟨-, verdicts, -, -, -, flagged, isVerdict⟩ := exists_judged ran
    exact ⟨changed_eq_zero_iff_of_accumulation ran, flagged.eq_self_iff,
      fun id => flagged.raisesFlag_iff.trans (exists_named_iff isVerdict)⟩
  · have isListed (id : StageId) : id ∈ report.accumulativeStages ↔
        ∃ packages, graph.Qualifies id packages := mem_accumulativeStages_of_optimize ran
    refine ⟨isListed, fun built => nodup_accumulativeStages_of_optimize built ran,
      fun built room id => ?_⟩
    rw [isListed, raisesFlag_iff_of_optimize built ran room]

theorem built_ofPlan {plan : SubPlan} (ownIds : plan.OwnIds) : (ofPlan plan).Built where
  ownId id stage found := by
    obtain ⟨rfl, rfl⟩ := stage?_ofPlan.mp found
    rfl
  ownIds id stage found := by
    obtain ⟨-, rfl⟩ := stage?_ofPlan.mp found
    exact ownIds
  below id stage found := by
    obtain ⟨rfl, -⟩ := stage?_ofPlan.mp found
    exact UInt64.zero_lt_one
  edges edge member := absurd member List.not_mem_nil

/-- A stage without joins is flagged where it qualifies, and is not repaired. -/
theorem optimize_ofPlan (plan : SubPlan) (config : EngineConfig)
    (checked : (ofPlan plan).stageFault? ⟨0⟩ = none)
    (noJoins : (plan.flagPackages plan.qualify.packages).joins = []) :
    ∃ report, optimize config (ofPlan plan) =
      .ok report (ofPlan (plan.flagPackages plan.qualify.packages)) := by
  obtain ⟨flags, ranFlags⟩ := run_accumulation_ofPlan plan config checked
  obtain ⟨order, ordered, -⟩ := Results.bind_eq_ok.mp (stagesInOrder_ofPlan plan)
  have decided : [Stage.mk ⟨0⟩ .ordinary (plan.flagPackages plan.qualify.packages) {}].mapM
      (stageVerdicts (ofPlan (plan.flagPackages plan.qualify.packages)) config) = .ok [[]] := by
    rw [List.mapM_cons, stageVerdicts]
    simp only [noJoins]
    rfl
  have ranRepair := run_joinRepair (stagesInOrder_ofPlan _) decided
  exact ⟨_, optimize_of_passes ordered ranFlags ranRepair⟩

/-- The groups of the sales totals, which were materialized, are reported as flagged, and the
flag is raised; the stage that join repair adds is reported as a change. -/
theorem reported_changes_salesTotals :
    (∃ report after, optimize {} (ofPlan ((SubPlan.salesTotals .sum).withFlags false)) =
        .ok report after ∧
      ⟨0⟩ ∈ report.accumulativeStages ∧ report.accumulativeStages.Nodup ∧
      (ofPlan ((SubPlan.salesTotals .sum).withFlags false)).RaisesFlag after ⟨0⟩) ∧
    ∃ outcome, Pass.joinRepair.run repairing salesGraph =
        .ok outcome (salesGraph.afterJoinRepair repairing) ∧ outcome.changed ≠ 0 := by
  have isVerdict : ((SubPlan.salesTotals .sum).withFlags false).qualify = .qualifies [⟨2⟩] := by
    cbv
  have room : (ofPlan (((SubPlan.salesTotals .sum).withFlags false).flagPackages
      [⟨2⟩])).HasRoom := by
    intro id member
    obtain ⟨stage, found⟩ := mem_stageIds.mp member
    obtain ⟨rfl, -⟩ := stage?_ofPlan.mp found
    decide
  have built := built_ofPlan ((SubPlan.OwnIds.salesTotals .sum).withFlags false)
  have unflagged : ∃ package,
      (ofPlan ((SubPlan.salesTotals .sum).withFlags false)).HasPackage ⟨0⟩ package ∧
        ¬ (ofPlan ((SubPlan.salesTotals .sum).withFlags false)).IsFlagged ⟨0⟩ package := by
    refine ⟨⟨2⟩, ⟨_, rfl, _, rfl, rfl⟩, ?_⟩
    rintro ⟨stage, found, isFlagged⟩
    obtain ⟨-, rfl⟩ := stage?_ofPlan.mp found
    exact SubPlan.not_isFlagged_withFlags_false isFlagged
  obtain ⟨report, ran⟩ := optimize_ofPlan ((SubPlan.salesTotals .sum).withFlags false) {} rfl
    (by rw [isVerdict]; rfl)
  rw [isVerdict, Qualification.packages] at ran
  obtain ⟨listed, once, raised⟩ := (reported_changes {} _).2.2 report _ ran
  have isListed := (listed ⟨0⟩).mpr ⟨_, ⟨0⟩, _, rfl, rfl, rfl, isVerdict⟩
  have isRaised := (raised built room ⟨0⟩).mpr ⟨isListed, unflagged⟩
  refine ⟨⟨report, _, ran, isListed, once built, isRaised⟩, ?_⟩
  have roomRepaired : (salesGraph.afterJoinRepair repairing).HasRoom := by
    rw [HasRoom, stageIds_afterJoinRepair_salesGraph]
    decide
  obtain ⟨outcome, ranRepair⟩ := (joinRepair_eq_ok built_salesGraph valid_salesGraph
    roomRepaired).1
  refine ⟨outcome, ranRepair, fun noChange => ?_⟩
  have unchanged := ((reported_changes repairing salesGraph).1 outcome _ ranRepair).mp noChange
  have ids := stageIds_afterJoinRepair_salesGraph
  rw [unchanged] at ids
  exact absurd ids (by decide)

/-- The flag of the sales totals, raised already, is reported once more: the pass counts a change
and makes none, and the pipeline lists a stage in which it raises no flag. -/
theorem salesTotals_reported_again :
    (∃ outcome, Pass.accumulation.run {} (ofPlan (SubPlan.salesTotals .sum)) =
        .ok outcome (ofPlan (SubPlan.salesTotals .sum)) ∧ outcome.changed ≠ 0) ∧
      ∃ report, optimize {} (ofPlan (SubPlan.salesTotals .sum)) =
          .ok report (ofPlan (SubPlan.salesTotals .sum)) ∧
        ⟨0⟩ ∈ report.accumulativeStages ∧
        ∀ id, ¬ (ofPlan (SubPlan.salesTotals .sum)).RaisesFlag
          (ofPlan (SubPlan.salesTotals .sum)) id := by
  have isVerdict : (SubPlan.salesTotals .sum).qualify = .qualifies [⟨2⟩] := by cbv
  have qualifies : (ofPlan (SubPlan.salesTotals .sum)).Qualifies ⟨0⟩ [⟨2⟩] :=
    ⟨⟨0⟩, _, rfl, rfl, rfl, isVerdict⟩
  obtain ⟨outcome, ran⟩ := run_accumulation_ofPlan (SubPlan.salesTotals .sum) {} rfl
  obtain ⟨report, ranToo⟩ := optimize_ofPlan (SubPlan.salesTotals .sum) {} rfl
    (by rw [isVerdict]; rfl)
  have same : (SubPlan.salesTotals .sum).flagPackages [⟨2⟩] = SubPlan.salesTotals .sum := rfl
  rw [isVerdict, Qualification.packages, same] at ran ranToo
  refine ⟨⟨outcome, ran, fun noChange => ?_⟩, report, ranToo, ?_, ?_⟩
  · exact (changed_eq_zero_iff_of_accumulation ran).mp noChange _ _ qualifies
  · exact (mem_accumulativeStages_of_optimize ranToo).mpr ⟨_, qualifies⟩
  · rintro id ⟨package, notFlagged, isFlagged⟩
    exact notFlagged isFlagged

end StageGraph

end BatchFlow
