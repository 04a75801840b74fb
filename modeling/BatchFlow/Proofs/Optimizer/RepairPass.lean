import BatchFlow.Proofs.Optimizer.JoinRepair

/-!
# The graph after join repair

The pass decides about replicated loads only, so on a valid graph it succeeds,
and leaves the stages and edges of the graph as described.
-/

namespace BatchFlow

open JoinRepair Steps

namespace StageGraph

variable {graph : StageGraph} {config : EngineConfig} {stage : Stage} {verdict : SideVerdict}

/-- When a load is decided to be concatenated. -/
theorem decide_eq_concatenate {plan : SubPlan} {load : OpId} {source : StageId} {files : UInt32} :
    JoinRepair.decide graph plan load config = .concatenate source files ↔
      config.splitCombinationDisabled = true ∧
        (∃ operator, plan.get? load = some operator ∧ operator.operation = .load (.stage source)) ∧
          ∃ feeder, graph.stage? source = some feeder ∧ feeder.isConcatenate = false ∧
            feeder.info.outputFiles = .known files ∧ config.mergeFilesThreshold < files := by
  rw [JoinRepair.decide]
  constructor
  · intro decision
    split at decision
    case isTrue => exact nomatch decision
    case isFalse disabled =>
      split at decision
      case h_1 => exact nomatch decision
      case h_2 loaded fromStage =>
        obtain ⟨operator, found, isLoaded⟩ := Option.bind_eq_some_iff.mp fromStage
        split at decision
        case h_1 => exact nomatch decision
        case h_2 feeder foundFeeder =>
          split at decision
          case isTrue => exact nomatch decision
          case isFalse ordinary =>
            split at decision
            case h_1 => exact nomatch decision
            case h_2 count known =>
              split at decision
              case isFalse => exact nomatch decision
              case isTrue above =>
                obtain ⟨rfl, rfl⟩ := SideDecision.concatenate.inj decision
                exact ⟨by simpa using disabled,
                  ⟨operator, found, Operation.loadedStage?_eq_some.mp isLoaded⟩, feeder,
                  foundFeeder, Bool.eq_false_of_not_eq_true ordinary, known, above⟩
  · rintro ⟨disabled, ⟨operator, found, isLoad⟩, feeder, foundFeeder, ordinary, known, above⟩
    have fromStage :
        ((plan.get? load).bind fun operator => operator.operation.loadedStage?) = some source :=
      Option.bind_eq_some_iff.mpr ⟨operator, found, Operation.loadedStage?_eq_some.mpr isLoad⟩
    simp [disabled, fromStage, foundFeeder, ordinary, known, above]

theorem exists_loaded_of_decide {plan : SubPlan} {load : OpId} {source : StageId} {files : UInt32}
    (decision : JoinRepair.decide graph plan load config = .concatenate source files) :
    ∃ operator, plan.get? load = some operator ∧ operator.operation = .load (.stage source) :=
  (decide_eq_concatenate.mp decision).2.1

theorem mem_joinVerdicts {join : OpId} :
    verdict ∈ joinVerdicts graph config stage join ↔
      ∃ operator keys fragment, stage.plan.get? join = some operator ∧
        operator.operation = .join keys fragment ∧
          operator.inputs[verdict.side]? = some verdict.load ∧ verdict.side ≠ fragment.toNat ∧
            verdict = ⟨stage.id, join, verdict.side, verdict.load,
              JoinRepair.decide graph stage.plan verdict.load config⟩ := by
  rw [joinVerdicts]
  cases found : stage.plan.get? join with
  | none => simp
  | some operator =>
      cases kind : operator.operation with
      | join keys fragment =>
          simp only [kind, List.mem_filterMap, Option.ite_none_left_eq_some, Option.some.injEq]
          constructor
          · rintro ⟨⟨load, side⟩, inZip, different, rfl⟩
            exact ⟨operator, keys, fragment, rfl, kind, List.mem_zipIdx_iff_getElem?.mp inZip,
              different, rfl⟩
          · rintro ⟨_, _, _, rfl, kindToo, atSide, different, isVerdict⟩
            obtain ⟨rfl, rfl⟩ := Operation.join.inj (kind.symm.trans kindToo)
            exact ⟨(verdict.load, verdict.side), List.mem_zipIdx_iff_getElem?.mpr atSide, different,
              isVerdict.symm⟩
      | _ => simp [kind]

theorem join_mem_joins (ownIds : stage.plan.OwnIds)
    (member : verdict ∈ joinVerdicts graph config stage verdict.join) :
    verdict.join ∈ stage.plan.joins := by
  obtain ⟨operator, keys, fragment, found, kind, -⟩ := mem_joinVerdicts.mp member
  refine ownIds.mem_map_id_filter.mpr ⟨operator, found, ?_⟩
  rw [kind]
  rfl

/-- The decisions about a stage are those about the joins of an ordinary one. -/
theorem mem_stageVerdicts (ownIds : stage.plan.OwnIds) {verdicts : List SideVerdict}
    (decided : stageVerdicts graph config stage = .ok verdicts) :
    verdict ∈ verdicts ↔
      stage.kind = .ordinary ∧ verdict ∈ joinVerdicts graph config stage verdict.join := by
  rw [stageVerdicts] at decided
  split at decided
  case h_1 isConcatenate =>
    obtain rfl := Except.ok.inj decided
    simp [isConcatenate]
  case h_2 isOrdinary =>
    split at decided
    case isTrue noJoin =>
      obtain rfl := Except.ok.inj decided
      refine iff_of_false List.not_mem_nil fun ⟨_, member⟩ => ?_
      have isJoin := join_mem_joins ownIds member
      rw [List.isEmpty_iff.mp noJoin] at isJoin
      exact List.not_mem_nil isJoin
    case isFalse =>
      obtain ⟨_, -, rfl⟩ := Results.map_eq_ok.mp decided
      rw [List.mem_flatMap]
      constructor
      · rintro ⟨join, -, member⟩
        obtain ⟨_, _, _, -, -, -, -, isVerdict⟩ := mem_joinVerdicts.mp member
        have isJoin : verdict.join = join := congrArg SideVerdict.join isVerdict
        exact ⟨isOrdinary, isJoin ▸ member⟩
      · rintro ⟨-, member⟩
        exact ⟨verdict.join, join_mem_joins ownIds member, member⟩

theorem sound_of_joinVerdicts {join : OpId} (ownIds : stage.plan.OwnIds)
    (found : graph.stage? stage.id = some stage)
    (member : verdict ∈ joinVerdicts graph config stage join) : graph.Sound verdict := by
  obtain ⟨operator, keys, fragment, foundJoin, kind, atSide, different, isVerdict⟩ :=
    mem_joinVerdicts.mp member
  rw [isVerdict]
  intro source files decision
  obtain ⟨loader, foundLoad, isLoad⟩ := exists_loaded_of_decide decision
  refine ⟨stage, loader, found, foundLoad, isLoad, ?_⟩
  rw [ownIds _ loader foundLoad]
  refine SubPlan.replicated_iff.mpr ⟨operator, SubPlan.mem_operators.mpr ⟨join, foundJoin⟩,
    keys, fragment, kind, verdict.side, atSide, different, loader, foundLoad, ?_⟩
  rw [isLoad]
  rfl

theorem sound_of_stageVerdicts (ownIds : stage.plan.OwnIds)
    (found : graph.stage? stage.id = some stage) {verdicts : List SideVerdict}
    (decided : stageVerdicts graph config stage = .ok verdicts) :
    ∀ verdict ∈ verdicts, graph.Sound verdict := by
  intro verdict member
  exact sound_of_joinVerdicts ownIds found ((mem_stageVerdicts ownIds decided).mp member).2

theorem exists_stageVerdicts (found : graph.stage? stage.id = some stage)
    (wellFormed : ¬ graph.Malformed stage.id) :
    ∃ verdicts, stageVerdicts graph config stage = .ok verdicts := by
  rw [stageVerdicts]
  split
  case h_1 => exact ⟨[], rfl⟩
  case h_2 isOrdinary =>
    split
    · exact ⟨[], rfl⟩
    · exact ⟨_, by rw [checkStage_of_not_malformed found isOrdinary wellFormed]; rfl⟩

/-- Only stages that pass their check are decided about. -/
theorem checkStage_of_stageVerdicts {verdicts : List SideVerdict}
    (decided : stageVerdicts graph config stage = .ok verdicts) (member : verdict ∈ verdicts) :
    graph.checkStage verdict.stage = .ok () := by
  rw [stageVerdicts] at decided
  split at decided
  case h_1 =>
    obtain rfl := Except.ok.inj decided
    simp at member
  case h_2 =>
    split at decided
    · obtain rfl := Except.ok.inj decided
      simp at member
    · obtain ⟨⟨⟩, checked, rfl⟩ := Results.map_eq_ok.mp decided
      obtain ⟨join, -, ofJoin⟩ := List.mem_flatMap.mp member
      obtain ⟨_, _, _, -, -, -, -, isVerdict⟩ := mem_joinVerdicts.mp ofJoin
      rw [isVerdict]
      exact checked

/-- A sound decision about a stage that passes its check can be carried out. -/
theorem Sound.feasible_of_checkStage (sound : graph.Sound verdict)
    (checked : graph.checkStage verdict.stage = .ok ()) : graph.Feasible verdict := by
  intro source files decision
  obtain ⟨stage, operator, found, foundLoad, isLoad, -⟩ := sound source files decision
  obtain ⟨_, foundToo, -, waits⟩ := checkStage_eq_ok.mp checked
  obtain rfl := Option.some.inj (found.symm.trans foundToo)
  have isEdge := waits operator (SubPlan.mem_operators.mpr ⟨_, foundLoad⟩) source isLoad
  exact ⟨isEdge, stage, operator, found, foundLoad⟩

/-- A graph that has an order lists all its stages in it. -/
theorem exists_stagesInOrder_of_order (ordered : ∃ order, graph.order = .ok order) :
    ∃ stages, graph.stagesInOrder = .ok stages ∧
      ∀ stage, stage ∈ stages ↔ ∃ id, graph.stage? id = some stage := by
  obtain ⟨order, ordered⟩ := ordered
  obtain ⟨-, all, -⟩ := order_sound ordered
  obtain ⟨stages, required⟩ : ∃ stages, order.mapM graph.require = .ok stages := by
    refine Results.exists_mapM_iff.mpr fun id member => ?_
    obtain ⟨stage, found⟩ := mem_stageIds.mp (all.mem_iff.mp member)
    exact ⟨stage, require_eq_ok.mpr found⟩
  have related := Results.mapM_eq_ok.mp required
  refine ⟨stages, Results.bind_eq_ok.mpr ⟨order, ordered, required⟩, fun stage => ⟨?_, ?_⟩⟩
  · intro member
    obtain ⟨id, -, found⟩ := exists_mem_of_forall₂ related.flip member
    exact ⟨id, require_eq_ok.mp found⟩
  · rintro ⟨id, found⟩
    have inOrder : id ∈ order := all.mem_iff.mpr (mem_stageIds.mpr ⟨stage, found⟩)
    obtain ⟨other, member, foundToo⟩ := exists_mem_of_forall₂ related inOrder
    rw [require_eq_ok] at foundToo
    rwa [Option.some.inj (found.symm.trans foundToo)]

theorem exists_stagesInOrder (built : graph.Built) (ordered : ∃ order, graph.order = .ok order) :
    ∃ stages, graph.stagesInOrder = .ok stages ∧
      ∀ stage, stage ∈ stages ↔ graph.stage? stage.id = some stage := by
  obtain ⟨stages, inOrder, mem_stages⟩ := exists_stagesInOrder_of_order ordered
  refine ⟨stages, inOrder, fun stage => (mem_stages stage).trans ⟨?_, fun found => ⟨_, found⟩⟩⟩
  rintro ⟨id, found⟩
  rwa [built.ownId id stage found]

/-- A decision of the pass: about a replicated side of a join of an ordinary stage. -/
def Decided (graph : StageGraph) (config : EngineConfig) (verdict : SideVerdict) : Prop :=
  ∃ stage, graph.stage? verdict.stage = some stage ∧ stage.kind = .ordinary ∧
    verdict ∈ joinVerdicts graph config stage verdict.join

/-- The decisions about stages in order are those of the pass: all are sound and can be
carried out. -/
theorem decisions_of_stages (built : graph.Built) {stages : List Stage}
    (mem_stages : ∀ stage, stage ∈ stages ↔ graph.stage? stage.id = some stage)
    {verdicts : List (List SideVerdict)}
    (decided : stages.mapM (stageVerdicts graph config) = .ok verdicts) :
    (∀ verdict ∈ verdicts.flatten, graph.Sound verdict ∧ graph.Feasible verdict) ∧
      ∀ verdict, verdict ∈ verdicts.flatten ↔ graph.Decided config verdict := by
  refine ⟨fun verdict member => ?_, fun verdict => ⟨?_, ?_⟩⟩
  · obtain ⟨ofStage, inVerdicts, isVerdict⟩ := List.mem_flatten.mp member
    obtain ⟨stage, inStages, decidedStage⟩ :=
      exists_mem_of_forall₂ (Results.mapM_eq_ok.mp decided).flip inVerdicts
    have found := (mem_stages stage).mp inStages
    have sound := sound_of_stageVerdicts (built.ownIds stage.id stage found) found decidedStage
      verdict isVerdict
    exact ⟨sound, sound.feasible_of_checkStage (checkStage_of_stageVerdicts decidedStage isVerdict)⟩
  · intro member
    obtain ⟨ofStage, inVerdicts, isVerdict⟩ := List.mem_flatten.mp member
    obtain ⟨stage, inStages, decidedStage⟩ :=
      exists_mem_of_forall₂ (Results.mapM_eq_ok.mp decided).flip inVerdicts
    have found := (mem_stages stage).mp inStages
    obtain ⟨isOrdinary, ofJoin⟩ :=
      (mem_stageVerdicts (built.ownIds stage.id stage found) decidedStage).mp isVerdict
    obtain ⟨_, _, _, -, -, -, -, same⟩ := mem_joinVerdicts.mp ofJoin
    have atStage : verdict.stage = stage.id := congrArg SideVerdict.stage same
    exact ⟨stage, atStage ▸ found, isOrdinary, ofJoin⟩
  · rintro ⟨stage, found, isOrdinary, ofJoin⟩
    have ownId := built.ownId _ stage found
    obtain ⟨ofStage, inVerdicts, decidedStage⟩ := exists_mem_of_forall₂
      (Results.mapM_eq_ok.mp decided) ((mem_stages stage).mpr (ownId.symm ▸ found))
    exact List.mem_flatten.mpr ⟨ofStage, inVerdicts,
      (mem_stageVerdicts (built.ownIds _ stage found) decidedStage).mpr ⟨isOrdinary, ofJoin⟩⟩

/-- On a graph that has an order and whose ordinary stages pass their check, the pass comes to
its decisions. -/
theorem exists_verdicts (built : graph.Built) (ordered : ∃ order, graph.order = .ok order)
    (wellFormed : ∀ id, ¬ graph.Malformed id) :
    ∃ stages verdicts, graph.stagesInOrder = .ok stages ∧
      stages.mapM (stageVerdicts graph config) = .ok verdicts ∧
        (∀ verdict ∈ verdicts.flatten, graph.Sound verdict ∧ graph.Feasible verdict) ∧
          ∀ verdict, verdict ∈ verdicts.flatten ↔ graph.Decided config verdict := by
  obtain ⟨stages, inOrder, mem_stages⟩ := exists_stagesInOrder built ordered
  obtain ⟨verdicts, decided⟩ :
      ∃ verdicts, stages.mapM (stageVerdicts graph config) = .ok verdicts := by
    exact Results.exists_mapM_iff.mpr fun stage member =>
      exists_stageVerdicts ((mem_stages stage).mp member) (wellFormed stage.id)
  exact ⟨stages, verdicts, inOrder, decided, decisions_of_stages built mem_stages decided⟩

theorem run_joinRepair {stages : List Stage} {verdicts : List (List SideVerdict)}
    (inOrder : graph.stagesInOrder = .ok stages)
    (decided : stages.mapM (stageVerdicts graph config) = .ok verdicts) :
    Pass.joinRepair.run config graph =
      (Pass.repairSides [] verdicts.flatten >>= fun decisions =>
        pure ⟨Pass.joinRepair.name, stages.length, decisions⟩) graph := by
  show Pass.runJoinRepair config graph = _
  rw [Pass.runJoinRepair, get_bind_apply, inOrder]
  show (Pass.ofExcept (stages.mapM _) >>= _) graph = _
  rw [decided]
  rfl

/-- A pass that succeeds has put the stages in order, come to its decisions and carried them
out. -/
theorem exists_decided_of_run {outcome : PassOutcome} {after : StageGraph}
    (ran : Pass.joinRepair.run config graph = .ok outcome after) :
    ∃ stages verdicts, graph.stagesInOrder = .ok stages ∧
      stages.mapM (stageVerdicts graph config) = .ok verdicts ∧
        Pass.repairSides [] verdicts.flatten graph = .ok outcome.decisions after := by
  have unfolded : Pass.runJoinRepair config graph = .ok outcome after := ran
  rw [Pass.runJoinRepair, get_bind_apply] at unfolded
  cases inOrder : graph.stagesInOrder with
  | error error =>
      rw [inOrder] at unfolded
      exact absurd unfolded throw_ne_ok
  | ok stages =>
      rw [inOrder] at unfolded
      change (Pass.ofExcept (stages.mapM (stageVerdicts graph config)) >>= _) graph = _ at unfolded
      cases decided : stages.mapM (stageVerdicts graph config) with
      | error error =>
          rw [decided] at unfolded
          exact absurd unfolded throw_ne_ok
      | ok verdicts =>
          rw [run_joinRepair inOrder decided] at ran
          obtain ⟨decisions, between, ranSides, returned⟩ := bind_eq_ok.mp ran
          obtain ⟨rfl, rfl⟩ := pure_eq_ok.mp returned
          exact ⟨stages, verdicts, rfl, decided, ranSides⟩

/-- The graph that join repair leaves. -/
def afterJoinRepair (graph : StageGraph) (config : EngineConfig) : StageGraph :=
  stateOf (Pass.joinRepair.run config graph)

/-- What join repair has done to a graph: it has carried out each of its decisions. -/
structure JoinsRepaired (graph : StageGraph) (config : EngineConfig) (outcome : PassOutcome)
    (inserted : Inserted) (after : StageGraph) : Prop
    extends graph.Repaired inserted none after where
  carriedOut : ∃ entries, outcome.decisions = entries.map reported ∧
    CarriedOut entries inserted after ∧
      ∀ verdict, verdict ∈ entries.map Prod.fst ↔ graph.Decided config verdict

/-- Join repair of a valid graph carries out all its decisions. -/
theorem exists_joinsRepaired (built : graph.Built) (valid : ∃ count, graph.validate = .ok count)
    (room : (graph.afterJoinRepair config).HasRoom) :
    ∃ outcome inserted, Pass.joinRepair.run config graph =
        .ok outcome (graph.afterJoinRepair config) ∧
      graph.JoinsRepaired config outcome inserted (graph.afterJoinRepair config) := by
  have backed := backed_of_valid (validate_eq_ok_iff.mp valid).2.2
  obtain ⟨stages, verdicts, inOrder, decided, sound, mem_verdicts⟩ :=
    exists_verdicts built (exists_order_of_valid valid) (not_malformed_of_valid valid)
  rw [afterJoinRepair, run_joinRepair inOrder decided] at room ⊢
  have roomSides : HasRoom (stateOf (Pass.repairSides [] verdicts.flatten graph)) :=
    fun id member => room id (grows_bind_left (fun _ => .pure _) graph id member)
  obtain ⟨entries, next, inserted, isVerdicts, ran, repaired, carriedOut⟩ :=
    (Repaired.initial built backed).repairSides built sound (.initial graph) roomSides
  rw [bind_apply, ran]
  exact ⟨_, inserted, rfl, { repaired with
    carriedOut := ⟨entries, rfl, carriedOut, fun verdict => by rw [isVerdicts, mem_verdicts]⟩ }⟩

/-- Join repair of a valid graph succeeds. -/
theorem joinRepair_eq_ok (built : graph.Built) (valid : ∃ count, graph.validate = .ok count)
    (room : (graph.afterJoinRepair config).HasRoom) :
    (∃ outcome, Pass.joinRepair.run config graph = .ok outcome (graph.afterJoinRepair config)) ∧
      ∃ inserted, graph.Repaired inserted none (graph.afterJoinRepair config) := by
  obtain ⟨outcome, inserted, ran, repaired⟩ := exists_joinsRepaired built valid room
  exact ⟨⟨outcome, ran⟩, inserted, repaired.toRepaired⟩

/-- Join repair also succeeds if concatenate stages are malformed, and keeps what the
carrying out of each decision keeps. -/
theorem exists_run_joinRepair_keeping (holds : StageGraph → Prop) (built : graph.Built)
    (ordered : ∃ order, graph.order = .ok order) (wellFormed : ∀ id, ¬ graph.Malformed id)
    (room : (graph.afterJoinRepair config).HasRoom) (start : holds graph)
    (keeps : ∀ verdict, graph.Decided config verdict → graph.Feasible verdict →
      ∀ inserted current, graph.Editable inserted current → holds current →
        ∀ applied next, JoinRepair.apply inserted verdict current = .ok applied next →
          holds next) :
    ∃ outcome next, Pass.joinRepair.run config graph = .ok outcome next ∧ holds next := by
  obtain ⟨stages, verdicts, inOrder, decided, sound, mem_verdicts⟩ :=
    exists_verdicts built ordered wellFormed
  rw [afterJoinRepair, run_joinRepair inOrder decided] at room
  rw [run_joinRepair inOrder decided]
  have carryOut (verdict : SideVerdict) (isVerdict : verdict ∈ verdicts.flatten)
      (_ : List (SideVerdict × RepairState)) (inserted : Inserted) (current : StageGraph)
      (both : graph.Editable inserted current ∧ holds current)
      (roomNext : HasRoom (stateOf (JoinRepair.apply inserted verdict current))) :
      ∃ applied next, JoinRepair.apply inserted verdict current = .ok applied next ∧
        graph.Editable applied.2 next ∧ holds next := by
    have feasible := (sound verdict isVerdict).2
    obtain ⟨applied, next, ran, editable⟩ := both.1.apply built feasible roomNext
    exact ⟨applied, next, ran, editable, keeps verdict ((mem_verdicts verdict).mp isVerdict)
      feasible inserted current both.1 both.2 applied next ran⟩
  have roomSides : HasRoom (stateOf (Pass.repairSides [] verdicts.flatten graph)) :=
    fun id member => room id (grows_bind_left (fun _ => .pure _) graph id member)
  obtain ⟨entries, next, -, -, ran, -, held⟩ :=
    exists_repairSides (fun _ inserted current => graph.Editable inserted current ∧ holds current)
      [] carryOut ⟨Editable.initial built, start⟩ roomSides
  exact ⟨_, next, bind_eq_ok.mpr ⟨_, next, ran, rfl⟩, held⟩

end StageGraph

end BatchFlow
