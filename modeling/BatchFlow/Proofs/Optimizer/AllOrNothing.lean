import BatchFlow.Proofs.Optimizer.AccumulationPass
import BatchFlow.Proofs.Optimizer.KeptResults

/-!
# Optimization is all or nothing

Only the accumulation pass can fail, and it fails before it changes the graph.
What it leaves is a graph on which every decision of join repair can be carried
out.  If several stages are malformed, the message is about every one of them.
-/

namespace BatchFlow

open Steps

theorem exists_append_of_mem_intercalate (separator : String) {text : String} {texts : List String}
    (member : text ∈ texts) :
    ∃ before after, separator.intercalate texts = before ++ text ++ after := by
  induction texts with
  | nil => simp at member
  | cons first rest ih =>
      cases rest with
      | nil =>
          obtain rfl := List.mem_singleton.mp member
          exact ⟨"", "", by simp⟩
      | cons second rest =>
          rw [String.intercalate_cons_cons]
          rcases List.mem_cons.mp member with rfl | inRest
          · exact ⟨"", separator ++ separator.intercalate (second :: rest), by
              rw [String.empty_append, String.append_assoc]⟩
          · obtain ⟨before, after, split⟩ := ih inRest
            exact ⟨first ++ separator ++ before, after, by
              rw [split]
              simp only [String.append_assoc]⟩

namespace PlanError

theorem faultMessage_eq {fault : StageFault} {id : StageId} (atStage : fault.stage? = some id) :
    ∃ reason, faultMessage fault = malformedText (some id) reason := by
  cases fault with
  | unknown => exact nomatch atStage
  | malformedPlan stage fault =>
      obtain rfl := Option.some.inj atStage
      exact ⟨_, rfl⟩
  | unbackedLoad stage operator source =>
      obtain rfl := Option.some.inj atStage
      exact ⟨_, rfl⟩

theorem malformedText_append (stage : Option StageId) (reason more : String) :
    malformedText stage reason ++ more = malformedText stage (reason ++ more) :=
  String.append_assoc ..

/-- Part of the message says what is wrong with a stage. -/
def Names (error : PlanError) (id : StageId) : Prop :=
  ∃ before reason after, error.message = before ++ malformedText (some id) reason ++ after

theorem names_atStages {pass : String} {faults : List StageFault} {fault : StageFault}
    {id : StageId} (member : fault ∈ faults) (atStage : fault.stage? = some id) :
    (atStages pass faults).Names id := by
  obtain ⟨reason, isMessage⟩ := faultMessage_eq atStage
  have isPart : malformedText (some id) reason ∈ faults.map faultMessage :=
    List.mem_map.mpr ⟨fault, member, isMessage⟩
  obtain ⟨before, after, split⟩ := exists_append_of_mem_intercalate "; " isPart
  let heading := pass ++ ": " ++ toString faults.length ++ " stages failed: "
  refine ⟨malformedText (faults.findSome? StageFault.stage?) heading ++ before, reason, after, ?_⟩
  rw [message, split, malformedText_append, malformedText_append, malformedText_append]
  simp only [heading, String.append_assoc]

end PlanError

namespace StageGraph

variable {graph : StageGraph} {config : EngineConfig}

theorem stage?_of_stageFault? {id : StageId} {stage : Stage} {fault : StageFault}
    (found : graph.stage? id = some stage) (isFault : graph.stageFault? id = some fault) :
    fault.stage? = some id := by
  rw [stageFault?, found] at isFault
  simp only at isFault
  split at isFault
  case h_1 =>
    obtain rfl := Option.some.inj isFault
    rfl
  case h_2 =>
    obtain ⟨operator, -, isUnbacked⟩ := List.exists_of_findSome?_eq_some isFault
    split at isUnbacked
    case h_2 => cases isUnbacked
    case h_1 =>
      split at isUnbacked
      · cases isUnbacked
      · obtain rfl := Option.some.inj isUnbacked
        rfl

theorem Malformed.stage?_fault {id : StageId} {fault : StageFault}
    (malformed : graph.Malformed id) (isFault : graph.stageFault? id = some fault) :
    fault.stage? = some id := by
  obtain ⟨stage, found, -⟩ := malformed
  exact stage?_of_stageFault? found isFault

theorem combineFaults_of_ne {pass : String} {faults : List StageFault} {first second : StageFault}
    (isFirst : first ∈ faults) (isSecond : second ∈ faults) (different : first ≠ second) :
    Accumulation.combineFaults pass faults = some (.atStages pass faults) := by
  rcases faults with _ | ⟨fault, _ | ⟨other, rest⟩⟩
  · simp at isFirst
  · rw [List.mem_singleton] at isFirst isSecond
    exact absurd (isFirst.trans isSecond.symm) different
  · rfl

theorem optimize_of_order {order : List StageId} (ordered : graph.order = .ok order) :
    optimize config graph = (do
      let flagging ← Pass.accumulation.run config
      let repairing ← Pass.joinRepair.run config
      let final ← get
      return ⟨[flagging, repairing], graph.fingerprint, final.fingerprint⟩ :
        GraphEdit OptimizationReport) graph := by
  rw [optimize, optimizeWith, get_bind_apply, ordered]
  show ((Pass.standard.mapM (Pass.run config)) >>= _) graph = _
  rw [Pass.standard, List.mapM_cons, List.mapM_cons, List.mapM_nil]
  simp only [bind_assoc, pure_bind]

theorem optimize_of_accumulation_error {error : PlanError}
    (failed : Pass.accumulation.run config graph = .error error graph) :
    optimize config graph = .error error graph := by
  cases isOrder : graph.order with
  | error disorder =>
      rw [run_accumulation_of_disorder isOrder] at failed
      rw [optimize, optimizeWith, get_bind_apply, isOrder]
      cases failed
      rfl
  | ok order => rw [optimize_of_order isOrder, bind_apply, failed]

section Passes

variable {order : List StageId} {flags repair : PassOutcome} {flagging after : StageGraph}
  (ordered : graph.order = .ok order)
  (flagged : Pass.accumulation.run config graph = .ok flags flagging)

include ordered flagged

theorem hasRoom_afterJoinRepair (room : HasRoom (stateOf (optimize config graph))) :
    (flagging.afterJoinRepair config).HasRoom := by
  rw [optimize_of_order ordered, bind_apply, flagged] at room
  intro id member
  refine room id (grows_bind_left ?_ flagging id member)
  exact fun _ _ _ kept => kept

theorem optimize_of_passes (repaired : Pass.joinRepair.run config flagging = .ok repair after) :
    optimize config graph =
      .ok ⟨[flags, repair], graph.fingerprint, after.fingerprint⟩ after := by
  rw [optimize_of_order ordered, bind_apply, flagged]
  exact bind_eq_ok.mpr ⟨repair, after, repaired, rfl⟩

end Passes

/-- Once the accumulation pass has succeeded, so does the pipeline. -/
theorem optimize_of_accumulation (built : graph.Built)
    (room : HasRoom (stateOf (optimize config graph))) {outcome : PassOutcome}
    {flagging : StageGraph} (ran : Pass.accumulation.run config graph = .ok outcome flagging) :
    ∃ report after, optimize config graph = .ok report after := by
  rcases accumulation_cases built with
    ⟨error, failed, -⟩ | ⟨_, _, ranToo, flagged, ordered, wellFormed⟩
  · rw [failed] at ran
    exact nomatch ran
  · rw [ran] at ranToo
    cases ranToo
    have ⟨order, isOrder⟩ := ordered
    obtain ⟨repair, after, repaired, -⟩ := exists_run_joinRepair_keeping
      (fun _ => True) (flagged.restaged.built built) (flagged.restaged.exists_order ordered)
      (fun id => flagged.restaged.not_malformed built (wellFormed id))
      (hasRoom_afterJoinRepair isOrder ran room) trivial
      (fun _ _ _ _ _ _ _ _ _ _ => trivial)
    exact ⟨_, after, optimize_of_passes isOrder ran repaired⟩

/-- Several malformed stages of a graph without cycles are reported together. -/
theorem optimize_malformed (config : EngineConfig) (built : graph.Built) (acyclic : graph.Acyclic)
    {first second : StageId} (isFirst : graph.Malformed first) (isSecond : graph.Malformed second)
    (different : first ≠ second) :
    ∃ faults, optimize config graph = .error (.atStages Pass.accumulation.name faults) graph ∧
      ∀ fault, fault ∈ faults ↔ ∃ id, graph.Malformed id ∧ graph.stageFault? id = some fault := by
  have ordered : ∃ order, graph.order = .ok order :=
    exists_order_iff.mpr ⟨built.edgesExist, acyclic.exists_ranked⟩
  obtain ⟨stages, inOrder, mem_stages⟩ := exists_stagesInOrder built ordered
  let faults := stages.filterMap graph.reportedFault?
  have isReported (fault : StageFault) :
      fault ∈ faults ↔ ∃ id, graph.Malformed id ∧ graph.stageFault? id = some fault :=
    mem_faults built mem_stages
  obtain ⟨firstFault, isFirstFault⟩ := isFirst.exists_fault
  obtain ⟨secondFault, isSecondFault⟩ := isSecond.exists_fault
  have differentFaults : firstFault ≠ secondFault := by
    rintro rfl
    have sameStage := (isFirst.stage?_fault isFirstFault).symm.trans
      (isSecond.stage?_fault isSecondFault)
    exact different (Option.some.inj sameStage)
  have combined : Accumulation.combineFaults Pass.accumulation.name faults =
      some (.atStages Pass.accumulation.name faults) :=
    combineFaults_of_ne ((isReported _).mpr ⟨first, isFirst, isFirstFault⟩)
      ((isReported _).mpr ⟨second, isSecond, isSecondFault⟩) differentFaults
  refine ⟨faults, optimize_of_accumulation_error ?_, isReported⟩
  rw [run_accumulation inOrder, combined]
  rfl

/-- Optimization is all or nothing: it succeeds exactly if the stages have an order and
all ordinary ones are well formed, if it fails then the graph is as it was, and it
cannot fail once the accumulation pass has succeeded.  If several ordinary stages of
a graph without cycles are malformed, the error names every one of them. -/
theorem optimize_all_or_nothing (built : graph.Built) (config : EngineConfig)
    (room : HasRoom (stateOf (optimize config graph))) :
    ((∃ report after, optimize config graph = .ok report after) ↔
        (∃ order, graph.order = .ok order) ∧ ∀ id, ¬ graph.Malformed id) ∧
      (∀ error after, optimize config graph = .error error after → after = graph) ∧
      (∀ outcome flagging, Pass.accumulation.run config graph = .ok outcome flagging →
        ∃ report after, optimize config graph = .ok report after) ∧
      (graph.Acyclic → ∀ first second, graph.Malformed first → graph.Malformed second →
        first ≠ second →
          ∃ faults, optimize config graph =
              .error (.atStages Pass.accumulation.name faults) graph ∧
            (∀ fault ∈ faults, ∃ id, graph.Malformed id ∧ graph.stageFault? id = some fault) ∧
              ∀ id, graph.Malformed id →
                (PlanError.atStages Pass.accumulation.name faults).Names id) := by
  refine ⟨?succeeds, ?fails, fun outcome flagging ran => optimize_of_accumulation built room ran,
    ?reports⟩
  case succeeds =>
    rcases accumulation_cases built with ⟨_, stopped, faulty⟩ | ⟨_, _, ran, -, sound⟩
    · refine iff_of_false ?_ faulty
      rw [optimize_of_accumulation_error stopped]
      rintro ⟨_, _, succeeded⟩
      exact nomatch succeeded
    · exact iff_of_true (optimize_of_accumulation built room ran) sound
  case fails =>
    intro error after failed
    rcases accumulation_cases built with ⟨_, stopped, -⟩ | ⟨_, _, ran, -⟩
    · rw [optimize_of_accumulation_error stopped] at failed
      exact (EStateM.Result.error.inj failed).2.symm
    · obtain ⟨_, _, succeeded⟩ := optimize_of_accumulation built room ran
      rw [succeeded] at failed
      exact nomatch failed
  case reports =>
    intro acyclic first second isFirst isSecond different
    obtain ⟨faults, failed, isReported⟩ :=
      optimize_malformed config built acyclic isFirst isSecond different
    refine ⟨faults, failed, fun fault member => (isReported fault).mp member, ?_⟩
    intro id malformed
    obtain ⟨fault, isFault⟩ := malformed.exists_fault
    exact PlanError.names_atStages ((isReported fault).mpr ⟨id, malformed, isFault⟩)
      (malformed.stage?_fault isFault)

/-- A stage whose store reads an operator that its plan does not have. -/
def hollowStage : Stage :=
  ⟨⟨1⟩, .ordinary, SubPlan.empty.insert ⟨⟨0⟩, .store "totals", [⟨1⟩]⟩, {}⟩

/-- A stage that copies the regions, although it does not wait for them. -/
def hastyStage : Stage :=
  ⟨⟨2⟩, .ordinary, (SubPlan.empty.insert ⟨⟨0⟩, .load (.stage ⟨0⟩), []⟩).insert
    ⟨⟨1⟩, .store "copy", [⟨0⟩]⟩, {}⟩

/-- A graph with two malformed stages, one of which waits for the regions. -/
def brokenGraph : StageGraph :=
  ⟨((OrderedMap.insert ∅ ⟨0⟩ regionsStage).insert ⟨1⟩ hollowStage).insert ⟨2⟩ hastyStage,
    OrderedSet.insert ∅ ⟨⟨0⟩, ⟨1⟩⟩, 3⟩

theorem built_brokenGraph : brokenGraph.Built := by
  have regionsIds : regionsPlan.OwnIds := (SubPlan.OwnIds.empty.insert _).insert _
  have hollowIds : hollowStage.plan.OwnIds := SubPlan.OwnIds.empty.insert _
  have hastyIds : hastyStage.plan.OwnIds := (SubPlan.OwnIds.empty.insert _).insert _
  have first :=
    Built.empty.addStage .ordinary { outputFiles := .known 3 } regionsIds (by decide) rfl
  have second := first.addStage .ordinary {} hollowIds (by decide) rfl
  have third := second.addStage .ordinary {} hastyIds (by decide) rfl
  exact third.connect (by rfl : connect ⟨0⟩ ⟨1⟩ _ = .ok ⟨⟩ brokenGraph)

theorem acyclic_brokenGraph : brokenGraph.Acyclic := by
  have ranked : brokenGraph.Ranked fun id => id.value.toNat := by
    rw [Ranked]
    decide
  exact ranked.acyclic

theorem malformed_hollowStage : brokenGraph.Malformed ⟨1⟩ :=
  ⟨hollowStage, rfl, rfl, checkStage_ne_ok.mpr ⟨_, rfl⟩⟩

theorem malformed_hastyStage : brokenGraph.Malformed ⟨2⟩ :=
  ⟨hastyStage, rfl, rfl, checkStage_ne_ok.mpr ⟨_, rfl⟩⟩

theorem run_accumulation_salesGraph :
    ∃ outcome, Pass.accumulation.run repairing salesGraph = .ok outcome salesGraph := by
  rw [run_accumulation stagesInOrder_salesGraph]
  exact ⟨_, rfl⟩

theorem stageIds_optimize_salesGraph :
    (stateOf (optimize repairing salesGraph)).stageIds = [⟨0⟩, ⟨1⟩, ⟨2⟩] := by
  obtain ⟨outcome, ran⟩ := run_accumulation_salesGraph
  have sameStages : (stateOf (optimize repairing salesGraph)).stageIds =
      (salesGraph.afterJoinRepair repairing).stageIds := by
    rw [optimize_of_order order_salesGraph, bind_apply, ran, afterJoinRepair]
    dsimp only
    rw [bind_apply]
    cases Pass.joinRepair.run repairing salesGraph <;> rfl
  rw [sameStages, afterJoinRepair_salesGraph]
  decide +kernel

theorem hasRoom_optimize_salesGraph : HasRoom (stateOf (optimize repairing salesGraph)) := by
  rw [HasRoom, stageIds_optimize_salesGraph]
  decide

theorem optimize_all_or_nothing_brokenGraph :
    salesGraph.Built ∧ HasRoom (stateOf (optimize repairing salesGraph)) ∧
      (∃ report after, optimize repairing salesGraph = .ok report after) ∧
      brokenGraph.Built ∧ HasRoom (stateOf (optimize repairing brokenGraph)) ∧
      ∃ faults, optimize repairing brokenGraph =
          .error (.atStages Pass.accumulation.name faults) brokenGraph ∧
        (PlanError.atStages Pass.accumulation.name faults).Names ⟨1⟩ ∧
        (PlanError.atStages Pass.accumulation.name faults).Names ⟨2⟩ := by
  obtain ⟨outcome, ran⟩ := run_accumulation_salesGraph
  have succeeds := (optimize_all_or_nothing built_salesGraph repairing
    hasRoom_optimize_salesGraph).2.2.1 outcome salesGraph ran
  have room : HasRoom (stateOf (optimize repairing brokenGraph)) := by
    obtain ⟨faults, failed, -⟩ := optimize_malformed repairing built_brokenGraph
      acyclic_brokenGraph malformed_hollowStage malformed_hastyStage (by decide)
    rw [failed]
    show ∀ id ∈ brokenGraph.stageIds, id.value.toNat + 1 < UInt64.size
    decide
  obtain ⟨faults, failed, -, names⟩ :=
    (optimize_all_or_nothing built_brokenGraph repairing room).2.2.2 acyclic_brokenGraph ⟨1⟩ ⟨2⟩
      malformed_hollowStage malformed_hastyStage (by decide)
  exact ⟨built_salesGraph, hasRoom_optimize_salesGraph, succeeds, built_brokenGraph, room, faults,
    failed, names ⟨1⟩ malformed_hollowStage, names ⟨2⟩ malformed_hastyStage⟩

end StageGraph

end BatchFlow
