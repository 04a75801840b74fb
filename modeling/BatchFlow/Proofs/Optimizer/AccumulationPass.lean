import BatchFlow.Proofs.Optimizer.Qualification
import BatchFlow.Proofs.Optimizer.RepairPass
import BatchFlow.Proofs.Optimizer.Restaging

/-!
# What the accumulation pass does to a graph

The pass judges every stage before it changes any.  If an ordinary stage is
malformed, it fails with the graph as it was.  Else it only sets flags, which no
check of a stage reads, so it cannot fail any more.
-/

namespace BatchFlow

open Results Steps

namespace SubPlan

variable {plan : SubPlan}

/-- Flags that are set first do not matter once all flags are set anew. -/
theorem withFlags_flagPackages (flag : Bool) (packages : List OpId) :
    (plan.flagPackages packages).withFlags flag = plan.withFlags flag := by
  induction packages generalizing plan with
  | nil => rfl
  | cons package packages ih =>
      rw [flagPackages_cons, ih, withFlags, withFlags]
      refine relabel_modify fun operator _ => ?_
      simp only [Operator.relabel, Operation.withFlag_withFlag]

theorem ownIds_flagPackages (packages : List OpId) :
    (plan.flagPackages packages).OwnIds ↔ plan.OwnIds := by
  rw [← ownIds_relabel (Operation.withFlag false), ← withFlags, withFlags_flagPackages, withFlags,
    ownIds_relabel]

theorem wellFormed_flagPackages (packages : List OpId) :
    (plan.flagPackages packages).WellFormed ↔ plan.WellFormed := by
  have keeps := Operation.keepsInputs_withFlag false
  rw [← wellFormed_relabel keeps, ← withFlags, withFlags_flagPackages, withFlags,
    wellFormed_relabel keeps]

theorem exists_load_withFlags (flag : Bool) {source : LoadSource} :
    (∃ operator ∈ (plan.withFlags flag).operators, operator.operation = .load source) ↔
      ∃ operator ∈ plan.operators, operator.operation = .load source := by
  have isLoad (operation : Operation) :
      operation.withFlag flag = .load source ↔ operation = .load source := by
    cases operation <;> simp [Operation.withFlag]
  simp [withFlags, Operator.relabel, isLoad]

/-- Flags change no load. -/
theorem exists_load_flagPackages {packages : List OpId} {source : LoadSource} :
    (∃ operator ∈ (plan.flagPackages packages).operators, operator.operation = .load source) ↔
      ∃ operator ∈ plan.operators, operator.operation = .load source := by
  rw [← exists_load_withFlags false, withFlags_flagPackages, exists_load_withFlags]

end SubPlan

namespace StageGraph

variable {graph current : StageGraph} {config : EngineConfig}

/-- A graph some of whose operators have been flagged. -/
structure Flagged (graph current : StageGraph) : Prop where
  stages : ∀ id, ∃ packages, current.stage? id = (graph.stage? id).map fun stage =>
    { stage with plan := stage.plan.flagPackages packages }
  edges : current.edges = graph.edges
  nextId : current.nextId = graph.nextId

theorem Flagged.refl (graph : StageGraph) : graph.Flagged graph where
  stages id := ⟨[], by cases graph.stage? id <;> rfl⟩
  edges := rfl
  nextId := rfl

namespace Flagged

variable (flagged : graph.Flagged current)

include flagged

theorem exists_stage {id : StageId} {other : Stage} (isStage : current.stage? id = some other) :
    ∃ stage packages, graph.stage? id = some stage ∧
      other = { stage with plan := stage.plan.flagPackages packages } := by
  obtain ⟨packages, same⟩ := flagged.stages id
  rw [isStage] at same
  obtain ⟨stage, found, isFlagged⟩ := Option.map_eq_some_iff.mp same.symm
  exact ⟨stage, packages, found, isFlagged.symm⟩

theorem exists_flagged {id : StageId} {stage : Stage} (found : graph.stage? id = some stage) :
    ∃ packages, current.stage? id =
      some { stage with plan := stage.plan.flagPackages packages } := by
  obtain ⟨packages, same⟩ := flagged.stages id
  exact ⟨packages, by rw [same, found]; rfl⟩

theorem modifyStage (id : StageId) (packages : List OpId) :
    graph.Flagged (current.modifyStage id fun stage =>
      { stage with plan := stage.plan.flagPackages packages }) where
  stages other := by
    rw [stage?_modifyStage]
    split
    case isFalse => exact flagged.stages other
    case isTrue same =>
      subst same
      obtain ⟨flaggedBefore, same⟩ := flagged.stages other
      refine ⟨flaggedBefore ++ packages, ?_⟩
      rw [same, Option.map_map]
      refine congrArg (fun change => (graph.stage? other).map change) (funext fun stage => ?_)
      simp only [Function.comp_apply, SubPlan.flagPackages, List.foldl_append]
  edges := flagged.edges
  nextId := flagged.nextId

theorem restaged : graph.Restaged current where
  kept id stage found := by
    obtain ⟨_, isStage⟩ := flagged.exists_flagged found
    exact ⟨_, isStage⟩
  only id other isStage := by
    obtain ⟨stage, packages, found, rfl⟩ := flagged.exists_stage isStage
    exact ⟨stage, found,
      { id := rfl
        kind := rfl
        ownIds := SubPlan.ownIds_flagPackages packages
        wellFormed := SubPlan.wellFormed_flagPackages packages
        loadsStage := fun _ => SubPlan.exists_load_flagPackages }⟩
  edges := flagged.edges
  nextId := flagged.nextId

/-- Flagging the operators of a stage that exists succeeds. -/
theorem apply {verdict : StageId × Qualification}
    (isStage : ∃ stage, graph.stage? verdict.1 = some stage) :
    ∃ next, Accumulation.apply verdict current = .ok ⟨⟩ next ∧ graph.Flagged next := by
  obtain ⟨id, outcome⟩ := verdict
  obtain ⟨stage, found⟩ := isStage
  obtain ⟨_, isStage⟩ := flagged.exists_flagged found
  have contains : current.stageMap.contains id = true := contains_stageMap.mpr ⟨_, isStage⟩
  cases outcome with
  | noGrouping => exact ⟨current, rfl, flagged⟩
  | disqualified => exact ⟨current, rfl, flagged⟩
  | qualifies packages =>
      refine ⟨_, ?_, flagged.modifyStage id packages⟩
      rw [Accumulation.apply, get_bind_apply, contains]
      rfl

theorem forM_apply {verdicts : List (StageId × Qualification)}
    (areStages : ∀ verdict ∈ verdicts, ∃ stage, graph.stage? verdict.1 = some stage) :
    ∃ next, verdicts.forM Accumulation.apply current = .ok ⟨⟩ next ∧ graph.Flagged next := by
  induction verdicts generalizing current with
  | nil => exact ⟨current, rfl, flagged⟩
  | cons verdict rest ih =>
      obtain ⟨isStage, areStagesToo⟩ := List.forall_mem_cons.mp areStages
      obtain ⟨between, applied, flaggedBetween⟩ := flagged.apply isStage
      obtain ⟨next, appliedRest, flaggedNext⟩ := ih flaggedBetween areStagesToo
      exact ⟨next, bind_eq_ok.mpr ⟨⟨⟩, between, applied, appliedRest⟩, flaggedNext⟩

end Flagged

/-- What the pass reports of a stage: concatenate stages are not checked. -/
def reportedFault? (graph : StageGraph) (stage : Stage) : Option StageFault :=
  match stage.kind with
  | .concatenate => none
  | .ordinary => graph.stageFault? stage.id

theorem faults_assess (stages : List Stage) :
    Accumulation.faults (stages.map (Accumulation.assess graph)) =
      stages.filterMap graph.reportedFault? := by
  rw [Accumulation.faults, List.filterMap_map]
  refine List.filterMap_congr fun stage _ => ?_
  rw [Function.comp_apply, Accumulation.assess, reportedFault?]
  cases stage.kind with
  | concatenate => rfl
  | ordinary => cases graph.stageFault? stage.id <;> rfl

theorem assess_eq_ok {stage : Stage} {verdict : StageId × Qualification} :
    Accumulation.assess graph stage = .ok verdict ↔
      (stage.kind = .concatenate ∧ verdict = (stage.id, .noGrouping)) ∨
        stage.kind = .ordinary ∧ graph.stageFault? stage.id = none ∧
          verdict = (stage.id, stage.plan.qualify) := by
  rw [Accumulation.assess]
  cases kind : stage.kind with
  | concatenate => simp [eq_comm]
  | ordinary => cases graph.stageFault? stage.id <;> simp [eq_comm]

theorem mem_values_assess {stages : List Stage} {verdict : StageId × Qualification} :
    verdict ∈ Accumulation.values (stages.map (Accumulation.assess graph)) ↔
      ∃ stage ∈ stages, Accumulation.assess graph stage = .ok verdict := by
  rw [Accumulation.values, List.filterMap_map, List.mem_filterMap]
  refine exists_congr fun stage => and_congr_right fun _ => ?_
  rw [Function.comp_apply]
  cases Accumulation.assess graph stage <;> simp

theorem stage_of_assess {stage : Stage} {verdict : StageId × Qualification}
    (assessed : Accumulation.assess graph stage = .ok verdict) : verdict.1 = stage.id := by
  rcases assess_eq_ok.mp assessed with ⟨-, rfl⟩ | ⟨-, -, rfl⟩ <;> rfl

/-- The faults reported are those of the malformed stages. -/
theorem mem_faults (built : graph.Built) {stages : List Stage}
    (mem_stages : ∀ stage, stage ∈ stages ↔ graph.stage? stage.id = some stage)
    {fault : StageFault} :
    fault ∈ stages.filterMap graph.reportedFault? ↔
      ∃ id, graph.Malformed id ∧ graph.stageFault? id = some fault := by
  rw [List.mem_filterMap]
  constructor
  · rintro ⟨stage, member, reported⟩
    rw [reportedFault?] at reported
    split at reported
    case h_1 => exact nomatch reported
    case h_2 isOrdinary =>
      have found := (mem_stages stage).mp member
      exact ⟨stage.id, ⟨stage, found, isOrdinary, checkStage_ne_ok.mpr ⟨fault, reported⟩⟩, reported⟩
  · rintro ⟨id, ⟨stage, found, isOrdinary, -⟩, isFault⟩
    obtain rfl := built.ownId id stage found
    exact ⟨stage, (mem_stages stage).mpr found, by rw [reportedFault?, isOrdinary]; exact isFault⟩

theorem run_accumulation_of_disorder {error : PlanError} (disorder : graph.order = .error error) :
    Pass.accumulation.run config graph = .error error graph := by
  show Pass.runAccumulation graph = _
  rw [Pass.runAccumulation, get_bind_apply, stagesInOrder, disorder]
  rfl

theorem run_accumulation {stages : List Stage} (inOrder : graph.stagesInOrder = .ok stages) :
    Pass.accumulation.run config graph =
      (match Accumulation.combineFaults Pass.accumulation.name
          (stages.filterMap graph.reportedFault?) with
        | some error => throw error
        | none => do
          let verdicts := Accumulation.values (stages.map (Accumulation.assess graph))
          verdicts.forM Accumulation.apply
          return {
            pass := Pass.accumulation.name
            stagesVisited := stages.length
            decisions := verdicts.map fun (stage, outcome) => .accumulative stage outcome } :
        GraphEdit PassOutcome) graph := by
  show Pass.runAccumulation graph = _
  rw [Pass.runAccumulation, get_bind_apply, inOrder, ← faults_assess]
  rfl

theorem combineFaults_eq_none {pass : String} {faults : List StageFault} :
    Accumulation.combineFaults pass faults = none ↔ faults = [] := by
  rcases faults with _ | ⟨first, _ | ⟨second, rest⟩⟩ <;> simp [Accumulation.combineFaults]

/-- The pass fails with the graph as it was, because the walk or a stage fails.  Or
it succeeds, all ordinary stages are well formed, and only flags are changed. -/
theorem accumulation_cases (built : graph.Built) :
    (∃ error, Pass.accumulation.run config graph = .error error graph ∧
      ¬ ((∃ order, graph.order = .ok order) ∧ ∀ id, ¬ graph.Malformed id)) ∨
      ∃ outcome next, Pass.accumulation.run config graph = .ok outcome next ∧
        graph.Flagged next ∧ (∃ order, graph.order = .ok order) ∧
          ∀ id, ¬ graph.Malformed id := by
  cases isOrder : graph.order with
  | error error =>
      refine .inl ⟨error, run_accumulation_of_disorder isOrder, ?_⟩
      rintro ⟨⟨order, ordered⟩, -⟩
      exact nomatch ordered
  | ok order =>
      obtain ⟨stages, inOrder, mem_stages⟩ := exists_stagesInOrder built ⟨order, isOrder⟩
      have isReported (fault : StageFault) :
          fault ∈ stages.filterMap graph.reportedFault? ↔
            ∃ id, graph.Malformed id ∧ graph.stageFault? id = some fault :=
        mem_faults built mem_stages
      rw [run_accumulation inOrder]
      cases combined : Accumulation.combineFaults Pass.accumulation.name
          (stages.filterMap graph.reportedFault?) with
      | some error =>
          refine .inl ⟨error, rfl, ?_⟩
          rintro ⟨-, wellFormed⟩
          have someFault : stages.filterMap graph.reportedFault? ≠ [] := by
            intro noFault
            rw [combineFaults_eq_none.mpr noFault] at combined
            exact nomatch combined
          obtain ⟨fault, member⟩ := List.exists_mem_of_ne_nil _ someFault
          obtain ⟨id, malformed, -⟩ := (isReported fault).mp member
          exact wellFormed id malformed
      | none =>
          have noFault := combineFaults_eq_none.mp combined
          have areStages : ∀ verdict ∈ Accumulation.values
              (stages.map (Accumulation.assess graph)),
                ∃ stage, graph.stage? verdict.1 = some stage := by
            intro verdict member
            obtain ⟨stage, inStages, assessed⟩ := mem_values_assess.mp member
            rw [stage_of_assess assessed]
            exact ⟨stage, (mem_stages stage).mp inStages⟩
          obtain ⟨next, applied, flagged⟩ := (Flagged.refl graph).forM_apply areStages
          refine .inr ⟨_, next, bind_eq_ok.mpr ⟨⟨⟩, next, applied, rfl⟩, flagged, ⟨order, rfl⟩, ?_⟩
          intro id malformed
          obtain ⟨fault, isFault⟩ := malformed.exists_fault
          have reported := (isReported fault).mpr ⟨id, malformed, isFault⟩
          rw [noFault] at reported
          exact absurd reported List.not_mem_nil

theorem accumulation_succeeds (built : graph.Built) (ordered : ∃ order, graph.order = .ok order)
    (sound : ∀ id, ¬ graph.Malformed id) (config : EngineConfig) :
    ∃ outcome next, Pass.accumulation.run config graph = .ok outcome next ∧
      graph.Flagged next := by
  rcases accumulation_cases built with ⟨_, -, faulty⟩ | ⟨outcome, next, ran, flagged, -⟩
  · exact absurd ⟨ordered, sound⟩ faulty
  · exact ⟨outcome, next, ran, flagged⟩

theorem accumulation_fails (built : graph.Built)
    (faulty : ¬ ((∃ order, graph.order = .ok order) ∧ ∀ id, ¬ graph.Malformed id))
    (config : EngineConfig) :
    ∃ error, Pass.accumulation.run config graph = .error error graph := by
  rcases accumulation_cases built with ⟨error, failed, -⟩ | ⟨_, _, -, -, sound⟩
  · exact ⟨error, failed⟩
  · exact absurd sound faulty

end StageGraph

end BatchFlow
