import BatchFlow.Proofs.Optimizer.Annotation
import BatchFlow.Proofs.Optimizer.KeptValidity

/-!
# The pipeline is idempotent

After one round every count is known or cannot be estimated, every flag asked for
is raised, and every load decided about reads from a concatenate stage.  Inserted
stages have known counts, and no unrepaired load reads from them, so a second
round finds nothing to do.
-/

namespace BatchFlow

open JoinRepair Steps

namespace StageGraph

variable {graph current after : StageGraph} {inserted : Inserted} {config : EngineConfig}
  {catalog : String → Option UInt32} {id : StageId} {stage other : Stage}

theorem Flagged.estimated (flagged : graph.Flagged current)
    (estimated : graph.Estimated catalog config id) : current.Estimated catalog config id := by
  intro other isStage count
  obtain ⟨stage, packages, found, rfl⟩ := flagged.exists_stage isStage
  have sameCounts : current.filesOf catalog = graph.filesOf catalog := by
    funext source
    cases source with
    | dataset path => rfl
    | stage source =>
        obtain ⟨packages, same⟩ := flagged.stages source
        rw [filesOf, filesOf, same]
        cases graph.stage? source <;> rfl
  rw [sameCounts, ← Stage.outputFiles_withFlags _ _ _ false]
  simp only [SubPlan.withFlags_flagPackages]
  rw [Stage.outputFiles_withFlags]
  exact estimated stage found count

section Repaired

variable (repaired : graph.Repaired inserted none current)

include repaired

/-- An operator that is not repointed is the original one; the load of a repointed one
reads from a concatenate stage. -/
theorem Repaired.operator_cases (found : graph.stage? id = some stage)
    (isStage : current.stage? id = some other) {key : OpId} {changed : Operator}
    (foundChanged : other.plan.get? key = some changed) :
    stage.plan.get? key = some changed ∨
      ∃ source concatenate, ((source, stage.id), concatenate) ∈ inserted ∧
        changed.operation = .load (.stage concatenate) := by
  have repairedStage := repaired.repairedStage found isStage
  have sameGet := congrArg (fun plan : SubPlan => plan.get? key) repairedStage.shape
  simp only [SubPlan.get?_relabel, foundChanged, Option.map_some] at sameGet
  obtain ⟨operator, foundOperator, -⟩ := Option.map_eq_some_iff.mp sameGet
  rcases repairedStage.operators key operator changed foundOperator foundChanged with
    rfl | ⟨source, concatenate, -, -, member, rfl⟩
  · exact .inl foundOperator
  · exact .inr ⟨source, concatenate, member, rfl⟩

theorem Repaired.exists_original (isStage : current.stage? id = some other)
    (ordinary : other.kind ≠ .concatenate) :
    ∃ stage, graph.stage? id = some stage ∧ RepairedStage inserted stage other := by
  rcases repaired.stage_cases isStage with original | ⟨_, _, _, _, rfl⟩
  · exact original
  · exact absurd rfl ordinary

/-- Repairing joins brings no estimate to light: repointed loads are replicated, so no
estimate reads their counts, and the count of an original stage stays what it was. -/
theorem Repaired.outputFiles (built : graph.Built) (backed : graph.Backed)
    (found : graph.stage? id = some stage) (isStage : current.stage? id = some other) :
    other.outputFiles config (current.filesOf catalog) =
      stage.outputFiles config (graph.filesOf catalog) := by
  have repairedStage := repaired.repairedStage found isStage
  have broadcast : other.plan.broadcastLoads = stage.plan.broadcastLoads := by
    rw [← SubPlan.broadcastLoads_core, ← repairedStage.core, SubPlan.broadcastLoads_core]
  refine Stage.outputFiles_congr repairedStage.kind repairedStage.hasReducePhase
    (repairedStage.reduceTasks config) ?_
  have paired := forall₂_and_mem (repairedStage.forall₂ (built.ownIds id stage found))
  refine paired.imp fun operator changed ⟨⟨_, repointed⟩, inPlan, _⟩ => ?_
  rw [Stage.splits?, Stage.splits?, broadcast]
  rcases repointed with rfl | ⟨source, concatenate, isLoad, replicated, -, rfl⟩
  · cases kind : changed.operation with
    | load source =>
        cases source with
        | dataset path => rfl
        | stage source =>
            obtain ⟨-, feeder, foundFeeder⟩ :=
              edge_of_loads built backed found ⟨changed, inPlan, kind⟩
            obtain ⟨feeding, isFeeder, repairedFeeder⟩ := repaired.kept source feeder foundFeeder
            simp only [filesOf, foundFeeder, isFeeder, Option.elim_some, repairedFeeder.info]
    | _ => rfl
  · have isBroadcast : stage.plan.broadcastLoads.contains operator.id = true :=
      OrderedSet.contains_iff.mpr replicated
    simp only [isLoad, isBroadcast, if_true]

theorem Repaired.estimated (built : graph.Built) (backed : graph.Backed)
    (counted : ∀ concatenate ∈ inserted.map Prod.snd, ∀ stage,
      current.stage? concatenate = some stage → stage.info.outputFiles = .known 1)
    (estimated : ∀ id, graph.Estimated catalog config id) :
    current.Estimated catalog config id := by
  intro other isStage count
  rcases repaired.only id other isStage with ⟨stage, found⟩ | ⟨source, join, member⟩
  · rw [repaired.outputFiles built backed found isStage]
    refine estimated id stage found ?_
    rw [← (repaired.repairedStage found isStage).info]
    exact count
  · -- An inserted stage has a known count, so there is nothing to estimate.
    have known := counted id (List.mem_map_of_mem member) other isStage
    exact nomatch known.symm.trans count

theorem Repaired.allRaised (raised : graph.AllRaised) : current.AllRaised := by
  intro id other packages isStage isOrdinary qualifies
  have notConcatenate : other.kind ≠ .concatenate := by simp [isOrdinary]
  obtain ⟨stage, found, repairedStage⟩ := repaired.exists_original isStage notConcatenate
  -- The plans differ in the sources of loads only, which have no flag and are no obstacle.
  have qualified : stage.plan.qualify = .qualifies packages :=
    (SubPlan.qualify_congr SubPlan.keepsObstacles_withoutSource repairedStage.shape).mpr qualifies
  have raisedBefore := raised id stage packages found (repairedStage.kind ▸ isOrdinary) qualified
  intro package member changed foundChanged
  rcases repaired.operator_cases found isStage foundChanged with same | ⟨_, _, -, isLoad⟩
  · exact raisedBefore package member changed same
  · rw [isLoad]
    rfl

/-- Where copying a stage is decided in the repaired graph, the stage and the load that
reads it are original ones, and the same was decided before. -/
theorem Repaired.decide_before (found : graph.stage? id = some stage)
    (isStage : current.stage? id = some other) {load : OpId} {source : StageId} {files : UInt32}
    (decision : decide current other.plan load config = .concatenate source files) :
    decide graph stage.plan load config = .concatenate source files ∧
      ∀ entry, (entry, source) ∉ inserted := by
  obtain ⟨disabled, ⟨loader, foundLoad, isLoad⟩, feeding, isFeeder, notConcatenate, known, above⟩ :=
    decide_eq_concatenate.mp decision
  have feedingKind : feeding.kind ≠ .concatenate := by
    simpa [Stage.isConcatenate] using notConcatenate
  obtain ⟨feeder, foundFeeder, repairedFeeder⟩ := repaired.exists_original isFeeder feedingKind
  have notInserted (entry : StageId × StageId) : (entry, source) ∉ inserted :=
    fun inserted => repaired.ne_concatenate foundFeeder inserted rfl
  have foundLoader : stage.plan.get? load = some loader := by
    rcases repaired.operator_cases found isStage foundLoad with same | ⟨_, _, inserted, isLoadToo⟩
    · exact same
    · cases isLoad.symm.trans isLoadToo
      exact absurd inserted (notInserted _)
  refine ⟨decide_eq_concatenate.mpr
    ⟨disabled, ⟨loader, foundLoader, isLoad⟩, feeder, foundFeeder, ?_, ?_, above⟩, notInserted⟩
  · rw [← notConcatenate, Stage.isConcatenate, Stage.isConcatenate, repairedFeeder.kind]
  · rw [← repairedFeeder.info, known]

end Repaired

/-- Once its decisions are carried out, join repair decides to leave every side alone. -/
theorem JoinsRepaired.skips {outcome : PassOutcome} {verdict : SideVerdict}
    (repaired : graph.JoinsRepaired config outcome inserted current)
    (decided : current.Decided config verdict) : ∃ reason, verdict.decision = .skip reason := by
  obtain ⟨other, isStage, isOrdinary, member⟩ := decided
  obtain ⟨operator, keys, fragment, foundJoin, kind, atSide, different, isVerdict⟩ :=
    mem_joinVerdicts.mp member
  have isDecision := congrArg SideVerdict.decision isVerdict
  cases decision : verdict.decision with
  | skip reason => exact ⟨reason, rfl⟩
  | concatenate source files =>
      exfalso
      rw [decision] at isDecision
      have otherKind : other.kind ≠ .concatenate := by simp [isOrdinary]
      obtain ⟨stage, found, repairedStage⟩ := repaired.exists_original isStage otherKind
      obtain ⟨firstDecision, notInserted⟩ := repaired.decide_before found isStage isDecision.symm
      have foundJoiner : stage.plan.get? verdict.join = some operator := by
        rcases repaired.operator_cases found isStage foundJoin with same | ⟨_, _, -, isLoad⟩
        · exact same
        · exact nomatch kind.symm.trans isLoad
      have decidedFirst : graph.Decided config verdict := by
        refine ⟨stage, found, repairedStage.kind ▸ isOrdinary, mem_joinVerdicts.mpr
          ⟨operator, keys, fragment, foundJoiner, kind, atSide, different, ?_⟩⟩
        rw [firstDecision, ← repairedStage.id, isDecision]
        exact isVerdict
      -- The first round has carried the decision out, so the load reads an inserted stage.
      obtain ⟨entries, -, carriedOut, isEntry⟩ := repaired.carriedOut
      obtain ⟨entry, inEntries, rfl⟩ := List.mem_map.mp ((isEntry verdict).mpr decidedFirst)
      obtain ⟨reader, reading, _, concatenate, isReader, foundReading, isLoadToo, inserted⟩ :=
        carriedOut.reads entry inEntries source files decision
      obtain rfl := Option.some.inj (isStage.symm.trans isReader)
      obtain ⟨-, ⟨loader, foundLoad, isLoad⟩, -⟩ := decide_eq_concatenate.mp isDecision.symm
      obtain rfl := Option.some.inj (foundLoad.symm.trans foundReading)
      cases isLoad.symm.trans isLoadToo
      exact notInserted _ inserted

theorem repairSides_of_skips {verdicts : List SideVerdict}
    (skips : ∀ verdict ∈ verdicts, ∃ reason, verdict.decision = .skip reason) :
    ∃ decisions, Pass.repairSides inserted verdicts current = .ok decisions current ∧
      decisions.filterMap Decision.inserted? = [] := by
  induction verdicts with
  | nil => exact ⟨[], rfl, rfl⟩
  | cons verdict rest ih =>
      obtain ⟨⟨reason, decision⟩, skipsRest⟩ := List.forall_mem_cons.mp skips
      obtain ⟨decisions, ran, noneInserted⟩ := ih skipsRest
      refine ⟨.joinRepair verdict.stage verdict.join verdict.side (.noOp reason) :: decisions, ?_,
        noneInserted⟩
      rw [Pass.repairSides, apply_of_skip decision]
      exact bind_eq_ok.mpr ⟨_, current, rfl, bind_eq_ok.mpr ⟨decisions, current, ran, rfl⟩⟩

/-- Where all flags are raised and every side is to be left alone, the pipeline changes
nothing. -/
theorem optimize_of_settled (built : graph.Built) (valid : ∃ count, graph.validate = .ok count)
    (raised : graph.AllRaised)
    (skips : ∀ verdict, graph.Decided config verdict → ∃ reason, verdict.decision = .skip reason) :
    ∃ report, optimize config graph = .ok report graph ∧ report.insertedStages = [] := by
  obtain ⟨order, ordered⟩ := exists_order_of_valid valid
  obtain ⟨flags, ran, noFlagInserted⟩ := accumulation_of_allRaised built valid raised
  obtain ⟨stages, verdicts, inOrder, decided, -, isVerdict⟩ :=
    exists_verdicts built ⟨order, ordered⟩ (not_malformed_of_valid valid)
  obtain ⟨decisions, repairedSides, noneInserted⟩ :
      ∃ decisions, Pass.repairSides [] verdicts.flatten graph = .ok decisions graph ∧
        decisions.filterMap Decision.inserted? = [] :=
    repairSides_of_skips fun verdict member => skips verdict ((isVerdict verdict).mp member)
  have repairRan : Pass.joinRepair.run config graph =
      .ok ⟨Pass.joinRepair.name, stages.length, decisions⟩ graph := by
    rw [run_joinRepair inOrder decided]
    exact bind_eq_ok.mpr ⟨decisions, graph, repairedSides, rfl⟩
  rw [optimize_of_order ordered, bind_apply, ran]
  refine ⟨_, bind_eq_ok.mpr ⟨_, graph, repairRan, rfl⟩, ?_⟩
  refine List.eq_nil_iff_forall_not_mem.mpr fun concatenate => ?_
  rw [mem_insertedStages noFlagInserted, noneInserted]
  exact List.not_mem_nil

theorem optimized_eq_ok {report : OptimizationReport} :
    graph.optimized catalog config = .ok (after, report) ↔
      ∃ annotated count, graph.annotateOutputFiles catalog config = .ok (annotated, count) ∧
        optimize config annotated = .ok report after := by
  rw [optimized, Results.bind_eq_ok, Prod.exists]
  refine exists₂_congr fun annotated count => and_congr_right fun _ => ?_
  simp only [EStateM.run]
  cases optimize config annotated with
  | ok found optimized => simp [and_comm]
  | error error left => simp [throw, throwThe, MonadExceptOf.throw]

/-- The pipeline is idempotent: on every valid graph, filling in file counts and then
optimizing succeeds, as long as identifiers do not run out.  A second round with the
same catalog and configuration fills in no count, inserts no stage and leaves the
graph equal to what it was. -/
theorem optimized_idempotent (built : graph.Built) (valid : ∃ count, graph.validate = .ok count)
    (catalog : String → Option UInt32) (config : EngineConfig)
    (room : ∀ annotated count, graph.annotateOutputFiles catalog config = .ok (annotated, count) →
      HasRoom (stateOf (optimize config annotated))) :
    ∃ report after, graph.optimized catalog config = .ok (after, report) ∧
      after.annotateOutputFiles catalog config = .ok (after, 0) ∧
      ∃ again, optimize config after = .ok again after ∧ again.insertedStages = [] ∧
        after.optimized catalog config = .ok (after, again) := by
  obtain ⟨annotated, count, filled, isAnnotated, estimated⟩ :=
    exists_annotated valid catalog config
  have builtAnnotated := isAnnotated.restaged.built built
  have validAnnotated := isAnnotated.restaged.valid built valid
  obtain ⟨report, flagging, inserted, after, ran, optimized⟩ :=
    exists_optimized builtAnnotated validAnnotated (room annotated count filled)
  have builtFlagging := optimized.built_flagging builtAnnotated
  have backedFlagging := optimized.backed_flagging builtAnnotated validAnnotated
  have builtAfter := optimized.built_after builtAnnotated validAnnotated
  have validAfter := optimized.valid_after builtAnnotated validAnnotated
  obtain ⟨outcome, repaired⟩ := optimized.repaired
  obtain ⟨entries, -, carriedOut, -⟩ := repaired.carriedOut
  have estimatedAfter (id : StageId) : after.Estimated catalog config id :=
    repaired.estimated builtFlagging backedFlagging carriedOut.counted
      fun id => optimized.flagged.estimated (estimated id)
  obtain ⟨exist, ranked, -⟩ := validate_eq_ok_iff.mp validAfter
  have unfilled : after.annotateOutputFiles catalog config = .ok (after, 0) :=
    annotateOutputFiles_of_estimated (exists_order_iff.mpr ⟨exist, ranked⟩) estimatedAfter
  obtain ⟨again, ranAgain, noneInserted⟩ := optimize_of_settled builtAfter validAfter
    (repaired.allRaised optimized.raised) fun verdict decided => repaired.skips decided
  exact ⟨report, after, optimized_eq_ok.mpr ⟨annotated, count, filled, ran⟩, unfilled, again,
    ranAgain, noneInserted, optimized_eq_ok.mpr ⟨after, 0, unfilled, ranAgain⟩⟩

/-- The graph of the two stages before the regions are known to be three files. -/
def uncountedGraph : StageGraph :=
  salesGraph.modifyStage ⟨0⟩ (·.withOutputFiles .unknown)

/-- A catalog that knows the regions only. -/
def regionsCatalog (path : String) : Option UInt32 :=
  if path = "regions" then some 3 else none

theorem annotated_uncountedGraph : salesGraph.Annotated uncountedGraph :=
  (Annotated.refl salesGraph).modifyStage ⟨0⟩ .unknown

theorem annotateOutputFiles_uncountedGraph :
    uncountedGraph.annotateOutputFiles regionsCatalog repairing = .ok (salesGraph, 1) := by
  have ordered : uncountedGraph.order = .ok [⟨0⟩, ⟨1⟩] := by cbv
  exact annotateOutputFiles_eq_ok.mpr ⟨_, ordered, rfl⟩

theorem optimized_idempotent_uncountedGraph :
    uncountedGraph.Built ∧ (∃ count, uncountedGraph.validate = .ok count) ∧
      uncountedGraph.annotateOutputFiles regionsCatalog repairing = .ok (salesGraph, 1) ∧
      HasRoom (stateOf (optimize repairing salesGraph)) ∧
      ∃ report after, uncountedGraph.optimized regionsCatalog repairing = .ok (after, report) ∧
        after.stageIds = [⟨0⟩, ⟨1⟩, ⟨2⟩] ∧
        after.annotateOutputFiles regionsCatalog repairing = .ok (after, 0) ∧
        ∃ again, optimize repairing after = .ok again after ∧ again.insertedStages = [] := by
  have built := annotated_uncountedGraph.restaged.built built_salesGraph
  have valid := annotated_uncountedGraph.restaged.valid built_salesGraph valid_salesGraph
  have room : ∀ annotated count,
      uncountedGraph.annotateOutputFiles regionsCatalog repairing = .ok (annotated, count) →
        HasRoom (stateOf (optimize repairing annotated)) := by
    intro annotated count filled
    rw [annotateOutputFiles_uncountedGraph] at filled
    cases filled
    exact hasRoom_optimize_salesGraph
  obtain ⟨report, after, ran, unfilled, again, ranAgain, noneInserted, -⟩ :=
    optimized_idempotent built valid regionsCatalog repairing room
  have ids : after.stageIds = [⟨0⟩, ⟨1⟩, ⟨2⟩] := by
    obtain ⟨annotated, count, filled, optimizes⟩ := optimized_eq_ok.mp ran
    rw [annotateOutputFiles_uncountedGraph] at filled
    cases filled
    rw [← stageIds_optimize_salesGraph, optimizes]
    rfl
  exact ⟨built, valid, annotateOutputFiles_uncountedGraph, hasRoom_optimize_salesGraph, report,
    after, ran, ids, unfilled, again, ranAgain, noneInserted⟩

end StageGraph

end BatchFlow
