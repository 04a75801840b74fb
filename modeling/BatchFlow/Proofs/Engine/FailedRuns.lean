import BatchFlow.Proofs.Engine.ExecutedJobs

/-!
# Runs that fail

A stage reads, maps, shuffles and reduces before it clears or writes anything,
and nothing that comes after its tasks can fail.  A failing run therefore leaves
what the jobs executed before the failing stage have written, and no more.
-/

namespace BatchFlow

open ReadyQueue Steps

namespace StageGraph

variable {graph : StageGraph} {config : EngineConfig} {store after : FileStore} {error : RunError}

/-- The stages of a queue stop at the first one that fails, after those taken before it. -/
theorem runReady_eq_error {fuel : Nat} {queue : ReadyQueue} {jobs : List Job}
    (exist : ∀ id ∈ (queue.drain fuel).1, id ∈ graph.stageIds) :
    graph.runReady config fuel queue jobs store = .error error after ↔
      ∃ executed failing rest stage,
        (queue.drain fuel).1 = executed.map Job.stage ++ failing :: rest ∧
          graph.Executed config jobs.length executed store after ∧
            graph.stage? failing = some stage ∧
              stage.run graph config after = .error error after := by
  induction fuel generalizing queue jobs store with
  | zero =>
      rw [runReady, drain]
      constructor
      · intro failed
        cases failed
      · rintro ⟨executed, failing, rest, stage, order, -⟩
        simp at order
  | succ fuel ih =>
      cases isReady : queue.ready with
      | nil =>
          rw [drain_of_stuck _ isReady, runReady_of_stuck isReady]
          constructor
          · intro failed
            cases failed
          · rintro ⟨executed, failing, rest, stage, order, -⟩
            simp at order
      | cons next rest =>
          rw [drain_of_ready _ isReady] at exist ⊢
          obtain ⟨isStage, restExist⟩ := List.forall_mem_cons.mp exist
          obtain ⟨stage, found⟩ := mem_stageIds.mp isStage
          rw [runReady_of_ready isReady found, bind_eq_error]
          constructor
          · rintro (failed | ⟨stats, between, stageRan, restFailed⟩)
            · obtain ⟨-, rfl⟩ := Stage.run_eq_error.mp failed
              exact ⟨[], next, _, stage, rfl, rfl, found, failed⟩
            · obtain ⟨executed, failing, others, failingStage, order, inOrder, atFailing⟩ :=
                (ih restExist).mp restFailed
              refine ⟨⟨⟨UInt64.ofNat jobs.length⟩, next, stage.kind, stats⟩ :: executed, failing,
                others, failingStage, ?_, ?_, atFailing⟩
              · rw [List.map_cons, List.cons_append, order]
              · exact ⟨rfl, stage, between, found, rfl, stageRan, inOrder⟩
          · rintro ⟨executed, failing, others, failingStage, order, inOrder, foundFailing, failed⟩
            cases executed with
            | nil =>
                -- The next stage is the one that fails.
                obtain ⟨rfl, -⟩ := List.cons.inj order
                obtain rfl := Option.some.inj (found.symm.trans foundFailing)
                obtain rfl : store = after := inOrder
                exact .inl failed
            | cons job executed =>
                obtain ⟨rfl, restOrder⟩ := List.cons.inj order
                obtain ⟨isId, jobStage, between, foundJob, kind, stageRan, inOrder⟩ := inOrder
                obtain rfl := Option.some.inj (found.symm.trans foundJob)
                refine .inr ⟨job.stats, between, stageRan, (ih restExist).mpr ?_⟩
                exact ⟨executed, failing, others, failingStage, restOrder, inOrder, foundFailing,
                  failed⟩

/-- A stage that fails leaves the store as it was, and it fails only before it writes.  A run of
a valid graph that fails leaves what the jobs of the stages released before the failing one have
written, each on what the one before it left. -/
theorem run_stops_at_failing_stage (valid : ∃ count, graph.validate = .ok count)
    (config : EngineConfig) (store : FileStore) :
    (∀ id stage, graph.stage? id = some stage → ∀ before error after,
      stage.run graph config before = .error error after ↔
        stage.runTasks graph config before = .error error ∧ after = before) ∧
    ∀ error after, graph.run config store = .error error after ↔
      ∃ executed failing rest stage,
        releaseOrder graph = executed.map Job.stage ++ failing :: rest ∧
          graph.Executed config 0 executed store after ∧
            graph.stage? failing = some stage ∧
              stage.run graph config after = .error error after := by
  refine ⟨fun _ _ _ _ _ _ => Stage.run_eq_error, fun error after => ?_⟩
  obtain ⟨exist, ⟨rank, ranked⟩, -⟩ := validate_eq_ok_iff.mp valid
  obtain ⟨covers, -, -⟩ := releaseOrder_covers ranked exist
  have isStage (id : StageId) (released : id ∈ releaseOrder graph) : id ∈ graph.stageIds :=
    covers.mem_iff.mp released
  rw [run_eq_error valid]
  exact runReady_eq_error isStage

/-- A plan that keys the rows of a stage by a column that they do not have. -/
def missingColumn : SubPlan :=
  ((SubPlan.empty.insert ⟨⟨0⟩, .load (.stage ⟨0⟩), []⟩).insert
    ⟨⟨1⟩, .rearrange 9, [⟨0⟩]⟩).insert
    ⟨⟨2⟩, .store "keyed", [⟨1⟩]⟩

/-- A graph that copies the regions and fails on the copy. -/
def failingChain : StageGraph :=
  ⟨(OrderedMap.insert ∅ ⟨0⟩ ⟨⟨0⟩, .ordinary, copyPlan (.dataset "regions") "out", {}⟩).insert
    ⟨1⟩ ⟨⟨1⟩, .ordinary, missingColumn, {}⟩, OrderedSet.insert ∅ ⟨⟨0⟩, ⟨1⟩⟩, 2⟩

/-- The copy stays, and the stage that fails on it stores nothing. -/
theorem run_stops_at_failing_stage_failingChain :
    failingChain.validate = .ok 2 ∧
      failingChain.run {} Stage.salesStore = .error (.operator (.columnOutOfRange 9 2))
        (Stage.salesStore.replaceAll [("out", [Stage.regionRows])]) := by
  have order : failingChain.order = .ok [⟨0⟩, ⟨1⟩] := by cbv
  have valid : failingChain.validate = .ok 2 := by
    rw [validate, order]
    rfl
  have copied : Stage.runTasks ⟨⟨0⟩, .ordinary, copyPlan (.dataset "regions") "out", {}⟩
      failingChain {} Stage.salesStore = .ok (copyTasks "out" Stage.regionRows) := by
    rw [Stage.runTasks, phases_copyPlan]
    rfl
  obtain ⟨stats, ran⟩ : ∃ stats,
      Stage.run ⟨⟨0⟩, .ordinary, copyPlan (.dataset "regions") "out", {}⟩ failingChain {}
        Stage.salesStore = .ok stats (Stage.salesStore.replaceAll [("out", [Stage.regionRows])]) :=
    ⟨_, Stage.run_eq_ok.mpr ⟨_, copied, rfl, by rw [writes_copyTasks]⟩⟩
  have phasesAre : missingColumn.phases = .ok ⟨[⟨0⟩, ⟨1⟩, ⟨2⟩], []⟩ := by cbv
  have failed : Stage.runTasks ⟨⟨1⟩, .ordinary, missingColumn, {}⟩ failingChain {}
      (Stage.salesStore.replaceAll [("out", [Stage.regionRows])]) =
        .error (.operator (.columnOutOfRange 9 2)) := by
    rw [Stage.runTasks, phasesAre]
    rfl
  obtain ⟨atStage, atRun⟩ := run_stops_at_failing_stage ⟨2, valid⟩ {} Stage.salesStore
  refine ⟨valid, (atRun _ _).mpr ?_⟩
  have executed : failingChain.Executed {} 0 [⟨⟨0⟩, ⟨0⟩, .ordinary, stats⟩] Stage.salesStore
      (Stage.salesStore.replaceAll [("out", [Stage.regionRows])]) :=
    ⟨rfl, _, _, rfl, rfl, ran, rfl⟩
  exact ⟨[⟨⟨0⟩, ⟨0⟩, .ordinary, stats⟩], ⟨1⟩, [], ⟨⟨1⟩, .ordinary, missingColumn, {}⟩, rfl,
    executed, rfl, (atStage ⟨1⟩ _ rfl _ _ _).mpr ⟨failed, rfl⟩⟩

end StageGraph

end BatchFlow
