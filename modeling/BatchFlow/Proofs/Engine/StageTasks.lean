import BatchFlow.Proofs.Engine.ReduceTasks

/-!
# The tasks of a stage as a whole

What all tasks of a stage do together is described without splits and reducers:
one map task reads all loads in full, unless there is no file to split, and one
reduce task is given all groups.
-/

namespace BatchFlow

open Results

namespace Stage

variable {stage : Stage} {graph : StageGraph} {config : EngineConfig} {store : FileStore}

/-- What a successful run of all tasks consists of. -/
theorem runTasks_eq_ok {tasks : StageTasks} :
    stage.runTasks graph config store = .ok tasks ↔
      stage.plan.phases = .ok tasks.phases ∧
        (∃ input, stage.input graph config store = .ok input ∧
          input.broadcastFiles = tasks.broadcastFiles) ∧
        (stage.allSplits graph config store).mapM (stage.runSplit tasks.phases store
          (stage.rowsOfLoads graph store stage.replicates)) = .ok tasks.mapOutputs ∧
        (tasks.phases.reduce = [] → tasks.reduceOutputs = []) ∧
        (tasks.phases.reduce ≠ [] → ∃ dealt,
          stage.shuffle (stage.reduceTasks config).toNat tasks.mapOutputs = .ok dealt ∧
            (dealt.mapM fun groups => stage.plan.runReduceTask tasks.phases groups
              (stage.rowsOfLoads graph store stage.replicates)) = .ok tasks.reduceOutputs) := by
  constructor
  · intro run
    obtain ⟨phases, split, run⟩ := bind_eq_ok.mp run
    obtain ⟨input, isInput, run⟩ := bind_eq_ok.mp run
    obtain ⟨mapOutputs, mapped, run⟩ := bind_eq_ok.mp run
    obtain ⟨-, broadcast, splits⟩ := input_parts isInput
    rw [broadcast, splits] at mapped
    rw [broadcast] at run
    split at run
    case isTrue none =>
      obtain rfl := pure_eq_ok.mp run
      exact ⟨split, ⟨input, isInput, rfl⟩, mapped, fun _ => rfl,
        fun some => absurd (List.isEmpty_iff.mp none) some⟩
    case isFalse some =>
      obtain ⟨dealt, shuffled, run⟩ := bind_eq_ok.mp run
      obtain ⟨reduceOutputs, reduced, run⟩ := bind_eq_ok.mp run
      obtain rfl := pure_eq_ok.mp run
      exact ⟨split, ⟨input, isInput, rfl⟩, mapped,
        fun none => absurd (List.isEmpty_iff.mpr none) some, fun _ => ⟨dealt, shuffled, reduced⟩⟩
  · rintro ⟨split, ⟨input, isInput, files⟩, mapped, unreduced, reduced⟩
    obtain ⟨-, broadcast, splits⟩ := input_parts isInput
    refine bind_eq_ok.mpr ⟨_, split, bind_eq_ok.mpr ⟨input, isInput, bind_eq_ok.mpr
      ⟨tasks.mapOutputs, by rw [broadcast, splits]; exact mapped, ?_⟩⟩⟩
    rw [broadcast, files]
    split
    case isTrue none =>
      refine pure_eq_ok.mpr ?_
      rw [← unreduced (List.isEmpty_iff.mp none)]
    case isFalse some =>
      obtain ⟨dealt, shuffled, ran⟩ := reduced (mt List.isEmpty_iff.mpr some)
      exact bind_eq_ok.mpr ⟨dealt, shuffled, bind_eq_ok.mpr ⟨_, ran, rfl⟩⟩

theorem resolves_of_runTasks {tasks : StageTasks}
    (run : stage.runTasks graph config store = .ok tasks) :
    ∀ operator ∈ stage.plan.operators, graph.Resolves operator := by
  obtain ⟨-, ⟨input, isInput, -⟩, -⟩ := runTasks_eq_ok.mp run
  exact (input_parts isInput).1

/-- Some load that is not replicated has a file. -/
def HasFiles (stage : Stage) (graph : StageGraph) (store : FileStore) : Prop :=
  ∃ operator ∈ stage.plan.operators, stage.spreads operator = true ∧
    graph.loadedFiles store operator ≠ []

theorem allSplits_ne_nil_iff (ordinary : stage.kind = .ordinary) :
    stage.allSplits graph config store ≠ [] ↔ stage.HasFiles graph store := by
  rw [ne_eq, allSplits_eq_nil_iff ordinary, HasFiles]
  simp only [not_forall, exists_prop]

/-- The keyed rows that the map phase sends to a grouping operator. -/
def keyedOf (stage : Stage) (map : Option TaskState) (package : OpId) : List Row :=
  (map.bind fun final => (stage.plan.shuffleOf final.rows).get? package).getD []

/-- What the tasks of a stage compute, however many there are and if no sort stops them: the
last states of a map task over all loads and of a reduce task over all groups, where
there are such tasks. -/
structure Yields (stage : Stage) (graph : StageGraph) (store : FileStore) (phases : Phases)
    (map reduce : Option TaskState) : Prop where
  split : stage.plan.phases = .ok phases
  resolves : ∀ operator ∈ stage.plan.operators, graph.Resolves operator
  idle : ¬ stage.HasFiles graph store → map = none
  mapped : stage.HasFiles graph store → ∃ final,
    phases.map.foldlM (Share.proceed stage.plan) (stage.wholeMapTask graph store) = .ok final ∧
      map = some final.state
  unreduced : phases.reduce = [] → reduce = none
  grouped : phases.reduce ≠ [] → ∀ package ∈ stage.plan.packages, ∃ groups,
    Groups.ofKeyedRows (stage.keyedOf map package) = .ok groups
  reduced : phases.reduce ≠ [] → ∃ final,
    phases.reduce.foldlM (Share.proceed stage.plan)
      (stage.wholeReduceTask graph store (stage.keyedOf map)) = .ok final ∧
        reduce = some final.state

/-- The rows stored by a task, if there is one. -/
def storedBy (final : Option TaskState) (target : String) : List Row :=
  (final.bind fun state => state.stores.get? target).getD []

theorem dealtTo_congr {first second : OpId → List Row} {reducers : Nat}
    (same : ∀ package ∈ stage.plan.packages, first package = second package) :
    stage.dealtTo first reducers = stage.dealtTo second reducers := by
  funext reducer
  rw [dealtTo, dealtTo]
  refine congrArg OrderedMap.ofList (List.map_congr_left fun package member => ?_)
  rw [same package member]

section Ordinary

variable (ordinary : stage.kind = .ordinary) (wellFormed : stage.plan.WellFormed)
  (divisible : stage.plan.Divisible)

include ordinary wellFormed divisible

/-- What the tasks of a stage that succeeds compute. -/
theorem yields_of_runTasks {tasks : StageTasks}
    (run : stage.runTasks graph config store = .ok tasks) :
    ∃ map reduce, stage.Yields graph store tasks.phases map reduce ∧
      (∀ target, (TaskOutput.stored tasks.mapOutputs target).Perm (storedBy map target)) ∧
      (∀ target, (TaskOutput.stored tasks.reduceOutputs target).Perm (storedBy reduce target)) := by
  obtain ⟨split, -, mapped, unreduced, reduced⟩ := runTasks_eq_ok.mp run
  have resolves := resolves_of_runTasks run
  have mapState : ∃ map : Option TaskState,
      (¬ stage.HasFiles graph store → map = none) ∧
      (stage.HasFiles graph store → ∃ final,
        tasks.phases.map.foldlM (Share.proceed stage.plan) (stage.wholeMapTask graph store) =
          .ok final ∧ map = some final.state) ∧
      (∀ target, (TaskOutput.stored tasks.mapOutputs target).Perm (storedBy map target)) ∧
      (∀ package ∈ stage.plan.packages,
        TaskOutput.keyed tasks.mapOutputs package = stage.keyedOf map package) := by
    by_cases hasFiles : stage.HasFiles graph store
    · obtain ⟨final, finished, mapsTo⟩ := (mapM_runSplit_iff_whole wellFormed divisible split
        ((allSplits_ne_nil_iff ordinary).mpr hasFiles)).1 _ mapped
      exact ⟨some final.state, fun none => absurd hasFiles none, fun _ => ⟨final, finished, rfl⟩,
        mapsTo.stored, mapsTo.keyed⟩
    · have noSplits : stage.allSplits graph config store = [] :=
        not_not.mp (mt (allSplits_ne_nil_iff ordinary).mp hasFiles)
      rw [noSplits, List.mapM_nil, pure_eq_ok] at mapped
      rw [← mapped]
      exact ⟨none, fun _ => rfl, fun some => absurd some hasFiles, fun _ => .refl _,
        fun _ _ => rfl⟩
  obtain ⟨map, idle, mappedFinal, storedMap, keyed⟩ := mapState
  by_cases noReduce : tasks.phases.reduce = []
  · refine ⟨map, none, ⟨split, resolves, idle, mappedFinal, fun _ => rfl,
      fun some => absurd noReduce some, fun some => absurd noReduce some⟩, storedMap, ?_⟩
    rw [unreduced noReduce]
    exact fun _ => .refl _
  · obtain ⟨dealt, shuffled, reducersRan⟩ := reduced noReduce
    obtain ⟨grouped, rfl⟩ := shuffle_eq_ok.mp shuffled
    rw [dealtTo_congr keyed] at reducersRan
    obtain ⟨final, finished, storedReduce⟩ :=
      (mapM_runReduceTask_iff_whole wellFormed divisible split _ _).1 _ reducersRan
    refine ⟨map, some final.state, ⟨split, resolves, idle, mappedFinal,
      fun none => absurd none noReduce, fun _ package member => ?_,
      fun _ => ⟨final, finished, rfl⟩⟩, storedMap, storedReduce⟩
    rw [← keyed package member]
    exact grouped package member

/-- The tasks of a stage succeed if the stage computes something, unless a sort stops one of
them. -/
theorem runTasks_of_yields {phases : Phases} {map reduce : Option TaskState}
    (yields : stage.Yields graph store phases map reduce) :
    ∃ tasks, OkUnless RunError.IsStop (stage.runTasks graph config store) tasks := by
  obtain ⟨input, isInput⟩ : ∃ input, stage.input graph config store = .ok input :=
    ⟨_, input_eq_ok.mpr ⟨yields.resolves, rfl⟩⟩
  obtain ⟨-, broadcast, splits⟩ := input_parts isInput
  have mapOutputs : ∃ outputs, OkUnless RunError.IsStop
      ((stage.allSplits graph config store).mapM (stage.runSplit phases store
        (stage.rowsOfLoads graph store stage.replicates))) outputs ∧
      ∀ package ∈ stage.plan.packages,
        TaskOutput.keyed outputs package = stage.keyedOf map package := by
    by_cases hasFiles : stage.HasFiles graph store
    · obtain ⟨final, finished, rfl⟩ := yields.mapped hasFiles
      obtain ⟨outputs, ran, mapsTo⟩ := (mapM_runSplit_iff_whole wellFormed divisible yields.split
        ((allSplits_ne_nil_iff ordinary).mpr hasFiles)).2 final finished
      exact ⟨outputs, ran, mapsTo.keyed⟩
    · have noSplits : stage.allSplits graph config store = [] :=
        not_not.mp (mt (allSplits_ne_nil_iff ordinary).mp hasFiles)
      rw [noSplits, yields.idle hasFiles]
      exact ⟨[], .inl rfl, fun _ _ => rfl⟩
  obtain ⟨outputs, ran, keyed⟩ := mapOutputs
  rw [← broadcast, ← splits] at ran
  by_cases noReduce : phases.reduce = []
  · refine ⟨⟨phases, input.broadcastFiles, outputs, []⟩,
      .bind (.inl yields.split) (.bind (.inl isInput) (.bind ran ?_))⟩
    rw [noReduce]
    exact .inl rfl
  · obtain ⟨final, finished, -⟩ := yields.reduced noReduce
    obtain ⟨reduceOutputs, reducersRan⟩ := (mapM_runReduceTask_iff_whole wellFormed divisible
      yields.split _ (stage.reduceTasks config).toNat).2 final finished
    rw [← dealtTo_congr keyed, ← broadcast] at reducersRan
    have shuffled : stage.shuffle (stage.reduceTasks config).toNat outputs =
        .ok ((List.range (max (stage.reduceTasks config).toNat 1)).map
          (stage.dealtTo (TaskOutput.keyed outputs) (stage.reduceTasks config).toNat)) := by
      refine shuffle_eq_ok.mpr ⟨fun package member => ?_, rfl⟩
      rw [keyed package member]
      exact yields.grouped noReduce package member
    refine ⟨⟨phases, input.broadcastFiles, outputs, reduceOutputs⟩,
      .bind (.inl yields.split) (.bind (.inl isInput) (.bind ran ?_))⟩
    rw [if_neg (mt List.isEmpty_iff.mp noReduce)]
    exact .bind (.inl shuffled) (.bind reducersRan (.inl rfl))

end Ordinary

end Stage

end BatchFlow
