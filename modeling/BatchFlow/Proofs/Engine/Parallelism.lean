import BatchFlow.Proofs.Engine.SameWork
import BatchFlow.Proofs.Engine.StoppedRuns
import Mathlib.Data.List.Permutation

/-!
# Rows do not depend on parallelism

Two runs of an ordinary stage that differ in the configuration of the engine and
in the parallelism asked for cut the work into different tasks.  If the plan of
the stage is divisible and no sort stops a task, they succeed or fail together, and
every target holds the same rows, up to their order.  A sort of ambiguous values may
stop one run and not the other.
-/

namespace BatchFlow

open FileStore Results

/-- The operation without the parallelism of a grouping operator. -/
def Operation.withoutParallelism : Operation → Operation
  | .package _ accumulative => .package none accumulative
  | operation => operation

theorem Operation.core_withoutParallelism (operation : Operation) :
    operation.withoutParallelism.core = operation.core := by
  cases operation <;> rfl

theorem Operation.load_of_withoutParallelism {operation other : Operation} {source : LoadSource}
    (same : operation.withoutParallelism = other.withoutParallelism)
    (isLoad : operation = .load source) : other = .load source := by
  subst isLoad
  cases other <;> simp_all [withoutParallelism]

@[simp]
theorem Operation.target?_withoutParallelism (operation : Operation) :
    operation.withoutParallelism.target? = operation.target? := by
  cases operation <;> rfl

namespace SubPlan

variable {plan : SubPlan}

/-- No two stores have equal or nested targets. -/
def SeparateTargets (plan : SubPlan) : Prop :=
  plan.targets.Pairwise Apart

instance (plan : SubPlan) : Decidable plan.SeparateTargets :=
  inferInstanceAs (Decidable (List.Pairwise _ _))

end SubPlan

namespace Stage

/-- The stage without the parallelism asked for by it and its grouping operators. -/
def withoutParallelism (stage : Stage) : Stage :=
  { stage with
    plan := stage.plan.relabel Operation.withoutParallelism
    info := { stage.info with parallelism := none } }

theorem kind_withoutParallelism (stage : Stage) : stage.withoutParallelism.kind = stage.kind :=
  rfl

theorem core_withoutParallelism (stage : Stage) :
    stage.withoutParallelism.plan.core = stage.plan.core := by
  rw [withoutParallelism, SubPlan.core, SubPlan.relabel_relabel, SubPlan.core]
  exact congrArg (stage.plan.relabel ·) (funext Operation.core_withoutParallelism)

end Stage

namespace StageGraph

variable {graph graph' : StageGraph}

/-- The stages of both graphs agree but for the parallelism asked for. -/
def SameButParallelism (graph graph' : StageGraph) : Prop :=
  ∀ id, (graph.stage? id).map Stage.withoutParallelism =
    (graph'.stage? id).map Stage.withoutParallelism

theorem SameButParallelism.symm (same : graph.SameButParallelism graph') :
    graph'.SameButParallelism graph :=
  fun id => (same id).symm

theorem SameButParallelism.directoryOf (same : graph.SameButParallelism graph')
    (source : LoadSource) : graph.directoryOf source = graph'.directoryOf source := by
  cases source with
  | dataset path => rfl
  | stage id =>
      have sameTarget (stage : Stage) :
          stage.withoutParallelism.plan.storeTarget? = stage.plan.storeTarget? :=
        stage.plan.storeTarget?_relabel _ Operation.target?_withoutParallelism
      have sameStage := same id
      rw [StageGraph.directoryOf, StageGraph.directoryOf]
      cases found : graph.stage? id with
      | none =>
          rw [found, Option.map_none, eq_comm, Option.map_eq_none_iff] at sameStage
          rw [sameStage]
      | some stage =>
          rw [found, Option.map_some, eq_comm, Option.map_eq_some_iff] at sameStage
          obtain ⟨other, foundOther, sameStage⟩ := sameStage
          simp only [foundOther]
          rw [← sameTarget stage, ← sameStage, sameTarget other]

end StageGraph

namespace Stage

variable {first second : Stage} {graph graph' : StageGraph} {config config' : EngineConfig}
  {store after : FileStore} {stats : JobStats}

/-- Stages that differ in parallelism only have the same work. -/
theorem sameWork_of_withoutParallelism
    (sameStage : first.withoutParallelism = second.withoutParallelism)
    (sameGraph : graph.SameButParallelism graph') : SameWork first second graph graph' store where
  core := by
    rw [← first.core_withoutParallelism, sameStage, second.core_withoutParallelism]
  loads := by
    have samePlan := congrArg Stage.plan sameStage
    refine (SubPlan.forall₂_of_relabel samePlan).imp fun operator other same => ?_
    have sameOperation := congrArg Operator.operation same
    have alike : SubPlan.Interchangeable operator other := by
      have sameCore := congrArg (Operator.relabel Operation.core) same
      simpa only [SubPlan.Interchangeable, Operator.relabel, Operation.core_withoutParallelism]
        using sameCore
    refine ⟨alike, ?_, ?_⟩
    · rw [StageGraph.Resolves, StageGraph.Resolves]
      refine forall_congr' fun source => imp_congr ⟨?_, ?_⟩ ?_
      · exact Operation.load_of_withoutParallelism sameOperation
      · exact Operation.load_of_withoutParallelism sameOperation.symm
      · rw [sameGraph.directoryOf]
    · cases kind : operator.operation.isLoad with
      | false =>
          rw [StageGraph.loadedFiles_of_not_load kind,
            StageGraph.loadedFiles_of_not_load (alike.isLoad ▸ kind)]
      | true =>
          obtain ⟨source, isLoad⟩ := Operation.isLoad_iff.mp kind
          have otherIsLoad := Operation.load_of_withoutParallelism sameOperation isLoad
          simp only [StageGraph.loadedFiles, isLoad, otherIsLoad, sameGraph.directoryOf source]

/-- An ordinary stage whose plan is divisible and has stores that do not disturb
each other. -/
structure Divisible (stage : Stage) : Prop where
  ordinary : stage.kind = .ordinary
  wellFormed : stage.plan.WellFormed
  plan : stage.plan.Divisible
  separate : stage.plan.SeparateTargets

theorem Divisible.of_core (divisible : first.Divisible) (sameKind : first.kind = second.kind)
    (sameCore : first.plan.core = second.plan.core) : second.Divisible where
  ordinary := sameKind ▸ divisible.ordinary
  wellFormed := by
    rw [← SubPlan.wellFormed_core, ← sameCore, SubPlan.wellFormed_core]
    exact divisible.wellFormed
  plan := by
    rw [← SubPlan.divisible_core, ← sameCore, SubPlan.divisible_core]
    exact divisible.plan
  separate := by
    rw [SubPlan.SeparateTargets, ← SubPlan.targets_core, ← sameCore, SubPlan.targets_core]
    exact divisible.separate

/-- The rows that a stage stores are those its tasks compute, in some order. -/
theorem Divisible.yields_of_run (divisible : first.Divisible)
    (ran : first.run graph config store = .ok stats after) :
    ∃ phases map reduce, first.Yields graph store phases map reduce ∧
      ∀ operator ∈ first.plan.operators, ∀ target, operator.operation = .store target →
        (after.rowsOf target).Perm
          (storedBy (if phases.reduce.contains operator.id then reduce else map) target) := by
  obtain ⟨tasks, tasksRan, -, rfl⟩ := run_eq_ok.mp ran
  obtain ⟨map, reduce, yields, storedMap, storedReduce⟩ :=
    yields_of_runTasks divisible.ordinary divisible.wellFormed divisible.plan tasksRan
  refine ⟨tasks.phases, map, reduce, yields, fun operator inPlan target isStore => ?_⟩
  have separate : ((tasks.writes first.plan).map Prod.fst).Pairwise Apart := by
    rw [tasks.map_fst_writes]
    exact divisible.separate
  have inParts : ((store.replaceAll (tasks.writes first.plan)).rowsOf target).Perm
      (tasks.partsOf operator.id target).flatten :=
    rowsOf_replaceAll separate (tasks.mem_writes inPlan isStore)
  rw [tasks.flatten_partsOf] at inParts
  refine inParts.trans ?_
  split
  · exact storedReduce target
  · exact storedMap target

theorem exists_run_of_isOk (succeeds : (first.runTasks graph config store).isOk = true) :
    ∃ stats after, first.run graph config store = .ok stats after := by
  obtain ⟨tasks, tasksRan⟩ := exists_of_isOk succeeds
  exact ⟨_, _, run_eq_ok.mpr ⟨tasks, tasksRan, rfl, rfl⟩⟩

variable (divisible : first.Divisible) (same : SameWork first second graph graph' store)

include divisible same

/-- If one of two runs with the same work succeeds, the other does, unless a sort stops it. -/
theorem Divisible.run_of_sameWork (sameKind : first.kind = second.kind)
    (ran : first.run graph config store = .ok stats after)
    (unstopped : ∀ values, ¬ second.StopsOver graph' config' store values) :
    ∃ stats' after', second.run graph' config' store = .ok stats' after' := by
  obtain ⟨phases, map, reduce, yields, -⟩ := divisible.yields_of_run ran
  have alsoDivisible := divisible.of_core sameKind same.core
  have tasksRun : ∃ tasks,
      OkUnless RunError.IsStop (second.runTasks graph' config' store) tasks :=
    runTasks_of_yields alsoDivisible.ordinary alsoDivisible.wellFormed alsoDivisible.plan
      (same.yields yields)
  obtain ⟨tasks, tasksRan | ⟨_, ⟨values, rfl⟩, stopped⟩⟩ := tasksRun
  · exact ⟨_, _, run_eq_ok.mpr ⟨tasks, tasksRan, rfl, rfl⟩⟩
  · exact absurd ⟨store, by rw [run_apply, stopped]⟩ (unstopped values)

/-- Two runs with the same work store the same rows. -/
theorem Divisible.rowsOf_perm (sameKind : first.kind = second.kind) {stats' : JobStats}
    {after' : FileStore} (ran : first.run graph config store = .ok stats after)
    (alsoRan : second.run graph' config' store = .ok stats' after') {target : String}
    (isTarget : target ∈ first.plan.targets) :
    (after.rowsOf target).Perm (after'.rowsOf target) := by
  obtain ⟨phases, map, reduce, yields, stored⟩ := divisible.yields_of_run ran
  obtain ⟨phases', map', reduce', yields', stored'⟩ :=
    (divisible.of_core sameKind same.core).yields_of_run alsoRan
  obtain rfl : phases = phases' :=
    Except.ok.inj ((same.yields yields).split.symm.trans yields'.split)
  obtain ⟨rfl, rfl⟩ := (same.yields yields).unique yields'
  obtain ⟨operator, inPlan, isStore⟩ := SubPlan.mem_targets.mp isTarget
  obtain ⟨other, inOther, alike, -⟩ := exists_mem_of_forall₂ same.loads inPlan
  have otherIsStore : other.operation = .store target := by
    have sameTarget := alike.target?
    rw [isStore, eq_comm] at sameTarget
    exact Operation.target?_eq_some.mp sameTarget
  have first := stored operator inPlan target isStore
  have second := stored' other inOther target otherIsStore
  rw [alike.id] at first
  exact first.trans second.symm

end Stage

namespace Stage

/-- The rows of a stage do not depend on how its work is cut into tasks.  Two runs that
differ in the configuration and in parallelism only succeed or fail together if no sort
stops one of them, and a sort stops a run over ambiguous values only.  If both succeed,
they leave the same rows under every target. -/
theorem rows_independent_of_parallelism {first second : Stage} {graph graph' : StageGraph}
    (config config' : EngineConfig) (store : FileStore) (ordinary : first.kind = .ordinary)
    (ownIds : first.plan.OwnIds) (valid : first.plan.validate = .ok ())
    (divisible : first.plan.Divisible) (separate : first.plan.SeparateTargets)
    (sameStage : first.withoutParallelism = second.withoutParallelism)
    (sameGraph : graph.SameButParallelism graph') :
    ((∀ values, ¬ first.StopsOver graph config store values ∧
        ¬ second.StopsOver graph' config' store values) →
      ((∃ stats after, first.run graph config store = .ok stats after) ↔
        ∃ stats after, second.run graph' config' store = .ok stats after)) ∧
    (∀ values, first.StopsOver graph config store values ∨
        second.StopsOver graph' config' store values → ¬ Scalar.UnambiguousAmong values) ∧
    ∀ stats after stats' after', first.run graph config store = .ok stats after →
      second.run graph' config' store = .ok stats' after' →
        ∀ target ∈ first.plan.targets, ∃ rows rows', after.readDirectory target = .ok rows ∧
          after'.readDirectory target = .ok rows' ∧ rows.Perm rows' := by
  have firstDivisible : first.Divisible := ⟨ordinary, ownIds.wellFormed valid, divisible, separate⟩
  have same : SameWork first second graph graph' store :=
    sameWork_of_withoutParallelism sameStage sameGraph
  have sameKind : first.kind = second.kind := by
    rw [← first.kind_withoutParallelism, sameStage, second.kind_withoutParallelism]
  have secondDivisible := firstDivisible.of_core sameKind same.core
  refine ⟨fun unstopped => ⟨?_, ?_⟩, ?_, ?_⟩
  · rintro ⟨stats, after, ran⟩
    exact firstDivisible.run_of_sameWork same sameKind ran fun values => (unstopped values).2
  · rintro ⟨stats, after, ran⟩
    exact secondDivisible.run_of_sameWork same.symm sameKind.symm ran fun values =>
      (unstopped values).1
  · rintro values (stops | stops)
    · exact stops.ambiguous
    · exact stops.ambiguous
  · intro stats after stats' after' ran alsoRan target isTarget
    exact ⟨_, _, readDirectory_eq_ok .., readDirectory_eq_ok ..,
      firstDivisible.rowsOf_perm same sameKind ran alsoRan isTarget⟩

/-- A plan that joins sales with regions and adds up the sales of each region. -/
def regionTotals (parallelism : Option UInt32) : SubPlan :=
  ((((((SubPlan.empty.insert ⟨⟨0⟩, .load (.dataset "sales"), []⟩).insert
    ⟨⟨1⟩, .load (.dataset "regions"), []⟩).insert
    ⟨⟨2⟩, .join [0, 0] 0, [⟨0⟩, ⟨1⟩]⟩).insert
    ⟨⟨3⟩, .rearrange 3, [⟨2⟩]⟩).insert
    ⟨⟨4⟩, .package parallelism false, [⟨3⟩]⟩).insert
    ⟨⟨5⟩, .forEach [.groupKey, .aggregate .sum 1 false], [⟨4⟩]⟩).insert
    ⟨⟨6⟩, .store "totals", [⟨5⟩]⟩

/-- The stage with a plan, asking for some parallelism. -/
def regionStage (parallelism : Option UInt32) : Stage :=
  ⟨⟨0⟩, .ordinary, regionTotals parallelism, { parallelism := parallelism }⟩

/-- The graph with this stage alone. -/
def regionGraph (parallelism : Option UInt32) : StageGraph :=
  ⟨(∅ : OrderedMap StageId Stage).insert ⟨0⟩ (regionStage parallelism), ∅, 1⟩

/-- Two files of sales and one file of regions. -/
def salesStore : FileStore :=
  ((empty.write "sales/part-00000" [[.int 1, .int 5], [.int 2, .int 7]]).write
    "sales/part-00001" [[.int 1, .int 6]]).write "regions/part-00000"
      [[.int 1, .int 10], [.int 2, .int 20]]

/-- The rows of its sales and of its regions. -/
def salesRows : List Row :=
  [[.int 1, .int 5], [.int 2, .int 7], [.int 1, .int 6]]

def regionRows : List Row :=
  [[.int 1, .int 10], [.int 2, .int 20]]

theorem divisible_regionTotals (parallelism : Option UInt32) :
    (regionTotals parallelism).Divisible := by
  have operators : (regionTotals parallelism).operators =
      [⟨⟨0⟩, .load (.dataset "sales"), []⟩, ⟨⟨1⟩, .load (.dataset "regions"), []⟩,
        ⟨⟨2⟩, .join [0, 0] 0, [⟨0⟩, ⟨1⟩]⟩, ⟨⟨3⟩, .rearrange 3, [⟨2⟩]⟩,
        ⟨⟨4⟩, .package parallelism false, [⟨3⟩]⟩,
        ⟨⟨5⟩, .forEach [.groupKey, .aggregate .sum 1 false], [⟨4⟩]⟩,
        ⟨⟨6⟩, .store "totals", [⟨5⟩]⟩] := rfl
  have replicated : (regionTotals parallelism).broadcastLoads.elements = [⟨1⟩] := rfl
  refine ⟨fun id operator found => ?_, fun sort operator found isSort => ?_,
    fun load reader operator isReplicated found reads => ?_⟩
  all_goals
    have member := SubPlan.mem_operators.mpr ⟨_, found⟩
    simp only [operators, List.mem_cons, List.not_mem_nil, or_false] at member
  · rcases member with rfl | rfl | rfl | rfl | rfl | rfl | rfl <;> rfl
  · rcases member with rfl | rfl | rfl | rfl | rfl | rfl | rfl <;> simp [Operation.isSort] at isSort
  · rw [SubPlan.Replicated, replicated, List.mem_singleton] at isReplicated
    subst isReplicated
    rcases member with rfl | rfl | rfl | rfl | rfl | rfl | rfl <;> simp at reads ⊢

theorem phases_regionTotals (parallelism : Option UInt32) :
    (regionTotals parallelism).phases =
      .ok ⟨[⟨0⟩, ⟨1⟩, ⟨2⟩, ⟨3⟩], [⟨4⟩, ⟨5⟩, ⟨6⟩]⟩ := by
  cbv

theorem exists_runTasks_regionStage :
    ∃ tasks, (regionStage (some 3)).runTasks (regionGraph (some 3)) ⟨4, true, 2⟩ salesStore =
      .ok tasks := by
  refine exists_of_isOk ?_
  rw [runTasks, show (regionStage (some 3)).plan = regionTotals (some 3) from rfl,
    phases_regionTotals]
  decide +kernel

theorem regionTotals_rows_independent_of_parallelism :
    (regionTotals none).OwnIds ∧ (regionTotals none).validate = .ok () ∧
      (regionTotals none).Divisible ∧ (regionTotals none).SeparateTargets ∧
      ∃ stats after stats' after',
        (regionStage none).run (regionGraph none) {} salesStore = .ok stats after ∧
        (regionStage (some 3)).run (regionGraph (some 3)) ⟨4, true, 2⟩ salesStore =
          .ok stats' after' ∧
        ∃ rows rows', after.readDirectory "totals" = .ok rows ∧
          after'.readDirectory "totals" = .ok rows' ∧ rows.Perm rows' := by
  have ownIds : (regionTotals none).OwnIds :=
    ((((((SubPlan.OwnIds.empty.insert _).insert _).insert _).insert _).insert _).insert _).insert _
  have valid : (regionTotals none).validate = .ok () := by rfl
  have divisible := divisible_regionTotals none
  have separate : (regionTotals none).SeparateTargets := by decide
  have sameGraph : (regionGraph none).SameButParallelism (regionGraph (some 3)) := by
    intro id
    simp only [regionGraph, StageGraph.stage?, OrderedMap.get?_insert]
    split <;> rfl
  have sameStage : (regionStage none).withoutParallelism =
      (regionStage (some 3)).withoutParallelism := rfl
  obtain ⟨-, -, sameRows⟩ := rows_independent_of_parallelism {} ⟨4, true, 2⟩ salesStore rfl
    ownIds valid divisible separate sameStage sameGraph
  have ran : ∃ stats after, (regionStage none).run (regionGraph none) {} salesStore =
      .ok stats after := by
    refine exists_run_of_isOk ?_
    rw [runTasks, show (regionStage none).plan = regionTotals none from rfl, phases_regionTotals]
    decide +kernel
  obtain ⟨_, alsoTasks⟩ := exists_runTasks_regionStage
  have alsoRan := run_eq_ok.mpr ⟨_, alsoTasks, rfl, rfl⟩
  obtain ⟨_, _, ran⟩ := ran
  exact ⟨ownIds, valid, divisible, separate, _, _, _, _, ran, alsoRan,
    sameRows _ _ _ _ ran alsoRan "totals" (by decide)⟩

theorem divisible_sortedReadings : sortedReadings.Divisible := by
  have operators : sortedReadings.operators = [⟨⟨0⟩, .load (.dataset "readings"), []⟩,
      ⟨⟨1⟩, .sort 0 false, [⟨0⟩]⟩, ⟨⟨2⟩, .store "sorted", [⟨1⟩]⟩] := rfl
  refine ⟨fun id operator found => ?_, fun sort operator found isSort package isPackage => ?_,
    fun load reader operator isReplicated found reads => ?_⟩
  · have member := SubPlan.mem_operators.mpr ⟨_, found⟩
    simp only [operators, List.mem_cons, List.not_mem_nil, or_false] at member
    rcases member with rfl | rfl | rfl <;> rfl
  · cases isPackage
  · cases isReplicated

/-- Readings that two tasks sort stop the one task that sorts all of them. -/
theorem sortedReadings_depend_on_splits :
    sortedReadings.OwnIds ∧ sortedReadings.validate = .ok () ∧ sortedReadings.Divisible ∧
      sortedReadings.SeparateTargets ∧
      (∃ stats after, sortingStage.run sortingGraph ⟨4, true, 1⟩ readingsStore = .ok stats after) ∧
      ¬ ∃ stats after, sortingStage.run sortingGraph {} readingsStore = .ok stats after := by
  refine ⟨((SubPlan.OwnIds.empty.insert _).insert _).insert _, by rfl, divisible_sortedReadings,
    by decide, exists_run_of_isOk ?_, ?_⟩
  · rw [runTasks, show sortingStage.plan = sortedReadings from rfl, phases_sortedReadings]
    decide +kernel
  · rintro ⟨stats, after, ran⟩
    obtain ⟨values, _, stopped⟩ := stopsOver_sortingStage
    cases stopped.symm.trans ran

end Stage

end BatchFlow
