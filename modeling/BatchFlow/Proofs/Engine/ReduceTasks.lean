import BatchFlow.Proofs.Engine.MapTasks

/-!
# The reduce tasks of a stage

However many reduce tasks the groups of a stage are dealt to, together they do
what one task does that is given all groups.
-/

namespace BatchFlow

open Results

/-- A list is made up of the elements of each of its classes. -/
theorem perm_flatMap_range_filter {α : Type} (classOf : α → Nat) (count : Nat) (elements : List α)
    (bounded : ∀ element ∈ elements, classOf element < count) :
    ((List.range count).flatMap fun number =>
      elements.filter fun element => classOf element == number).Perm elements := by
  induction count generalizing elements with
  | zero =>
      have none : elements = [] := List.eq_nil_iff_forall_not_mem.mpr fun element member =>
        Nat.not_lt_zero _ (bounded element member)
      rw [none]
      exact .refl _
  | succ count ih =>
      let others := elements.filter fun element => !(classOf element == count)
      have othersBounded : ∀ element ∈ others, classOf element < count := by
        intro element member
        obtain ⟨inElements, different⟩ := List.mem_filter.mp member
        have small := bounded element inElements
        have notLast : classOf element ≠ count := by simpa using different
        omega
      have sameClasses : (List.range count).flatMap (fun number =>
          elements.filter fun element => classOf element == number) =
            (List.range count).flatMap fun number =>
              others.filter fun element => classOf element == number := by
        refine List.flatMap_congr fun number member => ?_
        rw [List.filter_filter]
        refine List.filter_congr fun element _ => ?_
        have small := List.mem_range.mp member
        by_cases same : classOf element = number
        · simp [same, Nat.ne_of_lt small]
        · simp [same]
      rw [List.range_succ, List.flatMap_append, List.flatMap_singleton, sameClasses]
      refine ((ih others othersBounded).append_right _).trans ?_
      exact List.perm_append_comm.trans (List.filter_append_perm _ elements)

namespace Groups

/-- Dealing groups keeps all of them. -/
theorem perm_flatMap_deal (groups : Groups) (reducers : Nat) :
    ((List.range (max reducers 1)).flatMap fun reducer =>
      (groups.deal reducers).getD reducer []).Perm groups := by
  have positive : 0 < max reducers 1 := by omega
  have dealt : ((List.range (max reducers 1)).flatMap fun reducer =>
      (groups.deal reducers).getD reducer []) =
        ((List.range (max reducers 1)).flatMap fun reducer =>
          groups.zipIdx.filter fun entry =>
            entry.2 % max reducers 1 == reducer).map Prod.fst := by
    rw [List.map_flatMap]
    refine List.flatMap_congr fun reducer member => ?_
    simp [deal, List.mem_range.mp member]
  rw [dealt]
  have restored : groups.zipIdx.map Prod.fst = groups := List.zipIdx_map_fst 0 groups
  refine ((perm_flatMap_range_filter _ _ _ fun entry _ => ?_).map Prod.fst).trans
    (.of_eq restored)
  exact Nat.mod_lt _ positive

end Groups

namespace Stage

variable (stage : Stage) (graph : StageGraph) (store : FileStore)

/-- The groups of a grouping operator, given its keyed rows. -/
def groupsOf (keyed : OpId → List Row) (package : OpId) : Groups :=
  if package ∈ stage.plan.packages then valueOf (Groups.ofKeyedRows (keyed package)) else []

/-- A task that is given all groups. -/
def wholeReduceTask (keyed : OpId → List Row) : Share :=
  ⟨stage.groupsOf keyed, stage.rowsOfLoads graph store stage.replicates, [], ∅⟩

/-- The task of one reducer. -/
def reducerTask (dealt : OrderedMap OpId Groups) : Share :=
  ⟨fun id => (dealt.get? id).getD [], stage.rowsOfLoads graph store stage.replicates, [], ∅⟩

/-- The groups dealt to one reducer. -/
def dealtTo (keyed : OpId → List Row) (reducers reducer : Nat) : OrderedMap OpId Groups :=
  .ofList (stage.plan.packages.map fun package =>
    (package, ((valueOf (Groups.ofKeyedRows (keyed package))).deal reducers).getD reducer []))

variable {stage graph store}

/-- The shuffle succeeds when all keyed rows have a key. -/
theorem shuffle_eq_ok {reducers : Nat} {outputs : List TaskOutput}
    {dealt : List (OrderedMap OpId Groups)} :
    stage.shuffle reducers outputs = .ok dealt ↔
      (∀ package ∈ stage.plan.packages, ∃ groups,
        Groups.ofKeyedRows (TaskOutput.keyed outputs package) = .ok groups) ∧
          dealt = (List.range (max reducers 1)).map
            (stage.dealtTo (TaskOutput.keyed outputs) reducers) := by
  have eachPackage : (stage.plan.packages.mapM fun package => do
      let keyed := outputs.flatMap fun output => (output.shuffle.get? package).getD []
      let groups ← liftOperator (Groups.ofKeyedRows keyed)
      return (package, groups.deal reducers)) =
        stage.plan.packages.mapM fun package =>
          (liftOperator (Groups.ofKeyedRows (TaskOutput.keyed outputs package))).map
            fun groups => (package, groups.deal reducers) := by
    refine mapM_congr fun package _ => ?_
    show (liftOperator (Groups.ofKeyedRows (TaskOutput.keyed outputs package)) >>= fun groups =>
      pure (package, groups.deal reducers)) = _
    cases liftOperator (Groups.ofKeyedRows (TaskOutput.keyed outputs package)) <;> rfl
  rw [shuffle, eachPackage, bind_eq_ok]
  have sameValue (package : OpId) :
      valueOf (liftOperator (Groups.ofKeyedRows (TaskOutput.keyed outputs package))) =
        valueOf (Groups.ofKeyedRows (TaskOutput.keyed outputs package)) := by
    cases Groups.ofKeyedRows (TaskOutput.keyed outputs package) <;> rfl
  simp only [mapM_map_eq_ok, liftOperator_eq_ok, pure_eq_ok, sameValue]
  have reducerGroups (reducer : Nat) :
      OrderedMap.ofList ((stage.plan.packages.map fun package =>
        (package, (valueOf (Groups.ofKeyedRows (TaskOutput.keyed outputs package))).deal
          reducers)).map fun dealt => (dealt.1, dealt.2.getD reducer [])) =
        stage.dealtTo (TaskOutput.keyed outputs) reducers reducer := by
    rw [dealtTo, List.map_map]
    rfl
  constructor
  · rintro ⟨_, ⟨each, rfl⟩, rfl⟩
    exact ⟨each, List.map_congr_left fun reducer _ => reducerGroups reducer⟩
  · rintro ⟨each, rfl⟩
    exact ⟨_, ⟨each, rfl⟩, List.map_congr_left fun reducer _ => reducerGroups reducer⟩

theorem groups_reducerTask (ownIds : stage.plan.OwnIds) (keyed : OpId → List Row)
    (reducers reducer : Nat) (id : OpId) :
    (stage.reducerTask graph store (stage.dealtTo keyed reducers reducer)).groups id =
      if id ∈ stage.plan.packages then
        ((valueOf (Groups.ofKeyedRows (keyed id))).deal reducers).getD reducer []
      else [] := by
  have entries : stage.dealtTo keyed reducers reducer =
      .ofList (stage.plan.packages.filterMap fun package =>
        (some (((valueOf (Groups.ofKeyedRows (keyed package))).deal reducers).getD
          reducer [])).map fun groups => (package, groups)) := by
    rw [dealtTo, ← List.filterMap_eq_map]
    rfl
  rw [reducerTask, entries]
  simp only
  rw [OrderedMap.get?_ofList_filterMap ownIds.nodup_packages]
  split <;> rfl

/-- The groups of the whole task are dealt to the tasks of the reducers. -/
theorem gathered_reducerTasks (ownIds : stage.plan.OwnIds) (keyed : OpId → List Row)
    (reducers : Nat) :
    stage.plan.Gathered (fun _ => False) stage.plan.Replicated []
      (stage.wholeReduceTask graph store keyed)
      (((List.range (max reducers 1)).map (stage.dealtTo keyed reducers)).map
        (stage.reducerTask graph store)) := by
  have isReducerTask {part : Share} (member : part ∈ ((List.range (max reducers 1)).map
      (stage.dealtTo keyed reducers)).map (stage.reducerTask graph store)) :
      part.state = (stage.wholeReduceTask graph store keyed).state := by
    obtain ⟨dealt, -, rfl⟩ := List.mem_map.mp member
    rfl
  refine ⟨by simp, fun id => ?_, fun part member => by rw [isReducerTask member],
    fun id member => absurd member (by simp [wholeReduceTask]),
    fun id _ part member => by rw [isReducerTask member], fun id spread => ?_,
    fun id isDone => absurd isDone (by simp), fun target => ?_⟩
  · rw [List.flatMap_map, List.flatMap_map]
    simp only [groups_reducerTask ownIds, wholeReduceTask, groupsOf]
    split
    · exact Groups.perm_flatMap_deal _ reducers
    · simp
  · refine Gathers.of_flatten_eq ?_
    have unbound : (stage.rowsOfLoads graph store stage.replicates).get? id = none :=
      get?_rowsOfLoads_not_replicated ownIds spread
    simp [Share.rowsAt, wholeReduceTask, reducerTask, unbound, Function.comp_def]
  · simp [Share.storedAt, wholeReduceTask, reducerTask, List.flatMap_map, OrderedMap.get?_empty]

theorem runReducer_eq (phases : Phases) (groups : OrderedMap OpId Groups) :
    stage.plan.runReduceTask phases groups (stage.rowsOfLoads graph store stage.replicates) =
      (phases.reduce.foldlM (Share.step stage.plan) (stage.reducerTask graph store groups)).map
        fun final => ⟨final.state.stores, ∅⟩ := by
  rw [Share.foldlM_step_eq, SubPlan.runReduceTask, SubPlan.evaluate]
  show (phases.reduce.foldlM (stage.plan.step (stage.reducerTask graph store groups).groups)
    (stage.reducerTask graph store groups).state >>= _) = _
  cases phases.reduce.foldlM (stage.plan.step (stage.reducerTask graph store groups).groups)
    (stage.reducerTask graph store groups).state <;> rfl

/-- The tasks of all reducers, run one after another. -/
theorem mapM_runReduceTask_eq (phases : Phases) (dealt : List (OrderedMap OpId Groups)) :
    (dealt.mapM fun groups => stage.plan.runReduceTask phases groups
        (stage.rowsOfLoads graph store stage.replicates)) =
      ((dealt.map (stage.reducerTask graph store)).mapM
        fun part => phases.reduce.foldlM (Share.step stage.plan) part).map
          (List.map fun final => ⟨final.state.stores, ∅⟩) := by
  rw [List.mapM_map, ← mapM_map_result]
  exact mapM_congr fun groups _ => runReducer_eq phases groups

theorem mapM_runReduceTask_eq_ok {phases : Phases} {dealt : List (OrderedMap OpId Groups)}
    {outputs : List TaskOutput} :
    (dealt.mapM fun groups => stage.plan.runReduceTask phases groups
        (stage.rowsOfLoads graph store stage.replicates)) = .ok outputs ↔
      ∃ finals, (dealt.map (stage.reducerTask graph store)).mapM
        (fun part => phases.reduce.foldlM (Share.step stage.plan) part) = .ok finals ∧
          finals.map (fun final => ⟨final.state.stores, ∅⟩) = outputs := by
  rw [mapM_runReduceTask_eq, map_eq_ok]

section Phase

variable (wellFormed : stage.plan.WellFormed) (divisible : stage.plan.Divisible)

include wellFormed divisible

/-- If the reduce tasks of a stage succeed, one task does that is given all groups and in
which no sort stops, and it stores what they store.  If that task succeeds, the reduce
tasks do, unless a sort stops one of them. -/
theorem mapM_runReduceTask_iff_whole {phases : Phases} (split : stage.plan.phases = .ok phases)
    (keyed : OpId → List Row) (reducers : Nat) :
    (∀ outputs, ((List.range (max reducers 1)).map (stage.dealtTo keyed reducers)).mapM
        (fun groups => stage.plan.runReduceTask phases groups
          (stage.rowsOfLoads graph store stage.replicates)) = .ok outputs →
      ∃ final, phases.reduce.foldlM (Share.proceed stage.plan)
        (stage.wholeReduceTask graph store keyed) = .ok final ∧
          ∀ target, (TaskOutput.stored outputs target).Perm (final.storedAt target)) ∧
    (∀ final, phases.reduce.foldlM (Share.proceed stage.plan)
        (stage.wholeReduceTask graph store keyed) = .ok final →
      ∃ outputs, OkUnless RunError.IsStop
        (((List.range (max reducers 1)).map (stage.dealtTo keyed reducers)).mapM fun groups =>
          stage.plan.runReduceTask phases groups
            (stage.rowsOfLoads graph store stage.replicates)) outputs) := by
  have ownIds := wellFormed.ownIds
  obtain ⟨toWhole, toParts⟩ := (gathered_reducerTasks ownIds keyed
    reducers).evaluate_unless_stopped wellFormed (divisible.splittable_reduce wellFormed split)
  rw [mapM_runReduceTask_eq]
  refine ⟨fun outputs run => ?_, fun final run => ?_⟩
  · obtain ⟨finals, inParts, rfl⟩ := map_eq_ok.mp run
    obtain ⟨final, finished, gathered⟩ := toWhole finals inParts
    refine ⟨final, finished, fun target => ?_⟩
    rw [TaskOutput.stored, List.flatMap_map]
    exact gathered.stored target
  · obtain ⟨finals, inParts, -⟩ := toParts final run
    exact ⟨_, inParts.map _⟩

end Phase

end Stage

end BatchFlow
