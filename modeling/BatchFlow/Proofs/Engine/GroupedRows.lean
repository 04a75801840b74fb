import BatchFlow.Proofs.Engine.Parallelism
import BatchFlow.Proofs.Task.Bindings

/-!
# The rows in the groups of a stage

Collecting keyed rows into groups and dealing the groups to reduce tasks loses no
row.  But only map tasks send rows to grouping operators.  A grouping operator
that reads the reduce phase gets no groups at all, whatever its input produces.
-/

namespace BatchFlow

open Results

theorem Entries.perm_flatMap_upsert {κ ν : Type} [Ord κ] (key : κ) (row : ν)
    (entries : List (κ × List ν)) :
    ((upsert key (fun rows => rows.getD [] ++ [row]) entries).flatMap Prod.snd).Perm
      (entries.flatMap Prod.snd ++ [row]) := by
  induction entries with
  | nil => exact .refl _
  | cons entry rest ih =>
      obtain ⟨head, rows⟩ := entry
      rw [upsert]
      split
      case h_1 =>
        simp only [Option.getD_none, List.nil_append, List.flatMap_cons]
        exact List.perm_append_comm
      case h_2 =>
        simp only [Option.getD_some, List.flatMap_cons, List.append_assoc]
        exact List.perm_append_comm.append_left rows
      case h_3 =>
        simp only [List.flatMap_cons, List.append_assoc]
        exact ih.append_left rows

namespace Groups

/-- Groups hold the keyed rows, each without its key. -/
theorem perm_flatMap_ofKeyedRows {keyed : List Row} {groups : Groups}
    (collected : ofKeyedRows keyed = .ok groups) :
    (∀ row ∈ keyed, row ≠ []) ∧ (groups.flatMap Prod.snd).Perm (keyed.map List.tail) := by
  rw [ofKeyedRows] at collected
  -- The rows are collected into any groups to start with.
  suffices (∀ row ∈ keyed, row ≠ []) ∧ (groups.flatMap Prod.snd).Perm
      (([] : Groups).flatMap Prod.snd ++ keyed.map List.tail) by simpa using this
  generalize ([] : Groups) = start at collected ⊢
  induction keyed generalizing start with
  | nil =>
      obtain rfl := pure_eq_ok.mp collected
      simp
  | cons row keyed ih =>
      rw [List.foldlM_cons] at collected
      obtain ⟨next, added, rest⟩ := bind_eq_ok.mp collected
      cases row with
      | nil => cases added
      | cons key cells =>
          obtain rfl := Except.ok.inj added
          obtain ⟨restKeyed, perm⟩ := ih _ rest
          have addedHere := Entries.perm_flatMap_upsert key cells start
          refine ⟨by simpa using restKeyed, perm.trans ?_⟩
          rw [List.map_cons, List.append_cons]
          exact addedHere.append_right _

/-- The rows in the groups that reduce tasks are given for a grouping operator. -/
def rowsDealt (dealt : List (OrderedMap OpId Groups)) (package : OpId) : List Row :=
  dealt.flatMap fun groups => ((groups.get? package).getD []).flatMap Prod.snd

end Groups

/-- The rows that an evaluation produces at an operator, if it comes to it. -/
def SubPlan.produced (plan : SubPlan) (operators : List OpId) (bound : Bindings)
    (groups : OpId → Groups) (id : OpId) : Except RunError (List Row) :=
  (plan.evaluate operators bound groups).map fun final =>
    if id ∈ operators then (final.rows.get? id).getD [] else []

namespace Stage

variable (stage : Stage) (phases : Phases) (broadcast : Bindings) (id : OpId)

/-- The rows that the map task of a split produces at an operator. -/
def producedByMap (store : FileStore) (split : Split) : Except RunError (List Row) := do
  let rows ← store.readFiles split.files
  stage.plan.produced phases.map (broadcast.insert split.load rows) (fun _ => []) id

/-- The rows that the reduce task with some groups produces at an operator. -/
def producedByReduce (groups : OrderedMap OpId Groups) : Except RunError (List Row) :=
  stage.plan.produced phases.reduce broadcast (fun package => (groups.get? package).getD []) id

variable {stage phases id} {graph : StageGraph} {config : EngineConfig} {store : FileStore}

theorem producedByMap_eq_ok {split : Split} {rows : List Row}
    (filesExist : ∀ path ∈ split.files, ∃ rows, store.files.get? path = some rows) :
    stage.producedByMap phases (stage.rowsOfLoads graph store stage.replicates) id store split =
        .ok rows ↔
      ∃ final, phases.map.foldlM (Share.step stage.plan) (stage.splitTask graph store split) =
        .ok final ∧ (if id ∈ phases.map then final.rowsAt id else []) = rows := by
  have read : store.readFiles split.files = .ok (StageGraph.rowsOfFiles store split.files) :=
    FileStore.readFiles_eq_ok.mpr ⟨filesExist, rfl⟩
  rw [producedByMap, read]
  show (stage.plan.produced _ _ _ _) = .ok rows ↔ _
  simp only [SubPlan.produced, SubPlan.evaluate, map_eq_ok, Share.foldlM_step_eq_ok]
  constructor
  · rintro ⟨state, evaluated, rfl⟩
    exact ⟨⟨_, state⟩, ⟨evaluated, rfl⟩, rfl⟩
  · rintro ⟨final, ⟨evaluated, -⟩, rfl⟩
    exact ⟨final.state, evaluated, rfl⟩

theorem producedByReduce_eq_ok {groups : OrderedMap OpId Groups} {rows : List Row} :
    stage.producedByReduce phases (stage.rowsOfLoads graph store stage.replicates) id groups =
        .ok rows ↔
      ∃ final, phases.reduce.foldlM (Share.step stage.plan)
        (stage.reducerTask graph store groups) = .ok final ∧
          (if id ∈ phases.reduce then final.rowsAt id else []) = rows := by
  simp only [producedByReduce, SubPlan.produced, SubPlan.evaluate, map_eq_ok,
    Share.foldlM_step_eq_ok]
  constructor
  · rintro ⟨state, evaluated, rfl⟩
    exact ⟨⟨_, state⟩, ⟨evaluated, rfl⟩, rfl⟩
  · rintro ⟨final, ⟨evaluated, -⟩, rfl⟩
    exact ⟨final.state, evaluated, rfl⟩

section Mapped

variable (wellFormed : stage.plan.WellFormed) (divided : stage.plan.phases = .ok phases)

include wellFormed divided

/-- A map task has no rows at an operator of the reduce phase. -/
theorem rowsAt_of_reduceSide {operator : Operator} (found : stage.plan.get? id = some operator)
    (inReduce : id ∈ stage.plan.reduceSide) {split : Split}
    (member : split ∈ stage.allSplits graph config store) {final : Share}
    (ran : phases.map.foldlM (Share.step stage.plan) (stage.splitTask graph store split) =
      .ok final) : final.rowsAt id = [] := by
  have ownIds := wellFormed.ownIds
  have noLoad {loader : Operator} (foundLoad : stage.plan.get? id = some loader) :
      loader.operation.isLoad ≠ true := fun isLoad =>
    wellFormed.not_reduceSide_of_isLoad foundLoad isLoad inReduce
  have notMapped : id ∉ phases.map := fun inMap =>
    ((wellFormed.mem_map_iff divided).mp inMap).2 inReduce
  have spread : ¬ stage.plan.Replicated id := fun replicated =>
    noLoad found (SubPlan.isLoad_of_replicated replicated found)
  have otherLoad : split.load ≠ id := by
    rintro rfl
    obtain ⟨⟨loader, foundLoad, spreads⟩, -⟩ := mem_allSplits ownIds member
    exact noLoad foundLoad ((spreads_iff ownIds foundLoad).mp spreads).1
  have unchanged := ownIds.get?_foldlM_step_of_not_mem (Share.foldlM_step_eq_ok.mp ran).1 notMapped
  have before : (stage.splitTask graph store split).rowsAt id = [] := by
    rw [rowsAt_splitTask ownIds spread, if_neg otherLoad]
    rfl
  rw [Share.rowsAt, unchanged]
  exact before

/-- The map tasks send to a grouping operator what they produce at its input. -/
theorem keyed_eq_flatten {package source : OpId} {grouping inputOperator : Operator}
    (found : stage.plan.get? package = some grouping)
    (isPackage : grouping.operation.isPackage = true)
    (isHead : grouping.inputs.head? = some source)
    (foundSource : stage.plan.get? source = some inputOperator) {finals : List Share}
    (ran : ((stage.allSplits graph config store).map (stage.splitTask graph store)).mapM
      (fun part => phases.map.foldlM (Share.step stage.plan) part) = .ok finals) :
    TaskOutput.keyed (finals.map (Share.output stage.plan)) package =
      (finals.map fun final =>
        if source ∈ phases.map then final.rowsAt source else []).flatten := by
  rw [TaskOutput.keyed, List.flatMap_map, ← List.flatMap_def]
  apply List.flatMap_congr
  intro final member
  have sent : ((final.output stage.plan).shuffle.get? package).getD [] = final.rowsAt source := by
    rw [Share.output, wellFormed.ownIds.get?_shuffleOf found isPackage isHead]
    rfl
  rw [sent]
  split
  case isTrue => rfl
  case isFalse notMapped =>
    have inReduce : source ∈ stage.plan.reduceSide := by
      by_contra notReduced
      exact notMapped ((wellFormed.mem_map_iff divided).mpr ⟨⟨_, foundSource⟩, notReduced⟩)
    obtain ⟨part, isPart, partRan⟩ := exists_mem_of_forall₂ (mapM_eq_ok.mp ran).flip member
    obtain ⟨split, inSplits, rfl⟩ := List.mem_map.mp isPart
    exact rowsAt_of_reduceSide wellFormed divided foundSource inReduce inSplits partRan

end Mapped

/-- All keyed rows of a grouping operator are in the groups dealt to the reducers. -/
theorem perm_rowsDealt (ownIds : stage.plan.OwnIds) {package : OpId}
    (isPackage : package ∈ stage.plan.packages) {reducers : Nat} {outputs : List TaskOutput}
    {dealt : List (OrderedMap OpId Groups)}
    (shuffled : stage.shuffle reducers outputs = .ok dealt) :
    (∀ row ∈ TaskOutput.keyed outputs package, row ≠ []) ∧
      (Groups.rowsDealt dealt package).Perm
        ((TaskOutput.keyed outputs package).map List.tail) := by
  obtain ⟨collected, rfl⟩ := shuffle_eq_ok.mp shuffled
  obtain ⟨groups, isGroups⟩ := collected package isPackage
  obtain ⟨keyed, perm⟩ := Groups.perm_flatMap_ofKeyedRows isGroups
  have ofReducer (reducer : Nat) :
      ((stage.dealtTo (TaskOutput.keyed outputs) reducers reducer).get? package).getD [] =
        (groups.deal reducers).getD reducer [] := by
    have toReducer : (stage.reducerTask .empty .empty
        (stage.dealtTo (TaskOutput.keyed outputs) reducers reducer)).groups package = _ :=
      groups_reducerTask ownIds ..
    rw [if_pos isPackage, isGroups] at toReducer
    exact toReducer
  have together : Groups.rowsDealt ((List.range (max reducers 1)).map
      (stage.dealtTo (TaskOutput.keyed outputs) reducers)) package =
        ((List.range (max reducers 1)).flatMap fun reducer =>
          (groups.deal reducers).getD reducer []).flatMap Prod.snd := by
    rw [Groups.rowsDealt, List.flatMap_map, List.flatMap_assoc]
    apply List.flatMap_congr
    intro reducer _
    rw [ofReducer]
  refine ⟨keyed, ?_⟩
  rw [together]
  exact ((groups.perm_flatMap_deal reducers).flatMap_right Prod.snd).trans perm

/-- The groups that the reduce tasks of a stage are given for a grouping operator
hold the rows that its map tasks produce at the input of the operator, each
without its key.  They hold all rows produced there exactly if the input is not
downstream of a grouping operator or produces nothing. -/
theorem grouped_rows {stats : JobStats} {after : FileStore} (ownIds : stage.plan.OwnIds)
    (valid : stage.plan.validate = .ok ())
    (ran : stage.run graph config store = .ok stats after) {package source : OpId}
    {grouping : Operator} (found : stage.plan.get? package = some grouping)
    (isPackage : grouping.operation.isPackage = true)
    (isHead : grouping.inputs.head? = some source) :
    ∃ tasks input dealt mapped reduced, stage.runTasks graph config store = .ok tasks ∧
      stage.input graph config store = .ok input ∧
      stage.shuffle (stage.reduceTasks config).toNat tasks.mapOutputs = .ok dealt ∧
      (dealt.mapM fun groups => stage.plan.runReduceTask tasks.phases groups input.broadcast) =
        .ok tasks.reduceOutputs ∧
      input.splits.mapM (stage.producedByMap tasks.phases input.broadcast source store) =
        .ok mapped ∧
      dealt.mapM (stage.producedByReduce tasks.phases input.broadcast source) = .ok reduced ∧
      (∀ row ∈ mapped.flatten, row ≠ []) ∧
      (Groups.rowsDealt dealt package).Perm (mapped.flatten.map List.tail) ∧
      (source ∈ stage.plan.reduceSide → Groups.rowsDealt dealt package = []) ∧
      ((Groups.rowsDealt dealt package).Perm ((mapped.flatten ++ reduced.flatten).map List.tail) ↔
        source ∉ stage.plan.reduceSide ∨ reduced.flatten = []) := by
  have wellFormed := ownIds.wellFormed valid
  have inPackages : package ∈ stage.plan.packages :=
    ownIds.mem_packages.mpr ⟨grouping, found, isPackage⟩
  obtain ⟨inputOperator, foundSource⟩ := (wellFormed.operators package grouping found).inputsExist
    source (List.mem_of_mem_head? isHead)
  obtain ⟨tasks, tasksRan, -, -⟩ := run_eq_ok.mp ran
  obtain ⟨divided, ⟨input, isInput, -⟩, mapRan, -, reduceRan⟩ := runTasks_eq_ok.mp tasksRan
  obtain ⟨-, broadcast, splits⟩ := input_parts isInput
  have packageInReduce : package ∈ tasks.phases.reduce := (wellFormed.mem_reduce_iff divided).mpr
    ⟨⟨grouping, found⟩, ownIds.mem_reduceSide.mpr ⟨package, inPackages, .refl⟩⟩
  obtain ⟨dealt, shuffled, reducersRan⟩ := reduceRan (List.ne_nil_of_mem packageInReduce)
  obtain ⟨mapFinals, mapped, sameMap⟩ := (mapM_runSplit_eq_ok ownIds).mp mapRan
  obtain ⟨reduceFinals, reduced, sameReduce⟩ := mapM_runReduceTask_eq_ok.mp reducersRan
  have keyedRows := keyed_eq_flatten wellFormed divided found isPackage isHead foundSource mapped
  obtain ⟨keyed, perm⟩ := perm_rowsDealt ownIds inPackages shuffled
  rw [← sameMap, keyedRows] at keyed perm
  refine ⟨tasks, input, dealt,
    mapFinals.map fun final => if source ∈ tasks.phases.map then final.rowsAt source else [],
    reduceFinals.map fun final =>
      if source ∈ tasks.phases.reduce then final.rowsAt source else [],
    tasksRan, isInput, shuffled, by rw [broadcast]; exact reducersRan, ?_, ?_, keyed, perm, ?_⟩
  · rw [broadcast, splits]
    rw [List.mapM_map] at mapped
    exact (mapM_eq_ok_image fun split member _ =>
      producedByMap_eq_ok (mem_allSplits ownIds member).2).mpr ⟨mapFinals, mapped, rfl⟩
  · rw [broadcast]
    rw [List.mapM_map] at reduced
    exact (mapM_eq_ok_image fun _ _ _ => producedByReduce_eq_ok).mpr ⟨reduceFinals, reduced, rfl⟩
  -- An operator produces rows in one of the two phases only.
  by_cases inReduce : source ∈ stage.plan.reduceSide
  · have notMapped : source ∉ tasks.phases.map := fun inMap =>
      ((wellFormed.mem_map_iff divided).mp inMap).2 inReduce
    simp only [if_neg notMapped, List.map_const', List.flatten_replicate_nil, List.map_nil,
      List.perm_nil] at perm
    simp [perm, inReduce, notMapped]
  · have notReduced : source ∉ tasks.phases.reduce := fun inPhase =>
      inReduce ((wellFormed.mem_reduce_iff divided).mp inPhase).2
    simpa [inReduce, notReduced] using perm

/-- A plan that counts the sales of each region, and then the regions with each
count. -/
def countsOfCounts : SubPlan :=
  (((((((SubPlan.empty.insert ⟨⟨0⟩, .load (.dataset "sales"), []⟩).insert
    ⟨⟨1⟩, .rearrange 0, [⟨0⟩]⟩).insert
    ⟨⟨2⟩, .package none false, [⟨1⟩]⟩).insert
    ⟨⟨3⟩, .forEach [.groupKey, .aggregate .count 0 false], [⟨2⟩]⟩).insert
    ⟨⟨4⟩, .rearrange 1, [⟨3⟩]⟩).insert
    ⟨⟨5⟩, .package none false, [⟨4⟩]⟩).insert
    ⟨⟨6⟩, .forEach [.groupKey, .aggregate .count 0 false], [⟨5⟩]⟩).insert
    ⟨⟨7⟩, .store "counts", [⟨6⟩]⟩

def countsStage : Stage :=
  ⟨⟨0⟩, .ordinary, countsOfCounts, {}⟩

def countsGraph : StageGraph :=
  ⟨(∅ : OrderedMap StageId Stage).insert ⟨0⟩ countsStage, ∅, 1⟩

theorem phases_countsOfCounts :
    countsOfCounts.phases = .ok ⟨[⟨0⟩, ⟨1⟩], [⟨2⟩, ⟨3⟩, ⟨4⟩, ⟨5⟩, ⟨6⟩, ⟨7⟩]⟩ := by
  cbv

theorem ownIds_countsOfCounts : countsOfCounts.OwnIds :=
  (((((((SubPlan.OwnIds.empty.insert _).insert _).insert _).insert _).insert _).insert _).insert
    _).insert _

def countsInput : StageInput :=
  ⟨∅, 0, [⟨⟨0⟩, ["sales/part-00000", "sales/part-00001"]⟩]⟩

theorem input_countsStage : countsStage.input countsGraph {} salesStore = .ok countsInput := by
  rfl

/-- The tasks of the stage over `salesStore`. -/
def countsTasks : StageTasks where
  phases := ⟨[⟨0⟩, ⟨1⟩], [⟨2⟩, ⟨3⟩, ⟨4⟩, ⟨5⟩, ⟨6⟩, ⟨7⟩]⟩
  broadcastFiles := 0
  mapOutputs := [⟨∅, (∅ : Bindings).insert ⟨2⟩
    [[.int 1, .int 1, .int 5], [.int 2, .int 2, .int 7], [.int 1, .int 1, .int 6]]⟩]
  reduceOutputs := [⟨(∅ : OrderedMap String (List Row)).insert "counts" [], ∅⟩]

theorem runTasks_countsStage :
    countsStage.runTasks countsGraph {} salesStore = .ok countsTasks := by
  rw [runTasks, show countsStage.plan = countsOfCounts from rfl, phases_countsOfCounts]
  rfl

theorem exists_run_countsStage :
    ∃ stats after, countsStage.run countsGraph {} salesStore = .ok stats after :=
  ⟨_, _, run_eq_ok.mpr ⟨countsTasks, runTasks_countsStage, rfl, rfl⟩⟩

/-- The groups of its only reduce task. -/
def countsDealt : List (OrderedMap OpId Groups) :=
  [((∅ : OrderedMap OpId Groups).insert ⟨2⟩
    [(.int 1, [[.int 1, .int 5], [.int 1, .int 6]]), (.int 2, [[.int 2, .int 7]])]).insert ⟨5⟩ []]

theorem shuffle_countsStage :
    countsStage.shuffle (countsStage.reduceTasks {}).toNat countsTasks.mapOutputs =
      .ok countsDealt := by
  rfl

/-- The first grouping operator gets all three sales. -/
theorem grouped_rows_sales :
    countsOfCounts.OwnIds ∧ countsOfCounts.validate = .ok () ∧
      (∃ stats after, countsStage.run countsGraph {} salesStore = .ok stats after) ∧
      countsOfCounts.get? ⟨2⟩ = some ⟨⟨2⟩, .package none false, [⟨1⟩]⟩ ∧
      ∃ mapped, countsInput.splits.mapM (countsStage.producedByMap countsTasks.phases
          countsInput.broadcast ⟨1⟩ salesStore) = .ok mapped ∧
        (Groups.rowsDealt countsDealt ⟨2⟩).Perm (mapped.flatten.map List.tail) ∧
        (Groups.rowsDealt countsDealt ⟨2⟩).length = 3 := by
  obtain ⟨stats, after, ran⟩ := exists_run_countsStage
  have found : countsOfCounts.get? ⟨2⟩ = some ⟨⟨2⟩, .package none false, [⟨1⟩]⟩ := rfl
  obtain ⟨tasks, input, dealt, mapped, -, tasksRan, isInput, shuffled, -, produced, -, -, perm,
    -⟩ :=
    grouped_rows ownIds_countsOfCounts rfl ran found rfl rfl
  obtain rfl : countsTasks = tasks := Except.ok.inj (runTasks_countsStage.symm.trans tasksRan)
  obtain rfl : countsInput = input := Except.ok.inj (input_countsStage.symm.trans isInput)
  obtain rfl : countsDealt = dealt := Except.ok.inj (shuffle_countsStage.symm.trans shuffled)
  exact ⟨ownIds_countsOfCounts, rfl, ⟨stats, after, ran⟩, found, mapped, produced, perm, rfl⟩

/-- The second grouping operator gets none of the two rows that its input produces
in the reduce phase. -/
theorem second_grouping_loses_rows :
    countsOfCounts.OwnIds ∧ countsOfCounts.validate = .ok () ∧
      (∃ stats after, countsStage.run countsGraph {} salesStore = .ok stats after) ∧
      countsOfCounts.get? ⟨5⟩ = some ⟨⟨5⟩, .package none false, [⟨4⟩]⟩ ∧
      countsStage.runTasks countsGraph {} salesStore = .ok countsTasks ∧
      countsStage.input countsGraph {} salesStore = .ok countsInput ∧
      countsStage.shuffle (countsStage.reduceTasks {}).toNat countsTasks.mapOutputs =
        .ok countsDealt ∧
      ∃ mapped reduced, countsInput.splits.mapM (countsStage.producedByMap countsTasks.phases
          countsInput.broadcast ⟨4⟩ salesStore) = .ok mapped ∧
        countsDealt.mapM (countsStage.producedByReduce countsTasks.phases
          countsInput.broadcast ⟨4⟩) = .ok reduced ∧
        (mapped.flatten ++ reduced.flatten) =
          [[.int 2, .int 1, .int 2], [.int 1, .int 2, .int 1]] ∧
        Groups.rowsDealt countsDealt ⟨5⟩ = [] ∧
        ¬ (Groups.rowsDealt countsDealt ⟨5⟩).Perm
          ((mapped.flatten ++ reduced.flatten).map List.tail) := by
  refine ⟨ownIds_countsOfCounts, rfl, exists_run_countsStage, rfl, runTasks_countsStage,
    input_countsStage, shuffle_countsStage, [[]],
    [[[.int 2, .int 1, .int 2], [.int 1, .int 2, .int 1]]], rfl, rfl, rfl, rfl, ?_⟩
  intro perm
  exact absurd perm.length_eq (by decide)

end Stage

end BatchFlow
