import BatchFlow.Proofs.Engine.GroupedRows
import Mathlib.Algebra.Order.Ring.Nat
import Mathlib.Data.Multiset.Bind

/-!
# The rows that a stage keeps

The stores of a stage write one after another, and each clears its target first.
So the rows that reached a store stay under its target unless a later store clears
them: one with the same target in the other phase, one with a target above, or one
with a part file for its target.  Stores of one phase with one target write the
same parts, which hold the rows of all of them and are counted once for each.
-/

namespace BatchFlow

open FileStore Results

namespace FileStore

variable {store : FileStore} {directory other : String} {parts : List (List Row)}
  {rest : List (String × List (List Row))}

theorem Within.trans {first second path : String} (outer : Within first second)
    (inner : Within second path) : Within first path := by
  rcases outer with rfl | outer
  · exact inner
  · rcases inner with rfl | inner
    · exact .inr outer
    · rw [beginsWith_iff] at outer inner
      refine .inr (beginsWith_iff.mpr (outer.trans (List.IsPrefix.trans ?_ inner)))
      simp

/-- Nothing but part files stands for a directory, and these hold some parts. -/
def HoldsParts (store : FileStore) (directory : String) (parts : List (List Row)) : Prop :=
  store.files.get? directory = none ∧
    ∀ index, ∀ bound : index < parts.length,
      store.files.get? (partPath directory index) = some parts[index]

theorem holdsParts_replace (store : FileStore) (directory : String) (parts : List (List Row)) :
    (store.replace directory parts).HoldsParts directory parts := by
  refine ⟨?_, fun index bound => get?_putParts_partPath _ _ bound⟩
  rw [replace, get?_putParts_of_ne fun index _ same => partPath_ne directory index same.symm,
    get?_clear, if_pos (.refl directory)]

namespace HoldsParts

/-- Writing a directory that contains no part file leaves the parts. -/
theorem replace_of_not_within (holds : store.HoldsParts directory parts)
    (outside : ∀ index, ¬ Within other (partPath directory index)) (new : List (List Row)) :
    (store.replace other new).HoldsParts directory parts := by
  have notAbove : ¬ Within other directory := fun within =>
    outside 0 (within.trans (.inr (beginsWith_partPath directory 0)))
  refine ⟨(get?_replace_of_not_within notAbove).trans holds.1, fun index bound => ?_⟩
  exact (get?_replace_of_not_within (outside index)).trans (holds.2 index bound)

theorem replaceAll (holds : store.HoldsParts directory parts)
    (spared : ∀ write ∈ rest, write = (directory, parts) ∨
      ∀ index, ¬ Within write.1 (partPath directory index)) :
    (store.replaceAll rest).HoldsParts directory parts := by
  induction rest generalizing store with
  | nil => exact holds
  | cons write rest ih =>
      obtain ⟨here, sparedRest⟩ := List.forall_mem_cons.mp spared
      refine ih ?_ sparedRest
      rcases here with rfl | outside
      · exact holdsParts_replace store directory parts
      · exact holds.replace_of_not_within outside write.2

/-- The rows of the parts are under the directory, whatever else is. -/
theorem subperm_rowsOf (holds : store.HoldsParts directory parts) :
    parts.flatten.Subperm (store.rowsOf directory) := by
  let paths := (List.range parts.length).map (partPath directory)
  have nodup : paths.Nodup := List.nodup_range.map fun _ _ same => partPath_injective same
  have contents : (paths.flatMap fun path => (store.files.get? path).getD []) = parts.flatten := by
    rw [List.flatMap_map, List.flatMap_def]
    refine congrArg List.flatten (List.ext_getElem (by simp) fun index first second => ?_)
    rw [List.getElem_map, List.getElem_range, holds.2 index second]
    rfl
  have listed : paths ⊆ store.list directory := by
    intro path member
    obtain ⟨index, inRange, rfl⟩ := List.mem_map.mp member
    rw [list_of_absent holds.1, List.mem_filter, OrderedMap.mem_keys_iff]
    exact ⟨⟨_, holds.2 index (List.mem_range.mp inRange)⟩, beginsWith_partPath directory index⟩
  obtain ⟨chosen, perm, sublist⟩ := List.subperm_of_subset nodup listed
  rw [← contents]
  exact ⟨_, perm.flatMap_right _, sublist.flatMap _⟩

end HoldsParts

theorem rowsOf_replaceAll_of_last
    (last : ∀ write ∈ rest, write = (directory, parts) ∨ Apart directory write.1) :
    (((store.replace directory parts).replaceAll rest).rowsOf directory).Perm parts.flatten := by
  rw [rowsOf_congr fun path within => get?_replaceAll_of_last last within]
  exact rowsOf_replace empty directory parts

end FileStore

namespace SubPlan

/-- Whether an operator of the plan stores under a target. -/
def storesUnder (plan : SubPlan) (target : String) (id : OpId) : Bool :=
  (plan.get? id).any fun operator => operator.operation.target? == some target

/-- The stores of one phase with a target. -/
def storesInPhase (plan : SubPlan) (target : String) (reduces : Bool) : List Operator :=
  plan.operators.filter fun operator =>
    operator.operation.target? == some target && plan.reduceSide.contains operator.id == reduces

/-- The stores that write the same parts as a store. -/
def sharers (plan : SubPlan) (storer : Operator) (target : String) : List Operator :=
  plan.storesInPhase target (plan.reduceSide.contains storer.id)

/-- A later operator leaves the parts of a store: if it is a store, it writes the same
parts or clears none of them. -/
def Spares (plan : SubPlan) (storer : Operator) (target : String) (later : Operator) : Prop :=
  ∀ other, later.operation = .store other →
    later ∈ plan.sharers storer target ∨ ∀ index, ¬ Within other (partPath target index)

/-- A later operator leaves the target of a store: if it is a store, it writes the same
parts or has a target apart from this one. -/
def LeavesAlone (plan : SubPlan) (storer : Operator) (target : String) (later : Operator) : Prop :=
  ∀ other, later.operation = .store other →
    later ∈ plan.sharers storer target ∨ Apart target other

variable {plan : SubPlan} {phases : Phases} {storer : Operator} {target : String}

theorem mem_storesInPhase {reduces : Bool} {operator : Operator} :
    operator ∈ plan.storesInPhase target reduces ↔
      operator ∈ plan.operators ∧ operator.operation = .store target ∧
        plan.reduceSide.contains operator.id = reduces := by
  simp [storesInPhase, Operation.target?_eq_some]

/-- The rows of an operator stay while others are evaluated. -/
theorem OwnIds.rowsAt_foldlM_step_of_not_mem (ownIds : plan.OwnIds) {operators : List OpId}
    {share final : Share} (evaluated : operators.foldlM (Share.step plan) share = .ok final)
    {id : OpId} (absent : id ∉ operators) : final.rowsAt id = share.rowsAt id := by
  have kept := ownIds.get?_foldlM_step_of_not_mem (Share.foldlM_step_eq_ok.mp evaluated).1 absent
  rw [Share.rowsAt, kept, Share.rowsAt]

/-- A store adds its rows to its target, and nothing else does. -/
theorem OwnIds.storedAt_foldlM_step (ownIds : plan.OwnIds) {operators : List OpId}
    (nodup : operators.Nodup) {share final : Share}
    (evaluated : operators.foldlM (Share.step plan) share = .ok final) (target : String) :
    final.storedAt target = share.storedAt target ++
      (operators.filter (plan.storesUnder target)).flatMap final.rowsAt := by
  induction operators generalizing share with
  | nil =>
      obtain rfl := pure_eq_ok.mp evaluated
      simp
  | cons id operators ih =>
      obtain ⟨fresh, restNodup⟩ := List.nodup_cons.mp nodup
      rw [List.foldlM_cons] at evaluated
      obtain ⟨next, stepped, rest⟩ := bind_eq_ok.mp evaluated
      obtain ⟨state, stateStepped, -⟩ := map_eq_ok.mp stepped
      obtain ⟨operator, found⟩ := exists_of_step stateStepped
      rw [Share.step_eq ownIds found] at stepped
      obtain ⟨rows, -, rfl⟩ := map_eq_ok.mp stepped
      have rowsOfId : final.rowsAt id = rows := by
        rw [ownIds.rowsAt_foldlM_step_of_not_mem rest fresh, Share.rowsAt_record,
          if_pos (ownIds id operator found).symm]
      have isStore : plan.storesUnder target id =
          (operator.operation.target? == some target) := by
        rw [storesUnder, found, Option.any_some]
      rw [ih restNodup rest, Share.storedAt_record, List.filter_cons, isStore, List.append_assoc]
      by_cases stores : operator.operation.target? = some target
      · simp [stores, rowsOfId]
      · simp [stores]

/-- Tasks that had stored nothing before, after they have evaluated some operators. -/
def EndsOf (plan : SubPlan) (operators : List OpId) (finals : List Share) : Prop :=
  ∃ shares : List Share, (∀ share ∈ shares, ∀ target, share.storedAt target = []) ∧
    shares.mapM (fun share => operators.foldlM (Share.step plan) share) = .ok finals

/-- Together the tasks of a phase store what they have at the stores. -/
theorem OwnIds.perm_storedAt (ownIds : plan.OwnIds) {operators : List OpId}
    (nodup : operators.Nodup) {finals : List Share} (ends : plan.EndsOf operators finals)
    (target : String) :
    (finals.flatMap fun final => final.storedAt target).Perm
      ((operators.filter (plan.storesUnder target)).flatMap fun id =>
        finals.flatMap fun final => final.rowsAt id) := by
  have stored : (finals.flatMap fun final => final.storedAt target) =
      finals.flatMap fun final =>
        (operators.filter (plan.storesUnder target)).flatMap final.rowsAt := by
    obtain ⟨shares, noneStored, evaluated⟩ := ends
    refine List.flatMap_congr fun final member => ?_
    obtain ⟨share, isShare, ran⟩ := exists_mem_of_forall₂ (mapM_eq_ok.mp evaluated).flip member
    rw [ownIds.storedAt_foldlM_step nodup ran, noneStored share isShare target, List.nil_append]
  rw [stored, ← Multiset.coe_eq_coe]
  simp only [← Multiset.coe_bind]
  exact Multiset.bind_bind _ _

section Phases

variable (wellFormed : plan.WellFormed) (divided : plan.phases = .ok phases)

include wellFormed divided

theorem WellFormed.contains_reduce (isOperator : storer ∈ plan.operators) :
    phases.reduce.contains storer.id = plan.reduceSide.contains storer.id := by
  have found := wellFormed.ownIds.get?_id isOperator
  rw [Bool.eq_iff_iff, List.contains_iff_mem, List.contains_iff_mem,
    wellFormed.mem_reduce_iff divided]
  exact and_iff_right ⟨storer, found⟩

/-- The stores of a phase with a target are those evaluated in the phase. -/
theorem WellFormed.perm_ids_storesInPhase (target : String) (reduces : Bool) :
    ((plan.storesInPhase target reduces).map Operator.id).Perm
      ((if reduces then phases.reduce else phases.map).filter (plan.storesUnder target)) := by
  have ownIds := wellFormed.ownIds
  obtain ⟨nodupMap, nodupReduce⟩ := wellFormed.nodup_phases divided
  have nodup : (if reduces then phases.reduce else phases.map).Nodup := by
    split
    · exact nodupReduce
    · exact nodupMap
  refine (List.perm_ext_iff_of_nodup (ownIds.nodup_map_id_filter _) (nodup.filter _)).mpr
    fun id => ?_
  have inPhase : id ∈ (if reduces then phases.reduce else phases.map) ↔
      (∃ operator, plan.get? id = some operator) ∧ plan.reduceSide.contains id = reduces := by
    cases reduces <;>
      simp [wellFormed.mem_map_iff divided, wellFormed.mem_reduce_iff divided]
  rw [List.mem_filter, inPhase, List.mem_map]
  constructor
  · rintro ⟨operator, member, rfl⟩
    obtain ⟨isOperator, isStore, phase⟩ := mem_storesInPhase.mp member
    have found := ownIds.get?_id isOperator
    refine ⟨⟨⟨operator, found⟩, phase⟩, ?_⟩
    simp [storesUnder, found, isStore, Operation.target?]
  · rintro ⟨⟨⟨operator, found⟩, phase⟩, stores⟩
    have isStore : operator.operation = .store target := by
      rw [storesUnder, found, Option.any_some, beq_iff_eq] at stores
      exact Operation.target?_eq_some.mp stores
    obtain rfl := ownIds id operator found
    exact ⟨operator, mem_storesInPhase.mpr ⟨mem_operators.mpr ⟨_, found⟩, isStore, phase⟩, rfl⟩

end Phases

end SubPlan

theorem sum_filterMap {α : Type} (count : α → Option Nat) (elements : List α) :
    (elements.filterMap count).sum = (elements.map fun element => (count element).getD 0).sum := by
  induction elements with
  | nil => rfl
  | cons element rest ih =>
      rw [List.filterMap_cons, List.map_cons, List.sum_cons, ← ih]
      cases count element <;> simp

namespace StageTasks

/-- Every store counts the rows of its parts. -/
theorem outputRows_foldl_writeTarget (tasks : StageTasks) (operators : List Operator)
    (state : FileStore × JobStats) :
    (operators.foldl tasks.writeTarget state).2.outputRows =
      state.2.outputRows + UInt64.ofNat (operators.map fun operator =>
        operator.operation.target?.elim 0 fun target =>
          (tasks.partsOf operator.id target).flatten.length).sum := by
  induction operators generalizing state with
  | nil => simp
  | cons operator operators ih =>
      rw [List.foldl_cons, ih, List.map_cons, List.sum_cons]
      cases kind : operator.operation with
      | store target =>
          simp only [writeTarget, kind, Operation.target?, Option.elim_some, UInt64.ofNat_add,
            UInt64.add_assoc]
      | _ => simp [writeTarget, kind, Operation.target?]

end StageTasks

namespace Stage

/-- The rows that the reduce tasks produce at an operator, after some map tasks. -/
def producedByReducers (stage : Stage) (config : EngineConfig) (phases : Phases)
    (broadcast : Bindings) (mapOutputs : List TaskOutput) (id : OpId) :
    Except RunError (List (List Row)) :=
  if phases.reduce.isEmpty then pure []
  else do
    let dealt ← stage.shuffle (stage.reduceTasks config).toNat mapOutputs
    dealt.mapM (stage.producedByReduce phases broadcast id)

/-- The rows that reach an operator in any task of the stage. -/
def reached (stage : Stage) (graph : StageGraph) (config : EngineConfig) (store : FileStore)
    (id : OpId) : Except RunError (List Row) := do
  let phases ← stage.plan.phases
  let input ← stage.input graph config store
  let mapOutputs ← input.splits.mapM (stage.runSplit phases store input.broadcast)
  let mapped ← input.splits.mapM (stage.producedByMap phases input.broadcast id store)
  let reduced ← stage.producedByReducers config phases input.broadcast mapOutputs id
  return mapped.flatten ++ reduced.flatten

/-- The rows that an operator produces in each task of the stage, map tasks first. -/
def producedByTasks (stage : Stage) (graph : StageGraph) (config : EngineConfig)
    (store : FileStore) (id : OpId) : Except RunError (List (List Row)) := do
  let phases ← stage.plan.phases
  let input ← stage.input graph config store
  let mapOutputs ← input.splits.mapM (stage.runSplit phases store input.broadcast)
  let mapped ← input.splits.mapM (stage.producedByMap phases input.broadcast id store)
  let reduced ← stage.producedByReducers config phases input.broadcast mapOutputs id
  return mapped ++ reduced

variable {stage : Stage} {graph : StageGraph} {config : EngineConfig} {store after : FileStore}
  {tasks : StageTasks} {stats : JobStats} {target : String}

/-- The rows counted for an operator: a store counts those of all stores that write the
same parts. -/
def rowsCounted (stage : Stage) (rowsAt : OpId → List Row) (operator : Operator) : Nat :=
  operator.operation.target?.elim 0 fun target =>
    ((stage.plan.sharers operator target).map fun sharer => (rowsAt sharer.id).length).sum

/-- The tasks of a stage at their ends: what they stored, and what reached each operator. -/
structure Finished (stage : Stage) (graph : StageGraph) (config : EngineConfig) (store : FileStore)
    (tasks : StageTasks) (mapFinals reduceFinals : List Share) : Prop where
  divided : stage.plan.phases = .ok tasks.phases
  mapEnds : stage.plan.EndsOf tasks.phases.map mapFinals
  reduceEnds : stage.plan.EndsOf tasks.phases.reduce reduceFinals
  storedMap : ∀ target, TaskOutput.stored tasks.mapOutputs target =
    mapFinals.flatMap fun final => final.storedAt target
  storedReduce : ∀ target, TaskOutput.stored tasks.reduceOutputs target =
    reduceFinals.flatMap fun final => final.storedAt target
  produced : ∀ id, stage.producedByTasks graph config store id =
    .ok ((mapFinals.map fun final => if id ∈ tasks.phases.map then final.rowsAt id else []) ++
      reduceFinals.map fun final => if id ∈ tasks.phases.reduce then final.rowsAt id else [])

/-- What reaches an operator is what it produces in all tasks together. -/
theorem reached_of_producedByTasks {id : OpId} {produced : List (List Row)}
    (ran : stage.producedByTasks graph config store id = .ok produced) :
    stage.reached graph config store id = .ok produced.flatten := by
  obtain ⟨phases, divided, ran⟩ := bind_eq_ok.mp ran
  obtain ⟨input, isInput, ran⟩ := bind_eq_ok.mp ran
  obtain ⟨mapOutputs, mapRan, ran⟩ := bind_eq_ok.mp ran
  obtain ⟨mapped, isMapped, ran⟩ := bind_eq_ok.mp ran
  obtain ⟨reduced, isReduced, returned⟩ := bind_eq_ok.mp ran
  obtain rfl := pure_eq_ok.mp returned
  rw [List.flatten_append]
  exact bind_eq_ok.mpr ⟨_, divided, bind_eq_ok.mpr ⟨_, isInput, bind_eq_ok.mpr ⟨_, mapRan,
    bind_eq_ok.mpr ⟨_, isMapped, bind_eq_ok.mpr ⟨_, isReduced, rfl⟩⟩⟩⟩⟩

section Ends

variable {phases : Phases} {finals : List Share}

/-- The map tasks at their ends, and the rows of an operator in them. -/
theorem endsOf_splitTasks (ownIds : stage.plan.OwnIds)
    (ended : ((stage.allSplits graph config store).map (stage.splitTask graph store)).mapM
      (fun part => phases.map.foldlM (Share.step stage.plan) part) = .ok finals) :
    stage.plan.EndsOf phases.map finals ∧ ∀ id, (stage.allSplits graph config store).mapM
      (stage.producedByMap phases (stage.rowsOfLoads graph store stage.replicates) id store) =
        .ok (finals.map fun final => if id ∈ phases.map then final.rowsAt id else []) := by
  refine ⟨⟨_, fun share member target => ?_, ended⟩, fun id => ?_⟩
  · obtain ⟨split, -, rfl⟩ := List.mem_map.mp member
    rfl
  · rw [List.mapM_map] at ended
    exact (mapM_eq_ok_image fun split member _ =>
      producedByMap_eq_ok (mem_allSplits ownIds member).2).mpr ⟨finals, ended, rfl⟩

/-- The reduce tasks at their ends, and the rows of an operator in them. -/
theorem endsOf_reducerTasks {dealt : List (OrderedMap OpId Groups)}
    (ended : (dealt.map (stage.reducerTask graph store)).mapM
      (fun part => phases.reduce.foldlM (Share.step stage.plan) part) = .ok finals) :
    stage.plan.EndsOf phases.reduce finals ∧ ∀ id, dealt.mapM
      (stage.producedByReduce phases (stage.rowsOfLoads graph store stage.replicates) id) =
        .ok (finals.map fun final => if id ∈ phases.reduce then final.rowsAt id else []) := by
  refine ⟨⟨_, fun share member target => ?_, ended⟩, fun id => ?_⟩
  · obtain ⟨groups, -, rfl⟩ := List.mem_map.mp member
    rfl
  · rw [List.mapM_map] at ended
    exact (mapM_eq_ok_image fun _ _ _ => producedByReduce_eq_ok).mpr ⟨finals, ended, rfl⟩

end Ends

theorem exists_finished (ownIds : stage.plan.OwnIds)
    (ran : stage.runTasks graph config store = .ok tasks) :
    ∃ mapFinals reduceFinals, stage.Finished graph config store tasks mapFinals reduceFinals := by
  obtain ⟨divided, ⟨input, isInput, -⟩, mapRan, noReduce, reduceRan⟩ := runTasks_eq_ok.mp ran
  obtain ⟨-, broadcast, splits⟩ := input_parts isInput
  obtain ⟨mapFinals, mapEnded, sameMap⟩ := (mapM_runSplit_eq_ok ownIds).mp mapRan
  obtain ⟨mapEnds, producedByMaps⟩ := endsOf_splitTasks ownIds mapEnded
  have storedMap (target : String) : TaskOutput.stored tasks.mapOutputs target =
      mapFinals.flatMap fun final => final.storedAt target := by
    rw [← sameMap, TaskOutput.stored, List.flatMap_map]
    rfl
  rw [← splits, ← broadcast] at mapRan producedByMaps
  have produced_eq_ok {id : OpId} {reduced : List (List Row)} (producedByReducers :
      stage.producedByReducers config tasks.phases input.broadcast tasks.mapOutputs id =
        .ok reduced) : stage.producedByTasks graph config store id =
      .ok ((mapFinals.map fun final => if id ∈ tasks.phases.map then final.rowsAt id else []) ++
        reduced) :=
    bind_eq_ok.mpr ⟨_, divided, bind_eq_ok.mpr ⟨_, isInput, bind_eq_ok.mpr ⟨_, mapRan,
      bind_eq_ok.mpr ⟨_, producedByMaps id, bind_eq_ok.mpr ⟨_, producedByReducers, rfl⟩⟩⟩⟩⟩
  by_cases isEmpty : tasks.phases.reduce = []
  · refine ⟨mapFinals, [], divided, mapEnds, ⟨[], by simp, rfl⟩, storedMap, ?_, fun id => ?_⟩
    · rw [noReduce isEmpty]
      exact fun _ => rfl
    · refine @produced_eq_ok id [] ?_
      rw [producedByReducers, isEmpty]
      rfl
  · obtain ⟨dealt, shuffled, reducersRan⟩ := reduceRan isEmpty
    obtain ⟨reduceFinals, reduceEnded, sameReduce⟩ := mapM_runReduceTask_eq_ok.mp reducersRan
    obtain ⟨reduceEnds, producedByReduces⟩ := endsOf_reducerTasks reduceEnded
    refine ⟨mapFinals, reduceFinals, divided, mapEnds, reduceEnds, storedMap, fun target => ?_,
      fun id => produced_eq_ok ?_⟩
    · rw [← sameReduce, TaskOutput.stored, List.flatMap_map]
      rfl
    · rw [producedByReducers, if_neg (by simpa using isEmpty), broadcast]
      exact bind_eq_ok.mpr ⟨dealt, shuffled, producedByReduces id⟩

theorem Finished.reached {mapFinals reduceFinals : List Share}
    (finished : stage.Finished graph config store tasks mapFinals reduceFinals) (id : OpId) :
    stage.reached graph config store id =
      .ok ((mapFinals.flatMap fun final => if id ∈ tasks.phases.map then final.rowsAt id else []) ++
        reduceFinals.flatMap fun final =>
          if id ∈ tasks.phases.reduce then final.rowsAt id else []) := by
  rw [reached_of_producedByTasks (finished.produced id), List.flatten_append, List.flatMap_def,
    List.flatMap_def]

namespace Finished

variable {mapFinals reduceFinals : List Share}
  (finished : stage.Finished graph config store tasks mapFinals reduceFinals)
  (wellFormed : stage.plan.WellFormed) {rowsAt : OpId → List Row}
  (reached : ∀ id, stage.reached graph config store id = .ok (rowsAt id))

include finished wellFormed reached

/-- The rows that reach an operator reach it in the tasks of its phase. -/
theorem rowsAt_eq {operator : Operator} (isOperator : operator ∈ stage.plan.operators) :
    rowsAt operator.id =
      (if stage.plan.reduceSide.contains operator.id then reduceFinals else mapFinals).flatMap
        fun final => final.rowsAt operator.id := by
  have found := wellFormed.ownIds.get?_id isOperator
  rw [← Except.ok.inj ((finished.reached operator.id).symm.trans (reached operator.id))]
  by_cases inReduce : operator.id ∈ stage.plan.reduceSide
  · have reduces := (wellFormed.mem_reduce_iff finished.divided).mpr ⟨⟨operator, found⟩, inReduce⟩
    have notMaps : operator.id ∉ tasks.phases.map := fun maps =>
      ((wellFormed.mem_map_iff finished.divided).mp maps).2 inReduce
    simp [inReduce, reduces, notMaps]
  · have maps := (wellFormed.mem_map_iff finished.divided).mpr ⟨⟨operator, found⟩, inReduce⟩
    have notReduces : operator.id ∉ tasks.phases.reduce := fun reduces =>
      inReduce ((wellFormed.mem_reduce_iff finished.divided).mp reduces).2
    simp [inReduce, maps, notReduces]

/-- The parts of a store hold the rows that reached the stores of its phase with its target. -/
theorem perm_partsOf {storer : Operator} (isOperator : storer ∈ stage.plan.operators)
    (target : String) :
    (tasks.partsOf storer.id target).flatten.Perm
      ((stage.plan.sharers storer target).flatMap fun sharer => rowsAt sharer.id) := by
  have ownIds := wellFormed.ownIds
  obtain ⟨nodupMap, nodupReduce⟩ := wellFormed.nodup_phases finished.divided
  have sharers := wellFormed.perm_ids_storesInPhase finished.divided target
    (stage.plan.reduceSide.contains storer.id)
  have together : ((stage.plan.sharers storer target).flatMap fun sharer => rowsAt sharer.id) =
      ((stage.plan.sharers storer target).map Operator.id).flatMap fun id =>
        (if stage.plan.reduceSide.contains storer.id then reduceFinals else mapFinals).flatMap
          fun final => final.rowsAt id := by
    rw [List.flatMap_map]
    refine List.flatMap_congr fun sharer member => ?_
    obtain ⟨isSharer, -, samePhase⟩ := SubPlan.mem_storesInPhase.mp member
    rw [finished.rowsAt_eq wellFormed reached isSharer, samePhase]
  rw [tasks.flatten_partsOf, wellFormed.contains_reduce finished.divided isOperator, together]
  refine List.Perm.trans ?_ (sharers.symm.flatMap_right _)
  cases stage.plan.reduceSide.contains storer.id with
  | false =>
      rw [if_neg Bool.false_ne_true, finished.storedMap]
      exact ownIds.perm_storedAt nodupMap finished.mapEnds target
  | true =>
      rw [if_pos rfl, finished.storedReduce]
      exact ownIds.perm_storedAt nodupReduce finished.reduceEnds target

/-- The rows that reached a store are among those of its parts. -/
theorem subperm_partsOf {storer : Operator} (isOperator : storer ∈ stage.plan.operators)
    (isStore : storer.operation = .store target) :
    (rowsAt storer.id).Subperm (tasks.partsOf storer.id target).flatten := by
  have isSharer : storer ∈ stage.plan.sharers storer target :=
    SubPlan.mem_storesInPhase.mpr ⟨isOperator, isStore, rfl⟩
  have among : (rowsAt storer.id).Sublist
      ((stage.plan.sharers storer target).flatMap fun sharer => rowsAt sharer.id) := by
    rw [List.flatMap_def]
    exact List.sublist_flatten_of_mem (List.mem_map.mpr ⟨storer, isSharer, rfl⟩)
  have parts := finished.perm_partsOf wellFormed reached isOperator target
  exact among.subperm.trans parts.symm.subperm

/-- The rows counted are those of the parts of all stores. -/
theorem outputRows_eq :
    (stage.plan.operators.foldl tasks.writeTarget (store, tasks.initialStats)).2.outputRows =
      UInt64.ofNat (stage.plan.operators.map (stage.rowsCounted rowsAt)).sum := by
  rw [tasks.outputRows_foldl_writeTarget, StageTasks.initialStats, UInt64.zero_add]
  refine congrArg (fun counts => UInt64.ofNat (List.sum counts))
    (List.map_congr_left fun operator isOperator => ?_)
  rw [rowsCounted]
  cases operator.operation.target? with
  | none => rfl
  | some target =>
      have parts := finished.perm_partsOf wellFormed reached isOperator target
      simp only [Option.elim_some, parts.length_eq, List.length_flatMap]

end Finished

section Writing

variable (wellFormed : stage.plan.WellFormed) (divided : stage.plan.phases = .ok tasks.phases)
  {before rest : List Operator} {storer : Operator}
  (split : stage.plan.operators = before ++ storer :: rest)
  (isStore : storer.operation = .store target)

include wellFormed divided split

/-- The stores of one phase with one target write the same parts. -/
theorem partsOf_of_mem_sharers {sharer : Operator}
    (member : sharer ∈ stage.plan.sharers storer target) :
    tasks.partsOf sharer.id target = tasks.partsOf storer.id target := by
  obtain ⟨isSharer, -, samePhase⟩ := SubPlan.mem_storesInPhase.mp member
  have isOperator : storer ∈ stage.plan.operators := by simp [split]
  rw [StageTasks.partsOf, StageTasks.partsOf, wellFormed.contains_reduce divided isSharer,
    wellFormed.contains_reduce divided isOperator, samePhase]

include isStore

/-- The store after a stage: its target is written, and then those of the later stores. -/
theorem replaceAll_writes_of_split (store : FileStore) :
    ∃ earlier : FileStore, ∃ laterWrites, store.replaceAll (tasks.writes stage.plan) =
        (earlier.replace target (tasks.partsOf storer.id target)).replaceAll laterWrites ∧
      ∀ write ∈ laterWrites, ∃ later ∈ rest, later.operation = .store write.1 ∧
        (later ∈ stage.plan.sharers storer target →
          write = (target, tasks.partsOf storer.id target)) := by
  let writesOf (operators : List Operator) := operators.filterMap fun operator =>
    operator.operation.target?.map fun target => (target, tasks.partsOf operator.id target)
  refine ⟨store.replaceAll (writesOf before), writesOf rest, ?_, fun write member => ?_⟩
  · have parts : tasks.writes stage.plan =
        writesOf before ++ (target, tasks.partsOf storer.id target) :: writesOf rest := by
      rw [StageTasks.writes, split, List.filterMap_append, List.filterMap_cons, isStore]
      rfl
    rw [parts, FileStore.replaceAll, List.foldl_append]
    rfl
  · obtain ⟨later, inRest, isWrite⟩ := List.mem_filterMap.mp member
    obtain ⟨other, isTarget, rfl⟩ := Option.map_eq_some_iff.mp isWrite
    have isLater := Operation.target?_eq_some.mp isTarget
    refine ⟨later, inRest, isLater, fun shares => ?_⟩
    obtain rfl : other = target := Operation.store.inj
      (isLater.symm.trans (SubPlan.mem_storesInPhase.mp shares).2.1)
    rw [partsOf_of_mem_sharers wellFormed divided split shares]

theorem holdsParts_of_spared (spared : ∀ later ∈ rest, stage.plan.Spares storer target later) :
    (store.replaceAll (tasks.writes stage.plan)).HoldsParts target
      (tasks.partsOf storer.id target) := by
  obtain ⟨earlier, laterWrites, written, later⟩ :=
    replaceAll_writes_of_split wellFormed divided split isStore store
  rw [written]
  refine (holdsParts_replace earlier target _).replaceAll fun write member => ?_
  obtain ⟨operator, inRest, isLater, shared⟩ := later write member
  exact (spared operator inRest write.1 isLater).imp_left shared

theorem rowsOf_perm_of_leftAlone
    (leftAlone : ∀ later ∈ rest, stage.plan.LeavesAlone storer target later) :
    ((store.replaceAll (tasks.writes stage.plan)).rowsOf target).Perm
      (tasks.partsOf storer.id target).flatten := by
  obtain ⟨earlier, laterWrites, written, later⟩ :=
    replaceAll_writes_of_split wellFormed divided split isStore store
  rw [written]
  refine rowsOf_replaceAll_of_last fun write member => ?_
  obtain ⟨operator, inRest, isLater, shared⟩ := later write member
  exact (leftAlone operator inRest write.1 isLater).imp_left shared

end Writing

/-- If no two stores have equal or nested targets, all others leave a store alone. -/
theorem leavesAlone_of_separate (ownIds : stage.plan.OwnIds)
    (separate : stage.plan.SeparateTargets) {before rest : List Operator} {storer : Operator}
    (split : stage.plan.operators = before ++ storer :: rest)
    (isStore : storer.operation = .store target) :
    (∀ later ∈ rest, stage.plan.LeavesAlone storer target later) ∧
      stage.plan.sharers storer target = [storer] := by
  have isOperator : storer ∈ stage.plan.operators := by simp [split]
  have targets : stage.plan.targets =
      (before.filterMap fun operator => operator.operation.target?) ++
        target :: rest.filterMap fun operator => operator.operation.target? := by
    rw [SubPlan.targets, split, List.filterMap_append, List.filterMap_cons, isStore]
    rfl
  rw [SubPlan.SeparateTargets, targets, List.pairwise_append, List.pairwise_cons] at separate
  obtain ⟨-, ⟨apartLater, -⟩, apartEarlier⟩ := separate
  have isTarget {operator : Operator} {other : String} {operators : List Operator}
      (member : operator ∈ operators) (stores : operator.operation = .store other) :
      other ∈ operators.filterMap fun operator => operator.operation.target? :=
    List.mem_filterMap.mpr ⟨operator, member, Operation.target?_eq_some.mpr stores⟩
  refine ⟨fun later inRest other isLater => .inr (apartLater other (isTarget inRest isLater)), ?_⟩
  have nodup : (stage.plan.sharers storer target).Nodup := ownIds.nodup_operators.filter _
  refine List.perm_singleton.mp ((List.perm_ext_iff_of_nodup nodup (List.nodup_singleton _)).mpr
    fun sharer => ?_)
  rw [SubPlan.sharers, SubPlan.mem_storesInPhase, List.mem_singleton]
  constructor
  · rintro ⟨isSharer, sameTarget, -⟩
    rw [split, List.mem_append, List.mem_cons] at isSharer
    obtain inFront | rfl | inRest := isSharer
    · exact absurd (.refl target)
        (apartEarlier target (isTarget inFront sameTarget) target List.mem_cons_self).1
    · rfl
    · exact absurd (.refl target) (apartLater target (isTarget inRest sameTarget)).1
  · rintro rfl
    exact ⟨isOperator, isStore, rfl⟩

/-- The rows that reached a store of a stage that succeeds are under its target in the end
unless a later store clears them.  If the later stores leave the target alone, it holds
exactly the rows of the stores that write the same parts, and every one of these counts them
all.  So with no equal or nested targets, each target holds the rows of its store, and these
are the rows counted. -/
theorem stored_rows_of_run (ownIds : stage.plan.OwnIds) (valid : stage.plan.validate = .ok ())
    (ran : stage.run graph config store = .ok stats after) :
    ∃ rowsAt : OpId → List Row, (∀ id, stage.reached graph config store id = .ok (rowsAt id)) ∧
      (∀ before storer rest target, stage.plan.operators = before ++ storer :: rest →
        storer.operation = .store target →
          ((∀ later ∈ rest, stage.plan.Spares storer target later) →
            (rowsAt storer.id).Subperm (after.rowsOf target)) ∧
          ((∀ later ∈ rest, stage.plan.LeavesAlone storer target later) →
            (after.rowsOf target).Perm
              ((stage.plan.sharers storer target).flatMap fun sharer => rowsAt sharer.id))) ∧
      stats.outputRows =
        UInt64.ofNat (stage.plan.operators.map (stage.rowsCounted rowsAt)).sum ∧
      (stage.plan.SeparateTargets →
        (∀ storer ∈ stage.plan.operators, ∀ target, storer.operation = .store target →
          (after.rowsOf target).Perm (rowsAt storer.id)) ∧
        stats.outputRows =
          UInt64.ofNat
            (stage.plan.targets.map fun target => (after.rowsOf target).length).sum) := by
  have wellFormed := ownIds.wellFormed valid
  obtain ⟨tasks, tasksRan, rfl, rfl⟩ := run_eq_ok.mp ran
  obtain ⟨mapFinals, reduceFinals, finished⟩ := exists_finished ownIds tasksRan
  have divided := finished.divided
  obtain ⟨rowsAt, reached⟩ : ∃ rowsAt : OpId → List Row,
      ∀ id, stage.reached graph config store id = .ok (rowsAt id) := ⟨_, finished.reached⟩
  have kept {before rest : List Operator} {storer : Operator} {target : String}
      (split : stage.plan.operators = before ++ storer :: rest)
      (isStore : storer.operation = .store target)
      (leftAlone : ∀ later ∈ rest, stage.plan.LeavesAlone storer target later) :
      ((store.replaceAll (tasks.writes stage.plan)).rowsOf target).Perm
        ((stage.plan.sharers storer target).flatMap fun sharer => rowsAt sharer.id) :=
    (rowsOf_perm_of_leftAlone wellFormed finished.divided split isStore leftAlone).trans
      (finished.perm_partsOf wellFormed reached (by simp [split]) target)
  have counted := finished.outputRows_eq wellFormed reached
  refine ⟨rowsAt, reached, fun before storer rest target split isStore => ⟨fun spared => ?_,
    kept split isStore⟩, counted, fun separate => ?_⟩
  · have holds : (store.replaceAll (tasks.writes stage.plan)).HoldsParts target
        (tasks.partsOf storer.id target) :=
      holdsParts_of_spared wellFormed finished.divided split isStore spared
    exact (finished.subperm_partsOf wellFormed reached (by simp [split]) isStore).trans
      holds.subperm_rowsOf
  · have sharerOnly {storer : Operator} {target : String}
        (isOperator : storer ∈ stage.plan.operators) (isStore : storer.operation = .store target) :
        ((store.replaceAll (tasks.writes stage.plan)).rowsOf target).Perm (rowsAt storer.id) ∧
          stage.plan.sharers storer target = [storer] := by
      obtain ⟨before, rest, split⟩ := List.append_of_mem isOperator
      obtain ⟨leftAlone, only⟩ := leavesAlone_of_separate ownIds separate split isStore
      have rows := kept split isStore leftAlone
      rw [only, List.flatMap_singleton] at rows
      exact ⟨rows, only⟩
    refine ⟨fun storer isOperator target isStore => (sharerOnly isOperator isStore).1, ?_⟩
    rw [counted, SubPlan.targets, List.map_filterMap, sum_filterMap]
    refine congrArg (fun counts => UInt64.ofNat (List.sum counts))
      (List.map_congr_left fun operator isOperator => ?_)
    rw [rowsCounted]
    cases isTarget : operator.operation.target? with
    | none => rfl
    | some target =>
        obtain ⟨rows, only⟩ := sharerOnly isOperator (Operation.target?_eq_some.mp isTarget)
        simp [only, rows.length_eq]

/-- A plan that copies the sales, and stores both the sales and their counts in one target. -/
def clashingTotals : SubPlan :=
  ((((((SubPlan.empty.insert ⟨⟨0⟩, .load (.dataset "sales"), []⟩).insert
    ⟨⟨1⟩, .store "copy", [⟨0⟩]⟩).insert
    ⟨⟨2⟩, .store "totals", [⟨0⟩]⟩).insert
    ⟨⟨3⟩, .rearrange 0, [⟨0⟩]⟩).insert
    ⟨⟨4⟩, .package none false, [⟨3⟩]⟩).insert
    ⟨⟨5⟩, .forEach [.groupKey, .aggregate .count 0 false], [⟨4⟩]⟩).insert
    ⟨⟨6⟩, .store "totals", [⟨5⟩]⟩

/-- The stage with this plan. -/
def clashingStage : Stage :=
  ⟨⟨0⟩, .ordinary, clashingTotals, {}⟩

/-- The graph with this stage alone. -/
def clashingGraph : StageGraph :=
  ⟨(∅ : OrderedMap StageId Stage).insert ⟨0⟩ clashingStage, ∅, 1⟩

theorem phases_clashingTotals :
    clashingTotals.phases = .ok ⟨[⟨0⟩, ⟨3⟩, ⟨2⟩, ⟨1⟩], [⟨4⟩, ⟨5⟩, ⟨6⟩]⟩ := by
  cbv

theorem ownIds_clashingTotals : clashingTotals.OwnIds :=
  ((((((SubPlan.OwnIds.empty.insert _).insert _).insert _).insert _).insert _).insert _).insert _

/-- The counts of the sales of each region. -/
def salesCounts : List Row :=
  [[.int 1, .int 2], [.int 2, .int 1]]

/-- The tasks of the stage over `salesStore`. -/
def clashingTasks : StageTasks where
  phases := ⟨[⟨0⟩, ⟨3⟩, ⟨2⟩, ⟨1⟩], [⟨4⟩, ⟨5⟩, ⟨6⟩]⟩
  broadcastFiles := 0
  mapOutputs := [⟨((∅ : OrderedMap String (List Row)).insert "totals" salesRows).insert "copy"
    salesRows, (∅ : Bindings).insert ⟨4⟩
      [[.int 1, .int 1, .int 5], [.int 2, .int 2, .int 7], [.int 1, .int 1, .int 6]]⟩]
  reduceOutputs := [⟨(∅ : OrderedMap String (List Row)).insert "totals" salesCounts, ∅⟩]

theorem runTasks_clashingStage :
    clashingStage.runTasks clashingGraph {} salesStore = .ok clashingTasks := by
  rw [runTasks, show clashingStage.plan = clashingTotals from rfl, phases_clashingTotals]
  rfl

theorem reached_clashingStage :
    clashingStage.reached clashingGraph {} salesStore ⟨2⟩ = .ok salesRows := by
  rw [Stage.reached, show clashingStage.plan = clashingTotals from rfl, phases_clashingTotals]
  rfl

theorem run_clashingStage :
    clashingStage.run clashingGraph {} salesStore = .ok ⟨1, 1, 3, 8, 0⟩
      (salesStore.replaceAll (clashingTasks.writes clashingTotals)) :=
  run_eq_ok.mpr ⟨clashingTasks, runTasks_clashingStage, rfl, rfl⟩

/-- The counts of the sales are what is left under their target. -/
theorem stored_rows_of_run_clashingStage :
    clashingTotals.OwnIds ∧ clashingTotals.validate = .ok () ∧
      ∃ stats after rows, clashingStage.run clashingGraph {} salesStore = .ok stats after ∧
        clashingStage.reached clashingGraph {} salesStore ⟨6⟩ = .ok rows ∧
          rows.Subperm (after.rowsOf "totals") ∧ (after.rowsOf "totals").Perm rows := by
  have valid : clashingTotals.validate = .ok () := rfl
  obtain ⟨rowsAt, reached, rows, -, -⟩ :=
    stored_rows_of_run ownIds_clashingTotals valid run_clashingStage
  have split : clashingTotals.operators = clashingTotals.operators.take 6 ++
      ⟨⟨6⟩, .store "totals", [⟨5⟩]⟩ :: [] := rfl
  obtain ⟨kept, only⟩ := rows _ _ _ "totals" split rfl
  have sharers : clashingTotals.sharers ⟨⟨6⟩, .store "totals", [⟨5⟩]⟩ "totals" =
      [⟨⟨6⟩, .store "totals", [⟨5⟩]⟩] := by cbv
  have perm := only (by simp)
  rw [show clashingStage.plan = clashingTotals from rfl, sharers, List.flatMap_singleton] at perm
  exact ⟨ownIds_clashingTotals, valid, _, _, rowsAt ⟨6⟩, run_clashingStage, reached ⟨6⟩,
    kept (by simp), perm⟩

/-- The sales that the map task stored are cleared by the store of the reduce task, but they
are counted. -/
theorem clashingStage_loses_sales :
    clashingTotals.OwnIds ∧ clashingTotals.validate = .ok () ∧
      clashingTotals.get? ⟨2⟩ = some ⟨⟨2⟩, .store "totals", [⟨0⟩]⟩ ∧
      clashingStage.reached clashingGraph {} salesStore ⟨2⟩ = .ok salesRows ∧
      ∃ stats after, clashingStage.run clashingGraph {} salesStore = .ok stats after ∧
        ¬ salesRows.Subperm (after.rowsOf "totals") ∧ stats.outputRows = 8 ∧
          (after.rowsOf "copy").length + (after.rowsOf "totals").length = 5 := by
  have totals : (salesStore.replaceAll (clashingTasks.writes clashingTotals)).rowsOf "totals" =
      salesCounts := rfl
  refine ⟨ownIds_clashingTotals, rfl, rfl, reached_clashingStage, _, _, run_clashingStage, ?_, rfl,
    rfl⟩
  rw [totals]
  exact fun kept => absurd kept.length_le (by decide)

end Stage

end BatchFlow
