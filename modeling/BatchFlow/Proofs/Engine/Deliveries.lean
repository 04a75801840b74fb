import BatchFlow.Proofs.Engine.Parallelism
import BatchFlow.Proofs.Task.Bindings

/-!
# What the map tasks hand to the consumers of a load

The files of a load are dealt to the splits of a stage unless some join reads
the load in full; then every task has all of its rows.  That choice is made once
for a load, also if other operators read it.  Over all map tasks such an operator
gets the rows of the load as many times as there are splits, which need not be
once.
-/

namespace BatchFlow

open Results

/-- The rows that a map task hands to one side of an operator: those that the
operator finds when its turn comes, or the keyed rows sent to a grouping operator. -/
def SubPlan.handed (plan : SubPlan) (phases : Phases) (loads : Bindings) (consumer : Operator)
    (side : Nat) : Except RunError (List Row) :=
  if consumer.operation.isPackage then
    (plan.runMapTask phases loads).map fun output => (output.shuffle.get? consumer.id).getD []
  else do
    let state ← plan.evaluate (phases.map.takeWhile fun id => id != consumer.id) loads fun _ => []
    state.input consumer side

/-- The rows that the task of one split hands to one side of an operator. -/
def Stage.delivery (stage : Stage) (phases : Phases) (store : FileStore) (broadcast : Bindings)
    (consumer : Operator) (side : Nat) (split : Split) : Except RunError (List Row) := do
  let rows ← store.readFiles split.files
  stage.plan.handed phases (broadcast.insert split.load rows) consumer side

namespace SubPlan

theorem takeWhile_append_of_mem {ids : List OpId} {id : OpId} (member : id ∈ ids) :
    ∃ after, ids = (ids.takeWhile fun other => other != id) ++ id :: after := by
  induction ids with
  | nil => simp at member
  | cons first rest ih =>
      by_cases atFirst : first = id
      · exact ⟨rest, by simp [atFirst]⟩
      · obtain ⟨after, split⟩ := ih ((List.mem_cons.mp member).resolve_left (Ne.symm atFirst))
        refine ⟨after, ?_⟩
        rw [List.takeWhile_cons_of_pos (by simpa using atFirst), List.cons_append, ← split]

/-- A map task hands to every consumer of a load the rows bound to that load,
except on the replicated sides of joins. -/
theorem WellFormed.handed_load {plan : SubPlan} (wellFormed : plan.WellFormed) {phases : Phases}
    (split : plan.phases = .ok phases) {loads : Bindings} {output : TaskOutput}
    (ran : plan.runMapTask phases loads = .ok output) {load consumer : OpId}
    {loader reader : Operator} {side : Nat} (foundLoad : plan.get? load = some loader)
    (isLoad : loader.operation.isLoad = true) (found : plan.get? consumer = some reader)
    (reads : reader.inputs[side]? = some load)
    (mainSide : ∀ keys fragment, reader.operation = .join keys fragment →
      side = fragment.toNat) :
    plan.handed phases loads reader side = .ok ((loads.get? load).getD []) := by
  have ownIds := wellFormed.ownIds
  have ownId := ownIds consumer reader found
  have isMain := wellFormed.mainInput?_of_side found reads mainSide
  have loadInMap : load ∈ phases.map := (wellFormed.mem_map_iff split).mpr
    ⟨⟨loader, foundLoad⟩, wellFormed.not_reduceSide_of_isLoad foundLoad isLoad⟩
  obtain ⟨final, evaluated, isOutput⟩ := bind_eq_ok.mp ran
  rw [handed]
  split
  case isTrue isPackage =>
    have isHead : reader.inputs.head? = some load := by
      cases kind : reader.operation <;> simp [kind, Operation.isPackage] at isPackage
      simpa [Operator.mainInput?, kind] using isMain
    have bound := ownIds.get?_foldlM_step_load foundLoad isLoad evaluated loadInMap
    have sent := ownIds.get?_shuffleOf found isPackage isHead final.rows
    rw [ran, ← pure_eq_ok.mp isOutput, ownId, Except.map, sent, bound]
    rfl
  case isFalse notPackage =>
    have notInReduce := wellFormed.not_reduceSide_of_reads_load found isMain foundLoad isLoad
      (Bool.eq_false_of_not_eq_true notPackage)
    have inMap : reader.id ∈ phases.map := by
      rw [ownId]
      exact (wellFormed.mem_map_iff split).mpr ⟨⟨reader, found⟩, notInReduce⟩
    obtain ⟨after, parts⟩ := takeWhile_append_of_mem inMap
    have loadBefore := wellFormed.inputsFirst_map split _ _ _ reader parts (ownId ▸ found) load
      (List.mem_of_getElem? reads)
    rw [parts] at evaluated
    obtain ⟨state, reached⟩ := exists_evaluate_of_append evaluated
    have bound := ownIds.get?_foldlM_step_load foundLoad isLoad reached loadBefore
    rw [reached]
    show state.input reader side = _
    simp only [TaskState.input, reads, bound]

end SubPlan

namespace Stage

variable {stage : Stage} {graph : StageGraph} {config : EngineConfig} {store : FileStore}

/-- The rows of a load in the task of a split. -/
theorem delivery_load (wellFormed : stage.plan.WellFormed) {phases : Phases}
    (divided : stage.plan.phases = .ok phases) {split : Split} {output : TaskOutput}
    (filesExist : ∀ path ∈ split.files, ∃ rows, store.files.get? path = some rows)
    (ran : stage.runSplit phases store (stage.rowsOfLoads graph store stage.replicates) split =
      .ok output) {load consumer : OpId} {loader reader : Operator} {side : Nat}
    (foundLoad : stage.plan.get? load = some loader) (isLoad : loader.operation.isLoad = true)
    (found : stage.plan.get? consumer = some reader) (reads : reader.inputs[side]? = some load)
    (mainSide : ∀ keys fragment, reader.operation = .join keys fragment →
      side = fragment.toNat) :
    stage.delivery phases store (stage.rowsOfLoads graph store stage.replicates) reader side split =
      .ok ((stage.splitTask graph store split).rowsAt load) := by
  have read : store.readFiles split.files = .ok (StageGraph.rowsOfFiles store split.files) :=
    FileStore.readFiles_eq_ok.mpr ⟨filesExist, rfl⟩
  rw [runSplit, read] at ran
  rw [delivery, read]
  exact wellFormed.handed_load divided ran foundLoad isLoad found reads mainSide

section Rows

variable (ownIds : stage.plan.OwnIds) {load : OpId} {loader : Operator}
  (found : stage.plan.get? load = some loader) (isLoad : loader.operation.isLoad = true)

include ownIds found isLoad

theorem rowsAt_wholeMapTask :
    (stage.wholeMapTask graph store).rowsAt load = graph.loadedRows store loader := by
  have bound : (stage.rowsOfLoads graph store fun operator => operator.operation.isLoad).get? load =
      some (graph.loadedRows store loader) :=
    (get?_rowsOfLoads ownIds).mpr ⟨loader, found, isLoad, rfl⟩
  rw [Share.rowsAt, wholeMapTask, bound]
  rfl

/-- In every task a replicated load has all of its rows. -/
theorem rowsAt_splitTask_replicated (replicated : stage.plan.Replicated load) {split : Split}
    (member : split ∈ stage.allSplits graph config store) :
    (stage.splitTask graph store split).rowsAt load = graph.loadedRows store loader := by
  obtain ⟨⟨operator, foundSplit, spreads⟩, -⟩ := mem_allSplits ownIds member
  have different : load ≠ split.load := fun same =>
    ((spreads_iff ownIds foundSplit).mp spreads).2 (same ▸ replicated)
  have bound : (stage.rowsOfLoads graph store stage.replicates).get? load =
      some (graph.loadedRows store loader) :=
    (get?_rowsOfLoads ownIds).mpr
      ⟨loader, found, (replicates_iff ownIds found).mpr ⟨isLoad, replicated⟩, rfl⟩
  rw [Share.rowsAt, splitTask, OrderedMap.get?_insert_of_ne different, bound]
  rfl

end Rows

/-- Copies of a list hold its elements once exactly when there is one copy. -/
theorem perm_flatten_replicate_iff {α : Type} {count : Nat} {rows : List α} :
    (List.replicate count rows).flatten.Perm rows ↔ count = 1 ∨ rows = [] := by
  constructor
  · intro perm
    have sizes : count * rows.length = rows.length := by
      simpa using perm.length_eq
    rcases Nat.eq_zero_or_pos rows.length with none | positive
    · exact .inr (List.length_eq_zero_iff.mp none)
    · exact .inl (Nat.eq_of_mul_eq_mul_right positive (by omega))
  · rintro (rfl | rfl)
    · simp
    · simp

/-- Over all map tasks a consumer of a load gets its rows once and in order, if no
join replicates the load.  If one does, then each task hands over all rows, and
they arrive exactly once only if there is one split or no row. -/
theorem deliveries_of_load (ownIds : stage.plan.OwnIds) (valid : stage.plan.validate = .ok ())
    {phases : Phases} (divided : stage.plan.phases = .ok phases) {input : StageInput}
    (isInput : stage.input graph config store = .ok input) {outputs : List TaskOutput}
    (ran : input.splits.mapM (stage.runSplit phases store input.broadcast) = .ok outputs)
    {load consumer : OpId} {loader reader : Operator} {source : LoadSource} {side : Nat}
    (foundLoad : stage.plan.get? load = some loader) (isLoad : loader.operation = .load source)
    (found : stage.plan.get? consumer = some reader) (reads : reader.inputs[side]? = some load)
    (mainSide : ∀ keys fragment, reader.operation = .join keys fragment →
      side = fragment.toNat) :
    ∃ rows deliveries, (graph.directoryOf source >>= store.readDirectory) = .ok rows ∧
      input.splits.mapM (stage.delivery phases store input.broadcast reader side) =
        .ok deliveries ∧
      (load ∉ stage.plan.broadcastLoads.elements → deliveries.flatten = rows) ∧
      (load ∈ stage.plan.broadcastLoads.elements →
        deliveries = List.replicate input.splits.length rows ∧
          (deliveries.flatten.Perm rows ↔ input.splits.length = 1 ∨ rows = [])) := by
  have wellFormed := ownIds.wellFormed valid
  have loads : loader.operation.isLoad = true := by rw [isLoad]; rfl
  obtain ⟨resolves, broadcast, splits⟩ := input_parts isInput
  obtain ⟨directory, resolved⟩ :=
    resolves loader (SubPlan.mem_operators.mpr ⟨load, foundLoad⟩) source isLoad
  rw [broadcast, splits] at ran
  have eachRan := exists_mapM_iff.mp ⟨outputs, ran⟩
  refine ⟨graph.loadedRows store loader,
    input.splits.map fun split => (stage.splitTask graph store split).rowsAt load, ?_, ?_, ?_, ?_⟩
  · rw [resolved, StageGraph.loadedRows_of_directory isLoad resolved]
    exact FileStore.readDirectory_eq_ok ..
  · rw [broadcast, splits, mapM_eq_ok, List.forall₂_map_right_iff, List.forall₂_same]
    intro split member
    obtain ⟨output, splitRan⟩ := eachRan split member
    exact delivery_load wellFormed divided (mem_allSplits ownIds member).2 splitRan foundLoad
      loads found reads mainSide
  · intro spread
    rw [splits, ← List.flatMap_def, flatMap_rowsAt_splitTask ownIds spread]
    exact rowsAt_wholeMapTask ownIds foundLoad loads
  · intro replicated
    have copies : (input.splits.map fun split => (stage.splitTask graph store split).rowsAt load) =
        List.replicate input.splits.length (graph.loadedRows store loader) := by
      rw [splits, List.eq_replicate_iff]
      refine ⟨List.length_map _, fun rows member => ?_⟩
      obtain ⟨split, inSplits, rfl⟩ := List.mem_map.mp member
      exact rowsAt_splitTask_replicated ownIds foundLoad loads replicated inSplits
    rw [copies]
    exact ⟨rfl, perm_flatten_replicate_iff⟩

/-- A plan that joins sales with regions and also copies the regions. -/
def regionCopies : SubPlan :=
  ((((SubPlan.empty.insert ⟨⟨0⟩, .load (.dataset "sales"), []⟩).insert
    ⟨⟨1⟩, .load (.dataset "regions"), []⟩).insert
    ⟨⟨2⟩, .join [0, 0] 0, [⟨0⟩, ⟨1⟩]⟩).insert
    ⟨⟨3⟩, .store "copy", [⟨1⟩]⟩).insert
    ⟨⟨4⟩, .store "joined", [⟨2⟩]⟩

def copyStage : Stage :=
  ⟨⟨0⟩, .ordinary, regionCopies, {}⟩

def copyGraph : StageGraph :=
  ⟨(∅ : OrderedMap StageId Stage).insert ⟨0⟩ copyStage, ∅, 1⟩

/-- The configuration under which every file is a split. -/
def unmerged : EngineConfig :=
  { splitCombinationDisabled := true }

theorem ownIds_regionCopies : regionCopies.OwnIds :=
  ((((SubPlan.OwnIds.empty.insert _).insert _).insert _).insert _).insert _

theorem phases_regionCopies :
    regionCopies.phases = .ok ⟨[⟨0⟩, ⟨1⟩, ⟨3⟩, ⟨2⟩, ⟨4⟩], []⟩ := by
  cbv

def copyInput : StageInput :=
  ⟨(∅ : Bindings).insert ⟨1⟩ regionRows, 1,
    [⟨⟨0⟩, ["sales/part-00000"]⟩, ⟨⟨0⟩, ["sales/part-00001"]⟩]⟩

theorem input_copyStage : copyStage.input copyGraph unmerged salesStore = .ok copyInput := by
  rfl

theorem exists_mapOutputs_copyStage : ∃ outputs, copyInput.splits.mapM
    (copyStage.runSplit ⟨[⟨0⟩, ⟨1⟩, ⟨3⟩, ⟨2⟩, ⟨4⟩], []⟩ salesStore copyInput.broadcast) =
      .ok outputs :=
  ⟨_, rfl⟩

/-- The sales reach the fragment side of the join once. -/
theorem deliveries_of_load_sales :
    ∃ phases outputs rows deliveries, regionCopies.OwnIds ∧ regionCopies.validate = .ok () ∧
      regionCopies.phases = .ok phases ∧
      copyStage.input copyGraph unmerged salesStore = .ok copyInput ∧
      copyInput.splits.mapM (copyStage.runSplit phases salesStore copyInput.broadcast) =
        .ok outputs ∧
      (copyGraph.directoryOf (.dataset "sales") >>= salesStore.readDirectory) = .ok rows ∧
      copyInput.splits.mapM (copyStage.delivery phases salesStore copyInput.broadcast
        ⟨⟨2⟩, .join [0, 0] 0, [⟨0⟩, ⟨1⟩]⟩ 0) = .ok deliveries ∧
      deliveries.length = 2 ∧ deliveries.flatten = rows := by
  obtain ⟨outputs, ran⟩ := exists_mapOutputs_copyStage
  have foundLoad : regionCopies.get? ⟨0⟩ = some ⟨⟨0⟩, .load (.dataset "sales"), []⟩ := rfl
  have foundJoin : regionCopies.get? ⟨2⟩ = some ⟨⟨2⟩, .join [0, 0] 0, [⟨0⟩, ⟨1⟩]⟩ := rfl
  have onMainSide : ∀ keys fragment, Operation.join [0, 0] 0 = .join keys fragment →
      0 = fragment.toNat := by
    rintro keys fragment ⟨⟩
    rfl
  obtain ⟨rows, deliveries, read, delivered, once, -⟩ :=
    deliveries_of_load ownIds_regionCopies rfl phases_regionCopies input_copyStage ran foundLoad
      rfl foundJoin rfl onMainSide
  refine ⟨_, _, rows, deliveries, ownIds_regionCopies, rfl, phases_regionCopies, input_copyStage,
    ran, read, delivered, ?_, once (by decide)⟩
  exact (mapM_eq_ok.mp delivered).length_eq.symm

/-- The regions, which the join replicates, are copied once by each of the two
tasks. -/
theorem regions_copied_twice :
    ∃ phases outputs, regionCopies.OwnIds ∧ regionCopies.validate = .ok () ∧
      copyStage.kind = .ordinary ∧ regionCopies.phases = .ok phases ∧
      copyStage.input copyGraph unmerged salesStore = .ok copyInput ∧
      copyInput.splits.mapM (copyStage.runSplit phases salesStore copyInput.broadcast) =
        .ok outputs ∧
      (copyGraph.directoryOf (.dataset "regions") >>= salesStore.readDirectory) =
        .ok regionRows ∧
      copyInput.splits.mapM (copyStage.delivery phases salesStore copyInput.broadcast
        ⟨⟨3⟩, .store "copy", [⟨1⟩]⟩ 0) = .ok [regionRows, regionRows] ∧
      ¬ [regionRows, regionRows].flatten.Perm regionRows := by
  obtain ⟨outputs, ran⟩ := exists_mapOutputs_copyStage
  exact ⟨_, outputs, ownIds_regionCopies, rfl, rfl, phases_regionCopies, input_copyStage, ran, rfl,
    rfl, fun perm => absurd perm.length_eq (by decide)⟩

end Stage

end BatchFlow
