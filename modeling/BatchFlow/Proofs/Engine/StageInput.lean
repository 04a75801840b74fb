import BatchFlow.Engine.Run
import BatchFlow.Proofs.Engine.Directories
import BatchFlow.Proofs.Plan.Operators

/-!
# The input of a stage

Every load reads the files of one directory.  The rows of a replicated load are
bound for all tasks; the files of any other load are dealt to its splits, which
together hold exactly these files in their order.
-/

namespace BatchFlow

open Results

/-- A list to which one element alone contributes. -/
theorem flatMap_eq_of_unique {α β : Type} {expand : α → List β} {elements : List α}
    {element : α} (nodup : elements.Nodup) (member : element ∈ elements)
    (others : ∀ other ∈ elements, other ≠ element → expand other = []) :
    elements.flatMap expand = expand element := by
  induction elements with
  | nil => simp at member
  | cons head rest ih =>
      obtain ⟨notInRest, nodupRest⟩ := List.nodup_cons.mp nodup
      rw [List.flatMap_cons]
      rcases List.mem_cons.mp member with rfl | inRest
      · have restEmpty : rest.flatMap expand = [] := by
          refine List.flatMap_eq_nil_iff.mpr fun other inRest => others other (by simp [inRest]) ?_
          exact fun same => notInRest (same ▸ inRest)
        rw [restEmpty, List.append_nil]
      · have headEmpty : expand head = [] :=
          others head (by simp) fun same => notInRest (same ▸ inRest)
        rw [headEmpty, List.nil_append,
          ih nodupRest inRest fun other member => others other (by simp [member])]

namespace StageGraph

variable (graph : StageGraph) (store : FileStore)

/-- The directory of a load exists. -/
def Resolves (operator : Operator) : Prop :=
  ∀ source, operator.operation = .load source →
    ∃ directory, graph.directoryOf source = .ok directory

/-- The files that a load reads. -/
def loadedFiles (operator : Operator) : List String :=
  match operator.operation with
  | .load source =>
      match graph.directoryOf source with
      | .ok directory => store.list directory
      | .error _ => []
  | _ => []

/-- The rows of some files. -/
def rowsOfFiles (store : FileStore) (files : List String) : List Row :=
  files.flatMap fun path => (store.files.get? path).getD []

/-- The rows that a load reads. -/
def loadedRows (operator : Operator) : List Row :=
  rowsOfFiles store (graph.loadedFiles store operator)

variable {graph store}

theorem loadedFiles_of_not_load {operator : Operator}
    (notLoad : operator.operation.isLoad = false) : graph.loadedFiles store operator = [] := by
  rw [loadedFiles]
  cases kind : operator.operation <;> simp_all [Operation.isLoad]

theorem loadedFiles_of_directory {operator : Operator} {source : LoadSource} {directory : String}
    (isLoad : operator.operation = .load source)
    (resolved : graph.directoryOf source = .ok directory) :
    graph.loadedFiles store operator = store.list directory := by
  simp only [loadedFiles, isLoad, resolved]

theorem loadedRows_of_directory {operator : Operator} {source : LoadSource} {directory : String}
    (isLoad : operator.operation = .load source)
    (resolved : graph.directoryOf source = .ok directory) :
    graph.loadedRows store operator = store.rowsOf directory := by
  rw [loadedRows, loadedFiles_of_directory isLoad resolved]
  rfl

theorem mem_loadedFiles {operator : Operator} {path : String}
    (listed : path ∈ graph.loadedFiles store operator) :
    ∃ rows, store.files.get? path = some rows := by
  rw [loadedFiles] at listed
  split at listed
  · split at listed
    · exact (FileStore.mem_list listed).2
    · simp at listed
  · simp at listed

theorem readFiles_loadedFiles (operator : Operator) :
    store.readFiles (graph.loadedFiles store operator) = .ok (graph.loadedRows store operator) :=
  FileStore.readFiles_eq_ok.mpr ⟨fun _ listed => mem_loadedFiles listed, rfl⟩

end StageGraph

namespace Stage

variable (stage : Stage) (graph : StageGraph) (config : EngineConfig) (store : FileStore)

/-- Whether the operator is a load that every task reads in full. -/
def replicates (operator : Operator) : Bool :=
  operator.operation.isLoad && stage.plan.broadcastLoads.contains operator.id

/-- Whether the operator is a load whose files are dealt to splits. -/
def spreads (operator : Operator) : Bool :=
  operator.operation.isLoad && !stage.plan.broadcastLoads.contains operator.id

/-- The input of a stage with that of one more operator. -/
def extend (input : StageInput) (operator : Operator) : StageInput where
  broadcast :=
    if stage.replicates operator then
      input.broadcast.insert operator.id (graph.loadedRows store operator)
    else input.broadcast
  broadcastFiles :=
    if stage.replicates operator then
      input.broadcastFiles + (graph.loadedFiles store operator).length
    else input.broadcastFiles
  splits :=
    if stage.spreads operator then
      input.splits ++ stage.splitsOf config operator.id (graph.loadedFiles store operator)
    else input.splits

/-- The splits of a stage. -/
def allSplits : List Split :=
  (stage.plan.operators.filter stage.spreads).flatMap fun operator =>
    stage.splitsOf config operator.id (graph.loadedFiles store operator)

/-- The rows of the loads that pass a test. -/
def rowsOfLoads (test : Operator → Bool) : Bindings :=
  .ofList ((stage.plan.operators.filter test).map fun operator =>
    (operator.id, graph.loadedRows store operator))

variable {stage graph config store}

theorem addInput_eq_ok {input next : StageInput} {operator : Operator} :
    stage.addInput graph config store input operator = .ok next ↔
      graph.Resolves operator ∧ next = stage.extend graph config store input operator := by
  rw [addInput, StageGraph.Resolves]
  cases kind : operator.operation with
  | load source =>
      simp only [Operation.load.injEq, forall_eq']
      cases resolved : graph.directoryOf source with
      | error error => simp [bind, Except.bind]
      | ok directory =>
          have files : store.list directory = graph.loadedFiles store operator := by
            simp [StageGraph.loadedFiles, kind, resolved]
          have rows : store.readFiles (graph.loadedFiles store operator) =
              .ok (graph.loadedRows store operator) := StageGraph.readFiles_loadedFiles operator
          cases replicated : stage.plan.broadcastLoads.contains operator.id <;>
            simp [bind, Except.bind, pure, Except.pure, files, rows, extend, replicates, spreads,
              kind, Operation.isLoad, replicated, @eq_comm _ next]
  | _ => simp [extend, replicates, spreads, kind, Operation.isLoad, @eq_comm _ next]

/-- The input of a stage exists exactly when all its loads have a directory. -/
theorem input_eq_ok {input : StageInput} :
    stage.input graph config store = .ok input ↔
      (∀ operator ∈ stage.plan.operators, graph.Resolves operator) ∧
        input = stage.plan.operators.foldl (stage.extend graph config store) ⟨∅, 0, []⟩ := by
  have folded (operators : List Operator) (start : StageInput) :
      operators.foldlM (stage.addInput graph config store) start = .ok input ↔
        (∀ operator ∈ operators, graph.Resolves operator) ∧
          input = operators.foldl (stage.extend graph config store) start := by
    induction operators generalizing start with
    | nil => simp [@eq_comm _ input]
    | cons operator operators ih =>
        rw [List.foldlM_cons, bind_eq_ok]
        simp only [addInput_eq_ok, ih, List.forall_mem_cons, List.foldl_cons]
        constructor
        · rintro ⟨_, ⟨resolves, rfl⟩, rest⟩
          exact ⟨⟨resolves, rest.1⟩, rest.2⟩
        · rintro ⟨⟨resolves, others⟩, rfl⟩
          exact ⟨_, ⟨resolves, rfl⟩, others, rfl⟩
  exact folded stage.plan.operators ⟨∅, 0, []⟩

theorem broadcast_foldl_extend (operators : List Operator) (start : StageInput) :
    (operators.foldl (stage.extend graph config store) start).broadcast =
      ((operators.filter stage.replicates).map fun operator =>
        (operator.id, graph.loadedRows store operator)).foldl
          (fun map entry => map.insert entry.1 entry.2) start.broadcast := by
  induction operators generalizing start with
  | nil => rfl
  | cons operator operators ih =>
      rw [List.foldl_cons, ih, List.filter_cons]
      cases replicated : stage.replicates operator <;> simp [extend, replicated]

theorem splits_foldl_extend (operators : List Operator) (start : StageInput) :
    (operators.foldl (stage.extend graph config store) start).splits =
      start.splits ++ (operators.filter stage.spreads).flatMap fun operator =>
        stage.splitsOf config operator.id (graph.loadedFiles store operator) := by
  induction operators generalizing start with
  | nil => simp
  | cons operator operators ih =>
      rw [List.foldl_cons, ih, List.filter_cons]
      cases spread : stage.spreads operator <;> simp [extend, spread]

/-- The input of a stage holds the rows of its replicated loads and the splits of
the others. -/
theorem input_parts {input : StageInput} (isInput : stage.input graph config store = .ok input) :
    (∀ operator ∈ stage.plan.operators, graph.Resolves operator) ∧
      input.broadcast = stage.rowsOfLoads graph store stage.replicates ∧
        input.splits = stage.allSplits graph config store := by
  obtain ⟨resolves, rfl⟩ := input_eq_ok.mp isInput
  refine ⟨resolves, broadcast_foldl_extend _ _, ?_⟩
  rw [splits_foldl_extend, List.nil_append, allSplits]

theorem splitsOf_load {files : List String} {load : OpId} {split : Split}
    (member : split ∈ stage.splitsOf config load files) :
    split.load = load ∧ ∀ path ∈ split.files, path ∈ files := by
  rw [splitsOf] at member
  split at member
  · obtain rfl := List.mem_singleton.mp member
    exact ⟨rfl, fun _ inFiles => inFiles⟩
  · split at member
    · obtain ⟨file, inFiles, rfl⟩ := List.mem_map.mp member
      exact ⟨rfl, fun path isFile => List.mem_singleton.mp isFile ▸ inFiles⟩
    · split at member
      · simp at member
      · obtain rfl := List.mem_singleton.mp member
        exact ⟨rfl, fun _ inFiles => inFiles⟩

theorem flatMap_files_splitsOf (load : OpId) (files : List String) :
    (stage.splitsOf config load files).flatMap Split.files = files := by
  rw [splitsOf]
  split
  · simp
  · split
    · simp [List.flatMap_map]
    · split
      case isTrue none => simp [List.isEmpty_iff.mp none]
      case isFalse => simp

section Loads

variable (ownIds : stage.plan.OwnIds)

include ownIds

theorem get?_rowsOfLoads {test : Operator → Bool} {id : OpId} {rows : List Row} :
    (stage.rowsOfLoads graph store test).get? id = some rows ↔
      ∃ operator, stage.plan.get? id = some operator ∧ test operator = true ∧
        graph.loadedRows store operator = rows := by
  have nodup : (((stage.plan.operators.filter test).map fun operator =>
      (operator.id, graph.loadedRows store operator)).map Prod.fst).Nodup := by
    rw [List.map_map]
    exact ownIds.nodup_map_id_filter test
  rw [rowsOfLoads, OrderedMap.get?_ofList nodup, List.mem_map]
  constructor
  · rintro ⟨operator, member, same⟩
    obtain ⟨rfl, rfl⟩ := Prod.mk.inj same
    obtain ⟨inPlan, passes⟩ := List.mem_filter.mp member
    exact ⟨operator, ownIds.get?_id inPlan, passes, rfl⟩
  · rintro ⟨operator, found, passes, rfl⟩
    refine ⟨operator, List.mem_filter.mpr ⟨SubPlan.mem_operators.mpr ⟨id, found⟩, passes⟩, ?_⟩
    rw [ownIds id operator found]

/-- Every split belongs to a load that is not replicated, and its files exist. -/
theorem mem_allSplits {split : Split} (member : split ∈ stage.allSplits graph config store) :
    (∃ operator, stage.plan.get? split.load = some operator ∧ stage.spreads operator = true) ∧
      ∀ path ∈ split.files, ∃ rows, store.files.get? path = some rows := by
  obtain ⟨operator, inFilter, inSplits⟩ := List.mem_flatMap.mp member
  obtain ⟨inPlan, spread⟩ := List.mem_filter.mp inFilter
  obtain ⟨sameLoad, inFiles⟩ := splitsOf_load inSplits
  refine ⟨⟨operator, sameLoad ▸ ownIds.get?_id inPlan, spread⟩, fun path isFile => ?_⟩
  exact StageGraph.mem_loadedFiles (inFiles path isFile)

/-- The splits of a load hold its files in order. -/
theorem files_allSplits {id : OpId} {operator : Operator}
    (found : stage.plan.get? id = some operator) (spread : stage.spreads operator = true) :
    ((stage.allSplits graph config store).flatMap fun split =>
      if split.load = id then split.files else []) = graph.loadedFiles store operator := by
  have ownId := ownIds id operator found
  have inSpread : operator ∈ stage.plan.operators.filter stage.spreads :=
    List.mem_filter.mpr ⟨SubPlan.mem_operators.mpr ⟨id, found⟩, spread⟩
  rw [allSplits, List.flatMap_assoc,
    flatMap_eq_of_unique (ownIds.nodup_operators.filter _) inSpread]
  · rw [ownId]
    refine Eq.trans (List.flatMap_congr fun split member => ?_) (flatMap_files_splitsOf id _)
    rw [if_pos (splitsOf_load member).1]
  · intro other member different
    refine List.flatMap_eq_nil_iff.mpr fun split inSplits => if_neg fun sameLoad => different ?_
    have inPlan := (List.mem_filter.mp member).1
    have otherFound := ownIds.get?_id inPlan
    rw [← (splitsOf_load inSplits).1, sameLoad, found] at otherFound
    exact (Option.some.inj otherFound).symm

end Loads

/-- An ordinary stage has no split exactly when no load that is not replicated
has a file. -/
theorem allSplits_eq_nil_iff (ordinary : stage.kind = .ordinary) :
    stage.allSplits graph config store = [] ↔
      ∀ operator ∈ stage.plan.operators, stage.spreads operator = true →
        graph.loadedFiles store operator = [] := by
  have noSplit (load : OpId) (files : List String) :
      stage.splitsOf config load files = [] ↔ files = [] := by
    rw [splitsOf, ordinary]
    simp only
    split
    · simp
    · split
      case isTrue none => simp [List.isEmpty_iff.mp none]
      case isFalse some => simpa using some
  simp only [allSplits, List.flatMap_eq_nil_iff, noSplit, List.mem_filter, and_imp]

end Stage

end BatchFlow
