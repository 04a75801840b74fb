import BatchFlow.Proofs.Optimizer.AccumulationPass

/-!
# Filling in file counts

Counts are filled in along the order of the walk, so a stage is estimated after
all it loads from, and no later count changes its estimate.  In the end every
count is consistent with those of the stages loaded: known or not to be estimated,
so that filling in again changes nothing.
-/

namespace BatchFlow

open Results

theorem mapM_of_forall₂ {α β γ : Type} {first : α → Option γ} {second : β → Option γ}
    {elements : List α} {others : List β}
    (same : List.Forall₂ (fun element other => first element = second other) elements others) :
    elements.mapM first = others.mapM second := by
  induction same with
  | nil => rfl
  | cons atHead _ ih => rw [List.mapM_cons, List.mapM_cons, atHead, ih]

namespace Stage

variable {stage other : Stage} {config : EngineConfig} {first second : LoadSource → FileCount}

/-- The map tasks that an operator of the stage accounts for, if known. -/
def splits? (stage : Stage) (config : EngineConfig) (filesOf : LoadSource → FileCount)
    (operator : Operator) : Option Nat :=
  match operator.operation with
  | .load source =>
      if stage.plan.broadcastLoads.contains operator.id then some 0
      else
        (filesOf source).known?.map fun files =>
          (loadSplits files config.splitCombinationDisabled).toNat
  | _ => some 0

theorem mapTasks_eq (stage : Stage) (config : EngineConfig) (filesOf : LoadSource → FileCount) :
    stage.mapTasks config filesOf =
      if stage.isConcatenate then .known 1
      else .ofOption ((stage.plan.operators.mapM (stage.splits? config filesOf)).map fun counts =>
        UInt32.ofNat (min (counts.foldl (· + ·) 0) (UInt32.size - 1))) :=
  rfl

/-- Stages whose operators account for the same tasks write as many files. -/
theorem outputFiles_congr (kind : other.kind = stage.kind)
    (phase : other.plan.hasReducePhase = stage.plan.hasReducePhase)
    (reducers : other.reduceTasks config = stage.reduceTasks config)
    (splits : List.Forall₂ (fun operator changed =>
      other.splits? config second changed = stage.splits? config first operator)
      stage.plan.operators other.plan.operators) :
    other.outputFiles config second = stage.outputFiles config first := by
  have sameTasks : other.mapTasks config second = stage.mapTasks config first := by
    rw [mapTasks_eq, mapTasks_eq, isConcatenate, isConcatenate, kind,
      mapM_of_forall₂ (splits.imp fun _ _ same => same.symm)]
  rw [outputFiles, outputFiles, kind, phase, reducers, sameTasks]

/-- An estimate reads the counts behind the loads of the stage only. -/
theorem outputFiles_of_loads
    (same : ∀ operator ∈ stage.plan.operators, ∀ source, operator.operation = .load source →
      second source = first source) :
    stage.outputFiles config second = stage.outputFiles config first := by
  refine outputFiles_congr rfl rfl rfl (List.forall₂_same.mpr fun operator inPlan => ?_)
  rw [splits?, splits?]
  cases kind : operator.operation with
  | load source => simp only [same operator inPlan source kind]
  | _ => rfl

/-- The stage with another file count. -/
def withOutputFiles (stage : Stage) (files : FileCount) : Stage :=
  { stage with info := { stage.info with outputFiles := files } }

/-- The count of the stage when it is annotated: its own if that is known, else its estimate. -/
def annotatedCount (stage : Stage) (config : EngineConfig) (filesOf : LoadSource → FileCount) :
    FileCount :=
  if stage.info.outputFiles.isKnown then stage.info.outputFiles
  else stage.outputFiles config filesOf

theorem annotatedCount_of_known {filesOf : LoadSource → FileCount} {files : UInt32}
    (known : stage.info.outputFiles = .known files) :
    stage.annotatedCount config filesOf = .known files := by
  rw [annotatedCount, known]
  rfl

theorem annotatedCount_of_unknown {filesOf : LoadSource → FileCount}
    (unknown : stage.info.outputFiles = .unknown) :
    stage.annotatedCount config filesOf = stage.outputFiles config filesOf := by
  rw [annotatedCount, unknown]
  rfl

theorem annotatedCount_of_loads
    (same : ∀ operator ∈ stage.plan.operators, ∀ source, operator.operation = .load source →
      second source = first source) :
    stage.annotatedCount config second = stage.annotatedCount config first := by
  rw [annotatedCount, annotatedCount, outputFiles_of_loads same]

theorem outputFiles_withFlags (stage : Stage) (config : EngineConfig)
    (filesOf : LoadSource → FileCount) (flag : Bool) :
    { stage with plan := stage.plan.withFlags flag }.outputFiles config filesOf =
      stage.outputFiles config filesOf := by
  have phase : (stage.plan.withFlags flag).hasReducePhase = stage.plan.hasReducePhase :=
    stage.plan.hasReducePhase_relabel _ (Operation.isPackage_withFlag flag)
  have parallelism : { stage with plan := stage.plan.withFlags flag }.packageParallelism =
      stage.packageParallelism := by
    rw [packageParallelism, SubPlan.withFlags, SubPlan.operators_relabel, List.filterMap_map,
      packageParallelism]
    congr
    funext operator
    cases kind : operator.operation <;> simp [Operator.relabel, kind, Operation.withFlag]
  have broadcast : (stage.plan.relabel (Operation.withFlag flag)).broadcastLoads =
      stage.plan.broadcastLoads :=
    SubPlan.broadcastLoads_relabel (Operation.keepsInputs_withFlag flag)
  refine outputFiles_congr rfl phase ?_ ?_
  · rw [reduceTasks, reduceTasks, parallelism]
    simp only [phase]
    rfl
  · rw [SubPlan.withFlags, SubPlan.operators_relabel, List.forall₂_map_right_iff]
    refine List.forall₂_same.mpr fun operator _ => ?_
    rw [splits?, splits?]
    simp only [broadcast]
    cases kind : operator.operation <;> simp only [Operator.relabel, kind, Operation.withFlag]

end Stage

namespace StageGraph

variable {graph current : StageGraph} {catalog : String → Option UInt32} {config : EngineConfig}

/-- A graph some of whose file counts have been filled in. -/
structure Annotated (graph current : StageGraph) : Prop where
  stages : ∀ id, ∃ files, current.stage? id = (graph.stage? id).map (·.withOutputFiles files)
  edges : current.edges = graph.edges
  nextId : current.nextId = graph.nextId

theorem Annotated.refl (graph : StageGraph) : graph.Annotated graph where
  stages id := by
    cases graph.stage? id with
    | none => exact ⟨.unknown, rfl⟩
    | some stage => exact ⟨stage.info.outputFiles, rfl⟩
  edges := rfl
  nextId := rfl

namespace Annotated

variable (annotated : graph.Annotated current)

include annotated

theorem restaged : graph.Restaged current where
  kept id stage found := by
    obtain ⟨files, same⟩ := annotated.stages id
    rw [found] at same
    exact ⟨_, same⟩
  only id other isStage := by
    obtain ⟨files, same⟩ := annotated.stages id
    rw [isStage] at same
    obtain ⟨stage, found, rfl⟩ := Option.map_eq_some_iff.mp same.symm
    exact ⟨stage, found,
      { id := rfl
        kind := rfl
        ownIds := .rfl
        wellFormed := .rfl
        loadsStage := fun _ => .rfl }⟩
  edges := annotated.edges
  nextId := annotated.nextId

theorem modifyStage (id : StageId) (files : FileCount) :
    graph.Annotated (current.modifyStage id (·.withOutputFiles files)) where
  stages other := by
    rw [stage?_modifyStage]
    split
    case isFalse => exact annotated.stages other
    case isTrue same =>
      subst same
      obtain ⟨before, same⟩ := annotated.stages other
      refine ⟨files, ?_⟩
      rw [same, Option.map_map]
      rfl
  edges := annotated.edges
  nextId := annotated.nextId

end Annotated

/-- What is known of a stage cannot be improved: its count is known, or it cannot be
estimated from what is known. -/
def Estimated (graph : StageGraph) (catalog : String → Option UInt32) (config : EngineConfig)
    (id : StageId) : Prop :=
  ∀ stage, graph.stage? id = some stage → stage.info.outputFiles = .unknown →
    stage.outputFiles config (graph.filesOf catalog) = .unknown

theorem annotateStage_of_estimated {id : StageId} (estimated : graph.Estimated catalog config id) :
    graph.annotateStage catalog config id = (graph, false) := by
  rw [annotateStage]
  cases found : graph.stage? id with
  | none => rfl
  | some stage =>
      cases count : stage.info.outputFiles with
      | known files => simp only [count, FileCount.isKnown, if_true]
      | unknown => simp only [count, FileCount.isKnown, estimated stage found count]; rfl

/-- What annotating one stage does: nothing if there is nothing to improve, else the
count is known afterwards. -/
theorem annotateStage_cases (graph : StageGraph) (catalog : String → Option UInt32)
    (config : EngineConfig) (id : StageId) :
    graph.Estimated catalog config id ∧ graph.annotateStage catalog config id = (graph, false) ∨
      ∃ files, graph.annotateStage catalog config id =
        (graph.modifyStage id (·.withOutputFiles (.known files)), true) := by
  by_cases estimated : graph.Estimated catalog config id
  · exact .inl ⟨estimated, annotateStage_of_estimated estimated⟩
  · obtain ⟨stage, found, count, improves⟩ : ∃ stage, graph.stage? id = some stage ∧
        stage.info.outputFiles = .unknown ∧
          stage.outputFiles config (graph.filesOf catalog) ≠ .unknown := by
      simpa [Estimated] using estimated
    cases estimate : stage.outputFiles config (graph.filesOf catalog) with
    | unknown => exact absurd estimate improves
    | known files =>
        refine .inr ⟨files, ?_⟩
        rw [annotateStage, found]
        simp only [count, FileCount.isKnown, estimate]
        rfl

/-- Annotating writes the count of one stage. -/
theorem stage?_annotateStage (graph : StageGraph) (catalog : String → Option UInt32)
    (config : EngineConfig) (id other : StageId) :
    (graph.annotateStage catalog config id).1.stage? other =
      if other = id then (graph.stage? id).map fun stage =>
        stage.withOutputFiles (stage.annotatedCount config (graph.filesOf catalog))
      else graph.stage? other := by
  by_cases same : other = id
  case neg =>
    rw [if_neg same]
    rcases annotateStage_cases graph catalog config id with ⟨-, unchanged⟩ | ⟨files, filled⟩
    · rw [unchanged]
    · rw [filled, stage?_modifyStage, if_neg same]
  case pos =>
    subst same
    rw [if_pos rfl, annotateStage]
    cases found : graph.stage? other with
    | none => exact found
    | some stage =>
        cases count : stage.info.outputFiles with
        | known files =>
            simp only [count, FileCount.isKnown, if_true]
            rw [found, Option.map_some, Stage.annotatedCount_of_known count, ← count]
            rfl
        | unknown =>
            simp only [count, FileCount.isKnown]
            rw [Option.map_some, Stage.annotatedCount_of_unknown count]
            cases estimate : stage.outputFiles config (graph.filesOf catalog) with
            | unknown =>
                show graph.stage? other = _
                rw [found, ← count]
                rfl
            | known files =>
                show (graph.modifyStage other (·.withOutputFiles (.known files))).stage? other = _
                rw [stage?_modifyStage, if_pos rfl, found, Option.map_some]

/-- Annotate a stage and count it if its count was filled in. -/
def annotateNext (catalog : String → Option UInt32) (config : EngineConfig)
    (state : StageGraph × Nat) (id : StageId) : StageGraph × Nat :=
  ((state.1.annotateStage catalog config id).1,
    if (state.1.annotateStage catalog config id).2 then state.2 + 1 else state.2)

theorem annotateOutputFiles_eq_ok {result : StageGraph × Nat} :
    graph.annotateOutputFiles catalog config = .ok result ↔
      ∃ order, graph.order = .ok order ∧
        order.foldl (annotateNext catalog config) (graph, 0) = result :=
  map_eq_ok

/-- Whether a stage with an unknown count has a known one in another graph. -/
def filledIn (graph next : StageGraph) (id : StageId) : Bool :=
  (graph.stage? id).any (fun stage => !stage.info.outputFiles.isKnown) &&
    (next.stage? id).any fun stage => stage.info.outputFiles.isKnown

theorem filledIn_congr {id : StageId} {before after next : StageGraph}
    (sameBefore : before.stage? id = graph.stage? id)
    (sameAfter : after.stage? id = next.stage? id) :
    before.filledIn after id = graph.filledIn next id := by
  rw [filledIn, filledIn, sameBefore, sameAfter]

/-- Annotating says whether it has filled in the count. -/
theorem annotateStage_snd (graph : StageGraph) (catalog : String → Option UInt32)
    (config : EngineConfig) (id : StageId) :
    (graph.annotateStage catalog config id).2 =
      graph.filledIn (graph.annotateStage catalog config id).1 id := by
  rw [filledIn, stage?_annotateStage, if_pos rfl, annotateStage]
  cases graph.stage? id with
  | none => rfl
  | some stage =>
      rw [Option.map_some]
      cases count : stage.info.outputFiles with
      | known files => simp [count, FileCount.isKnown]
      | unknown =>
          rw [Stage.annotatedCount_of_unknown count]
          cases estimate : stage.outputFiles config (graph.filesOf catalog) <;>
            simp [count, estimate, FileCount.isKnown, Stage.withOutputFiles]

theorem Annotated.annotateStage (annotated : graph.Annotated current)
    (catalog : String → Option UInt32) (config : EngineConfig) (id : StageId) :
    graph.Annotated (current.annotateStage catalog config id).1 := by
  rcases annotateStage_cases current catalog config id with ⟨-, unchanged⟩ | ⟨files, filled⟩
  · rw [unchanged]
    exact annotated
  · rw [filled]
    exact annotated.modifyStage id _

/-- The stages of a list have been annotated, and no others: each has its own count or the one
estimated from the counts there are now, and those filled in are counted. -/
structure AnnotatedAlong (graph : StageGraph) (catalog : String → Option UInt32)
    (config : EngineConfig) (done : List StageId) (state : StageGraph × Nat) : Prop where
  annotated : graph.Annotated state.1
  settled : ∀ id ∈ done, state.1.stage? id = (graph.stage? id).map fun stage =>
    stage.withOutputFiles (stage.annotatedCount config (state.1.filesOf catalog))
  pending : ∀ id, id ∉ done → state.1.stage? id = graph.stage? id
  counted : state.2 = done.countP (graph.filledIn state.1)

namespace AnnotatedAlong

variable {done : List StageId} {state : StageGraph × Nat}

theorem initial (graph : StageGraph) (catalog : String → Option UInt32) (config : EngineConfig) :
    graph.AnnotatedAlong catalog config [] (graph, 0) where
  annotated := .refl graph
  settled _ member := absurd member List.not_mem_nil
  pending _ _ := rfl
  counted := rfl

/-- The next stage is annotated after all its predecessors. -/
theorem next (along : graph.AnnotatedAlong catalog config done state) (backed : graph.Backed)
    {id : StageId} (fresh : id ∉ done) (ordered : graph.PredecessorsFirst (done ++ [id])) :
    graph.AnnotatedAlong catalog config (done ++ [id]) (annotateNext catalog config state id) := by
  have stageOf (other : StageId) (different : other ≠ id) :
      (annotateNext catalog config state id).1.stage? other = state.1.stage? other := by
    rw [annotateNext, stage?_annotateStage, if_neg different]
  have ne_of_mem (other : StageId) (member : other ∈ done) : other ≠ id := by
    rintro rfl
    exact fresh member
  -- Nothing that is loaded from changes, since it stands before the stage annotated.
  have sameCount (other : StageId) (member : other ∈ done ++ [id]) (stage : Stage)
      (found : graph.stage? other = some stage) :
      stage.annotatedCount config ((annotateNext catalog config state id).1.filesOf catalog) =
        stage.annotatedCount config (state.1.filesOf catalog) := by
    refine Stage.annotatedCount_of_loads fun operator inPlan source isLoad => ?_
    cases source with
    | dataset path => rfl
    | stage source =>
        have isPredecessor : source ∈ graph.predecessors other :=
          backed other stage found source ⟨operator, inPlan, isLoad⟩
        have inFront : source ∈ done := by
          rcases List.mem_append.mp member with old | isNext
          · exact ordered.left.closed old isPredecessor
          · obtain rfl := List.mem_singleton.mp isNext
            exact ordered done other [] rfl source isPredecessor
        rw [filesOf, filesOf, stageOf source (ne_of_mem source inFront)]
  constructor
  case annotated => exact along.annotated.annotateStage catalog config id
  case settled =>
    intro other member
    have settledNow : (annotateNext catalog config state id).1.stage? other =
        (graph.stage? other).map fun stage =>
          stage.withOutputFiles (stage.annotatedCount config (state.1.filesOf catalog)) := by
      rcases List.mem_append.mp member with old | isNext
      · rw [stageOf other (ne_of_mem other old), along.settled other old]
      · obtain rfl := List.mem_singleton.mp isNext
        rw [annotateNext, stage?_annotateStage, if_pos rfl, along.pending other fresh]
    rw [settledNow]
    cases found : graph.stage? other with
    | none => rfl
    | some stage => rw [Option.map_some, Option.map_some, sameCount other member stage found]
  case pending =>
    intro other notDone
    rw [List.mem_append, List.mem_singleton, not_or] at notDone
    rw [stageOf other notDone.2, along.pending other notDone.1]
  case counted =>
    have keptCounts : done.countP (graph.filledIn (annotateNext catalog config state id).1) =
        done.countP (graph.filledIn state.1) := by
      refine List.countP_congr fun other member => ?_
      rw [filledIn_congr rfl (stageOf other (ne_of_mem other member))]
    have isFilled : (state.1.annotateStage catalog config id).2 =
        graph.filledIn (annotateNext catalog config state id).1 id := by
      rw [annotateStage_snd, filledIn_congr (along.pending id fresh) rfl]
      rfl
    rw [List.countP_append, List.countP_singleton, keptCounts, ← along.counted, ← isFilled,
      annotateNext]
    split <;> rfl

theorem foldl (along : graph.AnnotatedAlong catalog config done state) (backed : graph.Backed)
    {rest : List StageId} (ordered : graph.PredecessorsFirst (done ++ rest))
    (nodup : (done ++ rest).Nodup) :
    graph.AnnotatedAlong catalog config (done ++ rest)
      (rest.foldl (annotateNext catalog config) state) := by
  -- By induction on the stages still to be annotated, for any that have been.
  induction rest generalizing done state with
  | nil =>
      rw [List.append_nil]
      exact along
  | cons id rest ih =>
      rw [List.append_cons] at ordered nodup ⊢
      have fresh : id ∉ done := by
        have apart := (List.nodup_append.mp (List.nodup_append.mp nodup).1).2.2
        exact fun member => apart id member id List.mem_cons_self rfl
      exact ih (along.next backed fresh ordered.left) ordered nodup

end AnnotatedAlong

/-- Counts filled in as far as possible: every stage has the count it had, if that was known, and
else the one estimated from the counts of the stages it loads. -/
structure ConsistentCounts (graph : StageGraph) (catalog : String → Option UInt32)
    (config : EngineConfig) (next : StageGraph) : Prop where
  stages : ∀ id, next.stage? id = (graph.stage? id).map fun stage =>
    stage.withOutputFiles (stage.annotatedCount config (next.filesOf catalog))
  edges : next.edges = graph.edges
  nextId : next.nextId = graph.nextId

namespace ConsistentCounts

variable {next : StageGraph} (consistent : graph.ConsistentCounts catalog config next)

include consistent

theorem annotated : graph.Annotated next where
  stages id := by
    rw [consistent.stages id]
    cases graph.stage? id with
    | none => exact ⟨.unknown, rfl⟩
    | some stage => exact ⟨_, rfl⟩
  edges := consistent.edges
  nextId := consistent.nextId

/-- Consistent counts cannot be improved. -/
theorem estimated (id : StageId) : next.Estimated catalog config id := by
  intro other isStage isUnknown
  rw [consistent.stages id] at isStage
  obtain ⟨stage, -, rfl⟩ := Option.map_eq_some_iff.mp isStage
  have count : stage.annotatedCount config (next.filesOf catalog) = .unknown := isUnknown
  cases own : stage.info.outputFiles with
  | known files => exact nomatch (Stage.annotatedCount_of_known own).symm.trans count
  | unknown => exact (Stage.annotatedCount_of_unknown own).symm.trans count

end ConsistentCounts

/-- All stages annotated in an order with predecessors first have consistent counts. -/
theorem consistent_foldl (backed : graph.Backed) (catalog : String → Option UInt32)
    (config : EngineConfig) {order : List StageId} (all : order.Perm graph.stageIds)
    (ordered : graph.PredecessorsFirst order) :
    ∃ next, order.foldl (annotateNext catalog config) (graph, 0) =
        (next, order.countP (graph.filledIn next)) ∧
      graph.ConsistentCounts catalog config next := by
  have along := (AnnotatedAlong.initial graph catalog config).foldl backed ordered
    (all.nodup_iff.mpr graph.nodup_stageIds)
  refine ⟨_, Prod.ext rfl along.counted, ?_⟩
  refine ⟨fun id => ?_, along.annotated.edges, along.annotated.nextId⟩
  by_cases isStage : id ∈ order
  · exact along.settled id isStage
  · have absent : graph.stage? id = none := by
      rw [all.mem_iff, mem_stageIds, not_exists] at isStage
      exact Option.eq_none_iff_forall_ne_some.mpr isStage
    rw [along.pending id isStage, absent, Option.map_none]

/-- Filling in counts succeeds on every valid graph, and leaves none to improve. -/
theorem exists_annotated (valid : ∃ count, graph.validate = .ok count)
    (catalog : String → Option UInt32) (config : EngineConfig) :
    ∃ next count, graph.annotateOutputFiles catalog config = .ok (next, count) ∧
      graph.Annotated next ∧ ∀ id, next.Estimated catalog config id := by
  obtain ⟨exist, ranked, checked⟩ := validate_eq_ok_iff.mp valid
  obtain ⟨order, isOrder⟩ := exists_order_iff.mpr ⟨exist, ranked⟩
  obtain ⟨-, all, first⟩ := order_sound isOrder
  obtain ⟨next, folded, consistent⟩ :=
    consistent_foldl (backed_of_valid checked) catalog config all first
  exact ⟨next, _, annotateOutputFiles_eq_ok.mpr ⟨order, isOrder, folded⟩, consistent.annotated,
    consistent.estimated⟩

/-- Where no count can be improved, filling in changes nothing. -/
theorem annotateOutputFiles_of_estimated (ordered : ∃ order, graph.order = .ok order)
    (estimated : ∀ id, graph.Estimated catalog config id) :
    graph.annotateOutputFiles catalog config = .ok (graph, 0) := by
  obtain ⟨order, isOrder⟩ := ordered
  refine annotateOutputFiles_eq_ok.mpr ⟨order, isOrder, ?_⟩
  clear isOrder
  induction order with
  | nil => rfl
  | cons id order ih =>
      rw [List.foldl_cons, annotateNext, annotateStage_of_estimated (estimated id)]
      exact ih

end StageGraph

end BatchFlow
