import BatchFlow.Graph.Error

/-!
# Stage graphs

A stage is a unit of work that becomes one job; an edge says that one stage
must complete before another.  Editing only adds stages and rewires edges, no
operation removes a stage.  An edit that fails keeps what it had changed by
then, so edits are steps on a graph that end in a result or an error.
-/

namespace BatchFlow

/-- How many files a stage writes, as far as known. -/
inductive FileCount where
  | known (files : UInt32)
  | unknown
deriving DecidableEq, Inhabited

namespace FileCount

/-- Whether the count is known. -/
def isKnown : FileCount → Bool
  | known _ => true
  | unknown => false

/-- The count, if known. -/
def known? : FileCount → Option UInt32
  | known files => some files
  | unknown => none

/-- The text of a count; a question mark stands for an unknown one. -/
def text : FileCount → String
  | known files => toString files.toNat
  | unknown => "?"

/-- The count of a lookup that may fail. -/
def ofOption : Option UInt32 → FileCount
  | some files => known files
  | none => unknown

end FileCount

/-- The kinds of stages.  A concatenate stage merges the files of its
predecessor into one. -/
inductive StageKind where
  | ordinary
  | concatenate
deriving DecidableEq, Inhabited

namespace StageKind

/-- The name of a kind in plans and job lists. -/
def name : StageKind → String
  | ordinary => "Ordinary"
  | concatenate => "Concatenate"

/-- The name of a kind in documents and rendered plans. -/
def lowerName : StageKind → String
  | ordinary => "ordinary"
  | concatenate => "concatenate"

end StageKind

/-- What is known about a stage besides its plan. -/
structure StageMeta where
  outputFiles : FileCount := .unknown
  parallelism : Option UInt32 := none
deriving DecidableEq, Inhabited

/-- A stage: its own identifier, its kind, its plan, and what is known of it. -/
structure Stage where
  id : StageId
  kind : StageKind
  plan : SubPlan
  info : StageMeta
deriving Inhabited

namespace Stage

/-- Whether the stage is a concatenate stage. -/
def isConcatenate (stage : Stage) : Bool :=
  stage.kind == .concatenate

end Stage

/-- `earlier` must complete before `later`. -/
structure Edge where
  earlier : StageId
  later : StageId
deriving DecidableEq

namespace Edge

instance : Ord Edge :=
  ⟨compareLex (compareOn Edge.earlier) (compareOn Edge.later)⟩

instance : Std.TransOrd Edge :=
  inferInstanceAs
    (Std.TransCmp (compareLex (compareOn Edge.earlier) (compareOn Edge.later)))

instance : Std.LawfulEqOrd Edge where
  eq_of_compare {first second} equal := by
    have parts := Ordering.then_eq_eq.mp
      (show (compare first.earlier second.earlier).then
        (compare first.later second.later) = .eq from equal)
    cases first
    cases second
    exact (Edge.mk.injEq ..).mpr
      ⟨Std.LawfulEqOrd.eq_of_compare parts.1, Std.LawfulEqOrd.eq_of_compare parts.2⟩

end Edge

/-- Stages under identifiers, edges between stages, and the identifier of the
next stage added. -/
structure StageGraph where
  stageMap : OrderedMap StageId Stage
  edges : OrderedSet Edge
  nextId : UInt64
deriving Inhabited

/-- An edit of a graph; a failing edit keeps what it had changed. -/
abbrev GraphEdit :=
  EStateM PlanError StageGraph

namespace StageGraph

/-- The graph without stages. -/
def empty : StageGraph :=
  ⟨∅, ∅, 0⟩

/-- The stages in the order of their identifiers. -/
def stages (graph : StageGraph) : List Stage :=
  graph.stageMap.values

/-- The identifiers of the stages in ascending order. -/
def stageIds (graph : StageGraph) : List StageId :=
  graph.stageMap.keys

/-- The number of stages. -/
def size (graph : StageGraph) : Nat :=
  graph.stageMap.size

/-- The stage under an identifier. -/
def stage? (graph : StageGraph) (id : StageId) : Option Stage :=
  graph.stageMap.get? id

/-- The stage under an identifier that must exist. -/
def require (graph : StageGraph) (id : StageId) : Except PlanError Stage :=
  match graph.stage? id with
  | some stage => .ok stage
  | none => .error (.atStage (.unknown id))

/-- Change the stage under an identifier, if there is one. -/
def modifyStage (graph : StageGraph) (id : StageId) (change : Stage → Stage) : StageGraph :=
  { graph with stageMap := graph.stageMap.modify id change }

/-- Whether there is an edge between two stages. -/
def hasEdge (graph : StageGraph) (earlier later : StageId) : Bool :=
  graph.edges.contains ⟨earlier, later⟩

/-- The stages that must complete before `id`. -/
def predecessors (graph : StageGraph) (id : StageId) : List StageId :=
  (graph.edges.elements.filter fun edge => edge.later == id).map Edge.earlier

/-- The stages that wait for `id`, by the run of edges that start there. -/
def successors (graph : StageGraph) (id : StageId) : List StageId :=
  ((graph.edges.elements.dropWhile fun edge => compare edge ⟨id, ⟨0⟩⟩ == .lt).takeWhile
    fun edge => edge.earlier == id).map Edge.later

/-- The stages that wait for none. -/
def roots (graph : StageGraph) : List StageId :=
  graph.stageIds.filter fun id => !(graph.edges.elements.map Edge.later).contains id

/-- The stages that none waits for. -/
def leaves (graph : StageGraph) : List StageId :=
  graph.stageIds.filter fun id => !(graph.edges.elements.map Edge.earlier).contains id

/-- The number of stages of a kind. -/
def countKind (graph : StageGraph) (kind : StageKind) : Nat :=
  graph.stages.countP fun stage => stage.kind == kind

/-- Add a stage under a fresh identifier, which is returned. -/
def addStage (kind : StageKind) (plan : SubPlan) (info : StageMeta) : GraphEdit StageId :=
  modifyGet fun graph =>
    let id := StageId.mk graph.nextId
    (id, { graph with
      stageMap := graph.stageMap.insert id ⟨id, kind, plan, info⟩
      nextId := graph.nextId + 1 })

/-- Add a stage under its own identifier, which must be free. -/
def insertStage (stage : Stage) : GraphEdit Unit := do
  if (← get).stageMap.contains stage.id then throw (.duplicateStage stage.id)
  modify fun graph =>
    { graph with
      stageMap := graph.stageMap.insert stage.id stage
      nextId := max graph.nextId (stage.id.value + 1) }

/-- Add an edge between two different stages of the graph. -/
def connect (earlier later : StageId) : GraphEdit Unit := do
  let graph ← get
  if !graph.stageMap.contains earlier then throw (.unknownEnd earlier earlier later)
  if !graph.stageMap.contains later then throw (.unknownEnd later earlier later)
  if earlier = later then throw (.selfDependency earlier)
  set { graph with edges := graph.edges.insert ⟨earlier, later⟩ }

/-- Remove an edge; says whether there was one. -/
def disconnect (earlier later : StageId) : GraphEdit Bool :=
  modifyGet fun graph =>
    (graph.hasEdge earlier later,
      { graph with edges := graph.edges.erase ⟨earlier, later⟩ })

/-- Put a new stage into an edge, which must exist. -/
def insertBetween (earlier later : StageId) (kind : StageKind) (plan : SubPlan)
    (info : StageMeta) : GraphEdit StageId := do
  if !(← disconnect earlier later) then throw (.noEdge earlier later)
  let id ← addStage kind plan info
  connect earlier id
  connect id later
  return id

/-- What is wrong with a stage of the graph: its plan is malformed, or it loads
from a stage that is not one of its predecessors. -/
def stageFault? (graph : StageGraph) (id : StageId) : Option StageFault :=
  match graph.stage? id with
  | none => some (.unknown id)
  | some stage =>
      match stage.plan.validate with
      | .error fault => some (.malformedPlan id fault)
      | .ok () =>
          let predecessors := graph.predecessors id
          stage.plan.operators.findSome? fun operator =>
            match operator.operation.loadedStage? with
            | some source =>
                if predecessors.contains source then none
                else some (.unbackedLoad id operator.id source)
            | none => none

/-- Check one stage of the graph. -/
def checkStage (graph : StageGraph) (id : StageId) : Except PlanError Unit :=
  match graph.stageFault? id with
  | some fault => .error (.atStage fault)
  | none => .ok ()

end StageGraph

end BatchFlow
