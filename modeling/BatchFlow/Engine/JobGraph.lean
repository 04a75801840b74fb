import BatchFlow.Graph.StageGraph

/-!
# Executed jobs

Every executed stage is one job, with the numbers of its tasks, files and rows.
The edges between jobs are those between their stages.
-/

namespace BatchFlow

/-- The numbers of one job.  Broadcast files are those that every map task reads
in full. -/
structure JobStats where
  mapTasks : UInt32 := 0
  reduceTasks : UInt32 := 0
  outputFiles : UInt32 := 0
  outputRows : UInt64 := 0
  broadcastFiles : UInt32 := 0
deriving DecidableEq, Inhabited

/-- An executed stage. -/
structure Job where
  id : JobId
  stage : StageId
  kind : StageKind
  stats : JobStats
deriving DecidableEq, Inhabited

/-- One job must have completed before the other. -/
structure JobEdge where
  earlier : JobId
  later : JobId
deriving DecidableEq

instance : Ord JobEdge :=
  ⟨compareLex (compareOn JobEdge.earlier) (compareOn JobEdge.later)⟩

instance : Std.TransOrd JobEdge :=
  inferInstanceAs
    (Std.TransCmp (compareLex (compareOn JobEdge.earlier) (compareOn JobEdge.later)))

instance : Std.LawfulEqOrd JobEdge where
  eq_of_compare {first second} equal := by
    have parts := Ordering.then_eq_eq.mp
      (show (compare first.earlier second.earlier).then
        (compare first.later second.later) = .eq from equal)
    cases first
    cases second
    exact (JobEdge.mk.injEq ..).mpr
      ⟨Std.LawfulEqOrd.eq_of_compare parts.1, Std.LawfulEqOrd.eq_of_compare parts.2⟩

/-- Jobs in the order of execution, and the edges between them. -/
structure JobGraph where
  jobs : List Job
  edges : OrderedSet JobEdge
deriving Inhabited

namespace JobGraph

/-- The job of an identifier. -/
def job? (graph : JobGraph) (id : JobId) : Option Job :=
  graph.jobs.find? fun job => job.id == id

/-- The job that executed a stage. -/
def jobOfStage? (graph : JobGraph) (stage : StageId) : Option Job :=
  graph.jobs.find? fun job => job.stage == stage

/-- The graph of executed jobs, with the edges of the stage graph between them. -/
def ofJobs (jobs : List Job) (edges : List Edge) : JobGraph where
  jobs := jobs
  edges := .ofList <| edges.filterMap fun edge => do
    let earlier ← jobs.find? fun job => job.stage == edge.earlier
    let later ← jobs.find? fun job => job.stage == edge.later
    return ⟨earlier.id, later.id⟩

/-- The jobs that no job precedes. -/
def sources (graph : JobGraph) : List Job :=
  graph.jobs.filter fun job => !(graph.edges.elements.map JobEdge.later).contains job.id

/-- The jobs that come directly after a job. -/
def successors (graph : JobGraph) (id : JobId) : List Job :=
  graph.edges.elements.filterMap fun edge =>
    if edge.earlier = id then graph.job? edge.later else none

/-- The jobs that come directly before a job. -/
def predecessors (graph : JobGraph) (id : JobId) : List Job :=
  graph.edges.elements.filterMap fun edge =>
    if edge.later = id then graph.job? edge.earlier else none

/-- The number of jobs of a kind of stage. -/
def countKind (graph : JobGraph) (kind : StageKind) : Nat :=
  graph.jobs.countP fun job => job.kind == kind

/-- The map tasks of all jobs. -/
def totalMapTasks (graph : JobGraph) : Nat :=
  graph.jobs.foldl (fun total job => total + job.stats.mapTasks.toNat) 0

end JobGraph

end BatchFlow
