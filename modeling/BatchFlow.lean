import BatchFlow.Command
import BatchFlow.Config
import BatchFlow.Digest
import BatchFlow.Document.Decoding
import BatchFlow.Document.Definition
import BatchFlow.Document.Field
import BatchFlow.Document.Stages
import BatchFlow.Engine.Aggregate
import BatchFlow.Engine.Error
import BatchFlow.Engine.FileStore
import BatchFlow.Engine.Grouping
import BatchFlow.Engine.JobGraph
import BatchFlow.Engine.Manifest
import BatchFlow.Engine.ReadyQueue
import BatchFlow.Engine.Run
import BatchFlow.Engine.Task
import BatchFlow.Graph.Encoding
import BatchFlow.Graph.Error
import BatchFlow.Graph.Estimate
import BatchFlow.Graph.StageGraph
import BatchFlow.Graph.Walk
import BatchFlow.Ident
import BatchFlow.Json.Basic
import BatchFlow.Json.Numeral
import BatchFlow.Json.Reader
import BatchFlow.Json.Record
import BatchFlow.Main
import BatchFlow.Number.Binary64
import BatchFlow.Number.Decimal
import BatchFlow.Number.Word
import BatchFlow.Optimizer.Accumulation
import BatchFlow.Optimizer.JoinRepair
import BatchFlow.Optimizer.Pipeline
import BatchFlow.Optimizer.Report
import BatchFlow.OrderedMap
import BatchFlow.Plan.Encoding
import BatchFlow.Plan.Operator
import BatchFlow.Plan.SubPlan
import BatchFlow.Plan.Validity
import BatchFlow.Scalar
import BatchFlow.Sorting
import BatchFlow.Text.Blank
import BatchFlow.Text.Hexadecimal
import BatchFlow.Text.Printable
import BatchFlow.Text.Quoted
import BatchFlow.Yaml.BlockText
import BatchFlow.Yaml.Lexer
import BatchFlow.Yaml.Node
import BatchFlow.Yaml.Numeral
import BatchFlow.Yaml.PlainText
import BatchFlow.Yaml.Property
import BatchFlow.Yaml.QuotedText
import BatchFlow.Yaml.Source
import BatchFlow.Yaml.Tag
import BatchFlow.Yaml.Token
import BatchFlow.Yaml.Tree
import BatchFlow.Yaml.Value
import BatchFlow.Proofs.Lookup
import BatchFlow.Proofs.Results
import BatchFlow.Proofs.Plan.Operators
import BatchFlow.Proofs.Plan.Relabeling
import BatchFlow.Proofs.Task.GroupStreaming
import BatchFlow.Proofs.Task.Step
import BatchFlow.Proofs.Plan.Order
import BatchFlow.Proofs.Plan.Phases
import BatchFlow.Proofs.Task.Streaming
import BatchFlow.Proofs.Plan.Appending
import BatchFlow.Proofs.Optimizer.SafePlans
import BatchFlow.Proofs.Optimizer.Qualification
import BatchFlow.Proofs.Engine.Directories
import BatchFlow.Proofs.Task.Distribution
import BatchFlow.Proofs.Task.Splitting
import BatchFlow.Proofs.Engine.StageInput
import BatchFlow.Proofs.Task.Core
import BatchFlow.Proofs.Engine.MapTasks
import BatchFlow.Proofs.Engine.ReduceTasks
import BatchFlow.Proofs.Engine.StageTasks
import BatchFlow.Proofs.Engine.SameWork
import BatchFlow.Proofs.Engine.StageStores
import BatchFlow.Proofs.Engine.Parallelism
import BatchFlow.Proofs.Graph.Stages
import BatchFlow.Proofs.Graph.Walk
import BatchFlow.Proofs.Engine.ReadyQueue
import BatchFlow.Proofs.Engine.GraphRun
import BatchFlow.Proofs.Engine.SameReads
import BatchFlow.Proofs.Engine.Settling
import BatchFlow.Proofs.Optimizer.Repointing
import BatchFlow.Proofs.Optimizer.JoinRepair
import BatchFlow.Proofs.Optimizer.RepairPass
import BatchFlow.Proofs.Optimizer.RepairedGraph
import BatchFlow.Proofs.Engine.Concatenation
import BatchFlow.Proofs.Optimizer.RepairedRun
import BatchFlow.Proofs.Optimizer.KeptResults
import BatchFlow.Proofs.Engine.DataFlow
import BatchFlow.Proofs.Engine.Deliveries
import BatchFlow.Proofs.Engine.GroupedRows
import BatchFlow.Proofs.Task.Availability
import BatchFlow.Proofs.Engine.DataFailures
import BatchFlow.Proofs.Engine.Leftovers
import BatchFlow.Proofs.Optimizer.RepairSteps
import BatchFlow.Proofs.Optimizer.RepairTracking
import BatchFlow.Proofs.Optimizer.Restaging
import BatchFlow.Proofs.Optimizer.AccumulationPass
import BatchFlow.Proofs.Optimizer.RaisedFlags
import BatchFlow.Proofs.Optimizer.AllOrNothing
import BatchFlow.Proofs.Optimizer.KeptValidity
import BatchFlow.Proofs.Optimizer.Annotation
import BatchFlow.Proofs.Optimizer.Idempotence
import BatchFlow.Proofs.Graph.Cycles
import BatchFlow.Proofs.Engine.Schedules
import BatchFlow.Proofs.Number.Rounding
import BatchFlow.Proofs.ScalarOrder
import BatchFlow.Proofs.OrderedRows
import BatchFlow.Proofs.Optimizer.AskedCounts
import BatchFlow.Proofs.Document.StoredDatasets
import BatchFlow.Proofs.Document.ExplainedPlan
import BatchFlow.Proofs.Engine.TaskCounts
import BatchFlow.Proofs.Engine.OutputFiles
import BatchFlow.Proofs.Optimizer.InsertedTargets
import BatchFlow.Proofs.Optimizer.UncheckedStages
import BatchFlow.Proofs.Graph.Insertion
import BatchFlow.Proofs.Graph.History
import BatchFlow.Proofs.Engine.ExecutedJobs
import BatchFlow.Proofs.Engine.StoredRows
import BatchFlow.Proofs.Graph.Encoding
import BatchFlow.Proofs.UnmixedKeys
import BatchFlow.Proofs.Engine.Shuffle
import BatchFlow.Proofs.Engine.Joins
import BatchFlow.Proofs.Optimizer.KeptFlags
import BatchFlow.Proofs.Optimizer.RepairDecisions
import BatchFlow.Proofs.Optimizer.RepairedEdges
import BatchFlow.Proofs.Optimizer.RepairEffect
import BatchFlow.Proofs.Engine.FailedRuns
import BatchFlow.Proofs.Engine.ConcatenateJobs
import BatchFlow.Proofs.Optimizer.CountAssignment
import BatchFlow.Proofs.Plan.StuckOperators
import BatchFlow.Proofs.Number.Sums
import BatchFlow.Proofs.Engine.Aggregates
import BatchFlow.Proofs.Document.DefinedStages
import BatchFlow.Proofs.Document.DefinitionOrder
import BatchFlow.Proofs.Optimizer.FlagsThroughRepair
import BatchFlow.Proofs.Optimizer.CommutingPasses
import BatchFlow.Proofs.Graph.CheckedOrders
import BatchFlow.Proofs.Engine.PartOrder
import BatchFlow.Proofs.Optimizer.ReportedChanges
import BatchFlow.Proofs.Engine.Limits
import BatchFlow.Proofs.Engine.Listings
import BatchFlow.Proofs.Plan.ClosedPhases
import BatchFlow.Proofs.Number.RoundingIntervals
import BatchFlow.Proofs.Number.ShortestDecimals
import BatchFlow.Proofs.Json.RealNumerals
import BatchFlow.Proofs.Json.UniqueTexts
import BatchFlow.Proofs.Plan.Literals
import BatchFlow.Proofs.Plan.ShownPlans
import BatchFlow.Proofs.Graph.ShownGraphs
