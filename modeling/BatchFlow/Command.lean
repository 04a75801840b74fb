import BatchFlow.Document.Stages
import BatchFlow.Engine.Manifest
import BatchFlow.Engine.Run
import BatchFlow.Optimizer.Report

/-!
# Commands

A command reads the text of a stage plan and validates it, explains what the
optimizer makes of it, or runs it on its own datasets.  Settings given with the
command override those of the plan.
-/

namespace BatchFlow

/-- What is to be done with a stage plan. -/
inductive Command where
  | validate
  | explain (asJson : Bool) (overrides : List String)
  | run (overrides : List String)

/-- Why a command fails. -/
inductive CommandError where
  /-- The file of the plan is not there. -/
  | noFile
  | document (error : StageDocument.Error)
  /-- An override has no equals sign. -/
  | override (text : String)
  | plan (error : PlanError)
  | run (error : RunError)

/-- The message of a failing command. -/
def CommandError.message : CommandError → String
  | noFile => "No such file or directory (os error 2)"
  | document error => error.message
  | override text => "expected KEY=VALUE, got `" ++ text ++ "`"
  | plan error => error.message
  | run error => error.message

/-- Whether the program stops before the command can report an error. -/
def CommandError.stopsProgram : CommandError → Bool
  | run error => error.stopsProgram
  | _ => false

/-- What a command has found out or done. -/
inductive CommandResult where
  | valid (stages : Nat)
  | explained (asJson : Bool) (config : EngineConfig) (graph : StageGraph)
      (report : OptimizationReport)
  | executed (outcome : RunOutcome)

namespace Json

mutual

/-- The value with the entries of all its objects in the order of their names. -/
def sorted : Json → Json
  | array elements => array (sortedElements elements)
  | object entries =>
      object ((OrderedMap.ofList (sortedEntries entries)).entries.map fun (name, value) =>
        (.plain name, value))
  | value => value

/-- Elements with sorted entries. -/
def sortedElements : List Json → List Json
  | [] => []
  | element :: elements => sorted element :: sortedElements elements

/-- Entries with sorted entries in their values. -/
def sortedEntries : List (Name × Json) → List (String × Json)
  | [] => []
  | (name, value) :: entries => (name.text, sorted value) :: sortedEntries entries

end

end Json

namespace EngineConfig

/-- The JSON form of a configuration. -/
def toJson (config : EngineConfig) : Json :=
  .object [("merge_files_threshold", .halfWord config.mergeFilesThreshold),
    ("split_combination_disabled", .bool config.splitCombinationDisabled),
    ("default_parallelism", .halfWord config.defaultParallelism)]

end EngineConfig

namespace Job

/-- The line of a job. -/
def line (job : Job) : String :=
  job.id.text ++ " (" ++ job.stage.text ++ ", " ++ job.kind.name ++ "): "
    ++ toString job.stats.mapTasks.toNat ++ " map, "
    ++ toString job.stats.reduceTasks.toNat ++ " reduce, "
    ++ toString job.stats.outputFiles.toNat ++ " file(s)"

end Job

namespace RunOutcome

/-- The record of a run, given the times at which it began and ended. -/
def manifest (outcome : RunOutcome) (started finished : UInt64) : RunManifest :=
  (RunManifest.start outcome.planHash outcome.jobGraph.jobs.length started).finish finished
    (some outcome.outputsDigest)

/-- The lines about a run. -/
def lines (outcome : RunOutcome) (manifest : RunManifest) : List String :=
  ["✓ Stage plan executed successfully", "  Jobs: " ++ toString manifest.jobCount]
    ++ outcome.jobGraph.jobs.map (fun job => "    " ++ job.line)
    ++ outcome.outputs.entries.map (fun (target, rows) =>
      "  " ++ target ++ ": " ++ toString rows.length ++ " row(s)")
    ++ ["  Duration: " ++ toString manifest.duration.toNat ++ "ms",
      "  Plan hash: " ++ manifest.planHash.hex]

end RunOutcome

namespace StageDocument

/-- Take a text apart at its first equals sign. -/
def splitSetting? (text : String) : Option (String × String) :=
  let characters := text.toList
  if characters.contains '=' then
    some (String.ofList (characters.takeWhile (· != '=')),
      String.ofList ((characters.dropWhile (· != '=')).tail))
  else none

/-- Override settings in the order they are given. -/
def override (document : StageDocument) :
    List String → Except CommandError StageDocument
  | [] => .ok document
  | text :: rest =>
      match splitSetting? text with
      | none => .error (.override text)
      | some (key, value) =>
          (document.setProperty (Text.trim key) (Text.trim value)).override rest

/-- The store that holds the datasets of a plan. -/
def store (document : StageDocument) : FileStore :=
  document.datasets.entries.foldl (fun store (name, files) => store.putParts name files)
    .empty

/-- The optimized graph of a plan, and what was decided. -/
def explain (document : StageDocument) :
    Except CommandError (StageGraph × OptimizationReport) :=
  (document.graph.optimized document.catalog document.config).mapError .plan

/-- Optimize a plan and run it on its datasets. -/
def execute (document : StageDocument) :
    Except CommandError (StageGraph × OptimizationReport × RunOutcome) :=
  match (document.graph.optimizeAndRun document.config).run document.store with
  | .ok result _ => .ok result
  | .error error _ => .error (.run error)

end StageDocument

namespace Command

/-- The overrides of a command. -/
def overrides : Command → List String
  | validate => []
  | explain _ overrides => overrides
  | run overrides => overrides

/-- Read a plan and override its settings. -/
def load (command : Command) (text : Option String) : Except CommandError StageDocument :=
  match text with
  | none => .error .noFile
  | some text => do
      let document ← (StageDocument.read text).mapError .document
      document.override command.overrides

/-- Do what a command asks for with the text of a plan, if its file is there. -/
def perform (command : Command) (text : Option String) :
    Except CommandError CommandResult := do
  let document ← command.load text
  match command with
  | validate =>
      let stages ← document.graph.validate.mapError .plan
      return .valid stages
  | explain asJson _ =>
      let (graph, report) ← document.explain
      return .explained asJson document.config graph report
  | run _ =>
      let (_, _, outcome) ← document.execute
      return .executed outcome

/-- How the message of a failing command begins. -/
def failureText : Command → String
  | validate => "Validation failed: "
  | _ => "Error: "

end Command

/-- What a command writes, and how it ends. -/
structure CommandOutput where
  code : UInt8
  standardOutput : String
  standardError : String

namespace CommandOutput

/-- Lines, each ended. -/
def ofLines (lines : List String) : CommandOutput :=
  ⟨0, String.join (lines.map (· ++ "\n")), ""⟩

/-- What a command writes that has begun and ended at some times. -/
def ofResult (command : Command) (started finished : UInt64) :
    Except CommandError CommandResult → CommandOutput
  | .ok (.valid stages) =>
      ofLines ["✓ Stage plan is valid (" ++ toString stages ++ " stages)"]
  | .ok (.explained true config graph report) =>
      ofLines [(Json.object [("config", config.toJson), ("graph", graph.toJson),
        ("report", report.toJson)]).sorted.indentedText]
  | .ok (.explained false _ graph report) => ofLines (graph.renderLines (some report))
  | .ok (.executed outcome) => ofLines (outcome.lines (outcome.manifest started finished))
  | .error error =>
      if error.stopsProgram then ⟨101, "", error.message ++ "\n"⟩
      else ⟨1, "", command.failureText ++ error.message ++ "\n"⟩

end CommandOutput

/-- A command and the path of the plan it is for. -/
structure Invocation where
  command : Command
  path : String

namespace Invocation

/-- How the program is called. -/
def usage : String :=
  String.join [
    "Usage: batchflow validate --plan <PLAN>\n",
    "       batchflow explain --plan <PLAN> [--json] [--set <KEY=VALUE>]...\n",
    "       batchflow run --plan <PLAN> [--set <KEY=VALUE>]...\n"]

/-- Options of a command. -/
structure Options where
  path : Option String := none
  asJson : Bool := false
  overrides : List String := []

namespace Options

/-- Put an option in front of others.  Only overrides may be repeated, and a path is
not empty. -/
def add? (options : Options) : (name : String) → (value : Option String) → Option Options
  | "--json", none =>
      if options.asJson then none else some { options with asJson := true }
  | "--plan", some path =>
      if path.isEmpty || options.path.isSome then none
      else some { options with path := some path }
  | "--set", some text => some { options with overrides := text :: options.overrides }
  | _, _ => none

/-- Whether an argument is no value: it begins with a dash and goes on. -/
def isOption (argument : String) : Bool :=
  match argument.toList with
  | '-' :: _ :: _ => true
  | _ => false

/-- The name of the option that an argument gives, and its value if it is in the same
argument: after an equals sign, or right after a short name. -/
def split? (argument : String) : Option (String × Option String) :=
  match argument.toList with
  | '-' :: '-' :: _ =>
      match StageDocument.splitSetting? argument with
      | some (name, value) => some (name, some value)
      | none => some (argument, none)
  | ['-', 'p'] => some ("--plan", none)
  | '-' :: 'p' :: '=' :: value | '-' :: 'p' :: value =>
      some ("--plan", some (String.ofList value))
  | _ => none

/-- Read options in any order.  Two dashes may stand after the last one. -/
def read? : List String → Option Options
  | [] | ["--"] => some {}
  | argument :: rest =>
      match split? argument with
      | none => none
      | some ("--json", none) =>
          (read? rest).bind fun options => options.add? "--json" none
      | some (name, some value) =>
          (read? rest).bind fun options => options.add? name (some value)
      | some (name, none) =>
          match rest with
          | [] => none
          | value :: rest =>
              if isOption value then none
              else (read? rest).bind fun options => options.add? name (some value)

end Options

/-- The command of a name with options. -/
def ofOptions? (name : String) (options : Options) : Option Invocation := do
  let path ← options.path
  match name with
  | "validate" =>
      if options.asJson || !options.overrides.isEmpty then none
      else some ⟨.validate, path⟩
  | "explain" => some ⟨.explain options.asJson options.overrides, path⟩
  | "run" => if options.asJson then none else some ⟨.run options.overrides, path⟩
  | _ => none

/-- The command that arguments ask for. -/
def ofArguments? : List String → Option Invocation
  | [] => none
  | name :: arguments => (Options.read? arguments).bind (ofOptions? name)

end Invocation

end BatchFlow
