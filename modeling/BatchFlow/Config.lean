import BatchFlow.Number.Word
import BatchFlow.Text.Blank

/-!
# Engine configuration

The configuration is read once from a lookup of texts.  Reading never fails: a
missing or unreadable value counts as its default.
-/

namespace BatchFlow

/-- What the passes and the runtime are told about the engine. -/
structure EngineConfig where
  /-- A broadcast side of more files than this gets a concatenate stage. -/
  mergeFilesThreshold : UInt32 := 4
  /-- Whether every input file is a split of its own. -/
  splitCombinationDisabled : Bool := false
  /-- Reduce tasks of a grouping stage that asks for no number of its own. -/
  defaultParallelism : UInt32 := 1
deriving DecidableEq, Inhabited

namespace EngineConfig

/-- The key of the merge threshold. -/
def mergeFilesThresholdKey : String :=
  "merge-files-threshold"

/-- The key of the switch for combining splits. -/
def splitCombinationKey : String :=
  "disable-split-combination"

/-- The key of the default parallelism. -/
def defaultParallelismKey : String :=
  "default-parallelism"

/-- The environment variable for a key. -/
def environmentName (key : String) : String :=
  "STAGEOPT_" ++ String.ofList (key.toList.map fun character =>
    if character = '-' then '_' else character.toUpper)

/-- A 32-bit number in decimal digits, with an optional plus sign. -/
def readNumber? (text : String) : Option UInt32 :=
  let digits := match text.toList with
    | '+' :: rest => rest
    | characters => characters
  if digits.isEmpty || !digits.all Char.isDigit then none
  else Number.halfWord? (Nat.ofDigitChars 10 digits 0)

/-- A positive 32-bit number. -/
def readPositive? (text : String) : Option UInt32 :=
  (readNumber? text).filter (0 < ·)

/-- A truth value, in any case of its letters. -/
def readBool? (text : String) : Option Bool :=
  let lowered := String.ofList (text.toList.map Char.toLower)
  if lowered ∈ ["true", "yes", "1"] then some true
  else if lowered ∈ ["false", "no", "0"] then some false
  else none

/-- The value of a key without blanks around it, if it can be read. -/
def lookup {α : Type} (property : String → Option String) (key : String)
    (read? : String → Option α) (default : α) : α :=
  ((property key).bind fun text => read? (Text.trim text)).getD default

/-- The configuration that a lookup of texts describes. -/
def ofProperties (property : String → Option String) : EngineConfig where
  mergeFilesThreshold := lookup property mergeFilesThresholdKey readNumber? 4
  splitCombinationDisabled := lookup property splitCombinationKey readBool? false
  defaultParallelism := lookup property defaultParallelismKey readPositive? 1

/-- The configuration that environment variables describe. -/
def ofEnvironment (environment : String → Option String) : EngineConfig :=
  ofProperties fun key => environment (environmentName key)

end EngineConfig

end BatchFlow
