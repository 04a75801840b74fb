import BatchFlow.Command

/-!
# The program

Reads the plan that the arguments name, performs the command, and writes what it
says.
-/

open BatchFlow

/-- The text of a file, if it can be read. -/
def readPlan? (path : String) : IO (Option String) := do
  try return some (← IO.FS.readFile path)
  catch _ => return none

/-- Milliseconds on a clock that does not go back. -/
def currentTime : IO UInt64 :=
  return UInt64.ofNat (← IO.monoMsNow)

/-- Perform the command that the arguments ask for. -/
def main (arguments : List String) : IO UInt32 := do
  match Invocation.ofArguments? arguments with
  | none =>
      (← IO.getStderr).putStr Invocation.usage
      return 2
  | some invocation =>
      let text ← readPlan? invocation.path
      let started ← currentTime
      let result := invocation.command.perform text
      let finished ← currentTime
      let output := CommandOutput.ofResult invocation.command started finished result
      (← IO.getStdout).putStr output.standardOutput
      (← IO.getStderr).putStr output.standardError
      return output.code.toUInt32
