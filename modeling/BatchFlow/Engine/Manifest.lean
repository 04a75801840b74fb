import BatchFlow.Digest

/-!
# Run manifests

The record of a run: which plan was executed in how many jobs, what it put out,
and when.
-/

namespace BatchFlow

/-- The version of the engine that writes manifests. -/
def engineVersion : String :=
  "0.1.0"

/-- The record of a run; times are milliseconds since the start of 1970. -/
structure RunManifest where
  planHash : Digest
  jobCount : Nat
  version : String
  outputsDigest : Option Digest
  started : UInt64
  finished : UInt64
deriving Inhabited

namespace RunManifest

/-- The record of a run that has just started. -/
def start (planHash : Digest) (jobCount : Nat) (started : UInt64) : RunManifest :=
  ⟨planHash, jobCount, engineVersion, none, started, started⟩

/-- The record of a finished run. -/
def finish (manifest : RunManifest) (finished : UInt64) (outputsDigest : Option Digest) :
    RunManifest :=
  { manifest with finished := finished, outputsDigest := outputsDigest }

/-- The duration of a run; a clock that went back makes it zero. -/
def duration (manifest : RunManifest) : UInt64 :=
  if manifest.started ≤ manifest.finished then manifest.finished - manifest.started else 0

end RunManifest

end BatchFlow
