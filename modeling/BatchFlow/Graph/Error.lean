import BatchFlow.Plan.Validity

/-!
# What can be wrong with a stage graph

Errors are kept as causes; their texts are given here once.  A cause is either
a malformed graph, which may point at a stage, or a broken internal invariant.
-/

namespace BatchFlow

/-- What is wrong with one stage. -/
inductive StageFault where
  /-- The graph has no such stage. -/
  | unknown (stage : StageId)
  /-- The stage's plan is malformed. -/
  | malformedPlan (stage : StageId) (fault : SubPlan.Fault)
  /-- The stage loads the output of a stage that need not precede it. -/
  | unbackedLoad (stage : StageId) (operator : OpId) (source : StageId)

namespace StageFault

/-- The stage the fault points at; a missing stage is no place to point at. -/
def stage? : StageFault → Option StageId
  | unknown _ => none
  | malformedPlan stage _ => some stage
  | unbackedLoad stage _ _ => some stage

end StageFault

/-- Why a graph cannot be built, ordered or optimized. -/
inductive PlanError where
  | duplicateStage (stage : StageId)
  | unknownEnd (missing earlier later : StageId)
  | selfDependency (stage : StageId)
  | noEdge (earlier later : StageId)
  | edgeFromUnknown (earlier later : StageId)
  | edgeIntoUnknown (earlier later : StageId)
  /-- Each stage of the path depends on the next, and the last on the first. -/
  | cycle (first : StageId) (others : List StageId)
  | atStage (fault : StageFault)
  /-- Several stages failed a pass. -/
  | atStages (pass : String) (faults : List StageFault)
  | stageVanished (stage : StageId)
  | operatorVanished (stage : StageId) (operator : OpId)
  /-- A finding of a visitor. -/
  | visitor (stage : StageId) (finding : String)

namespace PlanError

/-- The message about a malformed graph. -/
def malformedText (stage : Option StageId) (reason : String) : String :=
  "malformed plan" ++ stage.elim "" (fun id => " at " ++ id.text) ++ ": " ++ reason

/-- The message about a broken invariant. -/
def invariantText (reason : String) : String :=
  "Internal invariant failed: " ++ reason

/-- The message about a fault of one stage. -/
def faultMessage : StageFault → String
  | .unknown stage => invariantText (stage.text ++ " is not in the stage graph")
  | .malformedPlan stage fault => malformedText (some stage) fault.text
  | .unbackedLoad stage operator source =>
      malformedText (some stage)
        (operator.text ++ " loads from " ++ source.text ++ ", which is not a predecessor")

/-- Whether the error is a broken invariant, not a malformed graph. -/
def isInvariant : PlanError → Bool
  | atStage (.unknown _) => true
  | stageVanished _ => true
  | _ => false

/-- The stage the error points at. -/
def stage? : PlanError → Option StageId
  | duplicateStage stage => some stage
  | unknownEnd missing _ _ => some missing
  | selfDependency stage => some stage
  | noEdge _ later => some later
  | edgeFromUnknown _ later => some later
  | edgeIntoUnknown earlier _ => some earlier
  | cycle first _ => some first
  | atStage fault => fault.stage?
  | atStages _ faults => faults.findSome? StageFault.stage?
  | stageVanished _ => none
  | operatorVanished stage _ => some stage
  | visitor stage _ => some stage

/-- The message of the error. -/
def message (error : PlanError) : String :=
  match error with
  | duplicateStage stage => malformedText (some stage) "duplicate stage id"
  | unknownEnd missing earlier later =>
      malformedText (some missing)
        ("edge " ++ earlier.text ++ " -> " ++ later.text ++ " references an unknown stage")
  | selfDependency stage => malformedText (some stage) "stage depends on itself"
  | noEdge earlier later =>
      malformedText (some later)
        ("no edge " ++ earlier.text ++ " -> " ++ later.text ++ " to insert a stage into")
  | edgeFromUnknown earlier later =>
      malformedText (some later) ("edge from unknown stage " ++ earlier.text)
  | edgeIntoUnknown earlier later =>
      malformedText (some earlier) ("edge into unknown stage " ++ later.text)
  | cycle first others =>
      malformedText (some first)
        ("stage graph has a cycle: "
          ++ String.intercalate " <- " ((first :: others ++ [first]).map StageId.text))
  | atStage fault => faultMessage fault
  | atStages pass faults =>
      malformedText (faults.findSome? StageFault.stage?)
        (pass ++ ": " ++ toString faults.length ++ " stages failed: "
          ++ String.intercalate "; " (faults.map faultMessage))
  | stageVanished stage => invariantText (stage.text ++ " vanished")
  | operatorVanished stage operator =>
      malformedText (some stage) (operator.text ++ " vanished")
  | visitor stage finding => malformedText (some stage) finding

end PlanError

end BatchFlow
