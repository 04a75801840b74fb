/-!
# Identifiers

Stages, operators and jobs are named by 64-bit words.  Each kind of identifier
is a type of its own, ordered by its word and displayed with a word for its
kind in front.
-/

namespace BatchFlow

/-- The identifier of a stage in a stage graph. -/
structure StageId where
  value : UInt64
deriving DecidableEq, Inhabited

/-- The identifier of an operator in the plan of one stage. -/
structure OpId where
  value : UInt64
deriving DecidableEq, Inhabited

/-- The identifier of an executed job. -/
structure JobId where
  value : UInt64
deriving DecidableEq, Inhabited

namespace StageId

instance : Ord StageId :=
  ⟨compareOn StageId.value⟩

instance : Std.TransOrd StageId :=
  inferInstanceAs (Std.TransCmp (compareOn StageId.value))

instance : Std.LawfulEqOrd StageId where
  eq_of_compare {first second} equal := by
    cases first
    cases second
    exact congrArg StageId.mk (Std.LawfulEqOrd.eq_of_compare equal)

/-- The text of a stage identifier, such as `stage-3`. -/
def text (id : StageId) : String :=
  "stage-" ++ toString id.value.toNat

end StageId

namespace OpId

instance : Ord OpId :=
  ⟨compareOn OpId.value⟩

instance : Std.TransOrd OpId :=
  inferInstanceAs (Std.TransCmp (compareOn OpId.value))

instance : Std.LawfulEqOrd OpId where
  eq_of_compare {first second} equal := by
    cases first
    cases second
    exact congrArg OpId.mk (Std.LawfulEqOrd.eq_of_compare equal)

/-- The text of an operator identifier, such as `op-3`. -/
def text (id : OpId) : String :=
  "op-" ++ toString id.value.toNat

end OpId

namespace JobId

instance : Ord JobId :=
  ⟨compareOn JobId.value⟩

instance : Std.TransOrd JobId :=
  inferInstanceAs (Std.TransCmp (compareOn JobId.value))

instance : Std.LawfulEqOrd JobId where
  eq_of_compare {first second} equal := by
    cases first
    cases second
    exact congrArg JobId.mk (Std.LawfulEqOrd.eq_of_compare equal)

/-- The text of a job identifier, such as `job-3`. -/
def text (id : JobId) : String :=
  "job-" ++ toString id.value.toNat

end JobId

end BatchFlow
