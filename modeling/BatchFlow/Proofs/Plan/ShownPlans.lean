import BatchFlow.Plan.Encoding
import BatchFlow.Proofs.Json.UniqueTexts
import BatchFlow.Proofs.Plan.Literals

/-!
# Plans as their texts show them

The text of a plan shows everything of it but its doubles that are not finite, which are all
written in one way.  Two plans look the same in their texts exactly if they are equal once
these doubles are taken as one.
-/

namespace BatchFlow

/-- The double that a text shows; those that are not finite are taken as one. -/
def Binary64.asWritten (x : Binary64) : Binary64 :=
  if x.isFinite then x else quietNaN

/-- Two ways to look at the elements that tell the same elements apart tell the same lists
apart. -/
theorem map_eq_map_iff_of {α β γ : Type} {look : α → β} {lookOther : α → γ}
    (alike : ∀ first second, look first = look second ↔ lookOther first = lookOther second)
    {elements others : List α} :
    elements.map look = others.map look ↔ elements.map lookOther = others.map lookOther := by
  induction elements generalizing others with
  | nil => cases others <;> simp
  | cons element elements ih => cases others <;> simp [alike, ih]

namespace Json

@[simp]
theorem asWritten_real_eq_iff {x y : Binary64} :
    (real x).asWritten = (real y).asWritten ↔ x.asWritten = y.asWritten := by
  have notFinite : Binary64.quietNaN.isFinite = false := rfl
  simp only [asWritten, Binary64.asWritten]
  split_ifs with finite finiteToo finiteToo
  · simp
  · exact iff_of_false nofun fun same => by simp [same, notFinite] at finite
  · exact iff_of_false nofun fun same => by simp [← same, notFinite] at finiteToo
  · simp

@[simp]
theorem asWritten_single (name : String) (value : Json) :
    (single name value).asWritten = single name value.asWritten := by
  simp [single]

@[simp]
theorem single_inj {first second : String} {value other : Json} :
    single first value = single second other ↔ first = second ∧ value = other := by
  simp [single]

@[simp]
theorem asWritten_word (value : UInt64) : (word value).asWritten = word value :=
  rfl

@[simp]
theorem word_inj {first second : UInt64} : word first = word second ↔ first = second := by
  simp [word, UInt64.toNat_inj]

@[simp]
theorem asWritten_optional_halfWord (value : Option UInt32) :
    (optional halfWord value).asWritten = optional halfWord value := by
  cases value <;> rfl

@[simp]
theorem optional_halfWord_inj {first second : Option UInt32} :
    optional halfWord first = optional halfWord second ↔ first = second := by
  cases first <;> cases second <;> simp [optional, halfWord, UInt32.toNat_inj]

/-- Objects with numbers as names are told apart by the numbers and the values. -/
theorem asWritten_numbered_eq_iff {κ ν : Type} {number : κ → UInt64}
    (injective : ∀ first second, number first = number second → first = second)
    (encode : ν → Json) (change : ν → ν)
    (alike : ∀ first second, (encode first).asWritten = (encode second).asWritten ↔
      change first = change second) (entries others : List (κ × ν)) :
    (object (entries.map fun entry =>
          (.plain (number entry.1).toNat.repr, encode entry.2))).asWritten =
        (object (others.map fun entry =>
          (.plain (number entry.1).toNat.repr, encode entry.2))).asWritten ↔
      entries.map (fun entry => (entry.1, change entry.2)) =
        others.map (fun entry => (entry.1, change entry.2)) := by
  have names (first second : κ) :
      (number first).toNat.repr = (number second).toNat.repr ↔ first = second := by
    refine ⟨fun same => injective first second (toDigits_injective ?_), fun same => same ▸ rfl⟩
    rw [← Nat.toList_repr, same, Nat.toList_repr]
  simp only [asWritten_object, List.map_map, object.injEq]
  refine map_eq_map_iff_of fun first second => ?_
  simp [alike, names]

end Json

namespace Scalar

mutual

theorem asWritten_toJson_eq_iff (first second : Scalar) :
    first.toJson.asWritten = second.toJson.asWritten ↔
      first.mapFloats Binary64.asWritten = second.mapFloats Binary64.asWritten := by
  cases first with
  | bag rows =>
      cases second with
      | bag others => simp [toJson, mapFloats, asWritten_rowsToJson_eq_iff rows others]
      | _ => simp [toJson, mapFloats, Json.single]
  | _ => cases second <;> simp [toJson, mapFloats, Json.single, Int64.toInt_inj]

theorem asWritten_cellsToJson_eq_iff (first second : List Scalar) :
    (cellsToJson first).map Json.asWritten = (cellsToJson second).map Json.asWritten ↔
      cellsMapFloats Binary64.asWritten first = cellsMapFloats Binary64.asWritten second := by
  cases first with
  | nil => cases second <;> simp [cellsToJson, cellsMapFloats]
  | cons cell cells =>
      cases second with
      | nil => simp [cellsToJson, cellsMapFloats]
      | cons other others =>
          simp [cellsToJson, cellsMapFloats, asWritten_toJson_eq_iff cell other,
            asWritten_cellsToJson_eq_iff cells others]

theorem asWritten_rowsToJson_eq_iff (first second : List (List Scalar)) :
    (rowsToJson first).map Json.asWritten = (rowsToJson second).map Json.asWritten ↔
      rowsMapFloats Binary64.asWritten first = rowsMapFloats Binary64.asWritten second := by
  cases first with
  | nil => cases second <;> simp [rowsToJson, rowsMapFloats]
  | cons row rows =>
      cases second with
      | nil => simp [rowsToJson, rowsMapFloats]
      | cons other others =>
          simp [rowsToJson, rowsMapFloats, asWritten_cellsToJson_eq_iff row other,
            asWritten_rowsToJson_eq_iff rows others]

end

end Scalar

section FloatFree

@[simp]
theorem StageId.asWritten_toJson (id : StageId) : id.toJson.asWritten = id.toJson :=
  rfl

@[simp]
theorem StageId.toJson_inj {first second : StageId} :
    first.toJson = second.toJson ↔ first = second := by
  cases first
  cases second
  simp [toJson]

@[simp]
theorem OpId.asWritten_toJson (id : OpId) : id.toJson.asWritten = id.toJson :=
  rfl

@[simp]
theorem OpId.toJson_inj {first second : OpId} : first.toJson = second.toJson ↔ first = second := by
  cases first
  cases second
  simp [toJson]

@[simp]
theorem LoadSource.asWritten_toJson_inj {first second : LoadSource} :
    first.toJson.asWritten = second.toJson.asWritten ↔ first = second := by
  cases first <;> cases second <;> simp [toJson]

@[simp]
theorem Comparison.name_inj {first second : Comparison} :
    first.name = second.name ↔ first = second := by
  cases first <;> cases second <;> simp [name]

@[simp]
theorem AggregateFunction.asWritten_toJson_inj {first second : AggregateFunction} :
    first.toJson.asWritten = second.toJson.asWritten ↔ first = second := by
  cases first <;> cases second <;> simp [toJson, Json.single]

end FloatFree

namespace Predicate

@[simp]
theorem asWritten_toJson_eq_iff {first second : Predicate} :
    first.toJson.asWritten = second.toJson.asWritten ↔
      first.mapFloats Binary64.asWritten = second.mapFloats Binary64.asWritten := by
  simp [toJson, mapFloats, Scalar.asWritten_toJson_eq_iff]

end Predicate

namespace Expr

@[simp]
theorem asWritten_toJson_eq_iff {first second : Expr} :
    first.toJson.asWritten = second.toJson.asWritten ↔
      first.mapFloats Binary64.asWritten = second.mapFloats Binary64.asWritten := by
  cases first <;> cases second <;>
    simp [toJson, mapFloats, Json.single, Scalar.asWritten_toJson_eq_iff]

theorem asWritten_map_toJson_eq_iff {exprs others : List Expr} :
    (exprs.map fun expr => expr.toJson.asWritten) =
        (others.map fun expr => expr.toJson.asWritten) ↔
      exprs.map (mapFloats Binary64.asWritten) = others.map (mapFloats Binary64.asWritten) :=
  map_eq_map_iff_of fun _ _ => asWritten_toJson_eq_iff

end Expr

namespace Operation

@[simp]
theorem asWritten_toJson_eq_iff {first second : Operation} :
    first.toJson.asWritten = second.toJson.asWritten ↔
      first.mapFloats Binary64.asWritten = second.mapFloats Binary64.asWritten := by
  cases first with
  | forEach exprs =>
      cases second with
      | forEach others =>
          simp [toJson, mapFloats, Function.comp_def, Expr.asWritten_map_toJson_eq_iff]
      | _ => simp [toJson, mapFloats]
  | join keys fragment =>
      cases second with
      | join others =>
          simp [toJson, mapFloats, Function.comp_def, List.map_inj_right]
      | _ => simp [toJson, mapFloats]
  -- Forms of different operations differ in the name, and other forms have no lists.
  | _ => cases second <;> simp [toJson, mapFloats]

end Operation

namespace Operator

@[simp]
theorem asWritten_toJson_eq_iff {first second : Operator} :
    first.toJson.asWritten = second.toJson.asWritten ↔
      first.mapFloats Binary64.asWritten = second.mapFloats Binary64.asWritten := by
  simp [toJson, mapFloats, Function.comp_def, List.map_inj_right]

end Operator

namespace SubPlan

/-- Two plans are written in one way exactly if they are equal once all doubles that are not
finite are taken as one. -/
@[simp]
theorem asWritten_toJson_eq_iff {first second : SubPlan} :
    first.toJson.asWritten = second.toJson.asWritten ↔
      first.mapFloats Binary64.asWritten = second.mapFloats Binary64.asWritten := by
  have operators := Json.asWritten_numbered_eq_iff
    (fun _ _ same => congrArg OpId.mk same) Operator.toJson (Operator.mapFloats Binary64.asWritten)
    (fun _ _ => Operator.asWritten_toJson_eq_iff) first.operatorMap.entries
    second.operatorMap.entries
  simpa [toJson, mapFloats, OrderedMap.ext_iff, OrderedMap.mapValues] using
    fun (_ : first.nextId = second.nextId) => operators

end SubPlan

end BatchFlow
