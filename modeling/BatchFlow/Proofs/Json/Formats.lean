import BatchFlow.Proofs.Json.Reading
import BatchFlow.Proofs.Json.RealNumerals

/-!
# Writers and readers of compact text

This is what is relied on of a writer and of a reader of JSON.  A compact writer puts no
blanks between tokens, escapes no more than it must, and writes a finite double as some
numeral for it; other doubles have no text in JSON and are written as null.  A reader takes
back what any such writer writes of the values without doubles.  The writer and the reader
of this library are such ones.
-/

namespace BatchFlow

namespace Json

/-- Texts after a comma each, and a closing bracket. -/
def followingChars (closing : Char) : List (List Char) → List Char
  | [] => [closing]
  | text :: texts => ',' :: (text ++ followingChars closing texts)

/-- Texts with commas between them, and a closing bracket. -/
def sequenceChars (closing : Char) : List (List Char) → List Char
  | [] => [closing]
  | text :: texts => text ++ followingChars closing texts

/-- The characters of an entry. -/
def entryItemChars (write : Json → String) (entry : Name × Json) : List Char :=
  quote entry.1.text ++ ':' :: (write entry.2).toList

/-- The function writes compact text.  A value that JSON has no text for is written as
null. -/
structure CompactWriter (write : Json → String) : Prop where
  null : write .null = "null"
  bool : ∀ value, write (.bool value) = if value then "true" else "false"
  integer : ∀ value, (write (.integer value)).toList = integerChars value
  string : ∀ value, (write (.string value)).toList = quote value
  array : ∀ elements, (write (.array elements)).toList =
    '[' :: sequenceChars ']' (elements.map fun element => (write element).toList)
  object : ∀ entries, (write (.object entries)).toList =
    '{' :: sequenceChars '}' (entries.map (entryItemChars write))
  real : ∀ value : Binary64, value.isFinite = true →
    ∃ numeral : Numeral, numeral.Denotes value ∧ (write (.real value)).toList = numeral.chars
  notFinite : ∀ value : Binary64, ¬ value.isFinite = true → write (.real value) = "null"
  unreadable : write .unreadable = "null"

/-- The function reads what a compact writer writes of the values without doubles. -/
def CompactReader (read : String → Option Json) : Prop :=
  ∀ write, CompactWriter write → ∀ value, Readable value → read (write value) = some value

section Text

theorem elementChars_eq (elements : List Json) :
    elementChars elements = sequenceChars ']' (elements.map chars) := by
  cases elements with
  | nil => rfl
  | cons element elements =>
      induction elements generalizing element with
      | nil => rfl
      | cons next elements ih => simp [elementChars, ih, sequenceChars, followingChars]

theorem toList_text (value : Json) : value.text.toList = value.chars :=
  String.toList_ofList

theorem entryChars_eq (entries : List (Name × Json)) :
    entryChars entries = sequenceChars '}' (entries.map (entryItemChars text)) := by
  cases entries with
  | nil => rfl
  | cons entry entries =>
      induction entries generalizing entry with
      | nil => simp [entryChars, sequenceChars, followingChars, entryItemChars, toList_text]
      | cons next entries ih =>
          simp [entryChars, ih, sequenceChars, followingChars, entryItemChars, toList_text]

theorem text_eq_null {x : Binary64} (notFinite : ¬ x.isFinite = true) :
    DecimalStyle.json.text x = "null" := by
  by_cases isNaN : x.isNaN = true
  · exact if_pos isNaN
  · have isInfinite : x.isInfinite = true := by
      by_contra number
      exact notFinite (Binary64.isFinite_of_number isNaN number)
    rw [DecimalStyle.text, if_neg isNaN, if_pos isInfinite]
    split <;> rfl

/-- The compact text of a value is compact text. -/
theorem compactWriter_text : CompactWriter text where
  null := rfl
  bool value := by cases value <;> rfl
  integer value := toList_text _
  string value := toList_text _
  array elements := by
    rw [toList_text, chars, elementChars_eq]
    simp only [toList_text]
  object entries := by rw [toList_text, chars, entryChars_eq]
  real value finite :=
    ⟨value.numeral, value.denotes_numeral, (toList_text _).trans (Binary64.toList_text finite)⟩
  notFinite value notFinite := by
    rw [text, chars, text_eq_null notFinite]
    rfl
  unreadable := rfl

end Text

/-- Of values without doubles there is only one compact text. -/
theorem CompactWriter.eq_text {write : Json → String} (writer : CompactWriter write) {value : Json}
    (readable : Readable value) : write value = value.text := by
  refine String.toList_inj.mp ?_
  induction readable with
  | null => rw [writer.null]; rfl
  | bool => rw [writer.bool, compactWriter_text.bool]
  | integer => rw [writer.integer, compactWriter_text.integer]
  | string => rw [writer.string, compactWriter_text.string]
  | array readable ih =>
      rw [writer.array, compactWriter_text.array, List.map_congr_left ih]
  | object names readable ih =>
      have items := List.map_congr_left fun entry member =>
        congrArg (quote entry.1.text ++ ':' :: ·) (ih entry member)
      rw [writer.object, compactWriter_text.object]
      exact congrArg (fun texts => '{' :: sequenceChars '}' texts) items

/-- The reader of this library reads compact text. -/
theorem compactReader_read? : CompactReader read? := by
  intro write writer value readable
  rw [writer.eq_text readable]
  exact read?_text readable

end Json

end BatchFlow
