import BatchFlow.Json.Record
import BatchFlow.Proofs.Json.Reading

/-!
# Reading forms back

Words, optional values and lists are decoded from their own JSON forms.  A decoder that
bounds the depth of some parts of a list's elements reads the list if every element is
within the bound.
-/

namespace BatchFlow

namespace Json

section Depth

@[simp]
theorem depth_word (value : UInt64) : (word value).depth = 0 :=
  rfl

@[simp]
theorem depth_halfWord (value : UInt32) : (halfWord value).depth = 0 :=
  rfl

@[simp]
theorem depth_optional_halfWord (value : Option UInt32) : (optional halfWord value).depth = 0 := by
  cases value <;> rfl

@[simp]
theorem depth_single (name : String) (value : Json) :
    (single name value).depth = value.depth + 1 := by
  simp [single, depth, depthOfEntries]

theorem depthOfList_le_iff {elements : List Json} {room : Nat} :
    depthOfList elements ≤ room ↔ ∀ element ∈ elements, element.depth ≤ room := by
  induction elements with
  | nil => simp [depthOfList]
  | cons element elements ih => simp [depthOfList, ih]

theorem depthOfEntries_le_iff {entries : List (Name × Json)} {room : Nat} :
    depthOfEntries entries ≤ room ↔ ∀ entry ∈ entries, entry.2.depth ≤ room := by
  induction entries with
  | nil => simp [depthOfEntries]
  | cons entry entries ih => simp [depthOfEntries, ih]

end Depth

section Readable

@[simp]
theorem readable_bool (value : Bool) : (Json.bool value).Readable :=
  .bool

@[simp]
theorem readable_string (value : String) : (Json.string value).Readable :=
  .string

@[simp]
theorem readable_word (value : UInt64) : (word value).Readable := by
  have bound := value.toNat_lt_size
  exact .integer ⟨by omega, by omega⟩

@[simp]
theorem readable_halfWord (value : UInt32) : (halfWord value).Readable := by
  have bound := value.toNat_lt_size
  simp only [UInt32.size] at bound
  exact .integer ⟨by omega, by simp only [UInt64.size]; omega⟩

@[simp]
theorem readable_signedWord (value : Int64) : (Json.integer value.toInt).Readable := by
  have lower := value.le_toInt
  have upper := value.toInt_lt
  exact .integer ⟨by omega, by simp only [UInt64.size]; omega⟩

@[simp]
theorem readable_array_iff {elements : List Json} :
    (array elements).Readable ↔ ∀ element ∈ elements, element.Readable := by
  refine ⟨fun readable => ?_, .array⟩
  cases readable with
  | array readable => exact readable

@[simp]
theorem readable_object_iff {entries : List (Name × Json)} :
    (object entries).Readable ↔
      ∀ entry ∈ entries, entry.1.IsPlain ∧ entry.2.Readable := by
  refine ⟨fun readable => ?_, fun readable => ?_⟩
  · cases readable with
    | object names readable => exact fun entry member => ⟨names entry member, readable entry member⟩
  · exact .object (fun entry member => (readable entry member).1) fun entry member =>
      (readable entry member).2

theorem Readable.single {name : String} {value : Json} (isPlain : (Name.plain name).IsPlain)
    (readable : value.Readable) : (single name value).Readable :=
  readable_object_iff.mpr (by simpa using ⟨isPlain, readable⟩)

theorem readable_optional {α : Type} {encode : α → Json} {value : Option α}
    (readable : ∀ content, (encode content).Readable) : (optional encode value).Readable := by
  cases value with
  | none => exact .null
  | some content => exact readable content

theorem Name.isPlain_repr (number : Nat) : (plain number.repr).IsPlain := by
  intro character member
  rw [Nat.toList_repr] at member
  have isDigit := isDigit_toDigits member
  simp only [Char.isDigit, Bool.and_eq_true, decide_eq_true_eq, ge_iff_le,
    UInt32.le_iff_toNat_le] at isDigit
  have printable : 48 ≤ character.toNat := isDigit.1
  simp only [isCoded, Bool.and_eq_false_iff, decide_eq_false_iff_not]
  exact .inl (by omega)

/-- An object with numbers as names. -/
theorem readable_numbered {α : Type} (entries : List α) (number : α → Nat) (encode : α → Json)
    (readable : ∀ entry ∈ entries, (encode entry).Readable) :
    (object (entries.map fun entry => (.plain (number entry).repr, encode entry))).Readable := by
  rw [readable_object_iff, List.forall_mem_map]
  exact fun entry member => ⟨Name.isPlain_repr _, readable entry member⟩

end Readable

section Decoding

@[simp]
theorem Name.text?_plain (text : String) : (plain text).text? = some text :=
  rfl

@[simp]
theorem variant?_single (name : String) (value : Json) :
    (single name value).variant? = some (name, some value) :=
  rfl

@[simp]
theorem variant?_string (name : String) : (string name).variant? = some (name, none) :=
  rfl

@[simp]
theorem bareVariant?_string (name : String) : (string name).bareVariant? = some name :=
  rfl

@[simp]
theorem word?_word (value : UInt64) : (word value).word? = some value := by
  have bound := value.toNat_lt_size
  simp [word, word?, Number.word?, bound]

@[simp]
theorem halfWord?_halfWord (value : UInt32) : (halfWord value).halfWord? = some value := by
  have bound := value.toNat_lt_size
  simp [halfWord, halfWord?, Number.halfWord?, bound]

@[simp]
theorem signedWord?_toInt (value : Int64) :
    (Json.integer value.toInt).signedWord? = some value := by
  rw [signedWord?, Number.signedWord?, if_pos ⟨value.minValue_le_toInt, value.toInt_le⟩,
    Int64.ofInt_toInt]

@[simp]
theorem wordName?_repr (value : UInt64) : wordName? (.plain value.toNat.repr) = some value := by
  have bound := value.toNat_lt_size
  have allDigits : (Nat.toDigits 10 value.toNat).all Char.isDigit = true :=
    List.all_eq_true.mpr fun _ => isDigit_toDigits
  have noLeadingZero : ((Nat.toDigits 10 value.toNat).head? == some '0' &&
      decide (1 < (Nat.toDigits 10 value.toNat).length)) = false := by
    rw [Bool.and_eq_false_imp, beq_iff_eq]
    intro zero
    rw [head?_toDigits_eq_zero zero]
    rfl
  simp [wordName?, allDigits, noLeadingZero, Nat.toDigits_ne_nil, Number.word?, bound]

@[simp]
theorem option?_optional_halfWord (value : Option UInt32) :
    (optional halfWord value).option? halfWord? = some value := by
  cases value with
  | none => rfl
  | some value => exact congrArg (Option.map some) (halfWord?_halfWord value)

@[simp]
theorem bind_ite_some {α β : Type} {fits : Prop} [Decidable fits] {value : α}
    {next : α → Option β} :
    (if fits then some value else none).bind next = if fits then next value else none := by
  split_ifs <;> rfl

/-- A list is read if each of its elements fits. -/
theorem mapM_map_eq_ite {α β : Type} {encode : α → β} {decode? : β → Option α}
    {fits : α → Prop} [DecidablePred fits] {elements : List α}
    (each : ∀ element ∈ elements, decode? (encode element) =
      if fits element then some element else none) :
    (elements.map encode).mapM decode? =
      if ∀ element ∈ elements, fits element then some elements else none := by
  induction elements with
  | nil => rfl
  | cons element elements ih =>
      obtain ⟨ofElement, ofElements⟩ := List.forall_mem_cons.mp each
      rw [List.map_cons, List.mapM_cons, ofElement, ih ofElements]
      by_cases fitsElement : fits element
      · by_cases fitElements : ∀ element ∈ elements, fits element
        · rw [if_pos fitsElement, if_pos fitElements,
            if_pos (List.forall_mem_cons.mpr ⟨fitsElement, fitElements⟩)]
          rfl
        · rw [if_pos fitsElement, if_neg fitElements,
            if_neg fun all => fitElements (List.forall_mem_cons.mp all).2]
          rfl
      · rw [if_neg fitsElement, if_neg fun all => fitsElement (List.forall_mem_cons.mp all).1]
        rfl

theorem list?_map_eq_ite {α : Type} {encode : α → Json} {decode? : Json → Option α}
    {elements : List α} {room : Nat} (each : ∀ element ∈ elements, decode? (encode element) =
      if (encode element).depth ≤ room then some element else none) :
    (array (elements.map encode)).list? decode? =
      if depthOfList (elements.map encode) ≤ room then some elements else none := by
  rw [list?, array?, Option.bind_some, mapM_map_eq_ite each]
  simp only [depthOfList_le_iff, List.forall_mem_map]

theorem mapM_entries_eq_ite {α : Type} {name : α → Name} {encode : α → Json}
    {decode? : Name × Json → Option α} {elements : List α} {room : Nat}
    (each : ∀ element ∈ elements, decode? (name element, encode element) =
      if (encode element).depth ≤ room then some element else none) :
    (elements.map fun element => (name element, encode element)).mapM decode? =
      if depthOfEntries (elements.map fun element => (name element, encode element)) ≤ room
      then some elements else none := by
  rw [mapM_map_eq_ite each]
  simp only [depthOfEntries_le_iff, List.forall_mem_map]

theorem list?_map {α : Type} {encode : α → Json} {decode? : Json → Option α}
    (each : ∀ element, decode? (encode element) = some element) (elements : List α) :
    (array (elements.map encode)).list? decode? = some elements := by
  have always (element : α) (_ : element ∈ elements) :
      decode? (encode element) = if True then some element else none := by
    rw [each, if_true]
  rw [list?, array?, Option.bind_some, mapM_map_eq_ite always]
  simp

end Decoding

end Json

end BatchFlow
