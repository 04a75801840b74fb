import BatchFlow.Proofs.Json.Formats

/-!
# Values with the same text

Every value that a compact writer has written can be taken off the front of a text in one way
only.  So the compact text determines the value but for what it does not show: a double that is
not finite and a value without text are written as null, and a name is written by its text, with
or without codes.
-/

namespace BatchFlow

namespace Json

section AsWritten

mutual

/-- The value that the text of a value shows. -/
def asWritten : Json → Json
  | null => null
  | bool value => bool value
  | integer value => integer value
  | real value => if value.isFinite then real value else null
  | string value => string value
  | array elements => array (elementsAsWritten elements)
  | object entries => object (entriesAsWritten entries)
  | unreadable => null

/-- The elements that the text of an array shows. -/
def elementsAsWritten : List Json → List Json
  | [] => []
  | element :: elements => asWritten element :: elementsAsWritten elements

/-- The entries that the text of an object shows. -/
def entriesAsWritten : List (Name × Json) → List (Name × Json)
  | [] => []
  | (name, value) :: entries => (.plain name.text, asWritten value) :: entriesAsWritten entries

end

/-- The values of which the text shows everything. -/
inductive Written : Json → Prop
  | null : Written .null
  | bool {value : Bool} : Written (.bool value)
  | integer {value : Int} : Written (.integer value)
  | real {value : Binary64} (finite : value.isFinite = true) : Written (.real value)
  | string {value : String} : Written (.string value)
  | array {elements : List Json} (written : ∀ element ∈ elements, Written element) :
      Written (.array elements)
  | object {entries : List (Name × Json)} (names : ∀ entry ∈ entries, entry.1 = entry.1.text)
      (written : ∀ entry ∈ entries, Written entry.2) : Written (.object entries)

theorem elementsAsWritten_eq_map (elements : List Json) :
    elementsAsWritten elements = elements.map asWritten := by
  induction elements with
  | nil => rfl
  | cons element elements ih => rw [elementsAsWritten, ih, List.map_cons]

theorem entriesAsWritten_eq_map (entries : List (Name × Json)) :
    entriesAsWritten entries =
      entries.map fun entry => (.plain entry.1.text, entry.2.asWritten) := by
  induction entries with
  | nil => rfl
  | cons entry entries ih => rw [entriesAsWritten, ih, List.map_cons]

@[simp]
theorem text_plain (text : String) : (Name.plain text).text = text :=
  rfl

@[simp]
theorem asWritten_bool (value : Bool) : (bool value).asWritten = bool value :=
  rfl

@[simp]
theorem asWritten_integer (value : Int) : (integer value).asWritten = integer value :=
  rfl

@[simp]
theorem asWritten_string (value : String) : (string value).asWritten = string value :=
  rfl

@[simp]
theorem asWritten_array (elements : List Json) :
    (array elements).asWritten = array (elements.map asWritten) := by
  rw [asWritten, elementsAsWritten_eq_map]

@[simp]
theorem asWritten_object (entries : List (Name × Json)) :
    (object entries).asWritten =
      object (entries.map fun entry => (.plain entry.1.text, entry.2.asWritten)) := by
  rw [asWritten, entriesAsWritten_eq_map]

section Writer

variable {write : Json → String}

mutual

/-- A value is written as what its text shows. -/
theorem write_asWritten (writer : CompactWriter write) (value : Json) :
    write value.asWritten = write value := by
  cases value with
  | real value =>
      rw [asWritten]
      split
      case isTrue => rfl
      case isFalse notFinite => rw [writer.null, writer.notFinite value notFinite]
  | array elements =>
      have same := writeElements_asWritten writer elements
      refine String.toList_inj.mp ?_
      rw [asWritten, writer.array, writer.array, same]
  | object entries =>
      have same := writeEntries_asWritten writer entries
      refine String.toList_inj.mp ?_
      rw [asWritten, writer.object, writer.object, same]
  | unreadable => rw [asWritten, writer.null, writer.unreadable]
  | null | bool | integer | string => rfl

theorem writeElements_asWritten (writer : CompactWriter write) (elements : List Json) :
    ((elementsAsWritten elements).map fun element => (write element).toList) =
      elements.map fun element => (write element).toList := by
  match elements with
  | [] => rfl
  | element :: elements =>
      rw [elementsAsWritten, List.map_cons, List.map_cons, write_asWritten writer element,
        writeElements_asWritten writer elements]

theorem writeEntries_asWritten (writer : CompactWriter write) (entries : List (Name × Json)) :
    (entriesAsWritten entries).map (entryItemChars write) =
      entries.map (entryItemChars write) := by
  match entries with
  | [] => rfl
  | (name, value) :: entries =>
      rw [entriesAsWritten, List.map_cons, List.map_cons, writeEntries_asWritten writer entries,
        entryItemChars, entryItemChars, write_asWritten writer value]
      rfl

end

end Writer

mutual

theorem written_asWritten (value : Json) : value.asWritten.Written := by
  cases value with
  | null | unreadable => exact .null
  | bool => exact .bool
  | integer => exact .integer
  | string => exact .string
  | real value =>
      rw [asWritten]
      split
      case isTrue finite => exact .real finite
      case isFalse => exact .null
  | array elements => exact .array (written_of_mem_elementsAsWritten elements)
  | object entries =>
      refine .object ?_ (written_of_mem_entriesAsWritten entries)
      rw [entriesAsWritten_eq_map, List.forall_mem_map]
      exact fun _ _ => rfl

theorem written_of_mem_elementsAsWritten (elements : List Json) (element : Json)
    (member : element ∈ elementsAsWritten elements) : element.Written := by
  cases elements with
  | nil => simp [elementsAsWritten] at member
  | cons first elements =>
      rcases List.mem_cons.mp member with rfl | inRest
      · exact written_asWritten first
      · exact written_of_mem_elementsAsWritten elements element inRest

theorem written_of_mem_entriesAsWritten (entries : List (Name × Json)) (entry : Name × Json)
    (member : entry ∈ entriesAsWritten entries) : entry.2.Written := by
  cases entries with
  | nil => simp [entriesAsWritten] at member
  | cons first entries =>
      rcases List.mem_cons.mp member with rfl | inRest
      · exact written_asWritten first.2
      · exact written_of_mem_entriesAsWritten entries entry inRest

end

end AsWritten

section Sequences

variable {α : Type} {write : α → List Char} {closing : Char}

/-- Whether two items can be told apart at the front of a text, where a separator follows them. -/
def UniqueAtFront (write : α → List Char) (first second : α) : Prop :=
  ∀ rest others, Delimited rest → Delimited others →
    write first ++ rest = write second ++ others → first = second ∧ rest = others

theorem delimited_followingChars (ends : closing = ']' ∨ closing = '}') (items : List α)
    (rest : List Char) : Delimited (followingChars closing (items.map write) ++ rest) := by
  cases items with
  | nil => exact delimited_cons (.inr ends)
  | cons item items => exact delimited_cons (.inl rfl)

theorem followingChars_unique (ends : closing = ']' ∨ closing = '}') {items others : List α}
    (unique : ∀ item ∈ items, ∀ other ∈ others, UniqueAtFront write item other)
    {rest restOther : List Char}
    (same : followingChars closing (items.map write) ++ rest =
      followingChars closing (others.map write) ++ restOther) :
    items = others ∧ rest = restOther := by
  have notComma : closing ≠ ',' := by
    rcases ends with rfl | rfl <;> decide
  induction items generalizing others with
  | nil =>
      cases others with
      | nil => exact ⟨rfl, (List.cons.inj same).2⟩
      | cons other others => exact absurd (List.cons.inj same).1 notComma
  | cons item items ih =>
      cases others with
      | nil => exact absurd (List.cons.inj same).1.symm notComma
      | cons other others =>
          simp only [List.map_cons, followingChars, List.cons_append, List.append_assoc] at same
          obtain ⟨rfl, following⟩ := unique item List.mem_cons_self other List.mem_cons_self _ _
            (delimited_followingChars ends items rest)
            (delimited_followingChars ends others restOther) (List.cons.inj same).2
          obtain ⟨rfl, sameRest⟩ := ih (fun item member other memberOther =>
            unique item (List.mem_cons_of_mem _ member) other
              (List.mem_cons_of_mem _ memberOther)) following
          exact ⟨rfl, sameRest⟩

/-- A sequence can be taken off the front of a text in one way if each of its items can, and no
item begins with the closing bracket. -/
theorem sequenceChars_unique (ends : closing = ']' ∨ closing = '}') {items others : List α}
    (unique : ∀ item ∈ items, ∀ other ∈ others, UniqueAtFront write item other)
    (begins : ∀ item ∈ items, ∀ tail rest, write item ++ tail ≠ closing :: rest)
    (beginsOther : ∀ other ∈ others, ∀ tail rest, write other ++ tail ≠ closing :: rest)
    {rest restOther : List Char}
    (same : sequenceChars closing (items.map write) ++ rest =
      sequenceChars closing (others.map write) ++ restOther) :
    items = others ∧ rest = restOther := by
  cases items with
  | nil =>
      cases others with
      | nil => exact ⟨rfl, (List.cons.inj same).2⟩
      | cons other others =>
          simp only [List.map_nil, List.map_cons, sequenceChars, List.append_assoc] at same
          exact absurd same.symm (beginsOther other List.mem_cons_self _ _)
  | cons item items =>
      cases others with
      | nil =>
          simp only [List.map_nil, List.map_cons, sequenceChars, List.append_assoc] at same
          exact absurd same (begins item List.mem_cons_self _ _)
      | cons other others =>
          -- With a comma in front, both are lists of following items.
          have following : followingChars closing ((item :: items).map write) ++ rest =
              followingChars closing ((other :: others).map write) ++ restOther := by
            simpa [sequenceChars, followingChars] using same
          exact followingChars_unique ends unique following

end Sequences

section Unique

/-- The first character of a kind of values; numbers count as zero, and truths as true. -/
def mark : Json → Char
  | null | unreadable => 'n'
  | bool _ => 't'
  | integer _ | real _ => '0'
  | string _ => '"'
  | array _ => '['
  | object _ => '{'

/-- The kind of values that begin with a character. -/
def markOf (first : Char) : Char :=
  if first = '-' || first.isDigit then '0' else if first = 'f' then 't' else first

theorem markOf_of_numeral {numeral : Numeral} (wellFormed : numeral.WellFormed) :
    ∃ first tail, numeral.chars = first :: tail ∧ markOf first = '0' := by
  unfold Numeral.chars
  split
  · exact ⟨_, _, rfl, rfl⟩
  · obtain ⟨digit, digits, isCons⟩ := List.exists_cons_of_ne_nil wellFormed.nonempty
    have isDigit := wellFormed.whole digit (isCons ▸ List.mem_cons_self)
    exact ⟨digit, _, by rw [Numeral.unsignedChars, isCons]; rfl, by simp [markOf, isDigit]⟩

/-- A numeral for a number. -/
def HasNumeral : Json → Numeral → Prop
  | integer value, numeral => numeral = .ofInteger value
  | real value, numeral => numeral.Denotes value
  | _, _ => False

theorem HasNumeral.wellFormed {value : Json} {numeral : Numeral}
    (hasNumeral : value.HasNumeral numeral) : numeral.WellFormed := by
  cases value with
  | integer value => exact hasNumeral ▸ Numeral.wellFormed_ofInteger value
  | real value => exact Numeral.Denotes.wellFormed hasNumeral
  | _ => exact hasNumeral.elim

theorem Numeral.ofInteger_injective {first second : Int}
    (same : ofInteger first = ofInteger second) : first = second := by
  obtain ⟨signs, digits, -, -⟩ := Numeral.mk.inj same
  have sizes := congrArg (Nat.ofDigitChars 10 · 0) digits
  simp only [Nat.ofDigitChars_ten_toDigits, decide_eq_decide] at sizes signs
  omega

/-- A numeral is for one number only. -/
theorem HasNumeral.unique {first second : Json} {numeral : Numeral}
    (hasNumeral : first.HasNumeral numeral) (hasNumeralToo : second.HasNumeral numeral) :
    first = second := by
  cases first with
  | integer value =>
      cases second with
      | integer valueToo => rw [Numeral.ofInteger_injective (hasNumeral.symm.trans hasNumeralToo)]
      | real valueToo => exact (Numeral.Denotes.ne_ofInteger hasNumeralToo value hasNumeral).elim
      | _ => exact hasNumeralToo.elim
  | real value =>
      cases second with
      | integer valueToo =>
          exact (Numeral.Denotes.ne_ofInteger hasNumeral valueToo hasNumeralToo).elim
      | real valueToo => rw [Numeral.Denotes.unique hasNumeral hasNumeralToo]
      | _ => exact hasNumeralToo.elim
  | _ => exact hasNumeral.elim

theorem quote_unique {first second : String} {rest others : List Char}
    (same : quote first ++ rest = quote second ++ others) : first = second ∧ rest = others := by
  simp only [quote, List.cons_append, List.append_assoc, List.nil_append, List.cons.injEq,
    true_and] at same
  have parts := congrArg readParts? same
  rw [readParts?_flatMap_escapedChar, readParts?_flatMap_escapedChar, Option.some.injEq,
    Prod.mk.injEq] at parts
  have texts := congrArg joinParts? parts.1
  rw [joinParts?_map_writtenPart, joinParts?_map_writtenPart, Option.some.injEq] at texts
  exact ⟨String.toList_inj.mp texts, parts.2⟩

theorem Numeral.WellFormed.unique {first second : Numeral} (wellFormed : first.WellFormed)
    (wellFormedToo : second.WellFormed) {rest others : List Char} (delimited : Delimited rest)
    (delimitedToo : Delimited others) (same : first.chars ++ rest = second.chars ++ others) :
    first = second ∧ rest = others := by
  have reads := wellFormed.read?_chars delimited
  rw [same, wellFormedToo.read?_chars delimitedToo, Option.some.injEq, Prod.mk.injEq] at reads
  exact ⟨reads.1.symm, reads.2.symm⟩

section Writer

variable {write : Json → String} (writer : CompactWriter write)

include writer

theorem Written.exists_numeral {value : Json} (written : Written value)
    (isNumber : value.mark = '0') :
    ∃ numeral, value.HasNumeral numeral ∧ (write value).toList = numeral.chars := by
  cases written with
  | @integer value => exact ⟨_, rfl, by rw [writer.integer, Numeral.chars_ofInteger]⟩
  | real finite => exact writer.real _ finite
  | _ => simp [mark] at isNumber

theorem Written.exists_eq_cons {value : Json} (written : Written value) :
    ∃ first tail, (write value).toList = first :: tail ∧ markOf first = value.mark := by
  cases written with
  | null => exact ⟨_, _, by rw [writer.null]; rfl, rfl⟩
  | @bool value =>
      rw [writer.bool]
      cases value <;> exact ⟨_, _, rfl, rfl⟩
  | @integer value =>
      obtain ⟨numeral, hasNumeral, isNumeral⟩ := Written.integer.exists_numeral writer rfl
      exact isNumeral ▸ markOf_of_numeral hasNumeral.wellFormed
  | @real value finite =>
      obtain ⟨numeral, hasNumeral, isNumeral⟩ := (Written.real finite).exists_numeral writer rfl
      exact isNumeral ▸ markOf_of_numeral hasNumeral.wellFormed
  | string => exact ⟨_, _, by rw [writer.string, quote]; rfl, rfl⟩
  | array => exact ⟨_, _, writer.array _, rfl⟩
  | object => exact ⟨_, _, writer.object _, rfl⟩

/-- Values of which one is the beginning of the other's text are of one kind. -/
theorem Written.mark_eq {value other : Json} (written : Written value)
    (writtenOther : Written other) {rest restOther : List Char}
    (same : (write value).toList ++ rest = (write other).toList ++ restOther) :
    value.mark = other.mark := by
  obtain ⟨first, tail, isCons, isMark⟩ := written.exists_eq_cons writer
  obtain ⟨firstOther, tailOther, isConsOther, isMarkOther⟩ := writtenOther.exists_eq_cons writer
  rw [isCons, isConsOther] at same
  rw [← isMark, ← isMarkOther, (List.cons.inj same).1]

theorem Written.ne_bracket {value : Json} (written : Written value) (tail rest : List Char) :
    (write value).toList ++ tail ≠ ']' :: rest := by
  obtain ⟨first, others, isCons, isMark⟩ := written.exists_eq_cons writer
  intro same
  rw [isCons] at same
  rw [(List.cons.inj same).1] at isMark
  cases written <;> simp [mark, markOf] at isMark

theorem Written.number_unique {value other : Json} (written : Written value)
    (writtenOther : Written other) (isNumber : value.mark = '0') :
    UniqueAtFront (fun value => (write value).toList) value other := by
  intro rest others delimited delimitedOther same
  have kinds := written.mark_eq writer writtenOther same
  obtain ⟨numeral, hasNumeral, isNumeral⟩ := written.exists_numeral writer isNumber
  obtain ⟨numeralOther, hasNumeralOther, isNumeralOther⟩ :=
    writtenOther.exists_numeral writer (kinds ▸ isNumber)
  simp only [isNumeral, isNumeralOther] at same
  obtain ⟨rfl, sameRest⟩ :=
    hasNumeral.wellFormed.unique hasNumeralOther.wellFormed delimited delimitedOther same
  exact ⟨hasNumeral.unique hasNumeralOther, sameRest⟩

omit writer in
theorem entry_unique {entry other : Name × Json} (name : entry.1 = entry.1.text)
    (nameOther : other.1 = other.1.text)
    (unique : UniqueAtFront (fun value => (write value).toList) entry.2 other.2) :
    UniqueAtFront (entryItemChars write) entry other := by
  intro rest others delimited delimitedOther same
  rw [entryItemChars, entryItemChars, List.append_assoc, List.append_assoc] at same
  obtain ⟨names, values⟩ := quote_unique same
  obtain ⟨sameValue, sameRest⟩ := unique _ _ delimited delimitedOther (List.cons.inj values).2
  exact ⟨Prod.ext (by rw [name, nameOther, names]) sameValue, sameRest⟩

/-- A written value can be taken off the front of a text in one way only. -/
theorem Written.unique {value : Json} (written : Written value) {other : Json}
    (writtenOther : Written other) :
    UniqueAtFront (fun value => (write value).toList) value other := by
  -- The first character gives away the kind, so each case meets values of its own kind only.
  induction written generalizing other with
  | null =>
      intro rest others _ _ same
      have kinds := Written.null.mark_eq writer writtenOther same
      cases writtenOther with
      | null => exact ⟨rfl, List.append_cancel_left same⟩
      | _ => simp [mark] at kinds
  | @bool value =>
      intro rest others _ _ same
      have kinds := Written.bool.mark_eq writer writtenOther same
      cases writtenOther with
      | @bool valueOther =>
          simp only [writer.bool] at same
          cases value <;> cases valueOther <;> simp_all
      | _ => simp [mark] at kinds
  | integer => exact Written.integer.number_unique writer writtenOther rfl
  | real finite => exact (Written.real finite).number_unique writer writtenOther rfl
  | string =>
      intro rest others _ _ same
      have kinds := Written.string.mark_eq writer writtenOther same
      cases writtenOther with
      | string =>
          simp only [writer.string] at same
          obtain ⟨rfl, sameRest⟩ := quote_unique same
          exact ⟨rfl, sameRest⟩
      | _ => simp [mark] at kinds
  | array written ih =>
      intro rest others _ _ same
      have kinds := (Written.array written).mark_eq writer writtenOther same
      cases writtenOther with
      | array writtenOther =>
          simp only [writer.array] at same
          obtain ⟨rfl, sameRest⟩ := sequenceChars_unique (.inl rfl)
            (fun element member other memberOther =>
              ih element member (writtenOther other memberOther))
            (fun element member => (written element member).ne_bracket writer)
            (fun other member => (writtenOther other member).ne_bracket writer)
            (List.cons.inj same).2
          exact ⟨rfl, sameRest⟩
      | _ => simp [mark] at kinds
  | object names written ih =>
      intro rest others _ _ same
      have kinds := (Written.object names written).mark_eq writer writtenOther same
      cases writtenOther with
      | object namesOther writtenOther =>
          simp only [writer.object] at same
          obtain ⟨rfl, sameRest⟩ := sequenceChars_unique (.inr rfl)
            (fun entry member other memberOther => entry_unique (names entry member)
              (namesOther other memberOther)
              (ih entry member (writtenOther other memberOther)))
            (fun entry _ _ _ => by simp [entryItemChars, quote])
            (fun other _ _ _ => by simp [entryItemChars, quote]) (List.cons.inj same).2
          exact ⟨rfl, sameRest⟩
      | _ => simp [mark] at kinds

/-- Two values have the same text exactly if the text shows the same of both. -/
theorem CompactWriter.eq_iff {first second : Json} :
    write first = write second ↔ first.asWritten = second.asWritten := by
  constructor
  · intro same
    have characters : (write first.asWritten).toList ++ [] =
        (write second.asWritten).toList ++ [] := by
      rw [write_asWritten writer, write_asWritten writer, same]
    exact ((written_asWritten first).unique writer (written_asWritten second) [] []
      (by simp [Delimited]) (by simp [Delimited]) characters).1
  · intro same
    rw [← write_asWritten writer, same, write_asWritten writer]

end Writer

end Unique

end Json

end BatchFlow
