import BatchFlow.Proofs.Json.Tokens

/-!
# Reading the compact text of a value back

The compact text of a value has no blanks, so the reader meets the tokens as they were
written.  A value is read back unless it has a double, which is a matter of rounding, an
integer beyond a word, or a name that is written by codes.
-/

namespace BatchFlow

namespace Json

/-- The values that their compact text gives back. -/
inductive Readable : Json → Prop
  | null : Readable .null
  | bool {value : Bool} : Readable (.bool value)
  | integer {value : Int} (inRange : InRange value) : Readable (.integer value)
  | string {value : String} : Readable (.string value)
  | array {elements : List Json} (readable : ∀ element ∈ elements, Readable element) :
      Readable (.array elements)
  | object {entries : List (Name × Json)} (names : ∀ entry ∈ entries, entry.1.IsPlain)
      (readable : ∀ entry ∈ entries, Readable entry.2) : Readable (.object entries)

/-- A character that ends neither an array nor an object and is not skipped. -/
def Begins (character : Char) : Prop :=
  isBlank character = false ∧ character ≠ ']' ∧ character ≠ '}'

theorem skipBlanks_cons {character : Char} {rest : List Char}
    (notBlank : isBlank character = false) :
    skipBlanks (character :: rest) = character :: rest := by
  simp [skipBlanks, notBlank]

theorem ne_of_isDigit {character other : Char} (isDigit : character.isDigit = true)
    (notDigit : other.isDigit = false) : character ≠ other := by
  rintro rfl
  exact absurd isDigit (by simp [notDigit])

theorem begins_of_isDigit {character : Char} (isDigit : character.isDigit = true) :
    Begins character := by
  refine ⟨?_, ne_of_isDigit isDigit (by decide), ne_of_isDigit isDigit (by decide)⟩
  simp only [isBlank, Bool.or_eq_false_iff, decide_eq_false_iff_not]
  exact ⟨⟨⟨ne_of_isDigit isDigit (by decide), ne_of_isDigit isDigit (by decide)⟩,
    ne_of_isDigit isDigit (by decide)⟩, ne_of_isDigit isDigit (by decide)⟩

theorem exists_integerChars_eq_cons (value : Int) :
    ∃ first tail, integerChars value = first :: tail ∧ (first = '-' ∨ first.isDigit = true) := by
  unfold integerChars
  split
  · exact ⟨_, _, rfl, .inl rfl⟩
  · obtain ⟨digit, digits, isCons, isDigit⟩ := exists_toDigits_eq_cons value.natAbs
    exact ⟨digit, digits, isCons, .inr isDigit⟩

theorem Readable.exists_chars_eq_cons {value : Json} (readable : Readable value) :
    ∃ first tail, value.chars = first :: tail ∧ Begins first := by
  cases readable with
  | null => exact ⟨_, _, rfl, by decide, by decide, by decide⟩
  | @bool value => cases value <;> exact ⟨_, _, rfl, by decide, by decide, by decide⟩
  | @integer value inRange =>
      obtain ⟨first, tail, isCons, minus | isDigit⟩ := exists_integerChars_eq_cons value
      · exact ⟨first, tail, by rw [chars, isCons], minus ▸ ⟨by decide, by decide, by decide⟩⟩
      · exact ⟨first, tail, by rw [chars, isCons], begins_of_isDigit isDigit⟩
  | string => exact ⟨_, _, by rw [chars, quote]; rfl, by decide, by decide, by decide⟩
  | array readable => exact ⟨_, _, by rw [chars], by decide, by decide, by decide⟩
  | object names readable => exact ⟨_, _, by rw [chars], by decide, by decide, by decide⟩

theorem exists_elementChars_eq_cons {element : Json} (readable : Readable element)
    (elements : List Json) :
    ∃ first tail, elementChars (element :: elements) = first :: tail ∧ Begins first := by
  obtain ⟨first, tail, isCons, begins⟩ := readable.exists_chars_eq_cons
  cases elements with
  | nil => exact ⟨first, tail ++ [']'], by simp [elementChars, isCons], begins⟩
  | cons next elements =>
      exact ⟨first, tail ++ ',' :: elementChars (next :: elements), by simp [elementChars, isCons],
        begins⟩

theorem exists_entryChars_eq_cons (entry : Name × Json) (entries : List (Name × Json)) :
    ∃ tail, entryChars (entry :: entries) = '"' :: tail := by
  cases entries with
  | nil => exact ⟨_, by rw [entryChars, quote]; rfl⟩
  | cons next entries => exact ⟨_, by rw [entryChars, quote]; rfl⟩

/-- The reader takes the characters of the value, and nothing of what follows them. -/
def ReadsBack (value : Json) : Prop :=
  ∀ fuel rest, value.chars.length ≤ fuel → Delimited rest →
    readValue? fuel (value.chars ++ rest) = some (value, rest)

theorem delimited_cons {character : Char} {rest : List Char}
    (ends : character = ',' ∨ character = ']' ∨ character = '}') :
    Delimited (character :: rest) := by
  rintro first isFirst
  obtain rfl : character = first := by simpa using isFirst
  exact ends

/-- Each element and what follows it are shorter than the text, so the fuel suffices for both. -/
theorem readElements?_elementChars {elements : List Json} (nonempty : elements ≠ [])
    (readsBack : ∀ element ∈ elements, ReadsBack element) {fuel : Nat}
    (enough : (elementChars elements).length ≤ fuel) (rest : List Char) :
    readElements? fuel (elementChars elements ++ rest) = some (elements, rest) := by
  induction elements generalizing fuel with
  | nil => exact absurd rfl nonempty
  | cons element elements ih =>
      obtain ⟨ofElement, ofElements⟩ := List.forall_mem_cons.mp readsBack
      cases fuel with
      | zero => cases elements <;> simp [elementChars] at enough
      | succ fuel =>
          cases elements with
          | nil =>
              simp only [elementChars, List.length_append, List.length_singleton] at enough
              have head := ofElement fuel (']' :: rest) (by omega) (delimited_cons (by simp))
              simp only [elementChars, List.append_assoc, List.singleton_append, readElements?,
                head, skipBlanks_cons (show isBlank ']' = false by decide)]
          | cons next elements =>
              simp only [elementChars, List.length_append, List.length_cons] at enough
              have head := ofElement fuel (',' :: (elementChars (next :: elements) ++ rest))
                (by omega) (delimited_cons (by simp))
              have tail := ih (List.cons_ne_nil _ _) ofElements (show _ ≤ fuel by omega)
              simp only [elementChars, List.append_assoc, List.cons_append, readElements?,
                head, skipBlanks_cons (show isBlank ',' = false by decide), tail, Option.map_some]

theorem readEntries?_entryChars {entries : List (Name × Json)} (nonempty : entries ≠ [])
    (names : ∀ entry ∈ entries, entry.1.IsPlain)
    (readsBack : ∀ entry ∈ entries, ReadsBack entry.2) {fuel : Nat}
    (enough : (entryChars entries).length ≤ fuel) (rest : List Char) :
    readEntries? fuel (entryChars entries ++ rest) = some (entries, rest) := by
  induction entries generalizing fuel with
  | nil => exact absurd rfl nonempty
  | cons entry entries ih =>
      obtain ⟨name, value⟩ := entry
      obtain ⟨ofEntry, ofEntries⟩ := List.forall_mem_cons.mp readsBack
      obtain ⟨isPlain, arePlain⟩ := List.forall_mem_cons.mp names
      cases fuel with
      | zero => cases entries <;> simp [entryChars] at enough
      | succ fuel =>
          cases entries with
          | nil =>
              simp only [entryChars, List.length_append, List.length_cons] at enough
              have head := ofEntry fuel ('}' :: rest) (by simp only; omega)
                (delimited_cons (by simp))
              simp [entryChars, quote, readEntries?, readParts?_flatMap_escapedChar,
                head, skipBlanks_cons, isBlank, Name.ofParts_map_writtenPart isPlain]
          | cons next entries =>
              simp only [entryChars, List.length_append, List.length_cons] at enough
              have head := ofEntry fuel (',' :: (entryChars (next :: entries) ++ rest))
                (by simp only; omega) (delimited_cons (by simp))
              have tail := ih (List.cons_ne_nil _ _) arePlain ofEntries (show _ ≤ fuel by omega)
              simp [entryChars, quote, readEntries?, readParts?_flatMap_escapedChar, tail,
                head, skipBlanks_cons, isBlank, Name.ofParts_map_writtenPart isPlain]

theorem readValue?_integerChars {value : Int} (inRange : InRange value) {fuel : Nat}
    {rest : List Char} (delimited : Delimited rest) :
    readValue? (fuel + 1) (integerChars value ++ rest) = some (.integer value, rest) := by
  have numeral := Numeral.read?_integerChars value delimited
  obtain ⟨first, tail, isCons, start⟩ := exists_integerChars_eq_cons value
  have others {other : Char} (notDigit : other.isDigit = false) (notMinus : other ≠ '-') :
      first ≠ other := by
    rcases start with rfl | isDigit
    · exact notMinus.symm
    · exact ne_of_isDigit isDigit notDigit
  have notBlank : isBlank first = false := by
    rcases start with rfl | isDigit
    · decide
    · exact (begins_of_isDigit isDigit).1
  rw [isCons] at numeral ⊢
  rw [List.cons_append] at numeral ⊢
  simp [readValue?, skipBlanks_cons notBlank, numeral, Numeral.value_ofInteger inRange, others]

/-- No value is empty, so there is fuel for its first step. -/
theorem Readable.readsBack_of_succ {value : Json} (readable : Readable value)
    (step : ∀ fuel rest, value.chars.length ≤ fuel + 1 → Delimited rest →
      readValue? (fuel + 1) (value.chars ++ rest) = some (value, rest)) : ReadsBack value := by
  intro fuel rest enough delimited
  obtain ⟨first, tail, isCons, -⟩ := readable.exists_chars_eq_cons
  obtain ⟨fuel, rfl⟩ : ∃ less, fuel = less + 1 :=
    Nat.exists_eq_add_one.mpr (lt_of_lt_of_le (by simp [isCons]) enough)
  exact step fuel rest enough delimited

theorem Readable.readsBack {value : Json} (readable : Readable value) : ReadsBack value := by
  induction readable with
  | null => exact Readable.null.readsBack_of_succ fun _ _ _ _ => rfl
  | @bool value =>
      refine Readable.bool.readsBack_of_succ fun fuel rest enough delimited => ?_
      cases value <;> rfl
  | integer inRange =>
      refine (Readable.integer inRange).readsBack_of_succ fun fuel rest enough delimited => ?_
      exact readValue?_integerChars inRange delimited
  | string =>
      refine Readable.string.readsBack_of_succ fun fuel rest enough delimited => ?_
      simp [chars, quote, readValue?, readParts?_flatMap_escapedChar, joinParts?_map_writtenPart,
        skipBlanks_cons, isBlank]
  | @array elements readable ih =>
      refine (Readable.array readable).readsBack_of_succ fun fuel rest enough delimited => ?_
      cases elements with
      | nil => simp [chars, elementChars, readValue?, skipBlanks_cons, isBlank]
      | cons element elements =>
          have read := readElements?_elementChars (List.cons_ne_nil element elements) ih
            (show _ ≤ fuel by simpa [chars] using enough) rest
          obtain ⟨first, tail, isCons, notBlank, notBracket, -⟩ :=
            exists_elementChars_eq_cons (readable element List.mem_cons_self) elements
          rw [isCons, List.cons_append] at read
          have opening : skipBlanks ('[' :: first :: (tail ++ rest)) =
              '[' :: first :: (tail ++ rest) :=
            skipBlanks_cons (by decide)
          simp [chars, isCons, readValue?, opening, skipBlanks_cons notBlank, notBracket, read]
  | @object entries names readable ih =>
      refine (Readable.object names readable).readsBack_of_succ fun fuel rest enough delimited => ?_
      cases entries with
      | nil => simp [chars, entryChars, readValue?, skipBlanks_cons, isBlank]
      | cons entry entries =>
          have read := readEntries?_entryChars (List.cons_ne_nil entry entries) names ih
            (show _ ≤ fuel by simpa [chars] using enough) rest
          obtain ⟨tail, isCons⟩ := exists_entryChars_eq_cons entry entries
          rw [isCons, List.cons_append] at read
          simp [chars, isCons, readValue?, skipBlanks_cons, isBlank, read]

/-- A readable value is read back from its compact text. -/
theorem read?_text {value : Json} (readable : Readable value) : read? value.text = some value := by
  have readsBack := readable.readsBack (2 * value.chars.length + 2) [] (by omega)
    (by simp [Delimited])
  simp only [List.append_nil] at readsBack
  simp [read?, Json.text, readsBack, skipBlanks]

end Json

end BatchFlow
