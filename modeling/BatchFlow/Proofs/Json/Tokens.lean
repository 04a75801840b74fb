import BatchFlow.Json.Reader
import BatchFlow.Proofs.Number.Digits
import Mathlib.Tactic.IntervalCases

/-!
# Reading texts and integers back

The reader recovers a text from its characters between quotes, and an integer from its
digits if something else follows them.  Some controls are written by their codes, so a
name that has one of them is not read back as a plain name.
-/

namespace BatchFlow

namespace Json

section Texts

theorem hexValue?_digitChar {digit : Nat} (small : digit < 16) :
    Text.hexValue? (Nat.digitChar digit) = some digit := by
  interval_cases digit <;> rfl

theorem hexNumber?_hexQuad {code : Nat} (small : code < 65536) :
    Text.hexNumber? (hexQuad code) = some code := by
  have digit (shifted : Nat) : Text.hexValue? (Nat.digitChar (shifted % 16)) =
      some (shifted % 16) :=
    hexValue?_digitChar (Nat.mod_lt _ (by decide))
  simp only [Text.hexNumber?, hexQuad, List.mapM_cons, List.mapM_nil, digit, Option.pure_def,
    Option.bind_eq_bind, Option.bind_some, Option.map_some, List.foldl_cons, List.foldl_nil]
  exact congrArg some (by omega)

/-- Whether a character is written by its code. -/
def isCoded (character : Char) : Bool :=
  character.toNat < 32 && character.toNat ∉ [8, 9, 10, 12, 13]

/-- The part of a text as which a character is read back. -/
def writtenPart (character : Char) : TextPart :=
  if isCoded character then .unit character.toNat else .character character

theorem readParts?_shortEscape {character mark : Char} {rest : List Char}
    (escape : shortEscape? mark = some character) (notCode : mark ≠ 'u') :
    readParts? ('\\' :: mark :: rest) =
      (readParts? rest).map fun (parts, rest) => (.character character :: parts, rest) := by
  rw [readParts?.eq_3 _ _ (by simp [notCode]), escape]

theorem readParts?_code {code : Nat} {rest : List Char} (small : code < 65536) :
    readParts? (['\\', 'u'] ++ hexQuad code ++ rest) =
      (readParts? rest).map fun (parts, rest) => (.unit code :: parts, rest) := by
  have digits := hexNumber?_hexQuad small
  simp only [hexQuad, List.cons_append, List.nil_append] at digits ⊢
  rw [readParts?, digits]

theorem readParts?_cons {character : Char} {rest : List Char} (notQuote : character ≠ '"')
    (notBackslash : character ≠ '\\') (noControl : ¬character.toNat < 32) :
    readParts? (character :: rest) =
      (readParts? rest).map fun (parts, rest) => (.character character :: parts, rest) := by
  rw [readParts?.eq_4 _ _ notQuote (by simp [notBackslash]) (by simp [notBackslash]),
    if_neg noControl]

/-- One written character is read back as one part. -/
theorem readParts?_escapedChar (character : Char) (rest : List Char) :
    readParts? (escapedChar character ++ rest) =
      (readParts? rest).map fun (parts, rest) => (writtenPart character :: parts, rest) := by
  have named {code : Nat} (isCode : character.toNat = code) : character = Char.ofNat code :=
    isCode ▸ (Char.ofNat_toNat character).symm
  unfold escapedChar
  split_ifs with quote backslash backspace feed line carriage tab control
  case pos => subst quote; exact readParts?_shortEscape rfl (by decide)
  case pos => subst backslash; exact readParts?_shortEscape rfl (by decide)
  case pos => obtain rfl := named backspace; exact readParts?_shortEscape rfl (by decide)
  case pos => obtain rfl := named feed; exact readParts?_shortEscape rfl (by decide)
  case pos => subst line; exact readParts?_shortEscape rfl (by decide)
  case pos => subst carriage; exact readParts?_shortEscape rfl (by decide)
  case pos => subst tab; exact readParts?_shortEscape rfl (by decide)
  case pos =>
    have coded : isCoded character = true := by
      simp only [isCoded, control, decide_true, Bool.true_and, decide_eq_true_eq, List.mem_cons,
        List.not_mem_nil, or_false]
      rintro (isCode | isCode | isCode | isCode | isCode)
      · exact backspace isCode
      · exact tab (named isCode)
      · exact line (named isCode)
      · exact feed isCode
      · exact carriage (named isCode)
    rw [readParts?_code (by omega), writtenPart, if_pos coded]
  case neg =>
    rw [List.singleton_append, readParts?_cons quote backslash control]
    simp [writtenPart, isCoded, control]

/-- A quoted text is read up to its closing quote. -/
theorem readParts?_flatMap_escapedChar (characters rest : List Char) :
    readParts? (characters.flatMap escapedChar ++ '"' :: rest) =
      some (characters.map writtenPart, rest) := by
  induction characters with
  | nil => simp [readParts?]
  | cons character characters ih =>
      rw [List.flatMap_cons, List.append_assoc, readParts?_escapedChar, ih]
      rfl

theorem joinParts?_unit_cons {code : Nat} (small : code < 0xd800) (parts : List TextPart) :
    joinParts? (.unit code :: parts) = (joinParts? parts).map (Char.ofNat code :: ·) := by
  have notHigh : isHighSurrogate code = false := by simp [isHighSurrogate]; omega
  have notLow : isLowSurrogate code = false := by simp [isLowSurrogate]; omega
  rcases parts with _ | ⟨_ | _, _⟩ <;> simp [joinParts?, notHigh, notLow]

/-- The characters of a written text are those it was written from. -/
theorem joinParts?_map_writtenPart (characters : List Char) :
    joinParts? (characters.map writtenPart) = some characters := by
  induction characters with
  | nil => rfl
  | cons character characters ih =>
      rw [List.map_cons, writtenPart]
      split
      case isTrue coded =>
        -- A control is no half of a surrogate pair, so it is a character by itself.
        have small : character.toNat < 32 := by simp_all [isCoded]
        rw [joinParts?_unit_cons (by omega), ih, Char.ofNat_toNat]
        rfl
      case isFalse plain =>
        rw [joinParts?, ih]
        rfl

end Texts

namespace Name

/-- A name that is written without codes, and so read back as it is. -/
def IsPlain : Name → Prop
  | plain text => ∀ character ∈ text.toList, isCoded character = false
  | escaped _ => False

instance (name : Name) : Decidable name.IsPlain :=
  match name with
  | plain text => List.decidableBAll _ text.toList
  | escaped _ => .isFalse id

theorem ofParts_map_writtenPart {name : Name} (isPlain : name.IsPlain) :
    ofParts (name.text.toList.map writtenPart) = name := by
  cases name with
  | escaped text => exact isPlain.elim
  | plain text =>
      have noUnit : ((plain text).text.toList.map writtenPart).any TextPart.isUnit = false := by
        rw [List.any_eq_false]
        intro part member
        obtain ⟨character, inText, rfl⟩ := List.mem_map.mp member
        simp [writtenPart, isPlain character inText, TextPart.isUnit]
      rw [ofParts, joinParts?_map_writtenPart, noUnit]
      simp [Name.text, text?]

end Name

section Integers

/-- What may follow a value: nothing, a separator or a closing bracket. -/
def Delimited (rest : List Char) : Prop :=
  ∀ character ∈ rest.head?, character = ',' ∨ character = ']' ∨ character = '}'

/-- The integers that are read back as integers: words, with a sign or without. -/
def InRange (value : Int) : Prop :=
  -0x8000000000000000 ≤ value ∧ value < UInt64.size

namespace Numeral

theorem le_ofDigitChars (digits : List Char) (significand : Nat) :
    significand ≤ Nat.ofDigitChars 10 digits significand := by
  induction digits generalizing significand with
  | nil => simp
  | cons digit digits ih =>
      rw [Nat.ofDigitChars_cons]
      exact le_trans (by omega) (ih _)

/-- Digits of a number that fits a word are all gathered. -/
theorem gatherWhole_of_lt {digits : List Char} {significand : Nat}
    (fits : Nat.ofDigitChars 10 digits significand < UInt64.size) :
    gatherWhole significand digits = (Nat.ofDigitChars 10 digits significand, 0) := by
  induction digits generalizing significand with
  | nil => rfl
  | cons digit digits ih =>
      rw [Nat.ofDigitChars_cons] at fits ⊢
      have next : significand * 10 + digitValue digit =
          10 * significand + (digit.toNat - '0'.toNat) := by
        rw [digitValue, mul_comm]
      rw [gatherWhole, next, if_pos (lt_of_le_of_lt (le_ofDigitChars _ _) fits)]
      exact ih fits

/-- The numeral of an integer. -/
def ofInteger (value : Int) : Numeral where
  negative := value < 0
  whole := Nat.toDigits 10 value.natAbs
  fraction := []
  exponent := none

theorem value_ofInteger {value : Int} (inRange : InRange value) :
    (ofInteger value).value = .integer value := by
  obtain ⟨lower, upper⟩ := inRange
  have gathered : gatherWhole 0 (Nat.toDigits 10 value.natAbs) = (value.natAbs, 0) := by
    have fits : Nat.ofDigitChars 10 (Nat.toDigits 10 value.natAbs) 0 < UInt64.size := by
      rw [Nat.ofDigitChars_ten_toDigits]
      simp only [UInt64.size] at upper ⊢
      omega
    rw [gatherWhole_of_lt fits, Nat.ofDigitChars_ten_toDigits]
  simp only [Numeral.value, ofInteger, gathered, gatherFraction, List.isEmpty_nil,
    Option.isNone_none, decide_true, Bool.and_self, if_true]
  by_cases negative : value < 0
  · have small : (value.natAbs != 0 && decide (value.natAbs ≤ 0x8000000000000000)) = true := by
      simp only [Bool.and_eq_true, bne_iff_ne, decide_eq_true_eq]
      omega
    rw [if_neg (by simp [negative]), if_pos small]
    exact congrArg Json.integer (by omega)
  · rw [if_pos (by simp [negative])]
    exact congrArg Json.integer (by omega)

section Reading

/-- The characters of a fraction; without digits it is left out. -/
def fractionChars (fraction : List Char) : List Char :=
  if fraction = [] then [] else '.' :: fraction

/-- The characters of an exponent, with its sign. -/
def exponentChars : Option (Bool × List Char) → List Char
  | none => []
  | some (negative, digits) => 'e' :: (if negative then '-' else '+') :: digits

/-- The characters of a numeral after its sign. -/
def unsignedChars (numeral : Numeral) : List Char :=
  numeral.whole ++ (fractionChars numeral.fraction ++ exponentChars numeral.exponent)

/-- The characters of a numeral. -/
def chars (numeral : Numeral) : List Char :=
  (if numeral.negative then ['-'] else []) ++ numeral.unsignedChars

/-- The parts of a numeral are digits, and only a zero by itself starts with a zero. -/
structure WellFormed (numeral : Numeral) : Prop where
  whole : ∀ character ∈ numeral.whole, character.isDigit = true
  nonempty : numeral.whole ≠ []
  noLeadingZero : numeral.whole.head? = some '0' → numeral.whole = ['0']
  fraction : ∀ character ∈ numeral.fraction, character.isDigit = true
  exponent : ∀ exponent ∈ numeral.exponent,
    exponent.2 ≠ [] ∧ ∀ character ∈ exponent.2, character.isDigit = true

variable {numeral : Numeral} {rest : List Char}

theorem readWhole?_append (wellFormed : numeral.WellFormed)
    (ends : ∀ character ∈ rest.head?, character.isDigit = false) :
    readWhole? (numeral.whole ++ rest) = some (numeral.whole, rest) := by
  simp only [readWhole?, takeWhile_digits_append wellFormed.whole ends,
    dropWhile_digits_append wellFormed.whole ends]
  split
  case h_1 empty => exact absurd empty wellFormed.nonempty
  case h_2 digits =>
    have single := wellFormed.noLeadingZero (by rw [digits]; rfl)
    simp [digits] at single
  case h_3 => rfl

theorem readFractionPart?_append (wellFormed : numeral.WellFormed)
    (ends : ∀ character ∈ rest.head?, character.isDigit = false ∧ character ≠ '.') :
    readFractionPart? (fractionChars numeral.fraction ++ rest) =
      some (numeral.fraction, rest) := by
  unfold fractionChars
  split
  case isTrue empty =>
    rw [empty, List.nil_append]
    cases rest with
    | nil => rfl
    | cons character rest =>
        rw [readFractionPart?.eq_2 _ (by simpa using (ends character rfl).2)]
  case isFalse someDigit =>
    have noDigit := fun character isFirst => (ends character isFirst).1
    simp [readFractionPart?, takeWhile_digits_append wellFormed.fraction noDigit,
      dropWhile_digits_append wellFormed.fraction noDigit, someDigit]

theorem readExponentPart?_append (wellFormed : numeral.WellFormed) (delimited : Delimited rest) :
    readExponentPart? (exponentChars numeral.exponent ++ rest) =
      some (numeral.exponent, rest) := by
  have ends : ∀ character ∈ rest.head?, character.isDigit = false := by
    intro character first
    rcases delimited character first with rfl | rfl | rfl <;> rfl
  rcases isExponent : numeral.exponent with _ | ⟨negative, digits⟩
  · cases rest with
    | nil => rfl
    | cons character rest => rcases delimited character rfl with rfl | rfl | rfl <;> rfl
  · obtain ⟨someDigit, areDigits⟩ := wellFormed.exponent _ isExponent
    have taken := takeWhile_digits_append areDigits ends
    have left := dropWhile_digits_append areDigits ends
    simp only at someDigit taken left
    cases negative <;>
      simp [exponentChars, readExponentPart?, readExponent?, taken, left, someDigit]

/-- A numeral is read back up to a separator. -/
theorem WellFormed.read?_chars (wellFormed : numeral.WellFormed) (delimited : Delimited rest) :
    read? (numeral.chars ++ rest) = some (numeral, rest) := by
  have exponent := readExponentPart?_append wellFormed delimited
  -- Neither an exponent nor a separator goes on with the part before it.
  have afterFraction : ∀ character ∈ (exponentChars numeral.exponent ++ rest).head?,
      character.isDigit = false ∧ character ≠ '.' := by
    rcases numeral.exponent with _ | ⟨negative, digits⟩
    · intro character first
      rcases delimited character first with rfl | rfl | rfl <;> decide
    · simp [exponentChars]
  have fraction := readFractionPart?_append wellFormed afterFraction
  have afterWhole : ∀ character ∈ (fractionChars numeral.fraction ++
      (exponentChars numeral.exponent ++ rest)).head?, character.isDigit = false := by
    unfold fractionChars
    split
    · exact fun character first => (afterFraction character first).1
    · simp
  have whole := readWhole?_append wellFormed afterWhole
  unfold chars unsignedChars read?
  cases isNegative : numeral.negative with
  | true =>
      simp only [if_true, List.append_assoc, List.cons_append, List.nil_append, whole, fraction,
        exponent, Option.map_some, ← isNegative]
  | false =>
      obtain ⟨digit, digits, isCons⟩ := List.exists_cons_of_ne_nil wellFormed.nonempty
      have noSign : digit ≠ '-' := by
        rintro rfl
        exact absurd (wellFormed.whole _ (isCons ▸ List.mem_cons_self)) (by decide)
      have parts : numeral = ⟨false, digit :: digits, numeral.fraction, numeral.exponent⟩ := by
        rw [← isCons, ← isNegative]
      rw [isCons, List.cons_append] at whole
      simpa [isCons, noSign, whole, fraction, exponent] using parts.symm

end Reading

theorem wellFormed_ofInteger (value : Int) : (ofInteger value).WellFormed where
  whole _ := isDigit_toDigits
  nonempty := Nat.toDigits_ne_nil
  noLeadingZero zero := congrArg (Nat.toDigits 10) (head?_toDigits_eq_zero zero)
  fraction := by simp [ofInteger]
  exponent := by simp [ofInteger]

theorem chars_ofInteger (value : Int) : (ofInteger value).chars = integerChars value := by
  unfold integerChars
  split_ifs with negative <;>
    simp [chars, unsignedChars, ofInteger, negative, fractionChars, exponentChars]

/-- The digits of an integer are read as its numeral, up to a separator. -/
theorem read?_integerChars (value : Int) {rest : List Char} (delimited : Delimited rest) :
    read? (integerChars value ++ rest) = some (ofInteger value, rest) :=
  chars_ofInteger value ▸ (wellFormed_ofInteger value).read?_chars delimited

end Numeral

end Integers

end Json

end BatchFlow
