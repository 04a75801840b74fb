import Mathlib.Data.List.Basic
import Mathlib.Tactic.IntervalCases

/-!
# Decimal digits

The decimal digits of a number have no leading zero, and reading takes exactly
them from the front of a text in which something else follows.
-/

namespace BatchFlow

theorem isDigit_toDigits {number : Nat} {char : Char} (member : char ∈ Nat.toDigits 10 number) :
    char.isDigit = true :=
  Nat.isDigit_of_mem_toDigits (by decide) (by decide) member

theorem toDigits_injective {first second : UInt64}
    (same : Nat.toDigits 10 first.toNat = Nat.toDigits 10 second.toNat) : first = second := by
  have values := congrArg (Nat.ofDigitChars 10 · 0) same
  exact UInt64.toNat_inj.mp (by simpa using values)

theorem exists_toDigits_eq_cons (number : Nat) :
    ∃ digit digits, Nat.toDigits 10 number = digit :: digits ∧ digit.isDigit = true := by
  obtain ⟨digit, digits, isCons⟩ := List.exists_cons_of_ne_nil (Nat.toDigits_ne_nil (n := number))
  exact ⟨digit, digits, isCons, isDigit_toDigits (isCons ▸ List.mem_cons_self)⟩

/-- Only the digits of zero start with a zero. -/
theorem head?_toDigits_eq_zero {number : Nat}
    (zero : (Nat.toDigits 10 number).head? = some '0') : number = 0 := by
  induction number using Nat.strong_induction_on with
  | _ number ih =>
    rw [Nat.toDigits_eq_if (by decide)] at zero
    split at zero
    case isTrue small =>
      interval_cases number <;> simp_all [Nat.digitChar]
    case isFalse large =>
      -- The first digit is that of the number without its last digit.
      rw [List.head?_append_of_ne_nil _ Nat.toDigits_ne_nil] at zero
      have := ih (number / 10) (by omega) zero
      omega

section Values

/-- A text of digits after a number stands for at least this number with zeros and for less
than the next one. -/
theorem ofDigitChars_bounds {digits : List Char} (areDigits : ∀ char ∈ digits, char.isDigit = true)
    (front : Nat) :
    front * 10 ^ digits.length ≤ Nat.ofDigitChars 10 digits front ∧
      Nat.ofDigitChars 10 digits front < (front + 1) * 10 ^ digits.length := by
  induction digits generalizing front with
  | nil => simp
  | cons char digits ih =>
      obtain ⟨isDigit, areDigits⟩ := List.forall_mem_cons.mp areDigits
      obtain ⟨lower, upper⟩ := ih areDigits (10 * front + (char.toNat - '0'.toNat))
      have atMost : char.toNat - '0'.toNat ≤ 9 := by
        have := (Char.isDigit_iff_toNat.mp isDigit).2
        simp only [Char.reduceToNat] at this ⊢
        omega
      rw [Nat.ofDigitChars_cons, List.length_cons, Nat.pow_succ', ← Nat.mul_assoc, ← Nat.mul_assoc]
      constructor
      · exact (Nat.mul_le_mul_right _ (by omega)).trans lower
      · exact upper.trans_le (Nat.mul_le_mul_right _ (by omega))

/-- Texts of equally many digits are ordered like the numbers they stand for. -/
theorem lt_of_ofDigitChars_lt {first second : List Char} (sameLength : first.length = second.length)
    (areDigits : ∀ char ∈ first, char.isDigit = true)
    (areDigitsToo : ∀ char ∈ second, char.isDigit = true) {front : Nat}
    (less : Nat.ofDigitChars 10 first front < Nat.ofDigitChars 10 second front) :
    first < second := by
  induction first generalizing second front with
  | nil =>
      obtain rfl := List.length_eq_zero_iff.mp sameLength.symm
      exact absurd less (Nat.lt_irrefl _)
  | cons char first ih =>
      obtain ⟨other, second, rfl⟩ := List.exists_cons_of_length_eq_add_one sameLength.symm
      obtain ⟨-, firstDigits⟩ := List.forall_mem_cons.mp areDigits
      obtain ⟨isDigit, secondDigits⟩ := List.forall_mem_cons.mp areDigitsToo
      have sameRest : first.length = second.length := Nat.succ.inj sameLength
      rw [Nat.ofDigitChars_cons, Nat.ofDigitChars_cons] at less
      rw [List.cons_lt_cons_iff]
      rcases Nat.lt_trichotomy char.toNat other.toNat with below | same | above
      · exact .inl (UInt32.lt_iff_toNat_lt.mpr below)
      · obtain rfl := Char.toNat_inj.mp same
        exact .inr ⟨rfl, ih sameRest firstDigits secondDigits less⟩
      · -- a greater first digit outweighs all that follow
        have lower := (ofDigitChars_bounds firstDigits (10 * front + (char.toNat - '0'.toNat))).1
        have upper := (ofDigitChars_bounds secondDigits (10 * front + (other.toNat - '0'.toNat))).2
        have atLeast : '0'.toNat ≤ other.toNat := (Char.isDigit_iff_toNat.mp isDigit).1
        have outweighs := Nat.mul_le_mul_right (10 ^ second.length) (show
          10 * front + (other.toNat - '0'.toNat) + 1 ≤ 10 * front + (char.toNat - '0'.toNat) by
            omega)
        rw [sameRest] at lower
        exact absurd less (by omega)

end Values

section Reading

variable {digits rest : List Char} (areDigits : ∀ char ∈ digits, char.isDigit = true)
  (ends : ∀ char ∈ rest.head?, char.isDigit = false)

include areDigits ends

theorem takeWhile_digits_append : (digits ++ rest).takeWhile Char.isDigit = digits := by
  rw [List.takeWhile_append_of_pos areDigits]
  cases rest with
  | nil => simp
  | cons char rest => simp [ends char rfl]

theorem dropWhile_digits_append : (digits ++ rest).dropWhile Char.isDigit = rest := by
  rw [List.dropWhile_append_of_pos areDigits]
  cases rest with
  | nil => rfl
  | cons char rest => simp [ends char rfl]

end Reading

end BatchFlow
