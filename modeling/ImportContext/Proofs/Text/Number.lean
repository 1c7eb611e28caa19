import ImportContext.Text.Number

/-!
# Numbers in a text

Reading stops at the first digit that makes the number too large, so it never works with a larger
one. The texts that are read are the decimal digits of a number that fits into 64 bits, zeros in
front of them and one plus sign being no obstacle.

Results:
* `readDigits_eq_ok_iff`: when digits are read behind others, and what they amount to.
* `parseNumber_eq_ok_iff`: a number is read exactly from its digits.
-/

namespace ImportContext.Text

/-- The text consists of the decimal digits of the number, which fits into 64 bits. There may be a
plus sign in front. -/
def IsNumber (s : String) (n : Nat) : Prop :=
  ∃ digits, (s.toList = digits ∨ s.toList = '+' :: digits) ∧ digits ≠ [] ∧
    (∀ c ∈ digits, c.isDigit = true) ∧ n = Nat.ofDigitChars 10 digits 0 ∧ n < UInt64.size

theorem le_ofDigitChars (digits : List Char) (v : Nat) : v ≤ Nat.ofDigitChars 10 digits v := by
  induction digits generalizing v with
  | nil => exact Nat.le_refl v
  | cons c rest ih =>
    rw [Nat.ofDigitChars_cons]
    have hrest := ih (10 * v + (c.toNat - '0'.toNat))
    omega

/-- Digits are read if the whole number fits into 64 bits: no part of it is larger. -/
theorem readDigits_eq_ok_iff {digits : List Char} {v n : Nat} (hv : v < UInt64.size) :
    readDigits v digits = .ok n ↔
      (∀ c ∈ digits, c.isDigit = true) ∧ n = Nat.ofDigitChars 10 digits v ∧ n < UInt64.size := by
  induction digits generalizing v with
  | nil =>
    have hnil : Nat.ofDigitChars 10 [] v = v := rfl
    rw [readDigits, hnil]
    constructor
    · rintro ⟨⟩
      exact ⟨by simp, rfl, hv⟩
    · rintro ⟨-, rfl, -⟩
      rfl
  | cons c rest ih =>
    have hnext : v * 10 + (c.toNat - 48) = 10 * v + (c.toNat - '0'.toNat) := by
      rw [Nat.mul_comm]
      rfl
    rw [readDigits, Nat.ofDigitChars_cons, List.forall_mem_cons]
    by_cases hdigit : c.isDigit = true
    · simp only [hdigit, ite_true, true_and]
      by_cases hfits : v * 10 + (c.toNat - 48) < UInt64.size
      · rw [if_pos hfits, ih hfits, hnext]
      · rw [if_neg hfits]
        have hle := le_ofDigitChars rest (10 * v + (c.toNat - '0'.toNat))
        constructor
        · rintro ⟨⟩
        · rintro ⟨-, rfl, hlt⟩
          rw [hnext] at hfits
          exact absurd (Nat.lt_of_le_of_lt hle hlt) hfits
    · simp [hdigit]

/-- A number is read exactly from its digits. -/
theorem parseNumber_eq_ok_iff {s : String} {n : Nat} : parseNumber s = .ok n ↔ IsNumber s n := by
  have hread : ∀ digits, readDigits 0 digits = .ok n ↔ (∀ c ∈ digits, c.isDigit = true) ∧
      n = Nat.ofDigitChars 10 digits 0 ∧ n < UInt64.size :=
    fun digits => readDigits_eq_ok_iff (by decide)
  have hplus : Char.isDigit '+' = false := by decide
  unfold parseNumber IsNumber
  split
  · next hs => simp [hs]
  · next hs => simp [hs, hplus]
  · next digits hne hs =>
    rw [hread, hs]
    constructor
    · intro h
      exact ⟨digits, .inr rfl, hne, h⟩
    · rintro ⟨ds, hds | hds, -, h⟩
      · have hfirst := h.1 '+' (by simp [← hds])
        rw [hplus] at hfirst
        cases hfirst
      · cases hds
        exact h
  · next hne _ hsigned =>
    rw [hread]
    constructor
    · intro h
      exact ⟨s.toList, .inl rfl, hne, h⟩
    · rintro ⟨ds, hds | hds, -, h⟩
      · rw [hds]
        exact h
      · exact absurd hds (hsigned ds)

end ImportContext.Text
