import Mathlib.Data.List.Basic
import ProtoSchema.Number.Integer

/-!
# Decimal notation

How integers are written. The digits of a number spell it (`ofDigitsFrom_digits`), and the notation
has no leading zero. `IsShort` is the bound on its length that writing and reading share.
-/

namespace ProtoSchema

/-- A digit is none of the other code points. -/
theorem CodePoint.ne_of_isAsciiDigit {c other : CodePoint} (h : c.isAsciiDigit)
    (hother : other.isAsciiDigit = false) : c ≠ other := by
  intro hsame
  rw [hsame, hother] at h
  exact Bool.noConfusion h

namespace Integer

/-- The decimal digits of a number. -/
def digits (number : Nat) : Text :=
  (Nat.toDigits 10 number).map CodePoint.ofChar

/-- The decimal notation of an integer, however long it is. -/
def numeral (value : Int) : Text :=
  if value < 0 then '-' :: digits value.natAbs else digits value.natAbs

/-- The integer has no more decimal digits than are written and read. -/
def IsShort (value : Int) : Prop :=
  (digits value.natAbs).length ≤ decimalDigitLimit

instance (value : Int) : Decidable (IsShort value) :=
  inferInstanceAs (Decidable (_ ≤ _))

/-- The integers that are written are the short ones. -/
theorem decimal?_eq_some_iff {value : Int} {text : Text} :
    decimal? value = some text ↔ IsShort value ∧ numeral value = text := by
  simp [decimal?, IsShort, numeral, digits]

/-- A short integer is written as its notation. -/
theorem decimal?_of_isShort {value : Int} (h : IsShort value) :
    decimal? value = some (numeral value) :=
  decimal?_eq_some_iff.mpr ⟨h, rfl⟩

/-! ### The digits -/

/-- Every number has a digit. -/
theorem digits_ne_nil (number : Nat) : digits number ≠ [] := by
  simp [digits]

/-- The notation of a digit is the digit. -/
theorem digits_of_lt {number : Nat} (h : number < 10) :
    digits number = [CodePoint.ofChar number.digitChar] := by
  rw [digits, Nat.toDigits_of_lt_base h, List.map_cons, List.map_nil]

/-- The notation of a number with more than one digit ends with its last digit. -/
theorem digits_of_le {number : Nat} (h : 10 ≤ number) :
    digits number = digits (number / 10) ++ [CodePoint.ofChar (number % 10).digitChar] := by
  rw [digits, Nat.toDigits_of_base_le (by decide) h, List.map_append, List.map_cons, List.map_nil,
    digits]

/-- The digits are those of ASCII. -/
theorem isAsciiDigit_of_mem_digits {number : Nat} {c : CodePoint} (h : c ∈ digits number) :
    c.isAsciiDigit := by
  obtain ⟨char, hchar, rfl⟩ := List.mem_map.mp h
  have hdigit := Nat.isDigit_of_mem_toDigits (by decide) (by decide) hchar
  simp only [Char.isDigit, Bool.and_eq_true, decide_eq_true_eq] at hdigit
  have hlow : (0x30 : Nat) ≤ char.toNat := UInt32.le_iff_toNat_le.mp hdigit.1
  have hhigh : char.toNat ≤ (0x39 : Nat) := UInt32.le_iff_toNat_le.mp hdigit.2
  simp [CodePoint.isAsciiDigit, CodePoint.between, hlow, hhigh]

/-- Only zero starts with the digit zero. -/
theorem head?_digits_ne {number : Nat} (h : 0 < number) : (digits number).head? ≠ some '0' := by
  induction number using Nat.strongRecOn with
  | ind number ih =>
      rcases Nat.lt_or_ge number 10 with hlt | hge
      · rw [digits_of_lt hlt]
        intro hhead
        have hzero : number.digitChar = '0' := CodePoint.ofChar_injective (Option.some.inj hhead)
        rw [Nat.digitChar_eq_zero] at hzero
        omega
      · rw [digits_of_le hge, List.head?_append_of_ne_nil _ (digits_ne_nil _)]
        exact ih (number / 10) (by omega) (by omega)

/-- The value of a digit. -/
theorem digitValue?_digitChar {digit : Nat} (h : digit < 10) :
    digitValue? (CodePoint.ofChar digit.digitChar) = some digit := by
  have hval := Nat.toNat_digitChar_of_lt_ten h
  have hbetween : (CodePoint.ofChar digit.digitChar).between 0x30 0x39 = true := by
    simp only [CodePoint.between, CodePoint.val_ofChar, hval, Bool.and_eq_true, decide_eq_true_eq]
    omega
  rw [digitValue?, if_pos hbetween, CodePoint.val_ofChar, hval]
  congr 1
  omega

/-- Digits are read from left to right. -/
theorem ofDigitsFrom_append (base value : Nat) (first second : Text) :
    ofDigitsFrom base value (first ++ second) =
      (ofDigitsFrom base value first).bind fun found => ofDigitsFrom base found second := by
  induction first generalizing value with
  | nil => rfl
  | cons c first ih =>
      rw [List.cons_append, ofDigitsFrom, ofDigitsFrom]
      cases digitValue? c with
      | none => rfl
      | some digit =>
          dsimp only
          split
          · exact ih _
          · rfl

/-- The digits of a number spell it. -/
theorem ofDigitsFrom_digits (number : Nat) : ofDigitsFrom 10 0 (digits number) = some number := by
  induction number using Nat.strongRecOn with
  | ind number ih =>
      have hlast (value : Nat) :
          ofDigitsFrom 10 value [CodePoint.ofChar (number % 10).digitChar] =
            some (value * 10 + number % 10) := by
        have hdigit : number % 10 < 10 := Nat.mod_lt number (by decide)
        simp [ofDigitsFrom, digitValue?_digitChar hdigit, hdigit]
      rcases Nat.lt_or_ge number 10 with hlt | hge
      · have hmod : number % 10 = number := Nat.mod_eq_of_lt hlt
        rw [hmod] at hlast
        rw [digits_of_lt hlt, hlast, Nat.zero_mul, Nat.zero_add]
      · -- All digits but the last are those of the tenth part.
        rw [digits_of_le hge, ofDigitsFrom_append, ih (number / 10) (by omega)]
        show ofDigitsFrom 10 (number / 10) _ = _
        rw [hlast]
        congr 1
        omega

/-- What is written either is the digit zero or does not start with it. -/
theorem digits_cases (number : Nat) :
    digits number = ['0'] ∨ (digits number).head? ≠ some '0' := by
  rcases Nat.eq_zero_or_pos number with rfl | hpos
  · exact .inl rfl
  · exact .inr (head?_digits_ne hpos)

end Integer

end ProtoSchema
