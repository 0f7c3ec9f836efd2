import Mathlib.Data.List.Induction
import ProtoSchema.Proofs.Number.Numeral

/-!
# Digits to a base

What digits spell in positional notation, whatever their number and the case of their letters
(`Spells`). Reading digits gives a number exactly when they spell it (`spells_iff`).
-/

namespace ProtoSchema.Integer

/-- The code point is a digit of this value: an ASCII digit, or from ten on a letter of either case.
-/
def IsDigit (digit : Nat) (c : CodePoint) : Prop :=
  (digit < 10 ∧ c.val = 0x30 + digit) ∨
    ∃ letter < 26, digit = 10 + letter ∧ (c.val = 0x41 + letter ∨ c.val = 0x61 + letter)

/-- The digits spell the number to the base. -/
inductive Spells (base : Nat) : Text → Nat → Prop
  | nil : Spells base [] 0
  | concat {digits : Text} {number digit : Nat} {c : CodePoint}
      (hdigits : Spells base digits number) (hdigit : digit < base) (hc : IsDigit digit c) :
      Spells base (digits ++ [c]) (number * base + digit)

/-- A code point is read as a digit exactly when it is one. -/
theorem isDigit_iff {digit : Nat} {c : CodePoint} :
    IsDigit digit c ↔ digitValue? c = some digit := by
  unfold IsDigit digitValue? CodePoint.between
  constructor
  · rintro (⟨hdigit, hc⟩ | ⟨letter, hletter, rfl, hc | hc⟩)
    · rw [hc, if_pos (by simp; omega), Nat.add_sub_cancel_left]
    · rw [hc, if_neg (by simp; omega), if_pos (by simp; omega), Nat.add_sub_cancel_left,
        Nat.add_comm]
    · rw [hc, if_neg (by simp; omega), if_neg (by simp; omega), if_pos (by simp; omega),
        Nat.add_sub_cancel_left, Nat.add_comm]
  · intro h
    simp only [Bool.and_eq_true, decide_eq_true_eq] at h
    split at h
    next hc =>
      obtain rfl := Option.some.inj h
      exact .inl ⟨by omega, by omega⟩
    next =>
      split at h
      next hc =>
        obtain rfl := Option.some.inj h
        exact .inr ⟨c.val - 0x41, by omega, by omega, .inl (by omega)⟩
      next =>
        split at h
        next hc =>
          obtain rfl := Option.some.inj h
          exact .inr ⟨c.val - 0x61, by omega, by omega, .inr (by omega)⟩
        next => cases h

/-- Digits are read as a number exactly when they spell it. -/
theorem spells_iff {base number : Nat} {digits : Text} :
    Spells base digits number ↔ ofDigitsFrom base 0 digits = some number := by
  constructor
  · intro h
    induction h with
    | nil => rfl
    | @concat digits number digit c _ hdigit hc ih =>
        rw [ofDigitsFrom_append, ih]
        simp [ofDigitsFrom, isDigit_iff.mp hc, hdigit]
  · intro h
    induction digits using List.reverseRecOn generalizing number with
    | nil =>
        obtain rfl := Option.some.inj h
        exact .nil
    | append_singleton digits c ih =>
        rw [ofDigitsFrom_append] at h
        obtain ⟨front, hfront, hlast⟩ := Option.bind_eq_some_iff.mp h
        unfold ofDigitsFrom at hlast
        split at hlast
        next digit hc =>
          split at hlast
          next hdigit =>
            obtain rfl := Option.some.inj hlast
            exact .concat (ih hfront) hdigit (isDigit_iff.mpr hc)
          next => cases hlast
        next => cases hlast

instance (base number : Nat) (digits : Text) : Decidable (Spells base digits number) :=
  decidable_of_iff _ spells_iff.symm

/-- Every code point that takes part is a digit below the base. -/
theorem Spells.isDigit_of_mem {base number : Nat} {digits : Text} (h : Spells base digits number)
    {c : CodePoint} (hmem : c ∈ digits) : ∃ digit < base, IsDigit digit c := by
  induction h with
  | nil => exact absurd hmem List.not_mem_nil
  | @concat digits number digit last _ hdigit hlast ih =>
      rcases List.mem_append.mp hmem with hmem | hmem
      · exact ih hmem
      · obtain rfl := List.mem_singleton.mp hmem
        exact ⟨digit, hdigit, hlast⟩

end ProtoSchema.Integer
