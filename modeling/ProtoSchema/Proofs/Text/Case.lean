import ProtoSchema.Text.Case

/-!
# ASCII and letter case

Lowering a text brings no ASCII into it except letters: `Text.mem_lower` says that every other ASCII
code point of the result was in the text before. So lowering makes no mark of the grammar. Raising a
code point brings in capital letters only. An ASCII text is lowered letter by letter
(`Text.lower_of_isAscii`), and a letter and its capital have the same lower case.
-/

namespace ProtoSchema

namespace CodePoint

/-- Between two numbers means at least the first and at most the second. -/
theorem between_iff {low high : Nat} {c : CodePoint} :
    c.between low high = true ↔ low ≤ c.val ∧ c.val ≤ high := by
  simp [between]

/-- The fallback stands in for the numbers that are too large. -/
theorem eq_or_val_eq_of_ofNatOr {fallback d : CodePoint} {number : Nat}
    (h : d = ofNatOr fallback number) : d = fallback ∨ d.val = number := by
  subst h
  unfold ofNatOr ofNat?
  split
  · exact .inr rfl
  · exact .inl rfl

/-- No shift of the lower-case map reaches ASCII except at its lower-case letters. -/
theorem lowerShifts_ascii : ∀ shift ∈ lowerShifts,
    0x80 ≤ shift.first + shift.distance ∨
      0x61 ≤ shift.first + shift.distance ∧ shift.last + shift.distance ≤ 0x7A := by
  decide +kernel

/-- No shift of the upper-case map reaches ASCII except at its capital letters. -/
theorem upperShifts_ascii : ∀ shift ∈ upperShifts,
    0x80 ≤ shift.first + shift.distance ∨
      0x41 ≤ shift.first + shift.distance ∧ shift.last + shift.distance ≤ 0x5A := by
  decide +kernel

/-- The longer upper cases have no ASCII in them except capital letters. -/
theorem upperExpansions_ascii : ∀ row ∈ upperExpansions, ∀ number ∈ row.2,
    0x80 ≤ number ∨ 0x41 ≤ number ∧ number ≤ 0x5A := by
  decide +kernel

/-- Shifts that reach ASCII between two numbers only give a number between them, a number beyond
ASCII, or the number that they are given. -/
theorem apply_cases {shifts : List Shift} (low high : Nat)
    (hascii : ∀ shift ∈ shifts, 0x80 ≤ shift.first + shift.distance ∨
      low ≤ shift.first + shift.distance ∧ shift.last + shift.distance ≤ high) (number : Nat) :
    Shift.apply shifts number = number ∨ 0x80 ≤ Shift.apply shifts number ∨
      low ≤ Shift.apply shifts number ∧ Shift.apply shifts number ≤ high := by
  unfold Shift.apply
  split
  next shift hshift =>
    have hcontains := List.find?_some hshift
    simp only [Run.contains, Bool.and_eq_true, decide_eq_true_eq] at hcontains
    -- What a shift moves stays between the images of its ends.
    have hends := hascii shift (List.mem_of_find?_eq_some hshift)
    omega
  next => exact .inl rfl

/-- An ASCII code point in the lower case of another one is a lower-case letter. -/
theorem eq_or_isLower_of_mem_lower {c d : CodePoint} (h : d ∈ c.lower) (hd : d.val < 0x80) :
    d = c ∨ d.isLower := by
  have hletter (hlow : 0x61 ≤ d.val) (hhigh : d.val ≤ 0x7A) : d.isLower := by
    simp [isLower, between, hd, hlow, hhigh]
  unfold lower at h
  split at h
  · split at h
    next hupper =>
      rw [between_iff] at hupper
      rcases eq_or_val_eq_of_ofNatOr (List.mem_singleton.mp h) with hsame | hval
      · exact .inl hsame
      · exact .inr (hletter (by omega) (by omega))
    next => exact .inl (List.mem_singleton.mp h)
  · split at h
    · simp only [List.mem_cons, List.not_mem_nil, or_false] at h
      rcases h with h | h
      · exact (eq_or_val_eq_of_ofNatOr h).imp_right fun hval => hletter (by omega) (by omega)
      · exact (eq_or_val_eq_of_ofNatOr h).imp_right fun hval => by omega
    · rcases eq_or_val_eq_of_ofNatOr (List.mem_singleton.mp h) with hsame | hval
      · exact .inl hsame
      · have hcases := apply_cases 0x61 0x7A lowerShifts_ascii c.val
        exact .inr (hletter (by omega) (by omega))

/-- An ASCII code point in the upper case of another one is a capital letter. -/
theorem eq_or_between_of_mem_upper {c d : CodePoint} (h : d ∈ c.upper) (hd : d.val < 0x80) :
    d = c ∨ d.between 0x41 0x5A := by
  have hcapital (hlow : 0x41 ≤ d.val) (hhigh : d.val ≤ 0x5A) : d.between 0x41 0x5A :=
    between_iff.mpr ⟨hlow, hhigh⟩
  unfold upper at h
  split at h
  · split at h
    next hlower =>
      rw [between_iff] at hlower
      rcases eq_or_val_eq_of_ofNatOr (List.mem_singleton.mp h) with hsame | hval
      · exact .inl hsame
      · exact .inr (hcapital (by omega) (by omega))
    next => exact .inl (List.mem_singleton.mp h)
  · split at h
    next row hrow =>
      obtain ⟨number, hnumber, hd'⟩ := List.mem_map.mp h
      have hascii := upperExpansions_ascii row (List.mem_of_find?_eq_some hrow) number hnumber
      rcases eq_or_val_eq_of_ofNatOr hd'.symm with hsame | hval
      · exact .inl hsame
      · exact .inr (hcapital (by omega) (by omega))
    next =>
      rcases eq_or_val_eq_of_ofNatOr (List.mem_singleton.mp h) with hsame | hval
      · exact .inl hsame
      · have hcases := apply_cases 0x41 0x5A upperShifts_ascii c.val
        exact .inr (hcapital (by omega) (by omega))

/-! ### Letters of ASCII -/

/-- The small letter for a capital letter of ASCII. Other code points stay as they are. -/
def small (c : CodePoint) : CodePoint :=
  if c.between 0x41 0x5A then ofNatOr c (c.val + 0x20) else c

/-- Code points are equal if their numbers are. -/
theorem eq_of_val_eq {c d : CodePoint} (h : c.val = d.val) : c = d := by
  cases c
  cases d
  cases h
  rfl

/-- The fallback is not needed for a number that a code point has. -/
theorem val_ofNatOr {fallback : CodePoint} {number : Nat} (h : number < 0x110000) :
    (ofNatOr fallback number).val = number := by
  rw [ofNatOr, ofNat?, dif_pos h]
  rfl

/-- A capital letter has the number of its small letter less 32. -/
theorem val_small {c : CodePoint} (h : c.val < 0x80) :
    c.small.val = if c.between 0x41 0x5A then c.val + 0x20 else c.val := by
  rw [small]
  split
  · exact val_ofNatOr (by omega)
  · rfl

/-- The small letter of an ASCII code point is in ASCII. -/
theorem small_ascii {c : CodePoint} (h : c.val < 0x80) : c.small.val < 0x80 := by
  rw [val_small h]
  split
  next hcapital =>
    rw [between_iff] at hcapital
    omega
  next => exact h

/-- A small letter is its own small letter. -/
theorem small_small {c : CodePoint} (h : c.val < 0x80) : c.small.small = c.small := by
  have hsmall : ¬ c.small.between 0x41 0x5A := by
    rw [between_iff, val_small h]
    split
    next hcapital =>
      rw [between_iff] at hcapital
      omega
    next hother =>
      rw [between_iff] at hother
      omega
  refine eq_of_val_eq ?_
  rw [val_small (small_ascii h), if_neg hsmall]

/-- The lower case of an ASCII code point is its small letter. -/
theorem lower_of_ascii {c : CodePoint} (h : c.val < 0x80) : c.lower = [c.small] := by
  rw [lower, if_pos h, small]
  split <;> rfl

/-- The upper case of an ASCII code point is one ASCII code point with the same small letter. -/
theorem upper_of_ascii {c : CodePoint} (h : c.val < 0x80) :
    ∃ d, c.upper = [d] ∧ d.val < 0x80 ∧ d.small = c.small := by
  rw [upper, if_pos h]
  split
  next hletter =>
    rw [between_iff] at hletter
    have hval : (ofNatOr c (c.val - 0x20)).val = c.val - 0x20 := val_ofNatOr (by omega)
    have hascii : (ofNatOr c (c.val - 0x20)).val < 0x80 := by omega
    have hcapital : (ofNatOr c (c.val - 0x20)).between 0x41 0x5A := by
      rw [between_iff]
      omega
    have hsmall : ¬ c.between 0x41 0x5A := by
      rw [between_iff]
      omega
    refine ⟨_, rfl, hascii, eq_of_val_eq ?_⟩
    rw [val_small hascii, val_small h, if_pos hcapital, if_neg hsmall]
    omega
  next => exact ⟨c, rfl, h, rfl⟩

end CodePoint

namespace Text

/-- An ASCII code point in the lower case of a text, whatever stands before it, is in the text or is
a lower-case letter. -/
theorem mem_lowerAfter {before text : Text} {d : CodePoint} (h : d ∈ lowerAfter before text)
    (hd : d.val < 0x80) : d ∈ text ∨ d.isLower := by
  induction text generalizing before with
  | nil => exact .inl h
  | cons c rest ih =>
      rcases List.mem_append.mp h with hfirst | hrest
      · split at hfirst
        · -- The final form of a sigma is beyond ASCII.
          obtain rfl := List.mem_singleton.mp hfirst
          exact absurd hd (by decide)
        · rcases CodePoint.eq_or_isLower_of_mem_lower hfirst hd with rfl | hlower
          · exact .inl List.mem_cons_self
          · exact .inr hlower
      · exact (ih hrest).imp_left (List.mem_cons_of_mem c)

/-- An ASCII code point in the lower case of a text is in the text or is a lower-case letter. -/
theorem mem_lower {text : Text} {d : CodePoint} (h : d ∈ lower text) (hd : d.val < 0x80) :
    d ∈ text ∨ d.isLower :=
  mem_lowerAfter h hd

/-- All code points of the text are in ASCII. -/
def IsAscii (text : Text) : Prop :=
  ∀ c ∈ text, c.val < 0x80

/-- An ASCII text is lowered letter by letter, whatever stands before it. -/
theorem lowerAfter_of_isAscii {before text : Text} (h : IsAscii text) :
    lowerAfter before text = text.map CodePoint.small := by
  induction text generalizing before with
  | nil => rfl
  | cons c rest ih =>
      obtain ⟨hc, hrest⟩ := List.forall_mem_cons.mp h
      have hsigma : c ≠ CodePoint.capitalSigma := by
        rintro rfl
        exact absurd hc (by decide)
      rw [lowerAfter, ih hrest, CodePoint.lower_of_ascii hc]
      simp [hsigma]

/-- An ASCII text is lowered letter by letter. -/
theorem lower_of_isAscii {text : Text} (h : IsAscii text) :
    lower text = text.map CodePoint.small :=
  lowerAfter_of_isAscii h

end Text

end ProtoSchema
