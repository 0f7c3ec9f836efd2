import ProtoSchema.Proofs.Number.Digits

/-!
# Integer literals

What a literal of the grammar denotes: decimal digits, octal digits behind a zero or hexadecimal
digits behind `0x`, with an optional sign (`Denotes`). A literal is read as the integer that it
denotes (`ofLiteral?_of_denotes`), although three rules compete for it: the one for octal digits,
the announced bases and decimal notation. Decimal digits behind a superfluous zero denote nothing,
and those that are not octal are read as nothing (`ofLiteral?_of_leadingZero`).
-/

namespace ProtoSchema.Integer

/-- The digits denote the number without a sign, in decimal, octal or hexadecimal notation. -/
inductive DenotesNatural : Text → Nat → Prop
  | decimal {digits : Text} {number : Nat} (hdigits : Spells 10 digits number) (hsome : digits ≠ [])
      (hzero : digits.head? = some (CodePoint.ofChar '0') → digits = ['0'])
      (hlimit : digits.length ≤ decimalDigitLimit) : DenotesNatural digits number
  | octal {digits : Text} {number : Nat} (hdigits : Spells 8 digits number) (hsome : digits ≠ []) :
      DenotesNatural (CodePoint.ofChar '0' :: digits) number
  | hexadecimal {mark : CodePoint} {digits : Text} {number : Nat} (hmark : mark = 'x' ∨ mark = 'X')
      (hdigits : Spells 16 digits number) (hsome : digits ≠ []) :
      DenotesNatural (CodePoint.ofChar '0' :: mark :: digits) number

/-- The literal denotes the integer: its digits, behind an optional sign, denote the magnitude. -/
inductive Denotes : Text → Int → Prop
  | plain {digits : Text} {number : Nat} (hdigits : DenotesNatural digits number) :
      Denotes digits number
  | plus {digits : Text} {number : Nat} (hdigits : DenotesNatural digits number) :
      Denotes (CodePoint.ofChar '+' :: digits) number
  | minus {digits : Text} {number : Nat} (hdigits : DenotesNatural digits number) :
      Denotes (CodePoint.ofChar '-' :: digits) (-(number : Int))

/-! ### Digits -/

/-- A digit below ten is a decimal digit of ASCII. -/
theorem IsDigit.isAsciiDigit {digit : Nat} {c : CodePoint} (h : IsDigit digit c)
    (hdigit : digit < 10) : c.isAsciiDigit := by
  rcases h with ⟨-, hc⟩ | ⟨letter, -, rfl, -⟩
  · simp only [CodePoint.isAsciiDigit, CodePoint.between, Bool.and_eq_true, decide_eq_true_eq]
    omega
  · omega

/-- A digit to any base is an alphanumeric code point of ASCII. -/
theorem IsDigit.ascii {digit : Nat} {c : CodePoint} (h : IsDigit digit c) :
    c.val < 0x80 ∧ c.isAlphanumeric := by
  have hval : c.val < 0x80 := by
    rcases h with ⟨hdigit, hc⟩ | ⟨letter, hletter, -, hc | hc⟩ <;> omega
  refine ⟨hval, ?_⟩
  simp only [CodePoint.isAlphanumeric, if_pos hval, CodePoint.isAsciiLetter,
    CodePoint.isAsciiDigit, CodePoint.between, Bool.or_eq_true, Bool.and_eq_true,
    decide_eq_true_eq]
  rcases h with ⟨hdigit, hc⟩ | ⟨letter, hletter, -, hc | hc⟩ <;> omega

/-- Digits to a base up to ten are decimal digits of ASCII. -/
theorem Spells.isAsciiDigit {base number : Nat} {digits : Text} (h : Spells base digits number)
    (hbase : base ≤ 10) {c : CodePoint} (hmem : c ∈ digits) : c.isAsciiDigit := by
  obtain ⟨digit, hdigit, hc⟩ := h.isDigit_of_mem hmem
  exact hc.isAsciiDigit (by omega)

/-- What denotes a number consists of alphanumeric code points of ASCII. -/
theorem DenotesNatural.ascii {digits : Text} {number : Nat} (h : DenotesNatural digits number)
    {c : CodePoint} (hmem : c ∈ digits) : c.val < 0x80 ∧ c.isAlphanumeric := by
  have hspells {base number : Nat} {digits : Text} (hdigits : Spells base digits number)
      (hmem : c ∈ digits) : c.val < 0x80 ∧ c.isAlphanumeric := by
    obtain ⟨digit, -, hc⟩ := hdigits.isDigit_of_mem hmem
    exact hc.ascii
  cases h with
  | decimal hdigits => exact hspells hdigits hmem
  | octal hdigits =>
      rcases List.mem_cons.mp hmem with rfl | hmem
      · decide
      · exact hspells hdigits hmem
  | hexadecimal hmark hdigits =>
      rcases List.mem_cons.mp hmem with rfl | hmem
      · decide
      rcases List.mem_cons.mp hmem with rfl | hmem
      · rcases hmark with rfl | rfl <;> decide
      · exact hspells hdigits hmem

/-- Digits that spell zero are zeros. -/
theorem Spells.eq_zero_of_mem {base : Nat} (hbase : 0 < base) {digits : Text}
    (h : Spells base digits 0) {c : CodePoint} (hmem : c ∈ digits) : c = '0' := by
  generalize hnumber : 0 = number at h
  induction h with
  | nil => exact absurd hmem List.not_mem_nil
  | @concat digits number digit last _ _ hlast ih =>
      have hparts : number * base = 0 ∧ digit = 0 := by omega
      rcases List.mem_append.mp hmem with hmem | hmem
      · have hfront := (Nat.mul_eq_zero.mp hparts.1).resolve_right (by omega)
        exact ih hmem hfront.symm
      · obtain rfl := List.mem_singleton.mp hmem
        rcases hlast with ⟨-, hc⟩ | ⟨letter, -, hletter, -⟩
        · obtain rfl := hparts.2
          cases c
          cases hc
          rfl
        · omega

/-- One or more digits are read as the number that they spell. -/
theorem Spells.ofDigits? {base number : Nat} {digits : Text} (h : Spells base digits number)
    (hsome : digits ≠ []) : ofDigits? base digits = some number := by
  rw [Integer.ofDigits?, if_neg (by simpa using hsome)]
  exact spells_iff.mp h

/-- A zero in front of digits does not change what they spell. -/
theorem ofDigits?_zero_cons {base : Nat} (hbase : 0 < base) (digits : Text) :
    ofDigits? base (CodePoint.ofChar '0' :: digits) = ofDigitsFrom base 0 digits := by
  have hzero : digitValue? '0' = some 0 := rfl
  rw [ofDigits?, if_neg (by simp), ofDigitsFrom, hzero]
  simp [hbase]

/-! ### Reading without a sign -/

/-- A text of ASCII stands for itself. -/
theorem withAsciiDigits_of_ascii {text : Text} (h : ∀ c ∈ text, c.val < 0x80) :
    withAsciiDigits text = text := by
  refine (List.map_congr_left fun c hmem => ?_).trans (List.map_id _)
  rw [CodePoint.decimalValue?, if_pos (h c hmem)]
  by_cases hdigit : c.isAsciiDigit
  · have hbetween : 0x30 ≤ c.val ∧ c.val ≤ 0x39 := by
      simpa [CodePoint.isAsciiDigit, CodePoint.between] using hdigit
    have hsum : 0x30 + (c.val - 0x30) = c.val := by omega
    rw [if_pos hdigit]
    simp [hsum, CodePoint.ofNatOr, CodePoint.ofNat?, c.val_lt]
  · rw [if_neg hdigit]
    rfl

/-- The value of a literal without its sign. -/
def natural? (body : Text) : Option Nat :=
  if isOctal body then ofDigits? 8 body else magnitude? (withAsciiDigits body)

/-- A literal that does not start with a zero, or is one, is a decimal one. -/
theorem natural?_of_decimal {body : Text} (hascii : ∀ c ∈ body, c.val < 0x80)
    (hzero : body.head? = some (CodePoint.ofChar '0') → body = ['0']) :
    natural? body = ofDecimal? body := by
  unfold natural?
  rw [withAsciiDigits_of_ascii hascii]
  match body with
  | [] => rfl
  | [c] => simp [isOctal, magnitude?]
  | first :: second :: rest =>
      have hfirst : first ≠ '0' := by
        rintro rfl
        exact absurd (hzero rfl) (by simp)
      simp [isOctal, magnitude?, hfirst]

/-- Decimal digits without a superfluous zero are read as the number that they spell. -/
theorem ofDecimal?_of_spells {digits : Text} {number : Nat} (hdigits : Spells 10 digits number)
    (hsome : digits ≠ []) (hzero : digits.head? = some (CodePoint.ofChar '0') → digits = ['0'])
    (hlimit : digits.length ≤ decimalDigitLimit) : ofDecimal? digits = some number := by
  rw [ofDecimal?, if_pos hlimit, hdigits.ofDigits? hsome]
  refine if_neg fun h => ?_
  obtain ⟨hhead, hnumber⟩ := Bool.and_eq_true_iff.mp h
  have hone := hzero (of_decide_eq_true hhead)
  rw [hone] at hdigits
  have hvalue : some 0 = some number := spells_iff.mp hdigits
  exact of_decide_eq_true hnumber (Option.some.inj hvalue).symm

/-- Digits without a sign are read as the number that they denote. -/
theorem DenotesNatural.natural? {digits : Text} {number : Nat} (h : DenotesNatural digits number) :
    natural? digits = some number := by
  have hascii : ∀ c ∈ digits, c.val < 0x80 := fun c hmem => (h.ascii hmem).1
  cases h with
  | decimal hdigits hsome hzero hlimit =>
      rw [natural?_of_decimal hascii hzero, ofDecimal?_of_spells hdigits hsome hzero hlimit]
  | @octal digits _ hdigits hsome =>
      have hrange : digits.all (fun d => d.between 0x30 0x37) = true := by
        refine List.all_eq_true.mpr fun c hmem => ?_
        obtain ⟨digit, hdigit, hc⟩ := hdigits.isDigit_of_mem hmem
        rcases hc with ⟨-, hc⟩ | ⟨letter, -, hletter, -⟩
        · simp only [CodePoint.between, Bool.and_eq_true, decide_eq_true_eq]
          omega
        · omega
      have hoctal : isOctal (CodePoint.ofChar '0' :: digits) = true := by
        simpa [isOctal, hsome] using hrange
      rw [Integer.natural?, if_pos hoctal, ofDigits?_zero_cons (by decide)]
      exact spells_iff.mp hdigits
  | @hexadecimal mark digits _ hmark hdigits hsome =>
      have hbetween : mark.between 0x30 0x37 = false := by rcases hmark with rfl | rfl <;> rfl
      have hoctal : isOctal (CodePoint.ofChar '0' :: mark :: digits) = false := by
        simp [isOctal, hbetween]
      have hbase : announcedBase? mark = some 16 := by rcases hmark with rfl | rfl <;> rfl
      rw [Integer.natural?, if_neg (by simp [hoctal]), withAsciiDigits_of_ascii hascii, magnitude?,
        if_pos rfl, hbase]
      exact hdigits.ofDigits? hsome

/-- The first code point of digits is a digit of ASCII. -/
theorem DenotesNatural.exists_cons {digits : Text} {number : Nat}
    (h : DenotesNatural digits number) :
    ∃ c rest, digits = c :: rest ∧ c.isAsciiDigit := by
  cases h with
  | decimal hdigits hsome =>
      obtain ⟨c, rest, rfl⟩ := List.exists_cons_of_ne_nil hsome
      exact ⟨c, rest, rfl, hdigits.isAsciiDigit (by decide) List.mem_cons_self⟩
  | octal => exact ⟨_, _, rfl, by decide⟩
  | hexadecimal => exact ⟨_, _, rfl, by decide⟩

/-- A digit is no sign. -/
theorem splitSign_of_isAsciiDigit {c : CodePoint} (h : c.isAsciiDigit) (rest : Text) :
    splitSign (c :: rest) = (false, c :: rest) := by
  have hminus : c ≠ '-' := CodePoint.ne_of_isAsciiDigit h rfl
  have hplus : c ≠ '+' := CodePoint.ne_of_isAsciiDigit h rfl
  rw [splitSign, if_neg hminus, if_neg hplus]

/-- A literal is read as the integer that it denotes. -/
theorem ofLiteral?_of_denotes {spelling : Text} {value : Int} (h : Denotes spelling value) :
    ofLiteral? spelling = some value := by
  have hread {negative : Bool} {digits : Text} {number : Nat}
      (hsplit : splitSign spelling = (negative, digits)) (hdigits : DenotesNatural digits number) :
      ofLiteral? spelling = some (signed negative number) := by
    rw [ofLiteral?, hsplit]
    exact congrArg (Option.map (signed negative)) hdigits.natural?
  cases h with
  | plain hdigits =>
      obtain ⟨c, rest, rfl, hc⟩ := hdigits.exists_cons
      exact hread (splitSign_of_isAsciiDigit hc rest) hdigits
  | plus hdigits => exact hread rfl hdigits
  | minus hdigits => exact hread rfl hdigits

/-! ### The notation of an integer -/

/-- The digits of a number within the limit denote it. -/
theorem denotesNatural_digits {number : Nat} (h : (digits number).length ≤ decimalDigitLimit) :
    DenotesNatural (digits number) number :=
  .decimal (spells_iff.mpr (ofDigitsFrom_digits number)) (digits_ne_nil number)
    (fun hhead => (digits_cases number).resolve_right fun hno => hno hhead) h

/-- The notation of a short integer denotes it. -/
theorem denotes_numeral {value : Int} (h : IsShort value) : Denotes (numeral value) value := by
  have hdigits := denotesNatural_digits h
  by_cases hneg : value < 0
  · have hminus := Denotes.minus hdigits
    rw [show -(value.natAbs : Int) = value by omega] at hminus
    rwa [numeral, if_pos hneg]
  · have hplain := Denotes.plain hdigits
    rw [show (value.natAbs : Int) = value by omega] at hplain
    rwa [numeral, if_neg hneg]

/-- A short integer that is written is read back as itself. -/
theorem ofLiteral?_numeral {value : Int} (h : IsShort value) :
    ofLiteral? (numeral value) = some value :=
  ofLiteral?_of_denotes (denotes_numeral h)

/-! ### Superfluous zeros -/

/-- Digits behind a zero are no decimal literal, unless all of them are zeros. -/
theorem ofDecimal?_zero_cons {rest : Text} {c : CodePoint} (hmem : c ∈ rest) (hc : c ≠ '0') :
    ofDecimal? (CodePoint.ofChar '0' :: rest) = none := by
  unfold ofDecimal?
  split
  next =>
    cases hvalue : ofDigits? 10 (CodePoint.ofChar '0' :: rest) with
    | none => rfl
    | some value =>
        have hne : value ≠ 0 := by
          rintro rfl
          rw [ofDigits?_zero_cons (by decide)] at hvalue
          exact hc ((spells_iff.mpr hvalue).eq_zero_of_mem (by decide) hmem)
        simp [hne]
  next => rfl

/-- No digit announces a base. -/
theorem announcedBase?_of_isAsciiDigit {c : CodePoint} (h : c.isAsciiDigit) :
    announcedBase? c = none := by
  have hne (letter : Char) (hletter : (CodePoint.ofChar letter).isAsciiDigit = false) :
      c ≠ letter := CodePoint.ne_of_isAsciiDigit h hletter
  simp [announcedBase?, hne 'x' rfl, hne 'X' rfl, hne 'o' rfl, hne 'O' rfl, hne 'b' rfl,
    hne 'B' rfl]

/-- Decimal digits that start with a zero and are not all octal ones are read as nothing. They are
neither an octal nor a decimal literal. -/
theorem ofLiteral?_of_leadingZero {digits : Text} (hdigits : ∀ c ∈ digits, c.isAsciiDigit)
    (hzero : digits.head? = some (CodePoint.ofChar '0'))
    (hlarge : ∃ c ∈ digits, c = '8' ∨ c = '9') :
    ofLiteral? digits = none := by
  obtain ⟨rest, rfl⟩ := List.head?_eq_some_iff.mp hzero
  obtain ⟨hfirst, hrest⟩ := List.forall_mem_cons.mp hdigits
  obtain ⟨c, hmem, hc⟩ := hlarge
  have hne : c ≠ '0' := by rcases hc with rfl | rfl <;> decide
  have hmem : c ∈ rest := (List.mem_cons.mp hmem).resolve_left hne
  have hoctal : isOctal (CodePoint.ofChar '0' :: rest) = false := by
    have hbetween : c.between 0x30 0x37 = false := by rcases hc with rfl | rfl <;> rfl
    have hall : rest.all (fun d => d.between 0x30 0x37) = false :=
      List.all_eq_false.mpr ⟨c, hmem, by simp [hbetween]⟩
    rw [isOctal, hall, Bool.and_false]
  have hascii : ∀ d ∈ CodePoint.ofChar '0' :: rest, d.val < 0x80 := by
    intro d hd
    have hbetween : 0x30 ≤ d.val ∧ d.val ≤ 0x39 := by
      simpa [CodePoint.isAsciiDigit, CodePoint.between] using hdigits d hd
    omega
  have hdecimal : magnitude? (CodePoint.ofChar '0' :: rest) = none := by
    cases rest with
    | nil => exact absurd hmem List.not_mem_nil
    | cons second rest =>
        rw [magnitude?, if_pos rfl,
          announcedBase?_of_isAsciiDigit (hrest second List.mem_cons_self)]
        exact ofDecimal?_zero_cons hmem hne
  rw [ofLiteral?, splitSign_of_isAsciiDigit hfirst]
  dsimp only
  rw [hoctal, if_neg Bool.false_ne_true, withAsciiDigits_of_ascii hascii, hdecimal]
  rfl

end ProtoSchema.Integer
