import ProtoSchema.Proofs.Token.Separator

/-!
# Numbers with a sign

What a sign in front of a number does to the lexemes. A number and the same number with a sign are
scanned up to the same place, except where the number is hexadecimal, its sign is a plus and a
second sign stands behind an `e` of its digits: only a minus is looked past for the `0x`, so the
digits of `+0x1e` are taken for decimal ones and the `e` for the mark of an exponent. The main
statement is `lexemes_signed_iff`.
-/

namespace ProtoSchema.Lexer

/-- A sign stands behind an `e` of the digits that the text starts with, where the mark of an
exponent would be. -/
def HasExponentSign (text : Text) : Prop :=
  ∃ (digits : Text) (exponent sign : CodePoint) (after : Text),
    text = digits ++ exponent :: sign :: after ∧ (∀ c ∈ digits, c.isAlphanumeric ∨ c = '.') ∧
      (exponent = 'e' ∨ exponent = 'E') ∧ isSign sign

/-- The text starts with a hexadecimal literal that ends in an `e` with a sign behind it. -/
def SwallowsSign (text : Text) : Prop :=
  startsHexadecimal text ∧ HasExponentSign text

/-! ### The digits of a number -/

/-- The marks of an exponent are letters. -/
theorem isAlphanumeric_of_exponent {c : CodePoint} (h : c = 'e' ∨ c = 'E') : c.isAlphanumeric := by
  rcases h with rfl | rfl <;> decide

/-- A sign is neither alphanumeric nor a dot. -/
theorem not_continues_of_isSign {c : CodePoint} (h : isSign c) :
    ¬ (c.isAlphanumeric ∨ c = '.') := by
  rcases Bool.or_eq_true_iff.mp h with hc | hc <;> obtain rfl := of_decide_eq_true hc <;> decide

/-- One code point alone has no sign behind it. -/
theorem not_hasExponentSign_singleton (c : CodePoint) : ¬ HasExponentSign [c] := by
  rintro ⟨digits, exponent, sign, after, htext, -⟩
  have hlength := congrArg List.length htext
  simp at hlength
  omega

/-- Whether there is such a sign does not depend on a digit in front. -/
theorem hasExponentSign_cons_iff {previous c : CodePoint} {rest : Text}
    (hprevious : previous.isAlphanumeric ∨ previous = '.') (hc : c.isAlphanumeric ∨ c = '.') :
    HasExponentSign (previous :: c :: rest) ↔ HasExponentSign (c :: rest) := by
  constructor
  · rintro ⟨digits, exponent, sign, after, htext, hdigits, hexponent, hsign⟩
    cases digits with
    | nil =>
        obtain ⟨-, hrest⟩ := List.cons.inj htext
        obtain ⟨rfl, -⟩ := List.cons.inj hrest
        exact absurd hc (not_continues_of_isSign hsign)
    | cons d digits =>
        exact ⟨digits, exponent, sign, after, (List.cons.inj htext).2,
          fun e hmem => hdigits e (List.mem_cons_of_mem d hmem), hexponent, hsign⟩
  · rintro ⟨digits, exponent, sign, after, htext, hdigits, hexponent, hsign⟩
    exact ⟨previous :: digits, exponent, sign, after, congrArg (previous :: ·) htext,
      List.forall_mem_cons.mpr ⟨hprevious, hdigits⟩, hexponent, hsign⟩

/-- Where no digit follows, only the code point in front can be the mark of an exponent. -/
theorem hasExponentSign_iff_of_not_continues {previous c : CodePoint} {rest : Text}
    (hc : ¬ (c.isAlphanumeric ∨ c = '.')) :
    HasExponentSign (previous :: c :: rest) ↔
      (previous = 'e' ∨ previous = 'E') ∧ isSign c := by
  constructor
  · rintro ⟨digits, exponent, sign, after, htext, hdigits, hexponent, hsign⟩
    match digits with
    | [] =>
        obtain ⟨rfl, hrest⟩ := List.cons.inj htext
        obtain ⟨rfl, -⟩ := List.cons.inj hrest
        exact ⟨hexponent, hsign⟩
    | [d] =>
        obtain ⟨-, hrest⟩ := List.cons.inj htext
        obtain ⟨rfl, -⟩ := List.cons.inj hrest
        exact absurd (.inl (isAlphanumeric_of_exponent hexponent)) hc
    | d :: e :: digits =>
        obtain ⟨-, hrest⟩ := List.cons.inj htext
        obtain ⟨rfl, -⟩ := List.cons.inj hrest
        exact absurd (hdigits c (by simp)) hc
  · rintro ⟨hprevious, hsign⟩
    exact ⟨[], previous, c, rest, rfl, nofun, hprevious, hsign⟩

/-- The digits after a digit end at the same place in hexadecimal and in decimal notation exactly
where no sign stands behind a mark of an exponent. -/
theorem numberTail_eq_iff {previous : CodePoint} {text : Text}
    (hprevious : previous.isAlphanumeric ∨ previous = '.') :
    numberTail false previous text = numberTail true previous text ↔
      ¬ HasExponentSign (previous :: text) := by
  induction text generalizing previous with
  | nil => exact iff_of_true rfl (not_hasExponentSign_singleton previous)
  | cons c rest ih =>
      by_cases hc : c.isAlphanumeric ∨ c = '.'
      · have hdigit : (c.isAlphanumeric || c = '.') = true := by simpa using hc
        rw [hasExponentSign_cons_iff hprevious hc, ← ih hc, numberTail, numberTail, hdigit,
          Bool.true_or, Bool.true_or, if_pos rfl, if_pos rfl, List.cons_inj_right]
      · have hdigit : (c.isAlphanumeric || c = '.') = false := by simpa using hc
        rw [hasExponentSign_iff_of_not_continues hc, numberTail, numberTail, hdigit]
        -- The hexadecimal digits end here, and the decimal ones if no exponent goes on.
        by_cases hsign : isSign c ∧ (previous = 'e' ∨ previous = 'E')
        · simp [hsign.1, hsign.2]
        · have hno : (isSign c && (previous = 'e' || previous = 'E')) = false := by
            simpa using hsign
          have hnot : ¬ ((previous = 'e' ∨ previous = 'E') ∧ isSign c) := fun h => hsign h.symm
          simp [hno, hnot]

/-! ### A sign in front -/

/-- A number with a plus sign is taken for a decimal one. -/
theorem isHexadecimal_plus (text : Text) : isHexadecimal '+' text = false := by
  cases text <;> simp [isHexadecimal, startsHexadecimal,
    show ¬ ('+' : CodePoint) = '0' by decide, show ¬ ('+' : CodePoint) = '-' by decide]

/-- A number with a minus sign is hexadecimal when the number behind the sign is. -/
theorem isHexadecimal_minus (text : Text) : isHexadecimal '-' text = startsHexadecimal text := by
  cases text <;> simp [isHexadecimal, startsHexadecimal, show ¬ ('-' : CodePoint) = '0' by decide]

/-- A number that starts with a digit is hexadecimal when it starts with `0x`. -/
theorem isHexadecimal_of_isAsciiDigit {c : CodePoint} (hdigit : c.isAsciiDigit) (rest : Text) :
    isHexadecimal c rest = startsHexadecimal (c :: rest) := by
  have hminus : c ≠ '-' := CodePoint.ne_of_isAsciiDigit hdigit rfl
  simp [isHexadecimal, hminus]

/-- A sign in front of a digit starts a number, and the digits after it are those of this notation.
-/
theorem lexemes_sign_cons {sign c : CodePoint} (hsign : isSign sign) (hdigit : c.isAsciiDigit)
    (rest : Text) :
    lexemes (sign :: c :: rest) =
      (lexemes (rest.drop (numberTail (isHexadecimal sign (c :: rest)) c rest).length)).map
        (.number (sign :: c :: numberTail (isHexadecimal sign (c :: rest)) c rest) :: ·) := by
  have hstarts : startsNumber sign (c :: rest) := by
    simp [startsNumber, nextIs, hsign, isDigit_of_isAsciiDigit hdigit]
  rw [lexemes_of_startsNumber hstarts,
    numberTail_cons_of_isAlphanumeric (isAlphanumeric_of_isAsciiDigit hdigit)]
  rfl

/-- A text that starts with a digit is scanned as a number and what follows it. With a sign in front
the lexemes are the same but for the sign, except where a plus sign hides a hexadecimal literal
whose last `e` has a sign behind it. -/
theorem lexemes_signed_iff {sign c : CodePoint} {rest : Text} {found : List Lexeme}
    (hsign : isSign sign) (hdigit : c.isAsciiDigit) (hfound : lexemes (c :: rest) = .ok found) :
    ∃ spelling following, found = .number spelling :: following ∧
      (lexemes (sign :: c :: rest) = .ok (.number (sign :: spelling) :: following) ↔
        ¬ (sign = '+' ∧ SwallowsSign (c :: rest))) := by
  have hstarts : startsNumber c rest := by
    rw [startsNumber, isDigit_of_isAsciiDigit hdigit, Bool.true_or]
  rw [lexemes_of_startsNumber hstarts, isHexadecimal_of_isAsciiDigit hdigit] at hfound
  generalize hhex : startsHexadecimal (c :: rest) = hexadecimal at hfound
  obtain ⟨following, hfollowing, rfl⟩ := map_eq_ok_iff.mp hfound
  refine ⟨_, following, rfl, ?_⟩
  -- The signed number has the same digits, and then the same lexemes follow it, or it has not.
  have hsame : lexemes (sign :: c :: rest) =
        .ok (.number (sign :: c :: numberTail hexadecimal c rest) :: following) ↔
      numberTail (isHexadecimal sign (c :: rest)) c rest = numberTail hexadecimal c rest := by
    rw [lexemes_sign_cons hsign hdigit]
    constructor
    · intro h
      obtain ⟨later, -, hlater⟩ := map_eq_ok_iff.mp h
      have hnumber := Lexeme.number.inj (List.cons.inj hlater).1
      exact (List.cons.inj (List.cons.inj hnumber).2).2
    · intro h
      rw [h, hfollowing]
      rfl
  rw [hsame]
  rcases Bool.or_eq_true_iff.mp hsign with hminus | hplus
  · obtain rfl := of_decide_eq_true hminus
    rw [isHexadecimal_minus, hhex]
    exact iff_of_true rfl fun h => absurd h.1 (by decide)
  · obtain rfl := of_decide_eq_true hplus
    rw [isHexadecimal_plus, SwallowsSign, hhex]
    cases hexadecimal with
    | false => exact iff_of_true rfl fun h => Bool.false_ne_true h.2.1
    | true =>
        rw [numberTail_eq_iff (.inl (isAlphanumeric_of_isAsciiDigit hdigit))]
        simp

/-- A minus sign does not change where a hexadecimal literal ends. -/
theorem lexemes_signed_minus :
    lexemes "-0x1e+5" = .ok [.number "-0x1e", .number "+5"] := by
  obtain ⟨spelling, following, hfound, hiff⟩ :=
    lexemes_signed_iff (show isSign '-' by decide)
      (show (CodePoint.ofChar '0').isAsciiDigit by decide)
      (show lexemes "0x1e+5" = .ok [.number "0x1e", .number "+5"] from rfl)
  obtain ⟨hnumber, rfl⟩ := List.cons.inj hfound
  obtain rfl := Lexeme.number.inj hnumber
  exact hiff.mpr fun h => absurd h.1 (by decide)

/-- A plus sign makes a hexadecimal literal take the sign behind it. -/
theorem lexemes_signed_plus :
    lexemes "0x1e+5" = .ok [.number "0x1e", .number "+5"] ∧
      lexemes "+0x1e+5" = .ok [.number "+0x1e+5"] ∧
      lexemes "+0x1e+5" ≠ .ok [.number "+0x1e", .number "+5"] := by
  have hplus : lexemes "+0x1e+5" = .ok [.number "+0x1e+5"] := rfl
  refine ⟨rfl, hplus, fun h => ?_⟩
  have hlength := congrArg List.length (Except.ok.inj (hplus.symm.trans h))
  exact absurd hlength (by decide)

end ProtoSchema.Lexer
