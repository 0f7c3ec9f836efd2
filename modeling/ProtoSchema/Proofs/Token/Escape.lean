import Mathlib.Algebra.Group.Nat.Hom
import Mathlib.Data.List.TakeWhile
import ProtoSchema.Proofs.Token.Segment

/-!
# Escapes without a code point

The only escape that stands for nothing is a `\U` whose eight digits spell a number above the last
code point: every shorter one names a code point (`decode_cases`). So the value of a literal fails
to exist exactly when its raw text has such an escape (`fails_iff`), and a scan fails
exactly when it comes to such a literal (`scan_fails_iff`).
-/

namespace ProtoSchema

namespace Integer

/-- Digits to a base spell a number below the power of the base for their count. -/
theorem ofDigitsFrom_lt {base value number : Nat} {digits : Text}
    (h : ofDigitsFrom base value digits = some number) :
    number < (value + 1) * base ^ digits.length := by
  induction digits generalizing value with
  | nil =>
      obtain rfl := Option.some.inj h
      simp
  | cons c digits ih =>
      rw [ofDigitsFrom] at h
      split at h
      next digit hdigit =>
        split at h
        next hbase =>
          calc
            number < (value * base + digit + 1) * base ^ digits.length := ih h
            _ ≤ (value + 1) * base * base ^ digits.length :=
                Nat.mul_le_mul_right _ (by rw [Nat.add_mul, Nat.one_mul]; omega)
            _ = (value + 1) * base ^ (c :: digits).length := by
                rw [List.length_cons, Nat.pow_succ', Nat.mul_assoc]
        next => cases h
      next => cases h

end Integer

namespace Escape

/-- Eight hexadecimal digits that spell a number above the last code point. -/
structure IsWild (digits : Text) : Prop where
  length : digits.length = 8
  hexadecimal : ∀ c ∈ digits, isHexDigit c
  above : 0x10FFFF < numberOf 16 digits

/-- The raw text of a literal has an escape that stands for no code point. -/
inductive HasWildEscape : Text → Prop
  | here {digits rest : Text} (hdigits : IsWild digits) :
      HasWildEscape (CodePoint.ofChar '\\' :: CodePoint.ofChar 'U' :: (digits ++ rest))
  | plain {c : CodePoint} {rest : Text} (hc : c ≠ '\\') (hrest : HasWildEscape rest) :
      HasWildEscape (c :: rest)
  | escape {c : CodePoint} {rest : Text} (hrest : HasWildEscape rest) :
      HasWildEscape (CodePoint.ofChar '\\' :: c :: rest)

/-! ### One escape -/

/-- The number that digits spell is below the power of the base for their count. -/
theorem numberOf_lt {base : Nat} (hbase : 0 < base) (digits : Text) :
    numberOf base digits < base ^ digits.length := by
  unfold numberOf
  cases h : Integer.ofDigitsFrom base 0 digits with
  | none => exact Nat.pow_pos hbase
  | some number =>
      have hnumber := Integer.ofDigitsFrom_lt h
      rwa [Nat.zero_add, Nat.one_mul] at hnumber

/-- A number up to the last code point is an escape. -/
theorem ofNumber_of_lt {number : Nat} (h : number < 0x110000) (length : Nat) :
    ofNumber number length = .ok ⟨⟨number, h⟩, length⟩ := by
  rw [ofNumber, CodePoint.ofNat?, dif_pos h]

/-- A number above the last code point is none. -/
theorem ofNumber_of_ge {number : Nat} (h : 0x10FFFF < number) (length : Nat) :
    ofNumber number length = .error ⟨number⟩ := by
  rw [ofNumber, CodePoint.ofNat?, dif_neg (by omega)]

/-- A run starts the text, keeps to its limit and has its property. -/
theorem run_cases (property : CodePoint → Bool) (limit : Nat) (text : Text) :
    ∃ left, text = run property limit text ++ left ∧ (run property limit text).length ≤ limit ∧
      ∀ c ∈ run property limit text, property c := by
  have hstart : run property limit text <+: text :=
    (List.takeWhile_prefix _).trans (List.take_prefix _ _)
  obtain ⟨left, hleft⟩ := hstart
  refine ⟨left, hleft.symm, ?_, fun c hc => List.mem_takeWhile_imp hc⟩
  exact Nat.le_trans (List.takeWhile_prefix _).length_le (List.length_take_le _ _)

/-- A run takes digits that fill its limit. -/
theorem run_append {property : CodePoint → Bool} {digits : Text}
    (h : ∀ c ∈ digits, property c) (rest : Text) :
    run property digits.length (digits ++ rest) = digits := by
  rw [run, List.take_left, List.takeWhile_eq_self_iff]
  exact h

/-- A run of digits has no backslash, which is no digit. -/
theorem slash_notMem {property : CodePoint → Bool} {digits : Text}
    (hslash : property '\\' = false) (h : ∀ c ∈ digits, property c) :
    CodePoint.ofChar '\\' ∉ digits :=
  fun hmem => Bool.false_ne_true (hslash.symm.trans (h _ hmem))

/-- The escape stands for a code point and takes digits without a backslash behind its first code
point. -/
def Names (rest : Text) (decoded : Except EscapeError Decoded) : Prop :=
  ∃ digits left value, rest = digits ++ left ∧ CodePoint.ofChar '\\' ∉ digits ∧
    decoded = .ok ⟨value, digits.length + 1⟩

/-- An escape without digits stands for a code point. -/
theorem names_single (value : CodePoint) (rest : Text) : Names rest (.ok ⟨value, 1⟩) :=
  ⟨[], rest, value, rfl, List.not_mem_nil, rfl⟩

/-- An escape whose digits spell a number up to the last code point stands for a code point. -/
theorem names_ofNumber {digits left : Text} (hslash : CodePoint.ofChar '\\' ∉ digits) {number : Nat}
    (hnumber : number < 0x110000) :
    Names (digits ++ left) (ofNumber number (digits.length + 1)) :=
  ⟨digits, left, _, rfl, hslash, ofNumber_of_lt hnumber _⟩

/-- So few digits spell a number up to the last code point. -/
theorem numberOf_lt_of_length {base limit : Nat} {digits : Text} (hbase : 0 < base)
    (hlength : digits.length ≤ limit) (hlimit : base ^ limit ≤ 0x110000) :
    numberOf base digits < 0x110000 :=
  Nat.lt_of_lt_of_le (numberOf_lt hbase digits)
    ((Nat.pow_le_pow_right hbase hlength).trans hlimit)

/-- An escape stands for a code point, unless it is a `\U` with digits that spell none. -/
theorem decode_cases (c : CodePoint) (rest : Text) :
    Names rest (decode c rest) ∨
      ∃ digits left, c = 'U' ∧ rest = digits ++ left ∧ IsWild digits := by
  unfold decode
  dsimp only
  split
  · exact .inl (names_single _ _)
  split
  · -- Up to two hexadecimal digits.
    obtain ⟨left, hleft, hlimit, hdigits⟩ := run_cases isHexDigit 2 rest
    generalize run isHexDigit 2 rest = digits at hleft hlimit hdigits ⊢
    subst hleft
    split
    · exact .inl (names_single _ _)
    · rw [Nat.add_comm 1]
      exact .inl (names_ofNumber (slash_notMem (by decide) hdigits)
        (numberOf_lt_of_length (by decide) hlimit (by decide)))
  split
  · -- Up to three octal digits, the first of them `c`.
    obtain ⟨left, hleft, hlimit, hdigits⟩ := run_cases isOctalDigit 2 rest
    generalize run isOctalDigit 2 rest = digits at hleft hlimit hdigits ⊢
    subst hleft
    have hlength : (c :: digits).length ≤ 3 := Nat.succ_le_succ hlimit
    exact .inl (names_ofNumber (slash_notMem (by decide) hdigits)
      (numberOf_lt_of_length (by decide) hlength (by decide)))
  split
  next hu =>
    generalize hwidth : (if c = 'u' then 4 else 8) = width
    obtain ⟨left, hleft, -, hdigits⟩ := run_cases isHexDigit width rest
    generalize run isHexDigit width rest = digits at hleft hdigits ⊢
    subst hleft
    split
    next hfull =>
      rw [Nat.add_comm 1, ← hfull]
      rcases Nat.lt_or_ge (numberOf 16 digits) 0x110000 with hnumber | hnumber
      · exact .inl (names_ofNumber (slash_notMem (by decide) hdigits) hnumber)
      · -- Four digits spell a code point, so there are eight.
        have hlong : ¬ c = 'u' := by
          intro hshort
          rw [if_pos hshort] at hwidth
          have hfour : digits.length ≤ 4 := by omega
          have hlt := numberOf_lt_of_length (show 0 < 16 by decide) hfour (by decide)
          omega
        rw [if_neg hlong] at hwidth
        refine .inr ⟨digits, left, ?_, rfl, hfull.trans hwidth.symm, hdigits, hnumber⟩
        simpa [hlong] using hu
    next => exact .inl (names_single _ _)
  next => exact .inl (names_single _ _)

/-- A `\U` with digits that spell no code point stands for nothing. -/
theorem decode_of_isWild {digits : Text} (h : IsWild digits) (rest : Text) :
    decode 'U' (digits ++ rest) = .error ⟨numberOf 16 digits⟩ := by
  have hrun : run isHexDigit 8 (digits ++ rest) = digits :=
    h.length ▸ run_append h.hexadecimal rest
  show (if (run isHexDigit 8 (digits ++ rest)).length = 8 then
    ofNumber (numberOf 16 (run isHexDigit 8 (digits ++ rest))) (1 + 8) else _) = _
  rw [hrun, if_pos h.length]
  exact ofNumber_of_ge h.above _

/-! ### The value of a literal -/

/-- What belongs to an escape decoded before is dropped. -/
theorem unescapeFrom_skip (skip : Nat) (text : Text) :
    unescapeFrom skip text = unescape (text.drop skip) := by
  induction text generalizing skip with
  | nil => cases skip <;> rfl
  | cons c rest ih =>
      cases skip with
      | zero => rfl
      | succ skip => exact ih skip

/-- A code point that is no backslash stands for itself. -/
theorem unescape_plain {c : CodePoint} (hc : c ≠ '\\') (rest : Text) :
    unescape (c :: rest) = (unescape rest).map (c :: ·) := by
  rw [unescape, unescapeFrom.eq_def]
  dsimp only
  rw [if_neg hc]
  show (unescape rest).bind _ = _
  cases unescape rest <;> rfl

/-- A text that starts with an escape stands for nothing if the escape does, and else for its code
point and what comes behind its digits. -/
theorem unescape_escape (c : CodePoint) (rest : Text) :
    unescape (CodePoint.ofChar '\\' :: c :: rest) = (decode c rest).bind fun decoded =>
      (unescape ((c :: rest).drop decoded.length)).map (decoded.value :: ·) := by
  rw [unescape, unescapeFrom, if_pos rfl]
  cases decode c rest with
  | error error => rfl
  | ok decoded =>
      show (unescapeFrom decoded.length (c :: rest)).bind _ = Except.map _ _
      rw [unescapeFrom_skip]
      cases unescape ((c :: rest).drop decoded.length) <;> rfl

/-- The raw text stands for nothing. -/
def Fails (raw : Text) : Prop :=
  ∃ error, unescape raw = .error error

/-- A code point that is no backslash does not make a text fail. -/
theorem fails_plain_iff {c : CodePoint} (hc : c ≠ '\\') {rest : Text} :
    Fails (c :: rest) ↔ Fails rest := by
  rw [Fails, unescape_plain hc]
  exact exists_congr fun error => map_eq_error_iff

/-- A piece without a backslash does not make a text fail. -/
theorem fails_append_iff {piece : Text} (h : CodePoint.ofChar '\\' ∉ piece) {rest : Text} :
    Fails (piece ++ rest) ↔ Fails rest := by
  induction piece with
  | nil => exact Iff.rfl
  | cons c piece ih =>
      obtain ⟨hc, hpiece⟩ := not_or.mp (List.mem_cons.not.mp h)
      rw [List.cons_append, fails_plain_iff (Ne.symm hc), ih hpiece]

/-- A `\U` with digits that spell no code point makes a text fail. -/
theorem fails_of_isWild {digits : Text} (h : IsWild digits) (rest : Text) :
    Fails (CodePoint.ofChar '\\' :: CodePoint.ofChar 'U' :: (digits ++ rest)) := by
  refine ⟨⟨numberOf 16 digits⟩, ?_⟩
  rw [unescape_escape, decode_of_isWild h]
  rfl

/-- An escape that stands for a code point does not make a text fail. -/
theorem fails_escape_iff {c : CodePoint} {rest : Text} (h : Names rest (decode c rest)) :
    Fails (CodePoint.ofChar '\\' :: c :: rest) ↔ Fails rest := by
  obtain ⟨digits, left, value, rfl, hdigits, hdecode⟩ := h
  have hleft : unescape (CodePoint.ofChar '\\' :: c :: (digits ++ left)) =
      (unescape left).map (value :: ·) := by
    rw [unescape_escape, hdecode]
    show Except.map _ (unescape ((c :: (digits ++ left)).drop (digits.length + 1))) = _
    rw [List.drop_succ_cons, List.drop_left]
  rw [fails_append_iff hdigits, Fails, hleft]
  exact exists_congr fun error => map_eq_error_iff

/-- The raw text of a literal stands for nothing exactly when it has an escape that stands for
none. -/
theorem fails_iff {raw : Text} : Fails raw ↔ HasWildEscape raw := by
  constructor
  · -- A backslash is read together with the code point behind it: the induction is on the length.
    induction hlength : raw.length using Nat.strongRecOn generalizing raw with
    | ind length ih =>
        intro h
        cases raw with
        | nil => exact ok_error_elim rfl h.choose_spec
        | cons c rest =>
            by_cases hc : c = '\\'
            · subst hc
              cases rest with
              | nil => exact ok_error_elim rfl h.choose_spec
              | cons c rest =>
                  rcases decode_cases c rest with hnames | ⟨digits, left, rfl, rfl, hwild⟩
                  · refine .escape (ih rest.length ?_ rfl ((fails_escape_iff hnames).mp h))
                    rw [← hlength, List.length_cons, List.length_cons]
                    omega
                  · exact .here hwild
            · refine .plain hc (ih rest.length ?_ rfl ((fails_plain_iff hc).mp h))
              rw [← hlength, List.length_cons]
              omega
  · intro h
    induction h with
    | here hdigits => exact fails_of_isWild hdigits _
    | plain hc _ ih => exact (fails_plain_iff hc).mpr ih
    | @escape c rest _ ih =>
        rcases decode_cases c rest with hnames | ⟨digits, left, rfl, rfl, hwild⟩
        · exact (fails_escape_iff hnames).mpr ih
        · exact fails_of_isWild hwild left

end Escape

namespace Lexer

open Escape (HasWildEscape)

/-- The text starts with a string literal that has an escape without a code point. The end of the
text may cut the literal. -/
inductive StartsWild : Text → Prop
  | closed {quote : CodePoint} {raw rest : Text} (hquote : quote = '"' ∨ quote = '\'')
      (hraw : IsQuoted quote raw) (hwild : HasWildEscape raw) :
      StartsWild (quote :: (raw ++ quote :: rest))
  | cut {quote : CodePoint} {raw : Text} (hquote : quote = '"' ∨ quote = '\'')
      (hraw : IsCutQuoted quote raw) (hwild : HasWildEscape raw) : StartsWild (quote :: raw)

/-- A scan of the text comes to the rest at the end of a step. -/
inductive ComesTo : Text → Text → Prop
  | start (text : Text) : ComesTo text text
  | step {c : CodePoint} {rest left : Text} {found : Step}
      (hstep : step Position.start c rest = .ok found)
      (hleft : ComesTo (rest.drop (found.length - 1)) left) : ComesTo (c :: rest) left

/-- The body of a literal goes on behind a closed raw text. -/
theorem stringBody_append {quote : CodePoint} (hquote : ('\\' : CodePoint) ≠ quote) {raw : Text}
    (hraw : IsQuoted quote raw) (position : Position) (rest : Text) :
    (stringBody quote false position (raw ++ rest)).1 =
      raw ++ (stringBody quote false Position.start rest).1 := by
  induction hraw generalizing position with
  | nil => exact (stringBody_position quote rest false position Position.start).1
  | plain hend hslash _ ih =>
      rw [List.cons_append, stringBody_plain hend hslash]
      exact congrArg (_ :: ·) (ih _)
  | escape _ ih =>
      rw [List.cons_append, List.cons_append, stringBody_escape hquote]
      exact congrArg (_ :: _ :: ·) (ih _)

/-- The body of a literal that the end of the text cuts is all that is left of the text. -/
theorem stringBody_of_isCutQuoted {quote : CodePoint} (hquote : quote = '"' ∨ quote = '\'')
    {raw : Text} (hraw : IsCutQuoted quote raw) (position : Position) :
    (stringBody quote false position raw).1 = raw ∧
      (stringBody quote false position raw).2.1 = raw.length := by
  have hslash : ('\\' : CodePoint) ≠ quote := by rcases hquote with rfl | rfl <;> decide
  have hbody (position : Position) : (stringBody quote false position raw).1 = raw := by
    cases hraw with
    | whole hraw =>
        have hwhole := stringBody_append hslash hraw position []
        rw [List.append_nil] at hwhole
        rw [hwhole]
        simp [stringBody]
    | slash hraw =>
        rw [stringBody_append hslash hraw]
        simp [stringBody, hslash]
  refine ⟨hbody position, ?_⟩
  rw [(stringBody_position quote raw false position (Position.afterText [])).2]
  rcases stringBody_cases hquote [] raw with ⟨front, rest, hsplit, -, hclosed⟩ | ⟨-, _, -, hcut⟩
  · -- A literal with a closing quote would leave something of the text.
    have hfront := hbody (Position.afterText [])
    rw [hclosed] at hfront
    have hlength := congrArg List.length (hfront.trans hsplit)
    simp at hlength
  · rw [hcut]

/-- A step fails exactly at a literal that stands for nothing. -/
theorem step_eq_error_iff {position : Position} {c : CodePoint} {rest : Text}
    {error : EscapeError} :
    step position c rest = .error error ↔ (c = '"' ∨ c = '\'') ∧
      Escape.unescape (stringBody c false (position.right 1) rest).1 = .error error := by
  have hstring : stringStep position c rest = .error error ↔
      Escape.unescape (stringBody c false (position.right 1) rest).1 = .error error := by
    unfold stringStep
    dsimp only
    rw [bind_eq_error_iff]
    exact or_iff_left (by rintro ⟨value, -, h⟩; cases h)
  constructor
  · intro h
    unfold step at h
    split at h
    · cases h
    · split at h
      · cases h
      · split at h
        · cases h
        · split at h
          · cases h
          · split at h
            next hquote => exact ⟨by simpa using hquote, hstring.mp h⟩
            next => cases h
  · rintro ⟨rfl | rfl, h⟩
    · exact hstring.mpr h
    · exact hstring.mpr h

/-- A step fails exactly where the text starts with a literal that has an escape without a code
point. -/
theorem step_fails_iff {position : Position} {c : CodePoint} {rest : Text} :
    (∃ error, step position c rest = .error error) ↔ StartsWild (c :: rest) := by
  have hslash {quote : CodePoint} (hquote : quote = '"' ∨ quote = '\'') :
      ('\\' : CodePoint) ≠ quote := by
    rcases hquote with rfl | rfl <;> decide
  constructor
  · rintro ⟨error, h⟩
    obtain ⟨hquote, hvalue⟩ := step_eq_error_iff.mp h
    rw [(stringBody_position c rest false _ (Position.afterText [])).1] at hvalue
    rcases stringBody_cases hquote [] rest with ⟨raw, left, rfl, hraw, hbody⟩ | ⟨hraw, _, -, hbody⟩
    · rw [hbody] at hvalue
      exact .closed hquote hraw (Escape.fails_iff.mp ⟨error, hvalue⟩)
    · rw [hbody] at hvalue
      exact .cut hquote hraw (Escape.fails_iff.mp ⟨error, hvalue⟩)
  · intro h
    cases h with
    | @closed _ raw left hquote hraw hwild =>
        obtain ⟨error, herror⟩ := Escape.fails_iff.mpr hwild
        refine ⟨error, step_eq_error_iff.mpr ⟨hquote, ?_⟩⟩
        rw [stringBody_append (hslash hquote) hraw]
        simpa [stringBody] using herror
    | cut hquote hraw hwild =>
        obtain ⟨error, herror⟩ := Escape.fails_iff.mpr hwild
        refine ⟨error, step_eq_error_iff.mpr ⟨hquote, ?_⟩⟩
        rwa [(stringBody_of_isCutQuoted hquote hraw _).1]

/-- A scan fails exactly when it comes to a literal that has an escape without a code point. -/
theorem scan_fails_iff {text : Text} :
    (∃ error, scan text = .error error) ↔ ∃ left, ComesTo text left ∧ StartsWild left := by
  have hlexemes (text : Text) : (∃ error, scan text = .error error) ↔
      ∃ error, lexemes text = .error error :=
    exists_congr fun error => map_eq_error_iff.symm
  rw [hlexemes]
  constructor
  · induction hlength : text.length using Nat.strongRecOn generalizing text with
    | ind length ih =>
        rintro ⟨error, h⟩
        cases text with
        | nil => cases h
        | cons c rest =>
            cases hstep : step Position.start c rest with
            | error cause => exact ⟨_, .start _, step_fails_iff.mp ⟨cause, hstep⟩⟩
            | ok found =>
                rw [lexemes_cons hstep] at h
                obtain ⟨left, hleft, hwild⟩ := ih (rest.drop (found.length - 1)).length
                  (by rw [← hlength, List.length_drop, List.length_cons]; omega) rfl
                  ⟨error, map_eq_error_iff.mp h⟩
                exact ⟨left, .step hstep hleft, hwild⟩
  · rintro ⟨left, hleft, hwild⟩
    induction hleft with
    | start text =>
        cases text with
        | nil => cases hwild
        | cons c rest =>
            have hfails : ∃ error, step Position.start c rest = .error error :=
              step_fails_iff.mpr hwild
            obtain ⟨error, herror⟩ := hfails
            refine (hlexemes _).mp ⟨error, ?_⟩
            rw [scan, scanFrom_cons, herror]
            rfl
    | step hstep _ ih =>
        obtain ⟨error, herror⟩ := ih hwild
        exact ⟨error, by rw [lexemes_cons hstep, herror]; rfl⟩

end Lexer

end ProtoSchema
