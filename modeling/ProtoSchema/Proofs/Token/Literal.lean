import Mathlib.Data.List.Forall2
import ProtoSchema.Proofs.Number.Digits
import ProtoSchema.Proofs.Token.Escape

/-!
# String literals

Every way to write a text as a literal: each code point as it is or by any of its escapes
(`Encodes`), between quotes of either kind (`IsLiteral`). Main statement: `IsLiteral.lexemes`. A
literal is scanned as the text that it encodes, in front of every text. An escape takes a fixed
number of digits, so what stands behind it does not matter, be it one more digit.
-/

namespace ProtoSchema

namespace Escape

/-- The marks that stand for a code point after a backslash. -/
def simpleMarks : List (CodePoint × CodePoint) :=
  [('a', '\x07'), ('b', '\x08'), ('f', '\x0c'), ('n', '\n'), ('r', '\r'), ('t', '\t'),
    ('v', '\x0b'), ('\\', '\\'), ('\'', '\''), ('"', '"'), ('?', '?')]

/-- The marks that announce hexadecimal digits after a backslash, with the number of digits. -/
def hexadecimalMarks : List (CodePoint × Nat) :=
  [('x', 2), ('X', 2), ('u', 4), ('U', 8)]

/-- The piece of a literal between these quotes stands for the code point. -/
inductive Encodes (quote : CodePoint) (c : CodePoint) : Text → Prop
  | plain (hquote : c ≠ quote) (hslash : c ≠ '\\') : Encodes quote c [c]
  | simple {mark : CodePoint} (hmark : (mark, c) ∈ simpleMarks) :
      Encodes quote c [CodePoint.ofChar '\\', mark]
  | octal {digits : Text} (hlength : digits.length = 3) (hdigits : Integer.Spells 8 digits c.val) :
      Encodes quote c (CodePoint.ofChar '\\' :: digits)
  | hexadecimal {mark : CodePoint} {digits : Text}
      (hmark : (mark, digits.length) ∈ hexadecimalMarks)
      (hdigits : Integer.Spells 16 digits c.val) :
      Encodes quote c (CodePoint.ofChar '\\' :: mark :: digits)

end Escape

/-! ### Digits in escapes -/

namespace Integer.Spells

variable {digits : Text} {number : Nat} {c : CodePoint}

/-- Digits to the base eight are octal digits. -/
theorem isOctalDigit (h : Spells 8 digits number) (hmem : c ∈ digits) : Escape.isOctalDigit c := by
  obtain ⟨digit, hbase, ⟨-, hc⟩ | ⟨letter, -, rfl, -⟩⟩ := h.isDigit_of_mem hmem
  · simp [Escape.isOctalDigit, CodePoint.between, hc]
    omega
  · omega

/-- Digits to the base sixteen are hexadecimal digits. -/
theorem isHexDigit (h : Spells 16 digits number) (hmem : c ∈ digits) : Escape.isHexDigit c := by
  obtain ⟨digit, hbase, ⟨hten, hc⟩ | ⟨letter, -, rfl, hc | hc⟩⟩ := h.isDigit_of_mem hmem
  all_goals
    simp [Escape.isHexDigit, CodePoint.between, hc]
    omega

/-- Digits spell the number that an escape takes from them. -/
theorem numberOf {base : Nat} (h : Spells base digits number) :
    Escape.numberOf base digits = number := by
  rw [Escape.numberOf, spells_iff.mp h]
  rfl

end Integer.Spells

/-! ### Pieces -/

namespace Escape

variable {quote c : CodePoint}

/-- A number that is a code point is an escape for it. -/
theorem ofNumber_val (c : CodePoint) (length : Nat) : ofNumber c.val length = .ok ⟨c, length⟩ :=
  ofNumber_of_lt c.val_lt length

/-- A mark stands for its code point. -/
theorem decode_simple {mark : CodePoint} (h : (mark, c) ∈ simpleMarks) (rest : Text) :
    decode mark rest = .ok ⟨c, 1⟩ := by
  have hsimple : simple? mark = some c := by
    have hall : ∀ entry ∈ simpleMarks, simple? entry.1 = some entry.2 := by decide
    exact hall _ h
  rw [decode, hsimple]

/-- An octal digit is none of the other code points. -/
theorem ne_of_isOctalDigit {digit : CodePoint} (h : isOctalDigit digit) (mark : CodePoint)
    (hmark : isOctalDigit mark = false) : digit ≠ mark := by
  rintro rfl
  exact absurd h (Bool.eq_false_iff.mp hmark)

/-- An octal digit is no mark of its own. -/
theorem simple?_of_isOctalDigit {digit : CodePoint} (h : isOctalDigit digit) :
    simple? digit = none := by
  have hne := ne_of_isOctalDigit h
  have hlast : (digit = '\\' || digit = '\'' || digit = '"' || digit = '?') = false := by
    simp [hne '\\' rfl, hne '\'' rfl, hne '"' rfl, hne '?' rfl]
  rw [simple?, if_neg (hne 'a' rfl), if_neg (hne 'b' rfl), if_neg (hne 'f' rfl),
    if_neg (hne 'n' rfl), if_neg (hne 'r' rfl), if_neg (hne 't' rfl), if_neg (hne 'v' rfl), hlast]
  rfl

/-- Octal digits after the first one stand with it for their code point. -/
theorem decode_octal {first : CodePoint} {digits : Text} (hlength : digits.length = 2)
    (hdigits : Integer.Spells 8 (first :: digits) c.val) (rest : Text) :
    decode first (digits ++ rest) = .ok ⟨c, 3⟩ := by
  have hfirst := hdigits.isOctalDigit List.mem_cons_self
  have hrun : run isOctalDigit 2 (digits ++ rest) = digits := by
    rw [← hlength]
    exact run_append (fun d hmem => hdigits.isOctalDigit (List.mem_cons_of_mem first hmem)) rest
  have hmark : (first = 'x' || first = 'X') = false := by
    have hne := ne_of_isOctalDigit hfirst
    simp [hne 'x' rfl, hne 'X' rfl]
  rw [decode, simple?_of_isOctalDigit hfirst]
  dsimp only
  rw [hmark, if_neg Bool.false_ne_true, if_pos hfirst, hrun, hdigits.numberOf, List.length_cons,
    hlength]
  exact ofNumber_val c 3

/-- A mark with its hexadecimal digits stands for their code point. -/
theorem decode_hexadecimal {mark : CodePoint} {digits : Text}
    (hmark : (mark, digits.length) ∈ hexadecimalMarks) (hdigits : Integer.Spells 16 digits c.val)
    (rest : Text) : decode mark (digits ++ rest) = .ok ⟨c, digits.length + 1⟩ := by
  have hrun {width : Nat} (hlength : digits.length = width) :
      run isHexDigit width (digits ++ rest) = digits :=
    hlength ▸ run_append (fun d hmem => hdigits.isHexDigit hmem) rest
  -- Two digits are as many as there are, while four and eight have to be there in full.
  have hbyte (hlength : digits.length = 2) :
      (let taken := run isHexDigit 2 (digits ++ rest)
      if taken.isEmpty then .ok ⟨mark, 1⟩ else ofNumber (numberOf 16 taken) (1 + taken.length)) =
        .ok (Decoded.mk c (digits.length + 1)) := by
    have hsome : ¬ digits.isEmpty = true := by simp [← List.length_eq_zero_iff, hlength]
    dsimp only
    rw [hrun hlength, if_neg hsome, hdigits.numberOf, ofNumber_val, Nat.add_comm]
  have hfull {width : Nat} (hlength : digits.length = width) :
      (let taken := run isHexDigit width (digits ++ rest)
      if taken.length = width then ofNumber (numberOf 16 taken) (1 + width) else .ok ⟨mark, 1⟩) =
        .ok (Decoded.mk c (digits.length + 1)) := by
    dsimp only
    rw [hrun hlength, if_pos hlength, hdigits.numberOf, ofNumber_val, hlength, Nat.add_comm]
  simp only [hexadecimalMarks, List.mem_cons, Prod.mk.injEq, List.not_mem_nil, or_false] at hmark
  rcases hmark with ⟨rfl, hlength⟩ | ⟨rfl, hlength⟩ | ⟨rfl, hlength⟩ | ⟨rfl, hlength⟩
  · exact hbyte hlength
  · exact hbyte hlength
  · exact hfull hlength
  · exact hfull hlength

namespace Encodes

variable {piece : Text}

/-- A piece is read as its code point, whatever follows it. -/
theorem unescape_append (h : Encodes quote c piece) (rest : Text) :
    unescape (piece ++ rest) = (unescape rest).map (c :: ·) := by
  cases h with
  | plain hquote hslash => exact unescape_plain hslash rest
  | @simple mark hmark =>
      show unescape (CodePoint.ofChar '\\' :: mark :: rest) = _
      rw [unescape_escape, decode_simple hmark]
      rfl
  | @octal digits hlength hdigits =>
      cases digits with
      | nil => cases hlength
      | cons first digits =>
          have htwo : digits.length = 2 := Nat.succ.inj hlength
          have hrest : (first :: (digits ++ rest)).drop 3 = rest := by
            rw [List.drop_succ_cons, ← htwo, List.drop_left]
          show unescape (CodePoint.ofChar '\\' :: first :: (digits ++ rest)) = _
          rw [unescape_escape, decode_octal htwo hdigits]
          show (unescape ((first :: (digits ++ rest)).drop 3)).map _ = _
          rw [hrest]
  | @hexadecimal mark digits hmark hdigits =>
      show unescape (CodePoint.ofChar '\\' :: mark :: (digits ++ rest)) = _
      rw [unescape_escape, decode_hexadecimal hmark hdigits]
      show (unescape ((mark :: (digits ++ rest)).drop (digits.length + 1))).map _ = _
      rw [List.drop_succ_cons, List.drop_left]

end Encodes

end Escape

/-! ### Literals -/

namespace Lexer

open Escape (Encodes)

variable {quote : CodePoint} {raw value literal : Text}

/-- The literal encodes the value, one piece for each code point, between quotes of either kind. -/
def IsLiteral (value literal : Text) : Prop :=
  ∃ (quote : CodePoint) (pieces : List Text), (quote = '"' ∨ quote = '\'') ∧
    List.Forall₂ (Encodes quote) value pieces ∧ literal = quote :: (pieces.flatten ++ [quote])

/-- Raw texts of closed literals can be put together. -/
theorem IsQuoted.append {first second : Text} (hfirst : IsQuoted quote first)
    (hsecond : IsQuoted quote second) : IsQuoted quote (first ++ second) := by
  induction hfirst with
  | nil => exact hsecond
  | plain hquote hslash _ ih => exact .plain hquote hslash ih
  | escape _ ih => exact .escape ih

/-- Code points with a property that quotes and backslashes do not have are the raw text of a
literal. -/
theorem isQuoted_of_forall {property : CodePoint → Bool} {digits : Text}
    (hquote : quote = '"' ∨ quote = '\'') (hdouble : property '"' = false)
    (hsingle : property '\'' = false) (hslash : property '\\' = false)
    (h : ∀ c ∈ digits, property c) : IsQuoted quote digits := by
  have hne {c mark : CodePoint} (hc : property c) (hmark : property mark = false) : c ≠ mark := by
    rintro rfl
    exact Bool.false_ne_true (hmark.symm.trans hc)
  induction digits with
  | nil => exact .nil
  | cons c digits ih =>
      obtain ⟨hc, hdigits⟩ := List.forall_mem_cons.mp h
      refine .plain ?_ (hne hc hslash) (ih hdigits)
      rcases hquote with rfl | rfl
      · exact hne hc hdouble
      · exact hne hc hsingle

/-- A piece can stand between the quotes. -/
theorem isQuoted_of_encodes (hquote : quote = '"' ∨ quote = '\'') {c : CodePoint} {piece : Text}
    (h : Encodes quote c piece) : IsQuoted quote piece := by
  cases h with
  | plain hplain hslash => exact .plain hplain hslash .nil
  | simple hmark => exact .escape .nil
  | @octal digits hlength hdigits =>
      cases digits with
      | nil => cases hlength
      | cons first digits =>
          exact .escape (isQuoted_of_forall hquote rfl rfl rfl fun d hmem =>
            hdigits.isOctalDigit (List.mem_cons_of_mem first hmem))
  | hexadecimal hmark hdigits =>
      exact .escape (isQuoted_of_forall hquote rfl rfl rfl fun d hmem => hdigits.isHexDigit hmem)

/-- The body of a literal ends at the first quote behind its raw text. -/
theorem stringBody_quoted (hslash : ('\\' : CodePoint) ≠ quote) (h : IsQuoted quote raw)
    (position : Position) (rest : Text) :
    ∃ after, stringBody quote false position (raw ++ quote :: rest) =
      (raw, raw.length + 1, after) := by
  induction h generalizing position with
  | nil => exact ⟨position.right 1, by simp [stringBody]⟩
  | @plain c raw hquote hplain _ ih =>
      obtain ⟨after, hbody⟩ := ih (position.after c)
      exact ⟨after, by rw [List.cons_append, stringBody_plain hquote hplain, hbody]; rfl⟩
  | @escape c raw _ ih =>
      obtain ⟨after, hbody⟩ := ih ((position.after '\\').after c)
      exact ⟨after, by
        rw [List.cons_append, List.cons_append, stringBody_escape hslash, hbody]; rfl⟩

/-- A raw text between quotes is scanned as the string that it stands for. -/
theorem lexemes_quoted (hquote : quote = '"' ∨ quote = '\'') (hraw : IsQuoted quote raw)
    (hvalue : Escape.unescape raw = .ok value) (rest : Text) :
    lexemes (quote :: (raw ++ quote :: rest)) = (lexemes rest).map (.string value :: ·) := by
  have hslash : ('\\' : CodePoint) ≠ quote := by rcases hquote with rfl | rfl <;> decide
  obtain ⟨after, hbody⟩ := stringBody_quoted hslash hraw (Position.start.right 1) rest
  have hstring : stringStep Position.start quote (raw ++ quote :: rest) =
      .ok ⟨some (.string value), raw.length + 2, after⟩ := by
    rw [stringStep, hbody]
    dsimp only
    rw [hvalue]
    rfl
  have hstep : step Position.start quote (raw ++ quote :: rest) =
      .ok ⟨some (.string value), raw.length + 2, after⟩ := by
    rw [← hstring]
    rcases hquote with rfl | rfl <;> rfl
  have hrest : (raw ++ quote :: rest).drop (raw.length + 1) = rest := by
    rw [List.append_cons]
    exact List.drop_left' (by simp)
  rw [lexemes_cons hstep]
  show (lexemes ((raw ++ quote :: rest).drop (raw.length + 1))).map _ = _
  rw [hrest]
  rfl

/-- A literal without a closing quote is scanned as the string that it would be with one. -/
theorem lexemes_of_isCutQuoted (hquote : quote = '"' ∨ quote = '\'')
    (hraw : IsCutQuoted quote raw) :
    lexemes (quote :: raw) = (Escape.unescape raw).map fun value => [.string value] := by
  have hstep : step Position.start quote raw = stringStep Position.start quote raw := by
    rcases hquote with rfl | rfl <;> rfl
  obtain ⟨hbody, htaken⟩ := stringBody_of_isCutQuoted hquote hraw (Position.start.right 1)
  generalize hparts : stringBody quote false (Position.start.right 1) raw = parts at hbody htaken
  obtain ⟨body, taken, after⟩ := parts
  obtain rfl : body = raw := hbody
  obtain rfl : taken = body.length := htaken
  cases hvalue : Escape.unescape body with
  | error error =>
      refine lexemes_of_error (hstep.trans ?_)
      rw [stringStep, hparts]
      dsimp only
      rw [hvalue]
      rfl
  | ok value =>
      have hfound : step Position.start quote body =
          .ok ⟨some (.string value), body.length + 1, after⟩ := by
        rw [hstep, stringStep, hparts]
        dsimp only
        rw [hvalue]
        rfl
      rw [lexemes_cons hfound, Nat.add_sub_cancel, List.drop_length]
      rfl

/-- The pieces between the quotes are a raw text that stands for the value. -/
theorem isQuoted_flatten (hquote : quote = '"' ∨ quote = '\'') {pieces : List Text}
    (h : List.Forall₂ (Encodes quote) value pieces) :
    IsQuoted quote pieces.flatten ∧ Escape.unescape pieces.flatten = .ok value := by
  induction h with
  | nil => exact ⟨.nil, rfl⟩
  | cons hpiece _ ih =>
      refine ⟨(isQuoted_of_encodes hquote hpiece).append ih.1, ?_⟩
      rw [List.flatten_cons, hpiece.unescape_append, ih.2]
      rfl

/-- A literal is scanned as the text that it encodes, whatever follows it. -/
theorem IsLiteral.lexemes (h : IsLiteral value literal) (rest : Text) :
    lexemes (literal ++ rest) = (Lexer.lexemes rest).map (.string value :: ·) := by
  obtain ⟨quote, pieces, hquote, hpieces, rfl⟩ := h
  obtain ⟨hraw, hvalue⟩ := isQuoted_flatten hquote hpieces
  rw [List.cons_append, ← List.append_cons]
  exact lexemes_quoted hquote hraw hvalue rest

end Lexer

end ProtoSchema
