import ProtoSchema.Proofs.Token.Layout

/-!
# Strings that stand for themselves

A text between double quotes is scanned as itself if it has neither a double quote nor a backslash,
and only then (`isVerbatim_of_lexemes`): whatever follows the literal, no other text is scanned as
itself. An escape makes a value shorter than its raw text, so the raw text would have to go on
behind its own value and a quote. Then the quote is an escaped one, and the raw text in front of its
backslash goes on behind its own value and a quote, too (`IsQuoted.ne_unescape_append`).
-/

namespace ProtoSchema

namespace Text

/-- The text has neither a double quote nor a backslash. -/
def IsVerbatim (text : Text) : Prop :=
  CodePoint.ofChar '"' ∉ text ∧ CodePoint.ofChar '\\' ∉ text

/-- A text without double quotes and backslashes is its own literal between double quotes. -/
theorem IsVerbatim.literal_eq {text : Text} (h : text.IsVerbatim) :
    literal text = CodePoint.ofChar '"' :: (text ++ [CodePoint.ofChar '"']) := by
  have hescaped : escaped text = text := by
    refine (List.flatMap_congr fun c hc => if_neg ?_).trans (List.flatMap_singleton' text)
    rw [Bool.or_eq_true, decide_eq_true_eq, decide_eq_true_eq]
    rintro (rfl | rfl)
    · exact h.2 hc
    · exact h.1 hc
  rw [literal, hescaped]

end Text

/-! ### Values and their raw texts -/

namespace Escape

variable {raw value rest : Text} {c : CodePoint}

/-- A backslash ends a run of digits as the end of the text does. -/
theorem run_slash {property : CodePoint → Bool} (hslash : property '\\' = false) (limit : Nat)
    (text rest : Text) :
    run property limit (text ++ CodePoint.ofChar '\\' :: rest) = run property limit text := by
  rw [run, run, List.take_append, List.takeWhile_append]
  split
  next hall =>
    have hbehind : ((CodePoint.ofChar '\\' :: rest).take (limit - text.length)).takeWhile
        property = [] := by
      cases limit - text.length with
      | zero => rfl
      | succ more => exact List.takeWhile_cons_of_neg (Bool.eq_false_iff.mp hslash)
    rw [hbehind, List.append_nil]
    exact ((List.takeWhile_prefix _).eq_of_length hall).symm
  next => rfl

/-- An escape does not depend on what follows the next backslash. -/
theorem decode_slash (c : CodePoint) (text rest : Text) :
    decode c (text ++ CodePoint.ofChar '\\' :: rest) = decode c text := by
  have hhex (limit : Nat) : run isHexDigit limit (text ++ CodePoint.ofChar '\\' :: rest) =
      run isHexDigit limit text := run_slash rfl limit text rest
  have hoctal : run isOctalDigit 2 (text ++ CodePoint.ofChar '\\' :: rest) =
      run isOctalDigit 2 text := run_slash rfl 2 text rest
  simp only [decode, hhex, hoctal]

/-- What a text stands for that starts with an escape: the code point of the escape and then what
the text behind its digits stands for. -/
theorem exists_of_unescape_escape
    (h : unescape (CodePoint.ofChar '\\' :: c :: rest) = .ok value) :
    ∃ digits left found tail, rest = digits ++ left ∧ CodePoint.ofChar '\\' ∉ digits ∧
      decode c rest = .ok ⟨found, digits.length + 1⟩ ∧ unescape left = .ok tail ∧
      value = found :: tail := by
  rw [unescape_escape] at h
  rcases decode_cases c rest with
    ⟨digits, left, found, rfl, hdigits, hdecode⟩ | ⟨digits, left, rfl, rfl, hwild⟩
  · rw [hdecode] at h
    obtain ⟨tail, htail, rfl⟩ := map_eq_ok_iff.mp h
    rw [List.drop_succ_cons, List.drop_left] at htail
    exact ⟨digits, left, found, tail, rfl, hdigits, hdecode, htail, rfl⟩
  · rw [decode_of_isWild hwild] at h
    cases h

/-- What a text stands for is no longer than the text. -/
theorem length_le_of_unescape (h : unescape raw = .ok value) : value.length ≤ raw.length := by
  induction hlength : raw.length using Nat.strongRecOn generalizing raw value with
  | ind length ih =>
      cases raw with
      | nil =>
          obtain rfl := Except.ok.inj h
          exact Nat.zero_le _
      | cons c rest =>
          by_cases hc : c = '\\'
          · subst hc
            cases rest with
            | nil =>
                obtain rfl := Except.ok.inj h
                exact Nat.le_of_eq hlength
            | cons c rest =>
                obtain ⟨digits, left, found, tail, rfl, -, -, htail, rfl⟩ :=
                  exists_of_unescape_escape h
                simp only [List.length_cons, List.length_append] at hlength ⊢
                have htail := ih left.length (by omega) htail rfl
                omega
          · rw [unescape_plain hc] at h
            obtain ⟨tail, htail, rfl⟩ := map_eq_ok_iff.mp h
            rw [List.length_cons] at hlength ⊢
            have htail := ih rest.length (by omega) htail rfl
            omega

/-- In a text that starts with what a first part of it stands for and then has one more code point,
this part has that code point behind its value, or it stands for itself. -/
theorem goesOn_or_eq {d : CodePoint} {tail : Text} (hvalue : unescape raw = .ok value)
    (h : value ++ c :: rest = raw ++ d :: tail) :
    (∃ middle, raw = value ++ c :: middle) ∨ (value = raw ∧ c = d) := by
  obtain ⟨middle, rfl⟩ : value <+: raw :=
    List.prefix_of_prefix_length_le ⟨_, h⟩ (List.prefix_append raw _) (length_le_of_unescape hvalue)
  rw [List.append_assoc] at h
  cases middle with
  | nil => exact .inr ⟨(List.append_nil value).symm, (List.cons.inj (List.append_cancel_left h)).1⟩
  | cons first middle =>
      obtain rfl := (List.cons.inj (List.append_cancel_left h)).1
      exact .inl ⟨middle, rfl⟩

end Escape

namespace Lexer

open Escape (unescape)

variable {quote : CodePoint} {raw value rest : Text}

/-- What is left of the raw text of a literal behind a piece without a backslash is one, too. -/
theorem IsQuoted.of_append {piece : Text} (hpiece : CodePoint.ofChar '\\' ∉ piece)
    (h : IsQuoted quote (piece ++ raw)) : IsQuoted quote raw := by
  induction piece with
  | nil => exact h
  | cons c piece ih =>
      obtain ⟨hc, hpiece⟩ := not_or.mp (List.mem_cons.not.mp hpiece)
      rw [List.cons_append] at h
      generalize hleft : piece ++ raw = left at h
      cases h with
      | plain _ _ hraw => exact ih hpiece (hleft ▸ hraw)
      | escape => exact absurd rfl hc

/-- A quote in the raw text of a literal stands behind a backslash. -/
theorem IsQuoted.exists_slash (hslash : ('\\' : CodePoint) ≠ quote) {front : Text}
    (h : IsQuoted quote (front ++ quote :: rest)) :
    ∃ before, front = before ++ [CodePoint.ofChar '\\'] ∧ IsQuoted quote before := by
  generalize htext : front ++ quote :: rest = text at h
  induction h generalizing front with
  | nil => simp at htext
  | @plain c raw hquote hplain _ ih =>
      cases front with
      | nil => exact absurd (List.cons.inj htext).1.symm hquote
      | cons d front =>
          obtain ⟨rfl, hraw⟩ := List.cons.inj htext
          obtain ⟨before, rfl, hbefore⟩ := ih hraw
          exact ⟨d :: before, rfl, .plain hquote hplain hbefore⟩
  | @escape c raw _ ih =>
      match front, htext with
      | [], htext => exact absurd (List.cons.inj htext).1.symm hslash
      | [d], htext =>
          obtain rfl := (List.cons.inj htext).1
          exact ⟨[], rfl, .nil⟩
      | d :: e :: front, htext =>
          rw [List.cons_append, List.cons_append] at htext
          obtain ⟨rfl, htail⟩ := List.cons.inj htext
          obtain ⟨rfl, hraw⟩ := List.cons.inj htail
          obtain ⟨before, rfl, hbefore⟩ := ih hraw
          exact ⟨'\\' :: e :: before, rfl, .escape hbefore⟩

/-- The raw text of a literal in front of a backslash stands for what it stands for alone. -/
theorem unescape_slash (h : IsQuoted quote raw) (rest : Text) :
    unescape (raw ++ CodePoint.ofChar '\\' :: rest) = (unescape raw).bind fun value =>
      (unescape (CodePoint.ofChar '\\' :: rest)).map (value ++ ·) := by
  -- An escape may take digits behind it, so the induction is on the length of the raw text.
  induction hlength : raw.length using Nat.strongRecOn generalizing raw with
  | ind length ih =>
      cases h with
      | nil =>
          show unescape (CodePoint.ofChar '\\' :: rest) = (unescape _).map ([] ++ ·)
          cases unescape (CodePoint.ofChar '\\' :: rest) <;> rfl
      | @plain c raw _ hplain hraw =>
          rw [List.cons_append, Escape.unescape_plain hplain, Escape.unescape_plain hplain,
            ih raw.length (by simp [← hlength]) hraw rfl]
          cases unescape raw with
          | error error => rfl
          | ok value => cases unescape (CodePoint.ofChar '\\' :: rest) <;> rfl
      | @escape c raw hraw =>
          rw [List.cons_append, List.cons_append, Escape.unescape_escape, Escape.unescape_escape,
            Escape.decode_slash]
          rcases Escape.decode_cases c raw with
            ⟨digits, left, found, rfl, hdigits, hdecode⟩ | ⟨digits, left, rfl, rfl, hwild⟩
          · have hleft := ih left.length (by simp [← hlength]; omega) (hraw.of_append hdigits) rfl
            rw [hdecode]
            show (unescape ((c :: (digits ++ left ++ CodePoint.ofChar '\\' :: rest)).drop
              (digits.length + 1))).map _ = ((unescape ((c :: (digits ++ left)).drop
                (digits.length + 1))).map _).bind _
            rw [List.append_assoc, List.drop_succ_cons, List.drop_left, List.drop_succ_cons,
              List.drop_left, hleft]
            cases unescape left with
            | error error => rfl
            | ok value => cases unescape (CodePoint.ofChar '\\' :: rest) <;> rfl
          · rw [Escape.decode_of_isWild hwild]
            rfl

/-- An escape makes what a literal stands for shorter than its raw text. -/
theorem IsQuoted.length_lt (h : IsQuoted quote raw) (hmem : CodePoint.ofChar '\\' ∈ raw)
    (hvalue : unescape raw = .ok value) : value.length < raw.length := by
  induction h generalizing value with
  | nil => cases hmem
  | plain _ hplain _ ih =>
      rw [Escape.unescape_plain hplain] at hvalue
      obtain ⟨tail, htail, rfl⟩ := map_eq_ok_iff.mp hvalue
      have hmem := (List.mem_cons.mp hmem).resolve_left (Ne.symm hplain)
      exact Nat.succ_lt_succ (ih hmem htail)
  | escape =>
      obtain ⟨digits, left, found, tail, rfl, -, -, htail, rfl⟩ :=
        Escape.exists_of_unescape_escape hvalue
      have htail := Escape.length_le_of_unescape htail
      simp only [List.length_cons, List.length_append]
      omega

/-- What a text stands for in which an escaped double quote follows the raw text of a literal. -/
theorem IsQuoted.unescape_quote (h : IsQuoted quote raw)
    (hvalue : unescape (raw ++ CodePoint.ofChar '\\' :: CodePoint.ofChar '"' :: rest) = .ok value) :
    ∃ front tail, unescape raw = .ok front ∧ value = front ++ CodePoint.ofChar '"' :: tail := by
  have hquote : unescape (CodePoint.ofChar '\\' :: CodePoint.ofChar '"' :: rest) =
      (unescape rest).map (CodePoint.ofChar '"' :: ·) := by
    rw [Escape.unescape_escape]
    rfl
  rw [unescape_slash h, hquote] at hvalue
  obtain ⟨front, hfront, hmap⟩ := bind_eq_ok_iff.mp hvalue
  obtain ⟨quoted, hquoted, rfl⟩ := map_eq_ok_iff.mp hmap
  obtain ⟨tail, -, rfl⟩ := map_eq_ok_iff.mp hquoted
  exact ⟨front, tail, hfront, rfl⟩

/-- The raw text of a literal does not go on behind its own value and a double quote. -/
theorem IsQuoted.ne_unescape_append (h : IsQuoted '"' raw) (hvalue : unescape raw = .ok value)
    (rest : Text) : raw ≠ value ++ CodePoint.ofChar '"' :: rest := by
  induction hlength : raw.length using Nat.strongRecOn generalizing raw value rest with
  | ind length ih =>
      intro hraw
      rw [hraw] at h hvalue
      obtain ⟨before, rfl, hbefore⟩ := h.exists_slash (by decide)
      rw [List.append_assoc] at hvalue
      obtain ⟨front, tail, hfront, hsplit⟩ := hbefore.unescape_quote hvalue
      -- The raw text before the backslash does not stand for itself, since the two go on with
      -- different code points.
      rcases Escape.goesOn_or_eq hfront hsplit.symm with ⟨middle, rfl⟩ | ⟨-, hsame⟩
      · refine ih _ ?_ hbefore hfront middle rfl rfl
        rw [← hlength, hraw]
        simp only [List.length_append, List.length_cons]
        omega
      · exact absurd hsame (by decide)

/-- A raw text that stands for itself has neither a double quote nor a backslash. -/
theorem IsQuoted.isVerbatim (h : IsQuoted '"' raw) (hvalue : unescape raw = .ok raw) :
    raw.IsVerbatim := by
  have hslash : CodePoint.ofChar '\\' ∉ raw := fun hmem =>
    absurd (h.length_lt hmem hvalue) (Nat.lt_irrefl _)
  refine ⟨fun hmem => ?_, hslash⟩
  obtain ⟨front, rest, rfl⟩ := List.append_of_mem hmem
  obtain ⟨before, rfl, -⟩ := h.exists_slash (by decide)
  exact hslash (by simp)

/-- The raw text of a literal that the end of the text cuts does not go on behind its own value and
a double quote. -/
theorem IsCutQuoted.ne_unescape_append (h : IsCutQuoted '"' raw) (hvalue : unescape raw = .ok value)
    (rest : Text) : raw ≠ value ++ CodePoint.ofChar '"' :: rest := by
  intro hraw
  cases h with
  | whole h => exact h.ne_unescape_append hvalue rest hraw
  | @slash raw h =>
      -- The last backslash stands for itself, so the value ends with one, and the quote is escaped.
      rw [unescape_slash h] at hvalue
      obtain ⟨front, hfront, hmap⟩ := bind_eq_ok_iff.mp hvalue
      obtain rfl := Except.ok.inj hmap
      rcases List.eq_nil_or_concat' rest with rfl | ⟨rest, last, rfl⟩
      · have hlast := congrArg List.getLast? hraw
        simp at hlast
        exact absurd hlast (by decide)
      · have hinit : raw = front ++ [CodePoint.ofChar '\\'] ++ CodePoint.ofChar '"' :: rest := by
          rw [← List.cons_append, ← List.append_assoc] at hraw
          exact (List.append_inj' hraw rfl).1
        rw [hinit] at h hfront
        obtain ⟨before, hends, hbefore⟩ := h.exists_slash (by decide)
        obtain rfl : front = before := (List.append_inj' hends rfl).1
        rw [List.append_assoc] at hfront
        obtain ⟨shorter, tail, hshorter, hsplit⟩ := hbefore.unescape_quote hfront
        exact hbefore.ne_unescape_append hshorter tail hsplit

/-- A literal whose raw text stands for nothing fails the scan. -/
theorem lexemes_quoted_error (hquote : quote = '"' ∨ quote = '\'') (hraw : IsQuoted quote raw)
    {error : EscapeError} (hvalue : unescape raw = .error error) (rest : Text) :
    lexemes (quote :: (raw ++ quote :: rest)) = .error error := by
  have hslash : ('\\' : CodePoint) ≠ quote := by rcases hquote with rfl | rfl <;> decide
  refine lexemes_of_error (step_eq_error_iff.mpr ⟨hquote, ?_⟩)
  rw [stringBody_append hslash hraw]
  simpa [stringBody] using hvalue

/-- A text between double quotes that is scanned as itself has neither a double quote nor a
backslash. -/
theorem isVerbatim_of_lexemes {others : List Lexeme}
    (h : lexemes (CodePoint.ofChar '"' :: (value ++ CodePoint.ofChar '"' :: rest)) =
      .ok (.string value :: others)) : value.IsVerbatim := by
  rcases stringBody_cases (.inl rfl) [] (value ++ CodePoint.ofChar '"' :: rest) with
    ⟨raw, tail, hsplit, hraw, -⟩ | ⟨hraw, -⟩
  · rw [hsplit] at h
    cases hvalue : unescape raw with
    | error error =>
        rw [lexemes_quoted_error (.inl rfl) hraw hvalue] at h
        cases h
    | ok found =>
        rw [lexemes_quoted (.inl rfl) hraw hvalue] at h
        obtain ⟨_, -, hfound⟩ := map_eq_ok_iff.mp h
        obtain rfl : found = value := Lexeme.string.inj (List.cons.inj hfound).1
        rcases Escape.goesOn_or_eq hvalue hsplit with ⟨middle, hmiddle⟩ | ⟨rfl, -⟩
        · exact absurd hmiddle (hraw.ne_unescape_append hvalue middle)
        · exact hraw.isVerbatim hvalue
  · rw [lexemes_of_isCutQuoted (.inl rfl) hraw] at h
    obtain ⟨found, hvalue, hfound⟩ := map_eq_ok_iff.mp h
    obtain rfl : found = value := Lexeme.string.inj (List.cons.inj hfound).1
    exact absurd rfl (hraw.ne_unescape_append hvalue rest)

end Lexer

end ProtoSchema
