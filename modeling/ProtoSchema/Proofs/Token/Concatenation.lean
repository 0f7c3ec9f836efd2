import ProtoSchema.Proofs.Token.Separator

/-!
# Scans of texts put together

Where a text may be cut so that its parts are scanned one by one. A scan of two texts put together
finds what the first text has and then what the second one has, if the first one does not end inside
a comment or a string (`EndsInside`) and no word or number at its end goes on (`EndsApart`). The
main statement is `lexemes_append`. It holds because no step in the first text looks past its end
(`step_append`).
-/

namespace ProtoSchema.Lexer

/-- The text ends inside a comment or a string literal: a scan of it comes to a comment or a literal
that the end of the text cuts. -/
inductive EndsInside : Text → Prop
  | comment {comment : Text} (hcomment : IsCutComment comment) : EndsInside comment
  | string {quote : CodePoint} {raw : Text} (hquote : quote = '"' ∨ quote = '\'')
      (hraw : IsCutQuoted quote raw) : EndsInside (quote :: raw)
  | later {c : CodePoint} {rest : Text} {found : Step}
      (hstep : step Position.start c rest = .ok found)
      (hrest : EndsInside (rest.drop (found.length - 1))) : EndsInside (c :: rest)

/-- No word and no number goes on behind the text: it is empty, or it ends with a code point that
belongs to none, such as a blank or a mark. -/
def EndsApart (text : Text) : Prop :=
  ∀ c, text.getLast? = some c → isOrdinary c = false

/-- The text goes on with neither a slash nor a star, which could make a comment of a slash. -/
def GoesOnPlain (text : Text) : Prop :=
  nextIs (fun c => c = '/' || c = '*') text = false

/-- A text without slashes and quotes ends inside nothing. -/
theorem not_endsInside_of_plain {text : Text}
    (h : ∀ c ∈ text, c ≠ '/' ∧ c ≠ '"' ∧ c ≠ '\'') : ¬ EndsInside text := by
  intro hinside
  induction hinside with
  | comment hcomment =>
      cases hcomment with
      | line => exact (h _ List.mem_cons_self).1 rfl
      | block => exact (h _ List.mem_cons_self).1 rfl
  | string hquote =>
      obtain ⟨-, hdouble, hsingle⟩ := h _ List.mem_cons_self
      exact hquote.elim hdouble hsingle
  | later _ _ ih => exact ih fun c hmem => h c (List.mem_cons_of_mem _ (List.mem_of_mem_drop hmem))

/-! ### Words and numbers in front of a code point that ends them -/

section

variable {body rest : Text} {last : CodePoint}

/-- A text goes on as it did before something was put behind its last code point. -/
theorem nextIs_concat (property : CodePoint → Bool) :
    nextIs property (body ++ last :: rest) = nextIs property (body ++ [last]) := by
  cases body <;> rfl

/-- A number does not go on past a code point that ends it. -/
theorem numberTail_concat (hlast : isOrdinary last = false) (hexadecimal : Bool)
    (previous : CodePoint) :
    numberTail hexadecimal previous (body ++ last :: rest) =
      numberTail hexadecimal previous (body ++ [last]) := by
  induction body generalizing previous with
  | nil =>
      have hnext (rest : Text) : nextIs continuesNumber (last :: rest) = false :=
        nextIs_continuesNumber hlast
      rw [List.nil_append, List.nil_append, numberTail_of_nextIs (hnext rest),
        numberTail_of_nextIs (hnext [])]
  | cons c body ih => rw [List.cons_append, List.cons_append, numberTail, numberTail, ih]

/-- A word does not go on past a code point that ends it. -/
theorem identifierTail_concat (hlast : isOrdinary last = false) :
    identifierTail (body ++ last :: rest) = identifierTail (body ++ [last]) := by
  induction body with
  | nil =>
      have hends (rest : Text) : endsWord (last :: rest) := endsWord_of_nextIs hlast
      rw [List.nil_append, List.nil_append, identifierTail_of_endsWord (hends rest),
        identifierTail_of_endsWord (hends [])]
  | cons c body ih =>
      rw [List.cons_append, List.cons_append, identifierTail, identifierTail, ih, nextIs_concat]

/-- Whether a number is hexadecimal is seen before the code point that ends it. -/
theorem isHexadecimal_concat (hlast : isOrdinary last = false) (c : CodePoint) :
    isHexadecimal c (body ++ last :: rest) = isHexadecimal c (body ++ [last]) := by
  have hzero : last ≠ '0' := (ne_of_isOrdinary (by decide) hlast).symm
  rw [isHexadecimal, isHexadecimal]
  cases body with
  | nil => cases rest <;> simp [startsHexadecimal, hzero]
  | cons d body => cases body <;> rfl

/-- The word for a special value is seen before the code point that ends it. -/
theorem startsFloatWord_concat (body rest : Text) (hlast : isOrdinary last = false) :
    startsFloatWord (body ++ last :: rest) = startsFloatWord (body ++ [last]) ∧
      (startsFloatWord (body ++ [last]) → 3 ≤ body.length) := by
  have hne {c : CodePoint} (hc : isOrdinary c) : (c == last) = false :=
    beq_eq_false_iff_ne.mpr (ne_of_isOrdinary hc hlast)
  have hi : (CodePoint.ofChar 'i' == last) = false := hne (by decide)
  have hn : (CodePoint.ofChar 'n' == last) = false := hne (by decide)
  have ha : (CodePoint.ofChar 'a' == last) = false := hne (by decide)
  have hf : (CodePoint.ofChar 'f' == last) = false := hne (by decide)
  match body with
  | [] => simp [startsFloatWord, Text.startsWith, Text.ofString, List.isPrefixOf, hi, hn]
  | [b] => simp [startsFloatWord, Text.startsWith, Text.ofString, List.isPrefixOf, hn, ha]
  | [b, c] => simp [startsFloatWord, Text.startsWith, Text.ofString, List.isPrefixOf, hn, hf]
  | b :: c :: d :: body =>
      have hnext : nextIs continuesIdentifier (body ++ last :: rest) =
          nextIs continuesIdentifier (body ++ [last]) := nextIs_concat _
      refine ⟨?_, fun _ => by simp⟩
      simp [startsFloatWord, Text.startsWith, Text.ofString, List.isPrefixOf, hnext]

/-- A step on ordinary code points does not look past a code point that ends what it finds. -/
theorem wordStep_concat (hlast : isOrdinary last = false) (position : Position) (c : CodePoint) :
    wordStep position c (body ++ last :: rest) = wordStep position c (body ++ [last]) := by
  obtain ⟨hfloat, hlength⟩ := startsFloatWord_concat body rest hlast
  unfold wordStep
  rw [hfloat]
  split
  next hspecial =>
    have hthree := hlength (Bool.and_eq_true_iff.mp hspecial).2
    rw [List.take_append_of_le_length hthree, List.take_append_of_le_length hthree]
  next =>
    rw [startsNumber, startsNumber, startsWord, startsWord, nextIs_concat CodePoint.isDigit,
      nextIs_concat startsIdentifier, isHexadecimal_concat hlast, numberTail_concat hlast,
      identifierTail_concat hlast]

end

/-! ### Comments and strings that are complete -/

/-- What is taken up to a code point of the text does not depend on what follows the text. -/
theorem takeWhile_append_of_mem {property : CodePoint → Bool} {c : CodePoint} {text : Text}
    (hmem : c ∈ text) (hc : ¬ property c) (rest : Text) :
    (text ++ rest).takeWhile property = text.takeWhile property := by
  rw [List.takeWhile_append, if_neg]
  intro hlength
  have hall := (List.takeWhile_prefix property).eq_of_length hlength
  exact hc (List.takeWhile_eq_self_iff.mp hall c hmem)

/-- A block comment with its end mark does not look past it. -/
theorem blockComment_of_infix {text : Text} (h : commentEnd <:+: text) (rest : Text) (taken : Nat)
    (position : Position) :
    blockComment taken position (text ++ rest) = blockComment taken position text := by
  induction text generalizing taken position with
  | nil => exact absurd h (by decide)
  | cons c text ih =>
      by_cases hend : c = '*' && nextIs (· = '/') text
      · obtain ⟨hstar, hnext⟩ := Bool.and_eq_true_iff.mp hend
        have hmore := nextIs_of_start (List.prefix_append text rest) hnext
        rw [List.cons_append, blockComment, blockComment, hstar, hnext, hmore]
        rfl
      · -- The end mark does not start here, so it stands in what is left.
        have hlater : commentEnd <:+: text := by
          rcases List.infix_cons_iff.mp h with ⟨tail, htail⟩ | hlater
          · obtain ⟨rfl, rfl⟩ := List.cons.inj htail
            exact absurd rfl hend
          · exact hlater
        have hne : text ≠ [] := by
          rintro rfl
          exact absurd hlater (by decide)
        rw [List.cons_append, blockComment, blockComment, nextIs_append hne, if_neg hend,
          if_neg hend, ih hlater]

/-- A literal with its closing quote does not look past it. -/
theorem stringBody_of_isQuoted {quote : CodePoint} (hquote : quote = '"' ∨ quote = '\'')
    {raw : Text} (hraw : IsQuoted quote raw) (rest : Text) (position : Position) :
    stringBody quote false position (raw ++ quote :: rest) =
      stringBody quote false position (raw ++ [quote]) := by
  have hslash : ('\\' : CodePoint) ≠ quote := by rcases hquote with rfl | rfl <;> decide
  induction hraw generalizing position with
  | nil => simp [stringBody]
  | plain hplain hescape _ ih =>
      rw [List.cons_append, List.cons_append, stringBody_plain hplain hescape,
        stringBody_plain hplain hescape, ih]
  | escape _ ih =>
      rw [List.cons_append, List.cons_append, List.cons_append, List.cons_append,
        stringBody_escape hslash, stringBody_escape hslash, ih]

/-! ### Steps and scans -/

/-- What does not go on with a code point does not do so when such a text is put behind it. -/
theorem nextIs_append_of_nextIs {property : CodePoint → Bool} {rest : Text}
    (h : nextIs property rest = false) (text : Text) :
    nextIs property (text ++ rest) = nextIs property text := by
  cases text with
  | nil => exact h
  | cons c text => rfl

/-- No step in a text that ends outside of comments and strings looks past its end. -/
theorem step_append {c : CodePoint} {text rest : Text} (happart : EndsApart (c :: text))
    (hinside : ¬ EndsInside (c :: text)) (hrest : GoesOnPlain rest) (position : Position) :
    step position c (text ++ rest) = step position c text := by
  have hplain {d : CodePoint} (hd : d = '/' ∨ d = '*') : nextIs (· = d) rest = false := by
    cases rest with
    | nil => rfl
    | cons first rest =>
        have hfirst : (first = '/' || first = '*') = false := hrest
        rcases hd with rfl | rfl
        · exact (Bool.or_eq_false_iff.mp hfirst).1
        · exact (Bool.or_eq_false_iff.mp hfirst).2
  unfold step
  rw [nextIs_append_of_nextIs (hplain (.inl rfl)), nextIs_append_of_nextIs (hplain (.inr rfl))]
  split
  next => rfl
  next =>
    split
    next hline =>
      -- A line comment without its line feed would be cut.
      obtain ⟨hslash, hnext⟩ := Bool.and_eq_true_iff.mp hline
      obtain rfl := of_decide_eq_true hslash
      obtain ⟨body, rfl⟩ := exists_of_nextIs hnext
      have hfeed : CodePoint.ofChar '\n' ∈ body := by
        by_contra hbody
        exact hinside (.comment (.line hbody))
      rw [takeWhile_append_of_mem (List.mem_cons_of_mem _ hfeed) (by simp)]
    next =>
      split
      next hblock =>
        obtain ⟨hslash, hnext⟩ := Bool.and_eq_true_iff.mp hblock
        obtain rfl := of_decide_eq_true hslash
        obtain ⟨body, rfl⟩ := exists_of_nextIs hnext
        have hend : commentEnd <:+: body := by
          by_contra hbody
          exact hinside (.comment (.block hbody))
        rw [List.cons_append, List.tail_cons, List.tail_cons, blockComment_of_infix hend]
      next =>
        split
        next => rfl
        next =>
          split
          next hquote =>
            have hquote : c = '"' ∨ c = '\'' := by simpa using hquote
            rcases stringBody_cases hquote [] text with ⟨raw, tail, rfl, hraw, -⟩ | ⟨hcut, -⟩
            · rw [stringStep, stringStep, List.append_assoc, List.cons_append,
                stringBody_of_isQuoted hquote hraw (tail ++ rest),
                stringBody_of_isQuoted hquote hraw tail]
            · exact absurd (.string hquote hcut) hinside
          next =>
            congr 1
            rcases List.eq_nil_or_concat' text with rfl | ⟨body, last, rfl⟩
            · have hc : isOrdinary c = false := happart c rfl
              rw [wordStep_of_not_isOrdinary hc, wordStep_of_not_isOrdinary hc]
            · have hlast : isOrdinary last = false :=
                happart last (List.getLast?_concat (l := c :: body))
              rw [List.append_assoc]
              exact wordStep_concat hlast position c

/-- A step takes no more than there is. -/
theorem length_le_of_step {c : CodePoint} {rest : Text} {found : Step}
    (h : step Position.start c rest = .ok found) : found.length ≤ (c :: rest).length := by
  have hcuts : Cuts [] (c :: rest) found := step_cuts h
  generalize c :: rest = text at hcuts
  cases hcuts with
  | filler => simp [gapStep]
  | comment => simp [gapStep]
  | lineComment => simp [gapStep, Text.ofString]; omega
  | cut => exact Nat.le_refl _
  | lexeme => simp

/-- What a step leaves of a text ends as the text does. -/
theorem EndsApart.drop {text : Text} (h : EndsApart text) (count : Nat) :
    EndsApart (text.drop count) := by
  intro c hc
  rw [List.getLast?_drop] at hc
  split at hc
  next => cases hc
  next => exact h c hc

/-- A scan of two texts put together finds the lexemes of the first and then those of the second,
and fails where the scan of one of them does. -/
theorem lexemes_append {before rest : Text} (happart : EndsApart before)
    (hinside : ¬ EndsInside before) (hrest : GoesOnPlain rest) :
    lexemes (before ++ rest) = (lexemes before).bind fun front =>
      (lexemes rest).map (front ++ ·) := by
  induction hlength : before.length using Nat.strongRecOn generalizing before with
  | ind length ih =>
      cases before with
      | nil =>
          rw [lexemes_nil]
          show lexemes rest = (lexemes rest).map ([] ++ ·)
          cases lexemes rest <;> rfl
      | cons c before =>
          have hsame := step_append happart hinside hrest Position.start
          cases hstep : step Position.start c before with
          | error cause =>
              rw [hstep] at hsame
              rw [List.cons_append, lexemes_of_error hsame, lexemes_of_error hstep]
              rfl
          | ok found =>
              rw [hstep] at hsame
              have htaken : found.length ≤ (c :: before).length := length_le_of_step hstep
              rw [List.length_cons] at htaken hlength
              have hleft : EndsApart (before.drop (found.length - 1)) :=
                happart.drop (found.length - 1 + 1)
              have hlater := ih (before.drop (found.length - 1)).length
                (by rw [List.length_drop]; omega) hleft (fun h => hinside (.later hstep h)) rfl
              rw [List.cons_append, lexemes_cons hsame, lexemes_cons hstep,
                List.drop_append_of_le_length (by omega), hlater]
              cases lexemes (before.drop (found.length - 1)) with
              | error cause => rfl
              | ok front =>
                  cases lexemes rest with
                  | error cause => rfl
                  | ok following =>
                      exact congrArg Except.ok
                        (List.append_assoc found.lexeme.toList front following).symm

end ProtoSchema.Lexer
