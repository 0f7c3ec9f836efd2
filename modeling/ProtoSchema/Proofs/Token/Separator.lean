import ProtoSchema.Proofs.Token.Layout
import ProtoSchema.Proofs.Token.Segment

/-!
# Separators

What may stand between two lexemes without changing them: blanks, line feeds and complete comments,
in any mixture. `Relaid` says that a text spells a list of lexemes with separators of any kind
between them. The main statement is `lexemes_relaid`: a scan finds the same lexemes whatever the
separators are, if each lexeme is one that a scan can find at all (`IsSpelled`).
-/

namespace ProtoSchema

namespace Lexer

/-- A blank, a tab, a carriage return or a line feed. -/
def isBlank (c : CodePoint) : Bool :=
  c = ' ' || c = '\t' || c = '\r' || c = '\n'

/-- One or more blanks and complete comments, in any order. -/
inductive IsSeparator : Text → Prop
  | blank {c : CodePoint} (hc : isBlank c) : IsSeparator [c]
  | comment {comment : Text} (hcomment : IsComment comment) : IsSeparator comment
  | append {first second : Text} (hfirst : IsSeparator first) (hsecond : IsSeparator second) :
      IsSeparator (first ++ second)

/-! ### Separators are scanned as nothing -/

/-- A step that finds nothing leaves the lexemes as they are. -/
theorem lexemes_of_gapStep {position after : Position} {c : CodePoint} {rest : Text} {length : Nat}
    (h : step position c rest = .ok (gapStep length after)) :
    lexemes (c :: rest) = lexemes (rest.drop (length - 1)) := by
  rw [lexemes_cons h]
  show (lexemes (rest.drop (length - 1))).map ([] ++ ·) = _
  cases lexemes (rest.drop (length - 1)) <;> rfl

/-- A block comment ends at the first end mark after it. -/
theorem blockComment_append {body : Text} (hbody : ¬ commentEnd <:+: body) (rest : Text)
    (taken : Nat) (position : Position) :
    (blockComment taken position (body ++ (commentEnd ++ rest))).1 = taken + body.length + 2 := by
  induction body generalizing taken position with
  | nil => rfl
  | cons c body ih =>
      have hopen : ¬ (c = '*' && nextIs (· = '/') (body ++ (commentEnd ++ rest))) = true := by
        intro hend
        obtain ⟨hstar, hnext⟩ := Bool.and_eq_true_iff.mp hend
        obtain rfl := of_decide_eq_true hstar
        cases body with
        | nil => exact absurd hnext (show ¬ (decide ('*' = ('/' : CodePoint)) = true) by decide)
        | cons d body =>
            obtain rfl := of_decide_eq_true hnext
            exact hbody ⟨[], body, rfl⟩
      have hlater : ¬ commentEnd <:+: body := fun h => hbody (List.infix_cons h)
      rw [List.cons_append, blockComment, if_neg hopen, ih hlater, List.length_cons]
      omega

/-- A complete comment is scanned as nothing. -/
theorem lexemes_comment {comment : Text} (h : IsComment comment) (rest : Text) :
    lexemes (comment ++ rest) = lexemes rest := by
  cases h with
  | @line body hbody =>
      have htake : (CodePoint.ofChar '/' :: (body ++ CodePoint.ofChar '\n' :: rest)).takeWhile
          (fun c : CodePoint => c ≠ '\n') = CodePoint.ofChar '/' :: body := by
        rw [List.takeWhile_cons_of_pos (by decide), List.takeWhile_append_of_pos]
        · rw [List.takeWhile_cons_of_neg (by simp), List.append_nil]
        · rintro c hmem
          exact decide_eq_true fun hfeed => hbody (hfeed ▸ hmem)
      have hstep : step Position.start '/' ('/' :: (body ++ CodePoint.ofChar '\n' :: rest)) =
          .ok (gapStep (1 + (CodePoint.ofChar '/' :: body).length) Position.start) := by
        rw [← htake]
        rfl
      have htext : Text.ofString "//" ++ body ++ Text.ofString "\n" ++ rest =
          CodePoint.ofChar '/' :: CodePoint.ofChar '/' ::
            (body ++ CodePoint.ofChar '\n' :: rest) := by
        simp [Text.ofString]
      rw [htext, lexemes_of_gapStep hstep]
      have hdrop : (CodePoint.ofChar '/' :: (body ++ CodePoint.ofChar '\n' :: rest)).drop
          (1 + (CodePoint.ofChar '/' :: body).length - 1) = CodePoint.ofChar '\n' :: rest := by
        rw [Nat.add_sub_cancel_left, ← List.cons_append, List.drop_left]
      rw [hdrop]
      exact lexemes_blank (.inr rfl) rest
  | @block body hbody =>
      have hlength := blockComment_append hbody rest 2 (Position.start.right 2)
      have htext : Text.ofString "/*" ++ body ++ commentEnd ++ rest = CodePoint.ofChar '/' ::
          CodePoint.ofChar '*' :: (body ++ (commentEnd ++ rest)) := by
        simp [Text.ofString]
      have hstep : step Position.start '/' ('*' :: (body ++ (commentEnd ++ rest))) =
          .ok (gapStep (2 + body.length + 2)
            (blockComment 2 (Position.start.right 2) (body ++ (commentEnd ++ rest))).2) := by
        rw [← hlength]
        rfl
      rw [htext, lexemes_of_gapStep hstep]
      have hdrop : (CodePoint.ofChar '*' :: (body ++ (commentEnd ++ rest))).drop
          (2 + body.length + 2 - 1) = rest := by
        rw [← List.append_assoc, ← List.cons_append]
        refine List.drop_left' ?_
        simp [commentEnd, Text.ofString]
        omega
      rw [hdrop]

/-- A separator is scanned as nothing. -/
theorem lexemes_separator {separator : Text} (h : IsSeparator separator) (rest : Text) :
    lexemes (separator ++ rest) = lexemes rest := by
  induction h generalizing rest with
  | @blank c hc =>
      have hstep : step Position.start c rest = .ok (gapStep 1 (Position.start.after c)) :=
        if_pos hc
      exact lexemes_of_gapStep hstep
  | comment hcomment => exact lexemes_comment hcomment rest
  | append _ _ hfirst hsecond => rw [List.append_assoc, hfirst, hsecond]

/-- No lexeme goes on with a separator. -/
theorem nextIs_separator {separator : Text} (h : IsSeparator separator) (rest : Text) :
    nextIs isOrdinary (separator ++ rest) = false := by
  induction h generalizing rest with
  | @blank c hc =>
      simp only [isBlank, Bool.or_eq_true, decide_eq_true_eq] at hc
      rcases hc with ((rfl | rfl) | rfl) | rfl <;> rfl
  | comment hcomment =>
      cases hcomment with
      | line => exact (by decide : isOrdinary '/' = false)
      | block => exact (by decide : isOrdinary '/' = false)
  | append _ _ hfirst _ => rw [List.append_assoc, hfirst]

/-! ### Lexemes in front of separators -/

/-- What does not go on with an ordinary code point does not go on with a word. -/
theorem endsWord_of_nextIs {rest : Text} (h : nextIs isOrdinary rest = false) : endsWord rest := by
  cases rest with
  | nil => rfl
  | cons c rest =>
      have hc : isOrdinary c = false := h
      rw [endsWord, Bool.not_eq_true', Bool.eq_false_iff]
      intro hnext
      rcases Bool.or_eq_true_iff.mp hnext with hcontinues | hdot
      · exact absurd (isOrdinary_of_continues hcontinues) (Bool.eq_false_iff.mp hc)
      · obtain rfl := of_decide_eq_true hdot
        exact absurd hc (by decide)

/-- A code point that is not ordinary starts no word and no number. -/
theorem wordStep_of_not_isOrdinary {c : CodePoint} (h : isOrdinary c = false) (position : Position)
    (rest : Text) : wordStep position c rest = gapStep 1 (position.right 1) := by
  have hno {property : Bool} (hproperty : property = true → isOrdinary c = true) :
      property = false :=
    Bool.eq_false_iff.mpr fun hfound => Bool.eq_false_iff.mp h (hproperty hfound)
  have hsign : isSign c = false := hno fun hfound => by simp [isOrdinary, hfound]
  have hnumber : startsNumber c rest = false := hno isOrdinary_of_startsNumber
  have hword : startsWord c rest = false := hno isOrdinary_of_startsWord
  simp [wordStep, hsign, hnumber, hword]

/-- A code point that a number before it may go on with. -/
def continuesNumber (c : CodePoint) : Bool :=
  c.isAlphanumeric || c = '.' || isSign c

/-- What continues a number is ordinary. -/
theorem isOrdinary_of_continuesNumber {c : CodePoint} (h : continuesNumber c) : isOrdinary c := by
  rw [continuesNumber, Bool.or_eq_true, Bool.or_eq_true] at h
  rcases h with (h | h) | h <;> simp [isOrdinary, h]

/-- What does not go on with an ordinary code point does not go on with a number. -/
theorem nextIs_continuesNumber {rest : Text} (h : nextIs isOrdinary rest = false) :
    nextIs continuesNumber rest = false := by
  cases rest with
  | nil => rfl
  | cons c rest =>
      rw [Bool.eq_false_iff]
      exact fun hc => Bool.eq_false_iff.mp h (isOrdinary_of_continuesNumber hc)

/-- A text that does not go on with a number adds nothing to one. -/
theorem numberTail_of_nextIs {rest : Text} (h : nextIs continuesNumber rest = false)
    (hexadecimal : Bool) (previous : CodePoint) : numberTail hexadecimal previous rest = [] := by
  cases rest with
  | nil => rfl
  | cons c rest =>
      have hc : continuesNumber c = false := h
      rw [continuesNumber, Bool.or_eq_false_iff, Bool.or_eq_false_iff] at hc
      obtain ⟨⟨hplain, hdot⟩, hsign⟩ := hc
      rw [numberTail, hplain, hdot, hsign]
      rfl

/-- A number that ends with its text still ends there in front of a text that does not go on with
it. -/
theorem numberTail_append_of_nextIs {hexadecimal : Bool} {previous : CodePoint} {tail rest : Text}
    (htail : numberTail hexadecimal previous tail = tail)
    (hrest : nextIs continuesNumber rest = false) :
    numberTail hexadecimal previous (tail ++ rest) = tail := by
  induction tail generalizing previous with
  | nil => exact numberTail_of_nextIs hrest hexadecimal previous
  | cons c tail ih =>
      rw [numberTail] at htail
      split at htail
      next hcontinues =>
        rw [List.cons_append, numberTail, if_pos hcontinues, ih (List.cons.inj htail).2]
      next => exact absurd htail (List.cons_ne_nil c tail).symm

/-- A code point that no number goes on with is none of those that do. -/
theorem ne_of_continuesNumber {c other : CodePoint} (h : continuesNumber c = false)
    (hother : continuesNumber other) : c ≠ other := by
  rintro rfl
  rw [hother] at h
  exact Bool.noConfusion h

/-- Whether a text starts with `0x` does not depend on what follows it. -/
theorem startsHexadecimal_append {c : CodePoint} {text rest : Text}
    (hrest : nextIs continuesNumber rest = false) :
    startsHexadecimal (c :: (text ++ rest)) = startsHexadecimal (c :: text) := by
  cases text with
  | cons d text => rfl
  | nil =>
      cases rest with
      | nil => rfl
      | cons d rest =>
          have hd : continuesNumber d = false := hrest
          have hlower : d ≠ 'x' := ne_of_continuesNumber hd (by decide)
          have hupper : d ≠ 'X' := ne_of_continuesNumber hd (by decide)
          simp [startsHexadecimal, hlower, hupper]

/-- Whether a number is hexadecimal does not depend on what follows it. -/
theorem isHexadecimal_append {c : CodePoint} {tail rest : Text}
    (hrest : nextIs continuesNumber rest = false) :
    isHexadecimal c (tail ++ rest) = isHexadecimal c tail := by
  rw [isHexadecimal, isHexadecimal, startsHexadecimal_append hrest]
  cases tail with
  | cons d tail => rw [List.cons_append, startsHexadecimal_append hrest]
  | nil =>
      have hno : startsHexadecimal rest = false := by
        cases rest with
        | nil => rfl
        | cons d rest =>
            have hzero : d ≠ '0' := ne_of_continuesNumber hrest (by decide)
            cases rest <;> simp [startsHexadecimal, hzero]
      rw [List.nil_append, hno]
      rfl

/-- The lexemes of a text that starts with a number are the number and those of what it leaves. -/
theorem lexemes_of_startsNumber {c : CodePoint} {rest : Text} (h : startsNumber c rest) :
    lexemes (c :: rest) =
      (lexemes (rest.drop (numberTail (isHexadecimal c rest) c rest).length)).map
        (.number (c :: numberTail (isHexadecimal c rest) c rest) :: ·) := by
  rw [lexemes_cons (step_of_isOrdinary (isOrdinary_of_startsNumber h) Position.start rest),
    wordStep_of_startsNumber h (startsFloatWord_of_startsNumber h)]
  rfl

/-- A number is scanned as itself in front of a text that does not go on with it. -/
theorem lexemes_number {number rest : Text} (hnumber : IsNumber number)
    (hrest : nextIs continuesNumber rest = false) :
    lexemes (number ++ rest) = (lexemes rest).map (.number number :: ·) := by
  cases number with
  | nil => exact hnumber.elim
  | cons c tail =>
      obtain ⟨hstarts, htail⟩ := hnumber
      have hmore : startsNumber c (tail ++ rest) := by
        rw [startsNumber, Bool.or_eq_true_iff, Bool.and_eq_true_iff] at hstarts ⊢
        exact hstarts.imp_right (And.imp_right (nextIs_of_start (List.prefix_append tail rest)))
      rw [List.cons_append, lexemes_of_startsNumber hmore, isHexadecimal_append hrest,
        numberTail_append_of_nextIs htail hrest, List.drop_left]

end Lexer

/-! ### Texts with the same lexemes -/

namespace Lexeme

/-- The lexeme is one that a scan can find: its name is a word, its number is one. -/
def IsSpelled : Lexeme → Prop
  | identifier name => Lexer.IsWord name ∧ ofWord name = .identifier name
  | number spelling => Lexer.IsNumber spelling
  | _ => True

/-- A text that spells the lexemes in order with a separator between each two. -/
inductive Relaid : List Lexeme → Text → Prop
  | nil : Relaid [] []
  | last (lexeme : Lexeme) : Relaid [lexeme] lexeme.written
  | cons {lexeme next : Lexeme} {rest : List Lexeme} {separator text : Text}
      (hseparator : Lexer.IsSeparator separator) (hrest : Relaid (next :: rest) text) :
      Relaid (lexeme :: next :: rest) (lexeme.written ++ (separator ++ text))

end Lexeme

namespace Lexer

open Lexeme (Relaid)

/-- Every lexeme that a scan finds is spelled. -/
theorem isSpelled_of_mem_lexemes {text : Text} {found : List Lexeme} {lexeme : Lexeme}
    (h : lexemes text = .ok found) (hmem : lexeme ∈ found) : lexeme.IsSpelled := by
  cases lexeme with
  | identifier name => exact isWord_of_mem_lexemes h hmem rfl
  | number spelling => exact isNumber_of_mem_lexemes h hmem
  | keyword | punctuation | string => trivial

/-- A spelled lexeme is scanned as itself in front of a text that does not go on with it. -/
theorem lexemes_spelled {lexeme : Lexeme} (h : lexeme.IsSpelled) {rest : Text}
    (hrest : nextIs isOrdinary rest = false) :
    lexemes (lexeme.written ++ rest) = (lexemes rest).map (lexeme :: ·) := by
  cases lexeme with
  | keyword word => exact lexemes_keyword word (endsWord_of_nextIs hrest)
  | punctuation mark => exact lexemes_mark mark rest
  | identifier name =>
      obtain ⟨hword, hname⟩ := h
      show lexemes (name ++ rest) = _
      rw [lexemes_word hword (endsWord_of_nextIs hrest), hname]
  | number spelling => exact lexemes_number h (nextIs_continuesNumber hrest)
  | string value => exact lexemes_literal value rest

/-- A scan finds spelled lexemes again, whatever separates them. -/
theorem lexemes_relaid {written : List Lexeme} {text : Text} (h : Relaid written text)
    (hspelled : ∀ lexeme ∈ written, lexeme.IsSpelled) : lexemes text = .ok written := by
  induction h with
  | nil => rfl
  | last lexeme =>
      have hlast : lexemes (lexeme.written ++ []) = (lexemes []).map (lexeme :: ·) :=
        lexemes_spelled (hspelled lexeme List.mem_cons_self) rfl
      rwa [List.append_nil, lexemes_nil] at hlast
  | @cons lexeme next rest separator text hseparator hrest ih =>
      have hlater := ih fun other hmem => hspelled other (List.mem_cons_of_mem lexeme hmem)
      rw [lexemes_spelled (hspelled lexeme List.mem_cons_self) (nextIs_separator hseparator text),
        lexemes_separator hseparator, hlater]
      rfl

end Lexer

end ProtoSchema
