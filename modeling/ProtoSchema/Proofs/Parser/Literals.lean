import ProtoSchema.Proofs.Parser.Option
import ProtoSchema.Proofs.Token.Separator

/-!
# Literals in an option

The value of an option may be written as several literals, with blanks and comments between them or
nothing at all (`Lexer.Literals`). Main statement: `literals_decode`. Each literal is scanned as the
text that it encodes, and an option statement with a row of them sets the texts put together.
-/

namespace ProtoSchema

namespace CodePoint

/-- The blanks one by one. -/
def blanks : List CodePoint :=
  ['\t', '\n', '\x0b', '\x0c', '\x0d', '\x1c', '\x1d', '\x1e', '\x1f', ' ', '\x85', '\xa0',
    '\u1680', '\u2000', '\u2001', '\u2002', '\u2003', '\u2004', '\u2005', '\u2006', '\u2007',
    '\u2008', '\u2009', '\u200a', '\u2028', '\u2029', '\u202f', '\u205f', '\u3000']

/-- There are no other blanks. -/
theorem mem_blanks {c : CodePoint} (h : c.isBlank) : c ∈ blanks := by
  have hval : c.val ∈ blanks.map CodePoint.val := by
    have hvals : blanks.map CodePoint.val = [9, 10, 11, 12, 13, 28, 29, 30, 31, 32, 0x85, 0xA0,
        0x1680, 0x2000, 0x2001, 0x2002, 0x2003, 0x2004, 0x2005, 0x2006, 0x2007, 0x2008, 0x2009,
        0x200A, 0x2028, 0x2029, 0x202F, 0x205F, 0x3000] := rfl
    simp only [isBlank, between, Bool.or_eq_true, Bool.and_eq_true, decide_eq_true_eq,
      beq_iff_eq] at h
    simp only [hvals, List.mem_cons, List.not_mem_nil, or_false]
    omega
  obtain ⟨other, hother, hsame⟩ := List.mem_map.mp hval
  obtain rfl : other = c := by
    cases other
    cases c
    cases hsame
    rfl
  exact hother

end CodePoint

namespace Lexer

/-- Blanks of any kind and complete comments, or nothing. -/
inductive IsSpacing : Text → Prop
  | nil : IsSpacing []
  | blank {c : CodePoint} {rest : Text} (hc : c.isBlank) (hrest : IsSpacing rest) :
      IsSpacing (c :: rest)
  | comment {comment rest : Text} (hcomment : IsComment comment) (hrest : IsSpacing rest) :
      IsSpacing (comment ++ rest)

/-- A row of at least one literal, with spacing between each two. -/
inductive Literals : List Text → Text → Prop
  | single {value literal : Text} (hliteral : IsLiteral value literal) : Literals [value] literal
  | cons {value literal spacing text : Text} {values : List Text}
      (hliteral : IsLiteral value literal) (hspacing : IsSpacing spacing)
      (hrest : Literals values text) : Literals (value :: values) (literal ++ (spacing ++ text))

/-- A code point that is neither ordinary nor a mark nor a quote, and no slash, is scanned as
nothing. -/
theorem lexemes_of_not_isOrdinary {c : CodePoint} (hordinary : isOrdinary c = false)
    (hmark : Punctuation.ofCodePoint? c = none) (hslash : c ≠ '/')
    (hquote : ¬ (c = '"' ∨ c = '\'')) (rest : Text) : lexemes (c :: rest) = lexemes rest := by
  by_cases hblank : isBlank c
  · exact lexemes_separator (.blank hblank) rest
  · have hstep : step Position.start c rest = .ok (gapStep 1 (Position.start.right 1)) := by
      simp only [isBlank, Bool.or_eq_true, decide_eq_true_eq] at hblank
      simp [step, hblank, hslash, hmark, not_or.mp hquote, wordStep_of_not_isOrdinary hordinary]
    exact lexemes_of_gapStep hstep

/-- No blank is ordinary. -/
theorem isOrdinary_of_isBlank {c : CodePoint} (h : c.isBlank) : isOrdinary c = false := by
  have hall : ∀ blank ∈ CodePoint.blanks, isOrdinary blank = false := by decide +kernel
  exact hall c (CodePoint.mem_blanks h)

/-- A blank is scanned as nothing. -/
theorem lexemes_of_isBlank {c : CodePoint} (h : c.isBlank) (rest : Text) :
    lexemes (c :: rest) = lexemes rest := by
  have hall : ∀ blank ∈ CodePoint.blanks, Punctuation.ofCodePoint? blank = none ∧
      blank ≠ '/' ∧ ¬ (blank = '"' ∨ blank = '\'') := by
    decide +kernel
  obtain ⟨hmark, hslash, hquote⟩ := hall c (CodePoint.mem_blanks h)
  exact lexemes_of_not_isOrdinary (isOrdinary_of_isBlank h) hmark hslash hquote rest

/-- Spacing is scanned as nothing. -/
theorem lexemes_spacing {spacing : Text} (h : IsSpacing spacing) (rest : Text) :
    lexemes (spacing ++ rest) = lexemes rest := by
  induction h with
  | nil => rfl
  | blank hc _ ih => rw [List.cons_append, lexemes_of_isBlank hc, ih]
  | comment hcomment _ ih => rw [List.append_assoc, lexemes_comment hcomment, ih]

/-- A row of literals is scanned as the texts that they encode. -/
theorem lexemes_literals {values : List Text} {text : Text} (h : Literals values text)
    (rest : Text) :
    lexemes (text ++ rest) = (lexemes rest).map (values.map .string ++ ·) := by
  induction h with
  | single hliteral => exact hliteral.lexemes rest
  | cons hliteral hspacing _ ih =>
      rw [List.append_assoc, List.append_assoc, hliteral.lexemes, lexemes_spacing hspacing, ih]
      cases lexemes rest <;> rfl

/-- A row has a literal. -/
theorem Literals.ne_nil {values : List Text} {text : Text} (h : Literals values text) :
    values ≠ [] := by
  cases h with
  | single hliteral => exact List.cons_ne_nil _ _
  | cons hliteral hspacing hrest => exact List.cons_ne_nil _ _

end Lexer

open Lexer (IsLiteral IsSpacing Literals)

/-- The text is the start of an option statement: the keyword, what is read as this name, and the
equals sign, with any spacing. -/
def IsOptionHead (head name : Text) : Prop :=
  ∃ written : List Lexeme,
    (∀ rest, Lexer.lexemes (head ++ rest) = (Lexer.lexemes rest).map
      ((.keyword .option :: (written ++ [.punctuation .equals])) ++ ·)) ∧
    ∀ following, Parse.Reads Parse.optionName written name (.punctuation .equals :: following)

/-- A name between the keyword and the equals sign makes a start of an option statement. -/
theorem isOptionHead_of_isName {name : Text} (h : Lexer.IsName name) :
    IsOptionHead (Text.ofString "option " ++ (name ++ Text.ofString " = ")) name := by
  refine ⟨[.ofWord name], fun rest => ?_, fun following => ?_⟩
  · have htext : Text.ofString "option " ++ (name ++ Text.ofString " = ") ++ rest =
        Keyword.option.spelling ++ (CodePoint.ofChar ' ' :: (name ++ (CodePoint.ofChar ' ' ::
          CodePoint.ofChar Punctuation.equals.char :: CodePoint.ofChar ' ' :: rest))) := by
      rw [show Text.ofString "option " = Keyword.option.spelling ++ [CodePoint.ofChar ' '] from rfl,
        show Text.ofString " = " = [CodePoint.ofChar ' ',
          CodePoint.ofChar Punctuation.equals.char, CodePoint.ofChar ' '] from rfl]
      simp only [List.append_assoc, List.cons_append, List.nil_append]
    rw [htext, Lexer.lexemes_keyword .option rfl, Lexer.lexemes_blank (.inl rfl),
      Lexer.lexemes_word (Lexer.isName_iff.mp h) rfl, Lexer.lexemes_blank (.inl rfl),
      Lexer.lexemes_mark, Lexer.lexemes_blank (.inl rfl)]
    cases Lexer.lexemes rest <;> rfl
  · rw [← Text.lexemes_of_isName h]
    exact Parse.Reads.optionName (.inl h) following

/-- An option statement whose value is a row of strings. -/
def optionLexemes (name : List Lexeme) (values : List Text) : List Lexeme :=
  .keyword .option :: ((name ++ .punctuation .equals :: values.map .string) ++
    [.punctuation .semicolon])

/-- A row of strings is read as the value of an option. -/
theorem Parse.Reads.optionStatement_strings {written : List Lexeme} {name : Text}
    {values : List Text}
    (hname : ∀ following, Reads Parse.optionName written name (.punctuation .equals :: following))
    (hvalues : values ≠ []) (following : List Lexeme) :
    Reads Parse.optionStatement (optionLexemes written values) ⟨name, .text values.flatten⟩
      following := by
  have hvalue := strings hvalues (NoString.mark .semicolon following)
  have hsetting : Reads Parse.optionSetting (written ++ .punctuation .equals :: values.map .string)
      ⟨name, .text values.flatten⟩ (.punctuation .semicolon :: following) :=
    bind (hname _) (cons (mark .equals _) (wrap hvalue (OptionSetting.mk name)))
  refine cons (keyword .option _) (bind hsetting ?_)
  exact cons (mark .semicolon _) (pure _ following)

/-- A literal that encodes a text code point by code point, in any of the ways to do so, is scanned
as one string with this text as its value, in front of every text. In an option statement, a row of
literals is read as the texts that they encode, put together, and the statement ends there. -/
theorem literals_decode :
    (∀ {value literal : Text}, IsLiteral value literal → ∀ rest,
      Lexer.lexemes (literal ++ rest) = (Lexer.lexemes rest).map (.string value :: ·)) ∧
    ∀ {head name text spacing after : Text} {values : List Text} {following : List Lexeme},
      IsOptionHead head name → Literals values text → IsSpacing spacing →
      Lexer.lexemes after = .ok following →
      ∃ scanned rest,
        Lexer.scan (head ++ (text ++ (spacing ++ (Text.ofString ";" ++ after)))) = .ok scanned ∧
        Parse.optionStatement scanned.tokens = .ok (⟨name, .text values.flatten⟩, rest) ∧
        rest.map Token.lexeme = following := by
  refine ⟨fun h rest => h.lexemes rest, ?_⟩
  rintro head name text spacing after values following ⟨written, hhead, hname⟩ htext hspacing hafter
  have hmark : Lexer.lexemes (Text.ofString ";" ++ after) =
      .ok (.punctuation .semicolon :: following) := by
    rw [show Text.ofString ";" ++ after = CodePoint.ofChar Punctuation.semicolon.char :: after from
      rfl, Lexer.lexemes_mark, hafter]
    rfl
  have hlexemes : Lexer.lexemes (head ++ (text ++ (spacing ++ (Text.ofString ";" ++ after)))) =
      .ok (optionLexemes written values ++ following) := by
    rw [hhead, Lexer.lexemes_literals htext, Lexer.lexemes_spacing hspacing, hmark]
    simp [Except.map, optionLexemes]
  obtain ⟨scanned, hscan, htokens⟩ := Lexer.scan_of_lexemes hlexemes
  obtain ⟨rest, hrest, hparse⟩ :=
    Parse.Reads.optionStatement_strings hname htext.ne_nil following scanned.tokens htokens
  exact ⟨scanned, rest, hscan, hparse, hrest⟩

/-- Hexadecimal and octal digits in one literal, an escaped quote in the next one, and a comment
with a quote between them. -/
theorem literals_decode_escapes :
    let first : Text := Text.ofString "\"\\x41\\1023\""
    let text : Text := first ++ (Text.ofString " /* ' */ " ++ Text.ofString "'\\''")
    let head : Text := Text.ofString "option " ++ (Text.ofString "s" ++ Text.ofString " = ")
    let values : List Text := ["AB3", "'"]
    (IsLiteral "AB3" first ∧ IsOptionHead head "s" ∧ Literals values text ∧ IsSpacing [] ∧
      Lexer.lexemes [] = .ok []) ∧
    Lexer.lexemes first = .ok [.string "AB3"] ∧
    ∃ scanned, Lexer.scan (head ++ (text ++ Text.ofString ";")) = .ok scanned ∧
      Parse.optionStatement scanned.tokens = .ok (⟨"s", .text "AB3'"⟩, []) := by
  intro first text head values
  have hfirst : IsLiteral "AB3" first := by
    refine ⟨'"', ["\\x41", "\\102", "3"], .inl rfl, .cons ?_ (.cons ?_ (.cons ?_ .nil)), rfl⟩
    · exact @Escape.Encodes.hexadecimal '"' 'A' 'x' "41" (by decide) (by decide)
    · exact @Escape.Encodes.octal '"' 'B' "102" rfl (by decide)
    · exact .plain (by decide) (by decide)
  have hsecond : IsLiteral "'" (Text.ofString "'\\''") :=
    ⟨'\'', ["\\'"], .inr rfl, .cons (.simple (by decide)) .nil, rfl⟩
  have hhead : IsOptionHead head "s" :=
    isOptionHead_of_isName (Lexer.isName_iff.mpr (.inr ⟨rfl, by decide, rfl⟩))
  have hcomment : Lexer.IsComment "/* ' */" := @Lexer.IsComment.block " ' " (by decide)
  have htext : Literals values text :=
    .cons hfirst (.blank (by decide) (.comment hcomment (.blank (by decide) .nil)))
      (.single hsecond)
  obtain ⟨hliteral, hoption⟩ := literals_decode
  refine ⟨⟨hfirst, hhead, htext, .nil, rfl⟩, ?_, ?_⟩
  · have h := hliteral hfirst []
    rwa [List.append_nil] at h
  · obtain ⟨scanned, rest, hscan, hparse, hrest⟩ := hoption hhead htext .nil Lexer.lexemes_nil
    obtain rfl := List.map_eq_nil_iff.mp hrest
    exact ⟨scanned, hscan, hparse⟩

end ProtoSchema
