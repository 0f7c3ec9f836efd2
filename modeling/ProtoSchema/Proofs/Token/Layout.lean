import ProtoSchema.Proofs.Token.Literal

/-!
# Writing lexemes

The converse of the lexer. Each lexeme is written so that it is scanned as itself in front of any
text that does not go on with it: words and numbers need a text that does not, and marks and strings
need nothing. `layout` writes a list of lexemes as schema text is usually written, one statement to
a line, and `lexemes_layout` says that a scan finds the same list again.
-/

namespace ProtoSchema

namespace Text

/-- The text with a backslash before each of its backslashes and double quotes. -/
def escaped (value : Text) : Text :=
  value.flatMap fun c : CodePoint => if c = '\\' || c = '"' then ['\\', c] else [c]

/-- The text as a string literal between double quotes. -/
def literal (value : Text) : Text :=
  '"' :: (escaped value ++ (['"'] : Text))

/-- The literal encodes the text. -/
theorem isLiteral_literal (value : Text) : Lexer.IsLiteral value (literal value) := by
  refine ⟨'"', _, .inl rfl, ?_, by rw [literal, escaped, List.flatMap_def]⟩
  rw [List.forall₂_map_right_iff, List.forall₂_same]
  rintro c -
  split
  next hspecial =>
    refine .simple ?_
    rcases (by simpa using hspecial : c = '\\' ∨ c = '"') with rfl | rfl <;> decide
  next hplain =>
    obtain ⟨hslash, hquote⟩ : c ≠ '\\' ∧ c ≠ '"' := by simpa using hplain
    exact .plain hquote hslash

end Text

namespace Lexer

/-- A literal is scanned as the string that it stands for. -/
theorem lexemes_literal (value rest : Text) :
    lexemes (Text.literal value ++ rest) = (lexemes rest).map (.string value :: ·) :=
  (Text.isLiteral_literal value).lexemes rest

/-! ### Marks, blanks and numbers -/

/-- A mark is scanned as itself. -/
theorem lexemes_mark (mark : Punctuation) (rest : Text) :
    lexemes (CodePoint.ofChar mark.char :: rest) =
      (lexemes rest).map (.punctuation mark :: ·) := by
  have hstep : step Position.start (CodePoint.ofChar mark.char) rest =
      .ok (lexemeStep Position.start (.punctuation mark) 1) := by
    cases mark <;> rfl
  rw [lexemes_cons hstep]
  rfl

/-- A blank and a line feed are scanned as nothing. -/
theorem lexemes_blank {c : CodePoint} (h : c = ' ' ∨ c = '\n') (rest : Text) :
    lexemes (c :: rest) = lexemes rest := by
  have hstep : step Position.start c rest = .ok (gapStep 1 (Position.start.after c)) := by
    rcases h with rfl | rfl <;> rfl
  rw [lexemes_cons hstep]
  show (lexemes rest).map ([] ++ ·) = _
  cases lexemes rest <;> rfl

/-- A decimal digit is a digit of a number. -/
theorem isDigit_of_isAsciiDigit {c : CodePoint} (h : c.isAsciiDigit) : c.isDigit := by
  have hval : c.val ≤ 0x39 := by
    have hbounds : 0x30 ≤ c.val ∧ c.val ≤ 0x39 := by
      simpa [CodePoint.isAsciiDigit, CodePoint.between] using h
    exact hbounds.2
  rw [CodePoint.isDigit, if_pos (by omega)]
  exact h

/-- A decimal digit is alphanumeric. -/
theorem isAlphanumeric_of_isAsciiDigit {c : CodePoint} (h : c.isAsciiDigit) :
    c.isAlphanumeric := by
  have hval : c.val ≤ 0x39 := by
    have hbounds : 0x30 ≤ c.val ∧ c.val ≤ 0x39 := by
      simpa [CodePoint.isAsciiDigit, CodePoint.between] using h
    exact hbounds.2
  rw [CodePoint.isAlphanumeric, if_pos (by omega), h, Bool.or_true]

/-- Digits are a part of the number before them, up to a text that does not go on with it. -/
theorem numberTail_append {digits rest : Text} {previous : CodePoint}
    (hdigits : ∀ c ∈ digits, c.isAsciiDigit) (hrest : endsWord rest)
    (hprevious : previous ≠ 'e' ∧ previous ≠ 'E') (hexadecimal : Bool) :
    numberTail hexadecimal previous (digits ++ rest) = digits := by
  induction digits generalizing previous with
  | nil =>
      cases rest with
      | nil => rfl
      | cons c rest =>
          simp only [endsWord, nextIs, List.head?_cons, Option.any_some, Bool.not_eq_true',
            Bool.or_eq_false_iff, continuesIdentifier] at hrest
          simp [numberTail, hrest.1.1, hrest.2, hprevious.1, hprevious.2]
  | cons c digits ih =>
      have hdigit : c.isAsciiDigit := hdigits c List.mem_cons_self
      -- A digit marks no exponent, so no sign belongs to the number after it.
      have hlower : c ≠ 'e' := CodePoint.ne_of_isAsciiDigit hdigit rfl
      have hupper : c ≠ 'E' := CodePoint.ne_of_isAsciiDigit hdigit rfl
      rw [List.cons_append, numberTail, isAlphanumeric_of_isAsciiDigit hdigit, Bool.true_or,
        Bool.true_or, if_pos rfl,
        ih (fun d hmem => hdigits d (List.mem_cons_of_mem c hmem)) ⟨hlower, hupper⟩]

/-- A number is scanned up to its end. -/
theorem wordStep_of_startsNumber {c : CodePoint} {rest : Text} (hnumber : startsNumber c rest)
    (hfloat : ¬ (isSign c && startsFloatWord rest) = true) (position : Position) :
    wordStep position c rest =
      lexemeStep position (.number (c :: numberTail (isHexadecimal c rest) c rest))
        (c :: numberTail (isHexadecimal c rest) c rest).length := by
  rw [wordStep, if_neg hfloat, if_pos hnumber]

/-- A notation starts a number, and it is no special value. -/
theorem startsNumber_of_numeral {c : CodePoint} {tail : Text} {value : Int}
    (h : Integer.numeral value = c :: tail) (rest : Text) :
    startsNumber c (tail ++ rest) ∧ ¬ (isSign c && startsFloatWord (tail ++ rest)) = true ∧
      (c ≠ 'e' ∧ c ≠ 'E') ∧ isOrdinary c ∧ ∀ d ∈ tail, d.isAsciiDigit := by
  have hdigits : ∀ d ∈ Integer.digits value.natAbs, d.isAsciiDigit :=
    fun d hmem => Integer.isAsciiDigit_of_mem_digits hmem
  by_cases hneg : value < 0
  · rw [Integer.numeral, if_pos hneg] at h
    obtain ⟨rfl, rfl⟩ := List.cons.inj h
    obtain ⟨d, digits, hcons⟩ := List.exists_cons_of_ne_nil (Integer.digits_ne_nil value.natAbs)
    have hd : d.isAsciiDigit := hdigits d (by rw [hcons]; exact List.mem_cons_self)
    refine ⟨?_, ?_, ⟨by decide, by decide⟩, by decide, hdigits⟩
    · rw [hcons, startsNumber]
      simp [isSign, nextIs, isDigit_of_isAsciiDigit hd]
    · -- The words for special values start with letters, and a digit follows the sign.
      have hin : d ≠ 'i' := CodePoint.ne_of_isAsciiDigit hd rfl
      have hnan : d ≠ 'n' := CodePoint.ne_of_isAsciiDigit hd rfl
      rw [hcons]
      simp [startsFloatWord, Text.startsWith, Text.ofString, hin.symm, hnan.symm]
  · rw [Integer.numeral, if_neg hneg] at h
    rw [h] at hdigits
    have hc : c.isAsciiDigit := hdigits c List.mem_cons_self
    have hminus : c ≠ '-' := CodePoint.ne_of_isAsciiDigit hc rfl
    have hplus : c ≠ '+' := CodePoint.ne_of_isAsciiDigit hc rfl
    have hsign : isSign c = false := by
      simp [isSign, hminus, hplus]
    refine ⟨?_, ?_, ⟨?_, ?_⟩, ?_, fun d hmem => hdigits d (List.mem_cons_of_mem c hmem)⟩
    · rw [startsNumber, isDigit_of_isAsciiDigit hc, Bool.true_or]
    · rw [hsign, Bool.false_and]
      exact Bool.false_ne_true
    · exact CodePoint.ne_of_isAsciiDigit hc rfl
    · exact CodePoint.ne_of_isAsciiDigit hc rfl
    · simp [isOrdinary, isDigit_of_isAsciiDigit hc]

/-- The notation of an integer is scanned as a number in front of every text that does not go on
with it. -/
theorem lexemes_numeral (value : Int) {rest : Text} (hrest : endsWord rest) :
    lexemes (Integer.numeral value ++ rest) =
      (lexemes rest).map (.number (Integer.numeral value) :: ·) := by
  cases h : Integer.numeral value with
  | nil =>
      unfold Integer.numeral at h
      split at h
      · exact absurd h (List.cons_ne_nil _ _)
      · exact absurd h (Integer.digits_ne_nil _)
  | cons c tail =>
      obtain ⟨hnumber, hfloat, hc, hordinary, hdigits⟩ := startsNumber_of_numeral h rest
      rw [List.cons_append,
        lexemes_cons (step_of_isOrdinary hordinary Position.start (tail ++ rest)),
        wordStep_of_startsNumber hnumber hfloat, numberTail_append hdigits hrest hc]
      show (lexemes ((tail ++ rest).drop tail.length)).map _ = _
      rw [List.drop_left]
      rfl

end Lexer

/-! ### Lists of lexemes -/

namespace Lexeme

/-- The lexeme as it is written. -/
def written : Lexeme → Text
  | string value => Text.literal value
  | lexeme => lexeme.value

/-- The lexeme is scanned from what is written: an identifier is one identifier, and a number is the
notation of an integer. -/
def IsWritable : Lexeme → Prop
  | identifier name => Lexer.IsIdentifier name
  | number spelling => ∃ value, Integer.numeral value = spelling
  | _ => True

/-- Lexemes between braces. -/
def block (body : List Lexeme) : List Lexeme :=
  .punctuation .leftBrace :: (body ++ [.punctuation .rightBrace])

/-- A line ends after the lexeme. -/
def endsLine : Lexeme → Bool
  | punctuation .semicolon | punctuation .leftBrace | punctuation .rightBrace => true
  | _ => false

/-- Nothing stands between the lexeme and the next one. -/
def joins : Lexeme → Lexeme → Bool
  | punctuation .leftParen, _ | punctuation .leftBracket, _ | punctuation .leftAngle, _ => true
  | _, punctuation .semicolon | _, punctuation .comma => true
  | _, punctuation .rightParen | _, punctuation .rightBracket | _, punctuation .rightAngle => true
  | keyword .map, punctuation .leftAngle => true
  | punctuation .rightParen, identifier name => name.head? = some '.'
  | _, _ => false

/-- What stands between the lexeme and the next one: a line end, nothing, or a blank. -/
def gap (lexeme next : Lexeme) : Text :=
  if lexeme.endsLine then Text.ofString "\n"
  else if lexeme.joins next then []
  else Text.ofString " "

/-- The lexemes as schema text. -/
def layout : List Lexeme → Text
  | [] => []
  | [last] => last.written ++ Text.ofString "\n"
  | first :: next :: rest => first.written ++ (gap first next ++ layout (next :: rest))

/-- Two lexemes without a gap are not both words or numbers. -/
theorem exists_mark_of_joins {lexeme next : Lexeme} (h : lexeme.joins next) :
    (∃ mark, lexeme = .punctuation mark) ∨ ∃ mark, next = .punctuation mark := by
  unfold joins at h
  split at h
  all_goals first
    | exact .inl ⟨_, rfl⟩
    | exact .inr ⟨_, rfl⟩
    | exact absurd h Bool.false_ne_true

end Lexeme

namespace Lexer

/-- A keyword is scanned as itself in front of a text that does not go on with it. -/
theorem lexemes_keyword (word : Keyword) {rest : Text} (hrest : endsWord rest) :
    lexemes (word.spelling ++ rest) = (lexemes rest).map (.keyword word :: ·) := by
  have hword : IsWord word.spelling := by
    cases word <;> exact isName_iff.mp ⟨.keyword _, rfl, rfl, rfl⟩
  rw [lexemes_word hword hrest, Lexeme.ofWord_spelling]

/-- A writable lexeme is scanned as itself in front of a text that does not go on with it. After a
mark, any text may follow. -/
theorem lexemes_written {lexeme : Lexeme} (h : lexeme.IsWritable) {rest : Text}
    (hrest : (∃ mark, lexeme = .punctuation mark) ∨ endsWord rest) :
    lexemes (lexeme.written ++ rest) = (lexemes rest).map (lexeme :: ·) := by
  rcases hrest with ⟨mark, rfl⟩ | hrest
  · exact lexemes_mark mark rest
  · cases lexeme with
    | keyword word => exact lexemes_keyword word hrest
    | punctuation mark => exact lexemes_mark mark rest
    | identifier name =>
        obtain ⟨hword, hname⟩ := isIdentifier_iff.mp h
        show lexemes (name ++ rest) = _
        rw [lexemes_word hword hrest, hname]
    | number spelling =>
        obtain ⟨value, rfl⟩ := h
        exact lexemes_numeral value hrest
    | string value => exact lexemes_literal value rest

/-- A word may stand before a mark. -/
theorem endsWord_layout_mark (mark : Punctuation) (rest : List Lexeme) :
    endsWord (Lexeme.layout (.punctuation mark :: rest)) := by
  cases rest with
  | nil => cases mark <;> rfl
  | cons next rest => cases mark <;> rfl

/-- What is written after a word or a number does not go on with it. -/
theorem endsWord_gap (lexeme next : Lexeme) (rest : List Lexeme) :
    (∃ mark, lexeme = .punctuation mark) ∨
      endsWord (Lexeme.gap lexeme next ++ Lexeme.layout (next :: rest)) := by
  unfold Lexeme.gap
  split
  next => exact .inr rfl
  next =>
    split
    next hjoins =>
      refine (Lexeme.exists_mark_of_joins hjoins).imp_right ?_
      rintro ⟨mark, rfl⟩
      exact endsWord_layout_mark mark rest
    next => exact .inr rfl

/-- A gap is scanned as nothing. -/
theorem lexemes_gap (lexeme next : Lexeme) (rest : Text) :
    lexemes (Lexeme.gap lexeme next ++ rest) = lexemes rest := by
  unfold Lexeme.gap
  split
  next => exact lexemes_blank (.inr rfl) rest
  next =>
    split
    next => rfl
    next => exact lexemes_blank (.inl rfl) rest

/-- A scan finds the lexemes that are written. -/
theorem lexemes_layout {written : List Lexeme} (h : ∀ lexeme ∈ written, lexeme.IsWritable) :
    lexemes (Lexeme.layout written) = .ok written := by
  induction written with
  | nil => rfl
  | cons first rest ih =>
      have hfirst : first.IsWritable := h first List.mem_cons_self
      have hrest := ih fun lexeme hmem => h lexeme (List.mem_cons_of_mem first hmem)
      cases rest with
      | nil =>
          rw [Lexeme.layout, lexemes_written hfirst (.inr rfl)]
          rfl
      | cons next rest =>
          rw [Lexeme.layout, lexemes_written hfirst (endsWord_gap first next rest),
            lexemes_gap, hrest]
          rfl

end Lexer

end ProtoSchema
