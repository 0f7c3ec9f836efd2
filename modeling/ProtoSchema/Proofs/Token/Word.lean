import ProtoSchema.Proofs.Token.Scan

/-!
# Words and numbers

The texts that are scanned as one name or one identifier. `IsWord` describes them by their code
points, and `isName_iff` says that they are the same texts. A word is scanned as itself in front of
every text that does not go on with it (`lexemes_word`), and every name that a scan finds is a word
(`isWord_of_mem_lexemes`). `IsNumber` describes the texts that are scanned as one number, and
`wordStep_cases` says that a step on ordinary code points finds nothing else.
-/

namespace ProtoSchema

/-- The keyword that a text spells spells this text. -/
theorem Keyword.spelling_of_ofText? {text : Text} {keyword : Keyword}
    (h : ofText? text = some keyword) : keyword.spelling = text := by
  simpa using List.find?_some h

/-- Every keyword is known by its spelling. -/
@[simp]
theorem Keyword.ofText?_spelling (keyword : Keyword) : ofText? keyword.spelling = some keyword := by
  cases keyword <;> decide

namespace Lexeme

/-- The value of the lexeme that a word is. -/
@[simp]
theorem value_ofWord (word : Text) : (ofWord word).value = word := by
  unfold ofWord
  cases h : Keyword.ofText? word with
  | none => rfl
  | some keyword => exact Keyword.spelling_of_ofText? h

/-- Every word is a name. -/
@[simp]
theorem isName_ofWord (word : Text) : (ofWord word).isName = true := by
  unfold ofWord
  cases Keyword.ofText? word <;> rfl

/-- A keyword is the lexeme that its spelling is. -/
@[simp]
theorem ofWord_spelling (keyword : Keyword) : ofWord keyword.spelling = .keyword keyword := by
  rw [ofWord, Keyword.ofText?_spelling]

/-- A word is no mark, no number and no string. -/
theorem kind_ofWord (word : Text) :
    (Lexeme.ofWord word).kind = .identifier ∨
      ∃ keyword, keyword.spelling = word ∧ (Lexeme.ofWord word).kind = .keyword keyword := by
  unfold Lexeme.ofWord
  cases h : Keyword.ofText? word with
  | none => exact .inl rfl
  | some keyword => exact .inr ⟨keyword, Keyword.spelling_of_ofText? h, rfl⟩

/-- A word is no mark. -/
theorem kind_ofWord_ne (word : Text) (mark : Punctuation) :
    (Lexeme.ofWord word).kind ≠ .punctuation mark := by
  rcases kind_ofWord word with h | ⟨keyword, -, h⟩ <;> simp [h]

/-- A word is only the keyword that it spells. -/
theorem kind_ofWord_ne_keyword {word : Text} {keyword : Keyword} (h : word ≠ keyword.spelling) :
    (ofWord word).kind ≠ .keyword keyword := by
  intro hkind
  rcases kind_ofWord word with hidentifier | ⟨other, hspelling, hother⟩
  · rw [hidentifier] at hkind
    exact TokenKind.noConfusion hkind
  · obtain rfl := TokenKind.keyword.inj (hother.symm.trans hkind)
    exact h hspelling.symm

/-- A mark is known by its kind. -/
theorem eq_punctuation_of_kind {lexeme : Lexeme} {mark : Punctuation}
    (h : lexeme.kind = .punctuation mark) : lexeme = .punctuation mark := by
  cases lexeme with
  | punctuation found => exact congrArg punctuation (TokenKind.punctuation.inj h)
  | _ => exact TokenKind.noConfusion h

/-- An identifier is known by its kind and its value. -/
theorem eq_identifier_of_kind {lexeme : Lexeme} (h : lexeme.kind = .identifier) :
    lexeme = .identifier lexeme.value := by
  cases lexeme with
  | identifier name => rfl
  | _ => exact TokenKind.noConfusion h

end Lexeme

namespace Lexer

/-- A code point that words and numbers consist of. -/
def isOrdinary (c : CodePoint) : Bool :=
  c.isAlphanumeric || c.isDigit || c = '_' || c = '.' || isSign c

/-- The text does not go on with a part of the word before it. -/
def endsWord (rest : Text) : Bool :=
  !nextIs (fun c => continuesIdentifier c || c = '.') rest

/-- The text is a word: a name, dotted or not, or a sign and the word for a special value. -/
def IsWord : Text → Prop
  | [] => False
  | c :: rest =>
      (isSign c ∧ (rest = Text.ofString "inf" ∨ rest = Text.ofString "nan")) ∨
        (startsWord c rest ∧ ¬ startsNumber c rest ∧ identifierTail rest = rest)

/-- The text is a number: it starts as one, and all of it belongs to it. -/
def IsNumber : Text → Prop
  | [] => False
  | c :: rest => startsNumber c rest ∧ numberTail (isHexadecimal c rest) c rest = rest

/-- The text is scanned as one identifier, which is all of it. -/
def IsIdentifier (text : Text) : Prop :=
  lexemes text = .ok [.identifier text]

/-- The text is scanned as one identifier or keyword, which is all of it. -/
def IsName (text : Text) : Prop :=
  ∃ lexeme : Lexeme, lexeme.isName ∧ lexeme.value = text ∧ lexemes text = .ok [lexeme]

/-! ### Steps on ordinary code points -/

/-- A letter is alphanumeric. -/
theorem isAlphanumeric_of_isLetter {c : CodePoint} (h : c.isLetter) : c.isAlphanumeric := by
  unfold CodePoint.isLetter at h
  unfold CodePoint.isAlphanumeric
  split at h
  next hascii => rw [if_pos hascii, h, Bool.true_or]
  next hascii => rw [if_neg hascii, h, Bool.true_or]

/-- Every member of a table lies in one of its ranges. -/
theorem Ranges.exists_of_contains {table : Ranges} {number : Nat} (h : table.contains number) :
    ∃ range ∈ table, range.1 ≤ number ∧ number ≤ range.2 := by
  induction table with
  | nil => exact absurd h Bool.false_ne_true
  | cons range table ih =>
      obtain ⟨first, last⟩ := range
      rw [Ranges.contains] at h
      split at h
      next => exact absurd h Bool.false_ne_true
      next hfirst =>
        split at h
        next hlast => exact ⟨_, List.mem_cons_self, Nat.le_of_not_lt hfirst, hlast⟩
        next =>
          obtain ⟨range, hmem, hrange⟩ := ih h
          exact ⟨range, List.mem_cons_of_mem _ hmem, hrange⟩

/-- A digit of any script is alphanumeric. -/
theorem isAlphanumeric_of_isDigit {c : CodePoint} (h : c.isDigit) : c.isAlphanumeric := by
  have htable : ∀ range ∈ CodePoint.digitTable, ∀ offset < range.2 + 1 - range.1,
      CodePoint.numeralTable.contains (range.1 + offset) := by decide +kernel
  unfold CodePoint.isDigit at h
  unfold CodePoint.isAlphanumeric
  split at h
  next hascii => rw [if_pos hascii, h, Bool.or_true]
  next hascii =>
    obtain ⟨range, hmem, hfirst, hlast⟩ := Ranges.exists_of_contains h
    have hnumeral := htable range hmem (c.val - range.1) (by omega)
    rw [Nat.add_sub_cancel' hfirst] at hnumeral
    rw [if_neg hascii, hnumeral, Bool.or_true]

/-- What starts an identifier also continues one. -/
theorem continuesIdentifier_of_starts {c : CodePoint} (h : startsIdentifier c) :
    continuesIdentifier c := by
  unfold startsIdentifier at h
  unfold continuesIdentifier
  rcases Bool.or_eq_true_iff.mp h with h | h
  · rw [isAlphanumeric_of_isLetter h, Bool.true_or]
  · rw [h, Bool.or_true]

/-- What continues an identifier is ordinary. -/
theorem isOrdinary_of_continues {c : CodePoint} (h : continuesIdentifier c) : isOrdinary c := by
  unfold continuesIdentifier at h
  unfold isOrdinary
  rcases Bool.or_eq_true_iff.mp h with h | h <;> simp [h]

/-- A code point with a meaning of its own is not ordinary. -/
theorem ne_of_isOrdinary {c : CodePoint} (h : isOrdinary c) {special : CodePoint}
    (hspecial : isOrdinary special = false) : c ≠ special := by
  rintro rfl
  rw [h] at hspecial
  exact Bool.noConfusion hspecial

/-- No punctuation mark is ordinary. -/
theorem ofCodePoint?_of_isOrdinary {c : CodePoint} (h : isOrdinary c) :
    Punctuation.ofCodePoint? c = none := by
  refine List.find?_eq_none.mpr fun mark _ => ?_
  have hmark : isOrdinary (CodePoint.ofChar mark.char) = false := by
    cases mark <;> decide
  simpa using (ne_of_isOrdinary h hmark).symm

/-- An ordinary code point starts a word or a number, or it is a gap. -/
theorem step_of_isOrdinary {c : CodePoint} (h : isOrdinary c) (position : Position) (rest : Text) :
    step position c rest = .ok (wordStep position c rest) := by
  have hblank : c ≠ ' ' := ne_of_isOrdinary h (by decide)
  have htab : c ≠ '\t' := ne_of_isOrdinary h (by decide)
  have hreturn : c ≠ '\r' := ne_of_isOrdinary h (by decide)
  have hfeed : c ≠ '\n' := ne_of_isOrdinary h (by decide)
  have hslash : c ≠ '/' := ne_of_isOrdinary h (by decide)
  have hdouble : c ≠ '"' := ne_of_isOrdinary h (by decide)
  have hsingle : c ≠ '\'' := ne_of_isOrdinary h (by decide)
  simp [step, hblank, htab, hreturn, hfeed, hslash, hdouble, hsingle,
    ofCodePoint?_of_isOrdinary h]

/-! ### Words in front of other texts -/

/-- Appending to a text that is not empty does not change how it goes on. -/
theorem nextIs_append {text : Text} (h : text ≠ []) (property : CodePoint → Bool) (rest : Text) :
    nextIs property (text ++ rest) = nextIs property text := by
  cases text with
  | nil => exact absurd rfl h
  | cons c text => rfl

/-- A text that does not go on with a word adds nothing to an identifier. -/
theorem identifierTail_of_endsWord {rest : Text} (h : endsWord rest) :
    identifierTail rest = [] := by
  cases rest with
  | nil => rfl
  | cons c rest =>
      simp only [endsWord, nextIs, List.head?_cons, Option.any_some, Bool.not_eq_true',
        Bool.or_eq_false_iff] at h
      simp [identifierTail, h.1, h.2]

/-- An identifier that ends with its text still ends there in front of another text. -/
theorem identifierTail_append {tail rest : Text} (htail : identifierTail tail = tail)
    (hrest : endsWord rest) : identifierTail (tail ++ rest) = tail := by
  induction tail with
  | nil => exact identifierTail_of_endsWord hrest
  | cons c tail ih =>
      rw [identifierTail] at htail
      split at htail
      next hcontinues =>
        rw [List.cons_append, identifierTail, if_pos ?_, ih (List.cons.inj htail).2]
        cases tail with
        | nil => simpa [nextIs] using .inl (by simpa [nextIs] using hcontinues)
        | cons d tail => rwa [nextIs_append (List.cons_ne_nil d tail)]
      next => exact absurd htail (List.cons_ne_nil c tail).symm

/-- The tail of an identifier is the start of its text. -/
theorem identifierTail_start (text : Text) : identifierTail text <+: text := by
  induction text with
  | nil => exact List.prefix_rfl
  | cons c rest ih =>
      rw [identifierTail]
      split
      next => exact (List.prefix_cons_inj c).mpr ih
      next => exact List.nil_prefix

/-- A text goes on as its start does. -/
theorem nextIs_of_start {property : CodePoint → Bool} {start text : Text} (h : start <+: text)
    (hnext : nextIs property start) : nextIs property text := by
  obtain ⟨rest, rfl⟩ := h
  cases start with
  | nil => exact absurd hnext Bool.false_ne_true
  | cons c start => exact hnext

/-- The tail of an identifier goes on with a part of a name when its text does. -/
theorem nextIs_identifierTail {text : Text} (h : nextIs startsIdentifier text) :
    nextIs startsIdentifier (identifierTail text) := by
  cases text with
  | nil => exact h
  | cons c rest =>
      have hstarts : startsIdentifier c := h
      rw [identifierTail, if_pos (by rw [continuesIdentifier_of_starts hstarts, Bool.true_or])]
      exact hstarts

/-- The tail of an identifier ends where it ends. -/
theorem identifierTail_idem (text : Text) :
    identifierTail (identifierTail text) = identifierTail text := by
  induction text with
  | nil => rfl
  | cons c rest ih =>
      rw [identifierTail]
      split
      next hcontinues =>
        rw [identifierTail, if_pos ?_, ih]
        rw [Bool.or_eq_true_iff] at hcontinues ⊢
        refine hcontinues.imp_right fun hdot => ?_
        rw [Bool.and_eq_true_iff] at hdot ⊢
        exact ⟨hdot.1, nextIs_identifierTail hdot.2⟩
      next => rfl

/-- What starts a word is ordinary. -/
theorem isOrdinary_of_startsWord {c : CodePoint} {rest : Text} (h : startsWord c rest) :
    isOrdinary c := by
  rcases Bool.or_eq_true_iff.mp h with h | h
  · exact isOrdinary_of_continues (continuesIdentifier_of_starts h)
  · simp [isOrdinary, (Bool.and_eq_true_iff.mp h).1]

/-- A sign starts no word. -/
theorem isSign_of_startsWord {c : CodePoint} {rest : Text} (h : startsWord c rest) :
    isSign c = false := by
  rw [Bool.eq_false_iff]
  intro hsign
  rcases Bool.or_eq_true_iff.mp hsign with hminus | hplus
  · obtain rfl := of_decide_eq_true hminus
    exact absurd h (by simp [startsWord, show startsIdentifier '-' = false by decide,
      show ('-' : CodePoint) ≠ '.' by decide])
  · obtain rfl := of_decide_eq_true hplus
    exact absurd h (by simp [startsWord, show startsIdentifier '+' = false by decide,
      show ('+' : CodePoint) ≠ '.' by decide])

/-- A word that is no special value is scanned up to its end. -/
theorem wordStep_of_startsWord {c : CodePoint} {rest : Text} (hword : startsWord c rest)
    (hnumber : ¬ startsNumber c rest) (position : Position) :
    wordStep position c rest = lexemeStep position (Lexeme.ofWord (c :: identifierTail rest))
      (c :: identifierTail rest).length := by
  rw [wordStep, isSign_of_startsWord hword, Bool.false_and, if_neg Bool.false_ne_true,
    if_neg hnumber, if_pos hword]

/-- A sign and the word for a special value are scanned as one identifier. -/
theorem wordStep_of_startsFloatWord {c : CodePoint} {rest : Text} (hsign : isSign c)
    (hfloat : startsFloatWord rest) (position : Position) :
    wordStep position c rest = lexemeStep position (.identifier (c :: rest.take 3)) 4 := by
  rw [wordStep, hsign, hfloat]
  rfl

/-- A word that starts with a sign is no keyword. -/
theorem ofWord_of_isSign {c : CodePoint} (hsign : isSign c) (rest : Text) :
    Lexeme.ofWord (c :: rest) = .identifier (c :: rest) := by
  have hnone : Keyword.ofText? (c :: rest) = none := by
    refine List.find?_eq_none.mpr fun keyword _ => ?_
    have hhead : isSign (keyword.spelling.head?.getD 'a') = false := by
      cases keyword <;> decide
    intro hspelling
    rw [of_decide_eq_true hspelling] at hhead
    exact absurd hsign (by simpa using hhead)
  rw [Lexeme.ofWord, hnone]

/-- The first code point of a word is ordinary. -/
theorem IsWord.exists_cons {word : Text} (h : IsWord word) :
    ∃ c rest, word = c :: rest ∧ isOrdinary c := by
  cases word with
  | nil => exact h.elim
  | cons c rest =>
      refine ⟨c, rest, rfl, ?_⟩
      rcases h with ⟨hsign, -⟩ | ⟨hword, -⟩
      · simp [isOrdinary, hsign]
      · exact isOrdinary_of_startsWord hword

/-- A word is scanned as itself in front of every text that does not go on with it. -/
theorem lexemes_word {word rest : Text} (hword : IsWord word) (hrest : endsWord rest) :
    lexemes (word ++ rest) = (lexemes rest).map (Lexeme.ofWord word :: ·) := by
  obtain ⟨c, tail, rfl, hc⟩ := hword.exists_cons
  rw [List.cons_append, lexemes_cons (step_of_isOrdinary hc Position.start (tail ++ rest))]
  rcases hword with ⟨hsign, htail⟩ | ⟨hword, hnumber, htail⟩
  · -- A special value is a word only if no part of a word follows, which `hrest` says.
    have hfloat : startsFloatWord (tail ++ rest) := by
      have hnext : nextIs continuesIdentifier rest = false := by
        cases rest with
        | nil => rfl
        | cons d rest =>
            simp only [endsWord, nextIs, List.head?_cons, Option.any_some, Bool.not_eq_true',
              Bool.or_eq_false_iff] at hrest
            exact hrest.1
      rcases htail with rfl | rfl
      · exact Bool.and_eq_true_iff.mpr ⟨by simp [Text.startsWith], by simp [Text.ofString, hnext]⟩
      · exact Bool.and_eq_true_iff.mpr ⟨by simp [Text.startsWith], by simp [Text.ofString, hnext]⟩
    have hlength : tail.length = 3 := by rcases htail with rfl | rfl <;> rfl
    rw [wordStep_of_startsFloatWord hsign hfloat, ofWord_of_isSign hsign]
    show (lexemes ((tail ++ rest).drop 3)).map _ = _
    rw [← hlength, List.drop_left, List.take_left]
    rfl
  · -- Only a word of one code point lets the lexer look at `rest`, and that one is no dot.
    have hstarts : startsWord c (tail ++ rest) := by
      cases tail with
      | nil =>
          have hplain : startsIdentifier c := by simpa [startsWord, nextIs] using hword
          rw [startsWord, hplain, Bool.true_or]
      | cons d tail => rwa [startsWord, nextIs_append (List.cons_ne_nil d tail)]
    have hnonumber : ¬ startsNumber c (tail ++ rest) := by
      cases tail with
      | nil =>
          have hplain : startsIdentifier c := by simpa [startsWord, nextIs] using hword
          have hdot : c ≠ '.' := by
            rintro rfl
            exact absurd hplain (by decide)
          have hdigit : c.isDigit = false := by
            simpa [startsNumber, nextIs] using hnumber
          simp [startsNumber, hdigit, isSign_of_startsWord hword, hdot]
      | cons d tail => rwa [startsNumber, nextIs_append (List.cons_ne_nil d tail)]
    rw [wordStep_of_startsWord hstarts hnonumber, identifierTail_append htail hrest]
    show (lexemes ((tail ++ rest).drop tail.length)).map _ = _
    rw [List.drop_left]
    rfl

/-! ### The tails of numbers -/

/-- The tail of a number is the start of its text. -/
theorem numberTail_start (hexadecimal : Bool) (previous : CodePoint) (text : Text) :
    numberTail hexadecimal previous text <+: text := by
  induction text generalizing previous with
  | nil => exact List.prefix_rfl
  | cons c rest ih =>
      rw [numberTail]
      split
      next => exact (List.prefix_cons_inj c).mpr (ih c)
      next => exact List.nil_prefix

/-- The tail of a number ends where it ends. -/
theorem numberTail_idem (hexadecimal : Bool) (previous : CodePoint) (text : Text) :
    numberTail hexadecimal previous (numberTail hexadecimal previous text) =
      numberTail hexadecimal previous text := by
  induction text generalizing previous with
  | nil => rfl
  | cons c rest ih =>
      rw [numberTail]
      split
      next hcontinues => rw [numberTail, if_pos hcontinues, ih]
      next => rfl

/-- An alphanumeric code point belongs to the number before it. -/
theorem numberTail_cons_of_isAlphanumeric {c : CodePoint} (h : c.isAlphanumeric)
    (hexadecimal : Bool) (previous : CodePoint) (rest : Text) :
    numberTail hexadecimal previous (c :: rest) = c :: numberTail hexadecimal c rest := by
  rw [numberTail, if_pos (by rw [h, Bool.true_or, Bool.true_or])]

/-- A text that starts with `0x` still does when it ends with its number. -/
theorem startsHexadecimal_numberTail (hexadecimal : Bool) (c : CodePoint) (rest : Text) :
    startsHexadecimal (c :: numberTail hexadecimal c rest) = startsHexadecimal (c :: rest) := by
  cases rest with
  | nil => rfl
  | cons d rest =>
      by_cases hmark : d = 'x' ∨ d = 'X'
      · have hletter : d.isAlphanumeric := by rcases hmark with rfl | rfl <;> decide
        rw [numberTail_cons_of_isAlphanumeric hletter]
        rfl
      · have hno : startsHexadecimal (c :: d :: rest) = false := by
          simpa [startsHexadecimal] using fun _ => not_or.mp hmark
        rw [hno, numberTail]
        split
        next => simpa [startsHexadecimal] using fun _ => not_or.mp hmark
        next => rfl

/-- A number that ends with its text is hexadecimal when the number at the start of the text is. -/
theorem isHexadecimal_numberTail (hexadecimal : Bool) (c : CodePoint) (rest : Text) :
    isHexadecimal c (numberTail hexadecimal c rest) = isHexadecimal c rest := by
  rw [isHexadecimal, isHexadecimal, startsHexadecimal_numberTail]
  cases rest with
  | nil => rfl
  | cons d rest =>
      by_cases hzero : d = '0'
      · subst hzero
        rw [numberTail_cons_of_isAlphanumeric (by decide), startsHexadecimal_numberTail]
      · have hno (tail : Text) : startsHexadecimal (d :: tail) = false := by
          cases tail <;> simp [startsHexadecimal, hzero]
        rw [hno, numberTail]
        split
        next => rw [hno]
        next => rfl

/-- The words for special values start with letters, so no number starts with a sign and one of
them. -/
theorem startsFloatWord_of_startsNumber {c : CodePoint} {rest : Text} (h : startsNumber c rest) :
    ¬ (isSign c && startsFloatWord rest) = true := by
  intro hfloat
  obtain ⟨hsign, hword⟩ := Bool.and_eq_true_iff.mp hfloat
  have hc : c.isDigit = false := by
    rcases Bool.or_eq_true_iff.mp hsign with hc | hc <;> obtain rfl := of_decide_eq_true hc <;> rfl
  rw [startsNumber, hc, Bool.false_or, Bool.and_eq_true_iff] at h
  cases rest with
  | nil => exact absurd h.2 Bool.false_ne_true
  | cons d rest =>
      have hdigit : d.isDigit := h.2
      have hstart : d = 'i' ∨ d = 'n' := by
        have hword := (Bool.and_eq_true_iff.mp hword).1
        simp only [Text.startsWith, Text.ofString, Bool.or_eq_true] at hword
        rcases hword with hword | hword
        · exact .inl (List.cons_prefix_cons.mp (List.isPrefixOf_iff_prefix.mp hword)).1.symm
        · exact .inr (List.cons_prefix_cons.mp (List.isPrefixOf_iff_prefix.mp hword)).1.symm
      rcases hstart with rfl | rfl <;> exact absurd hdigit (by decide)

/-- The number at the start of a text is one. -/
theorem isNumber_of_startsNumber {c : CodePoint} {rest : Text} (h : startsNumber c rest) :
    IsNumber (c :: numberTail (isHexadecimal c rest) c rest) := by
  refine ⟨?_, ?_⟩
  · rw [startsNumber, Bool.or_eq_true_iff, Bool.and_eq_true_iff] at h ⊢
    refine h.imp_right fun ⟨hstart, hnext⟩ => ⟨hstart, ?_⟩
    cases rest with
    | nil => exact absurd hnext Bool.false_ne_true
    | cons d rest =>
        have hdigit : d.isDigit := hnext
        rw [numberTail_cons_of_isAlphanumeric (isAlphanumeric_of_isDigit hdigit)]
        exact hdigit
  · rw [isHexadecimal_numberTail, numberTail_idem]

/-! ### The names and numbers that a scan finds -/

/-- What a step on ordinary code points finds: nothing, or a number or a word at the start of the
text, of which it takes all. -/
theorem wordStep_cases (position : Position) (c : CodePoint) (rest : Text) :
    (startsIdentifier c = false ∧ c.isDigit = false ∧
      wordStep position c rest = gapStep 1 (position.right 1)) ∨
    (∃ number, IsNumber number ∧ number <+: c :: rest ∧
      wordStep position c rest = lexemeStep position (.number number) number.length) ∨
    ∃ word, IsWord word ∧ word <+: c :: rest ∧
      wordStep position c rest = lexemeStep position (Lexeme.ofWord word) word.length := by
  by_cases hfloat : isSign c && startsFloatWord rest
  · obtain ⟨hsign, hfloat⟩ := Bool.and_eq_true_iff.mp hfloat
    have hspecial : rest.take 3 = Text.ofString "inf" ∨ rest.take 3 = Text.ofString "nan" := by
      rcases Bool.or_eq_true_iff.mp (Bool.and_eq_true_iff.mp hfloat).1 with h | h
      · exact .inl (List.prefix_iff_eq_take.mp (List.isPrefixOf_iff_prefix.mp h)).symm
      · exact .inr (List.prefix_iff_eq_take.mp (List.isPrefixOf_iff_prefix.mp h)).symm
    refine .inr (.inr ⟨c :: rest.take 3, .inl ⟨hsign, hspecial⟩, ?_, ?_⟩)
    · exact (List.prefix_cons_inj c).mpr (List.take_prefix 3 rest)
    · rw [wordStep_of_startsFloatWord hsign hfloat, ofWord_of_isSign hsign]
      rcases hspecial with h | h <;> rw [h] <;> rfl
  · by_cases hnumber : startsNumber c rest
    · refine .inr (.inl ⟨_, isNumber_of_startsNumber hnumber, ?_, ?_⟩)
      · exact (List.prefix_cons_inj c).mpr (numberTail_start _ c rest)
      · rw [wordStep, if_neg hfloat, if_pos hnumber]
    · by_cases hword : startsWord c rest
      · -- What the step takes is scanned alone as it is here, since it starts and goes on alike.
        refine .inr
          (.inr ⟨c :: identifierTail rest, .inr ⟨?_, ?_, identifierTail_idem rest⟩, ?_, ?_⟩)
        · rw [startsWord, Bool.or_eq_true_iff] at hword ⊢
          refine hword.imp_right fun hdot => ?_
          rw [Bool.and_eq_true_iff] at hdot ⊢
          exact ⟨hdot.1, nextIs_identifierTail hdot.2⟩
        · refine fun h => hnumber ?_
          rw [startsNumber, Bool.or_eq_true_iff] at h ⊢
          refine h.imp_right fun hnext => ?_
          rw [Bool.and_eq_true_iff] at hnext ⊢
          exact ⟨hnext.1, nextIs_of_start (identifierTail_start rest) hnext.2⟩
        · exact (List.prefix_cons_inj c).mpr (identifierTail_start rest)
        · rw [wordStep_of_startsWord hword hnumber]
      · refine .inl ⟨?_, ?_, ?_⟩
        · exact (Bool.or_eq_false_iff.mp (Bool.eq_false_iff.mpr hword)).1
        · exact (Bool.or_eq_false_iff.mp (Bool.eq_false_iff.mpr hnumber)).1
        · rw [wordStep, if_neg hfloat, if_neg hnumber, if_neg hword]

/-- What a step finds: nothing, the mark that the text starts with, a string, a number, or a word at
the start of the text, of which it takes all. -/
theorem step_cases {position : Position} {c : CodePoint} {rest : Text} {found : Step}
    (h : step position c rest = .ok found) :
    found.lexeme = none ∨
      (∃ mark, CodePoint.ofChar mark.char = c ∧ found.lexeme = some (.punctuation mark)) ∨
      (∃ value, found.lexeme = some (.string value)) ∨
      (∃ number, IsNumber number ∧ found.lexeme = some (.number number)) ∨
      ∃ word, IsWord word ∧ word <+: c :: rest ∧ found.lexeme = some (Lexeme.ofWord word) := by
  unfold step at h
  split at h
  · exact .inl (Except.ok.inj h ▸ rfl)
  · split at h
    · exact .inl (Except.ok.inj h ▸ rfl)
    · split at h
      · exact .inl (Except.ok.inj h ▸ rfl)
      · split at h
        next mark hmark =>
          have hc : CodePoint.ofChar mark.char = c := by simpa using List.find?_some hmark
          exact .inr (.inl ⟨mark, hc, Except.ok.inj h ▸ rfl⟩)
        next =>
          split at h
          · unfold stringStep at h
            obtain ⟨value, -, h⟩ := bind_eq_ok_iff.mp h
            exact .inr (.inr (.inl ⟨value, Except.ok.inj h ▸ rfl⟩))
          · obtain rfl := Except.ok.inj h
            rcases wordStep_cases position c rest with ⟨-, -, hgap⟩ | ⟨number, hnumber, -, hfound⟩ |
              ⟨word, hword, hstart, hfound⟩
            · exact .inl (by rw [hgap]; rfl)
            · exact .inr (.inr (.inr (.inl ⟨number, hnumber, by rw [hfound]; rfl⟩)))
            · exact .inr (.inr (.inr (.inr ⟨word, hword, hstart, by rw [hfound]; rfl⟩)))

/-- The lexemes of a text that starts with a step are those of the step and of what is left. -/
theorem lexemes_cons_eq_ok {c : CodePoint} {rest : Text} {found : List Lexeme}
    (h : lexemes (c :: rest) = .ok found) :
    ∃ first following, step Position.start c rest = .ok first ∧
      lexemes (rest.drop (first.length - 1)) = .ok following ∧
      found = first.lexeme.toList ++ following := by
  cases hstep : step Position.start c rest with
  | error cause =>
      rw [lexemes_of_error hstep] at h
      exact absurd h (by simp)
  | ok first =>
      rw [lexemes_cons hstep] at h
      cases hrest : lexemes (rest.drop (first.length - 1)) with
      | error cause =>
          rw [hrest] at h
          exact absurd h (by simp [Except.map])
      | ok following =>
          rw [hrest] at h
          exact ⟨first, following, rfl, hrest, (Except.ok.inj h).symm⟩

/-- Every lexeme that a scan finds is found by a step. -/
theorem exists_step_of_mem_lexemes {text : Text} {found : List Lexeme} {lexeme : Lexeme}
    (h : lexemes text = .ok found) (hmem : lexeme ∈ found) :
    ∃ c rest first, step Position.start c rest = .ok first ∧ first.lexeme = some lexeme := by
  induction hlength : text.length using Nat.strongRecOn generalizing text found with
  | ind length ih =>
      cases text with
      | nil =>
          obtain rfl := Except.ok.inj h
          exact absurd hmem List.not_mem_nil
      | cons c rest =>
          obtain ⟨first, following, hstep, hrest, rfl⟩ := lexemes_cons_eq_ok h
          rcases List.mem_append.mp hmem with hfirst | hlater
          · exact ⟨c, rest, first, hstep, Option.mem_toList.mp hfirst⟩
          · refine ih (rest.drop (first.length - 1)).length ?_ hrest hlater rfl
            rw [List.length_drop, ← hlength, List.length_cons]
            omega

/-- Every name that a scan finds is a word. -/
theorem isWord_of_mem_lexemes {text : Text} {found : List Lexeme} {lexeme : Lexeme}
    (h : lexemes text = .ok found) (hmem : lexeme ∈ found) (hname : lexeme.isName) :
    IsWord lexeme.value ∧ Lexeme.ofWord lexeme.value = lexeme := by
  obtain ⟨c, rest, first, hstep, hfirst⟩ := exists_step_of_mem_lexemes h hmem
  rcases step_cases hstep with hnone | ⟨mark, -, hmark⟩ | ⟨value, hvalue⟩ |
    ⟨number, -, hnumber⟩ | ⟨word, hword, -, hlexeme⟩
  · exact absurd (hnone.symm.trans hfirst) (by simp)
  · obtain rfl := Option.some.inj (hmark.symm.trans hfirst)
    exact absurd hname Bool.false_ne_true
  · obtain rfl := Option.some.inj (hvalue.symm.trans hfirst)
    exact absurd hname Bool.false_ne_true
  · obtain rfl := Option.some.inj (hnumber.symm.trans hfirst)
    exact absurd hname Bool.false_ne_true
  · obtain rfl := Option.some.inj (hlexeme.symm.trans hfirst)
    rw [Lexeme.value_ofWord]
    exact ⟨hword, rfl⟩

/-- Every number that a scan finds is one. -/
theorem isNumber_of_mem_lexemes {text : Text} {found : List Lexeme} {spelling : Text}
    (h : lexemes text = .ok found) (hmem : .number spelling ∈ found) : IsNumber spelling := by
  obtain ⟨c, rest, first, hstep, hfirst⟩ := exists_step_of_mem_lexemes h hmem
  rcases step_cases hstep with hnone | ⟨mark, -, hmark⟩ | ⟨value, hvalue⟩ |
    ⟨number, hnumber, hlexeme⟩ | ⟨word, -, -, hlexeme⟩
  · exact absurd (hnone.symm.trans hfirst) (by simp)
  · exact absurd (hmark.symm.trans hfirst) (by simp)
  · exact absurd (hvalue.symm.trans hfirst) (by simp)
  · obtain rfl := Lexeme.number.inj (Option.some.inj (hlexeme.symm.trans hfirst))
    exact hnumber
  · have hname := Lexeme.isName_ofWord word
    rw [Option.some.inj (hlexeme.symm.trans hfirst)] at hname
    exact absurd hname Bool.false_ne_true

/-- A text is scanned as one word exactly when it is one. -/
theorem lexemes_eq_word_iff {text : Text} {lexeme : Lexeme} :
    (lexeme.isName ∧ lexeme.value = text ∧ lexemes text = .ok [lexeme]) ↔
      IsWord text ∧ lexeme = Lexeme.ofWord text := by
  constructor
  · rintro ⟨hname, rfl, h⟩
    obtain ⟨hword, hvalue⟩ := isWord_of_mem_lexemes h List.mem_cons_self hname
    exact ⟨hword, hvalue.symm⟩
  · rintro ⟨hword, rfl⟩
    refine ⟨Lexeme.isName_ofWord text, Lexeme.value_ofWord text, ?_⟩
    have h : lexemes (text ++ []) = _ := lexemes_word hword rfl
    rwa [List.append_nil, lexemes_nil] at h

/-- The texts that are scanned as one name are the words. -/
theorem isName_iff {text : Text} : IsName text ↔ IsWord text := by
  constructor
  · rintro ⟨lexeme, h⟩
    exact (lexemes_eq_word_iff.mp h).1
  · intro h
    exact ⟨_, lexemes_eq_word_iff.mpr ⟨h, rfl⟩⟩

/-- The texts that are scanned as one identifier are the words that are no keywords. -/
theorem isIdentifier_iff {text : Text} :
    IsIdentifier text ↔ IsWord text ∧ Lexeme.ofWord text = .identifier text := by
  constructor
  · intro h
    have hone : (Lexeme.identifier text).isName ∧ (Lexeme.identifier text).value = text ∧
        lexemes text = .ok [.identifier text] := ⟨rfl, rfl, h⟩
    obtain ⟨hword, hvalue⟩ := lexemes_eq_word_iff.mp hone
    exact ⟨hword, hvalue.symm⟩
  · rintro ⟨hword, hvalue⟩
    exact (lexemes_eq_word_iff.mpr ⟨hword, hvalue.symm⟩).2.2

end Lexer

end ProtoSchema
