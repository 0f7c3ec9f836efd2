import ProtoSchema.Proofs.Parser.Group
import ProtoSchema.Proofs.Parser.Literals
import ProtoSchema.Proofs.Token.Concatenation

/-!
# Numbers in a schema

An integer literal is one lexeme wherever it stands apart from what surrounds it, and each place of
the grammar that takes a number reads it as the integer that it denotes. Main statement:
`integerLiterals_decode`.
-/

namespace ProtoSchema

open Lexer (EndsApart EndsInside continuesNumber lexemes nextIs)

/-! ### Literals in a text -/

namespace Lexer

/-- Alphanumeric code points belong to the number before them. -/
theorem numberTail_of_isAlphanumeric {text : Text} (h : ∀ c ∈ text, c.isAlphanumeric)
    (hexadecimal : Bool) (previous : CodePoint) : numberTail hexadecimal previous text = text := by
  induction text generalizing previous with
  | nil => rfl
  | cons c text ih =>
      obtain ⟨hc, htext⟩ := List.forall_mem_cons.mp h
      rw [numberTail_cons_of_isAlphanumeric hc, ih htext]

/-- A digit and alphanumeric code points behind it are a number, with a sign or without one. -/
theorem isNumber_of_isAsciiDigit {c : CodePoint} {rest : Text} (hc : c.isAsciiDigit)
    (hrest : ∀ d ∈ rest, d.isAlphanumeric) :
    IsNumber (c :: rest) ∧ ∀ sign, isSign sign → IsNumber (sign :: c :: rest) := by
  have hdigit := isDigit_of_isAsciiDigit hc
  refine ⟨⟨?_, numberTail_of_isAlphanumeric hrest _ _⟩, fun sign hsign => ⟨?_, ?_⟩⟩
  · rw [startsNumber, hdigit, Bool.true_or]
  · simp [startsNumber, nextIs, hsign, hdigit]
  · exact numberTail_of_isAlphanumeric
      (List.forall_mem_cons.mpr ⟨isAlphanumeric_of_isAsciiDigit hc, hrest⟩) _ _

/-- A literal that denotes an integer is a number. -/
theorem isNumber_of_denotes {spelling : Text} {value : Int} (h : Integer.Denotes spelling value) :
    IsNumber spelling := by
  have hboth {digits : Text} {number : Nat} (hdigits : Integer.DenotesNatural digits number) :
      IsNumber digits ∧ ∀ sign, isSign sign → IsNumber (sign :: digits) := by
    obtain ⟨c, rest, rfl, hc⟩ := hdigits.exists_cons
    exact isNumber_of_isAsciiDigit hc fun d hmem => (hdigits.ascii (List.mem_cons_of_mem c hmem)).2
  cases h with
  | plain hdigits => exact (hboth hdigits).1
  | plus hdigits => exact (hboth hdigits).2 _ (by decide)
  | minus hdigits => exact (hboth hdigits).2 _ (by decide)

/-- A word or a number stands apart behind a blank and behind a mark. -/
theorem endsApart_concat {c : CodePoint}
    (h : c.isBlank ∨ ∃ mark : Punctuation, CodePoint.ofChar mark.char = c) (front : Text) :
    EndsApart (front ++ [c]) := by
  intro last hlast
  rw [List.getLast?_concat] at hlast
  obtain rfl := Option.some.inj hlast
  rcases h with hblank | ⟨mark, rfl⟩
  · exact isOrdinary_of_isBlank hblank
  · cases mark <;> decide

/-- The text is one number wherever it stands outside of comments and strings, apart from what comes
before it and in front of a text that does not go on with a number. Texts are scanned around it as
they are alone. -/
def IsOneNumber (spelling : Text) : Prop :=
  ∀ {before after : Text}, EndsApart before → ¬ EndsInside before →
    nextIs continuesNumber after = false →
    lexemes (before ++ (spelling ++ after)) = (lexemes before).bind fun front =>
      (lexemes after).map fun following => front ++ .number spelling :: following

/-- A number is one number wherever it stands apart. -/
theorem IsNumber.isOneNumber {spelling : Text} (h : IsNumber spelling) : IsOneNumber spelling := by
  intro before after happart hinside hafter
  have hplain : GoesOnPlain (spelling ++ after) := by
    cases spelling with
    | nil => exact h.elim
    | cons c rest =>
        have hc := h.isOrdinary List.mem_cons_self
        have hslash : c ≠ '/' := ne_of_isOrdinary hc (by decide)
        have hstar : c ≠ '*' := ne_of_isOrdinary hc (by decide)
        simp [GoesOnPlain, nextIs, hslash, hstar]
  rw [lexemes_append happart hinside hplain, lexemes_number h hafter]
  cases lexemes before with
  | error cause => rfl
  | ok front => cases lexemes after <;> rfl

end Lexer

open Parse

/-! ### What is read and what is refused -/

/-- The literal is one number in a text, and each place for a number reads it as the integer: a
field, a group, a value of an enumeration and the value of an option. The statements are read to
their ends, with the options behind the number. -/
structure IsReadAs (spelling : Text) (value : Int) : Prop where
  scanned : Lexer.IsOneNumber spelling
  field (body : Parse Members) (label : Option Label) (oneof : Option Text) {type : Text}
    {name : Lexeme} {options following : List Lexeme} {settings : List OptionSetting} :
    IsFieldType type → name.isName →
    Reads bracketOptions options settings (.punctuation .semicolon :: following) →
    Reads (Parse.field body oneof)
      (fieldFront label type.lexemes name ++
        .number spelling :: (options ++ [.punctuation .semicolon]))
      { fields := [{ name := name.value, number := value, type, isRepeated := repeats label, label,
                     oneof, options := settings }] } following
  group (body : Parse Members) (label : Option Label) (oneof : Option Text) {name : Lexeme}
    {options inside following : List Lexeme} {settings : List OptionSetting} {members : Members} :
    name.isName →
    Reads bracketOptions options settings
      (.punctuation .leftBrace :: (inside ++ [.punctuation .rightBrace]) ++ following) →
    Reads body inside members (.punctuation .rightBrace :: following) →
    Reads (Parse.field body oneof)
      (groupFront label name ++ .number spelling ::
        (options ++ .punctuation .leftBrace :: (inside ++ [.punctuation .rightBrace])))
      { members.declared name.value with
        fields := [{ name := Text.lower name.value, number := value, type := name.value,
                     isRepeated := repeats label, label, oneof, options := settings }] } following
  enumValue {name : Lexeme} {options following : List Lexeme} {settings : List OptionSetting} :
    name.isName →
    Reads bracketOptions options settings (.punctuation .semicolon :: following) →
    Reads Parse.enumValue
      (valueFront name ++ .number spelling :: (options ++ [.punctuation .semicolon]))
      ⟨name.value, value, settings⟩ following
  option {name : Text} {written following : List Lexeme} :
    Reads optionName written name (.punctuation .equals :: .number spelling :: following) →
    Reads optionSetting (written ++ [.punctuation .equals, .number spelling])
      ⟨name, .integer value⟩ following

/-- The literal is one number in a text, and it is refused as the number of a field, of a group and
of a value of an enumeration, whatever follows. -/
structure IsRefused (spelling : Text) : Prop where
  scanned : Lexer.IsOneNumber spelling
  field (body : Parse Members) (label : Option Label) (oneof : Option Text) {type : Text}
    {name : Lexeme} (following : List Lexeme) : IsFieldType type → name.isName →
    Refuses (Parse.field body oneof) (fieldFront label type.lexemes name) .invalidInteger
      (.number spelling :: following)
  group (body : Parse Members) (label : Option Label) (oneof : Option Text) {name : Lexeme}
    (following : List Lexeme) : name.isName →
    Refuses (Parse.field body oneof) (groupFront label name) .invalidInteger
      (.number spelling :: following)
  enumValue {name : Lexeme} (following : List Lexeme) : name.isName →
    Refuses Parse.enumValue (valueFront name) .invalidInteger (.number spelling :: following)

/-- A number that stands for an integer is read as it. -/
theorem isReadAs_of_ofLiteral? {spelling : Text} {value : Int} (hnumber : Lexer.IsNumber spelling)
    (h : Integer.ofLiteral? spelling = some value) : IsReadAs spelling value where
  scanned := hnumber.isOneNumber
  field _ label oneof _ _ _ _ _ htype hname hoptions :=
    (TakesNumber.typedField label htype hname oneof).reads h
      (.bind hoptions (.cons (.mark .semicolon _) (.pure _ _)))
  group _ label oneof _ _ _ _ _ _ hname hoptions hbody :=
    (TakesNumber.group label hname oneof).reads h
      (.bind hoptions (.cons (.mark .leftBrace _)
        (.bind hbody (.cons (.mark .rightBrace _) (.pure _ _)))))
  enumValue hname hoptions :=
    (TakesNumber.enumValue hname).reads h
      (.bind hoptions (.cons (.mark .semicolon _) (.pure _ _)))
  option {name _ _} hname :=
    .bind hname (.cons (.mark .equals _)
      (.wrap (.constant_integer h _) (OptionSetting.mk name)))

/-- A number that stands for no integer is refused. -/
theorem isRefused_of_ofLiteral? {spelling : Text} (hnumber : Lexer.IsNumber spelling)
    (h : Integer.ofLiteral? spelling = none) : IsRefused spelling where
  scanned := hnumber.isOneNumber
  field _ label oneof _ _ following htype hname :=
    (TakesNumber.typedField label htype hname oneof).refuses h following
  group _ label oneof _ following hname :=
    (TakesNumber.group label hname oneof).refuses h following
  enumValue following hname := (TakesNumber.enumValue hname).refuses h following

/-- Every literal that denotes an integer is read as exactly this integer: decimal digits without a
superfluous zero, octal digits behind a zero and hexadecimal digits behind `0x`, with a sign or
without one. Decimal digits that start with a zero and have an eight or a nine among them are
refused. -/
theorem integerLiterals_decode :
    (∀ {spelling : Text} {value : Int}, Integer.Denotes spelling value →
      IsReadAs spelling value) ∧
    ∀ {digits : Text}, (∀ c ∈ digits, c.isAsciiDigit) →
      digits.head? = some (CodePoint.ofChar '0') → (∃ c ∈ digits, c = '8' ∨ c = '9') →
      IsRefused digits := by
  refine ⟨fun h => ?_, fun hdigits hzero hlarge => ?_⟩
  · exact isReadAs_of_ofLiteral? (Lexer.isNumber_of_denotes h) (Integer.ofLiteral?_of_denotes h)
  · refine isRefused_of_ofLiteral? ?_ (Integer.ofLiteral?_of_leadingZero hdigits hzero hlarge)
    obtain ⟨rest, rfl⟩ := List.head?_eq_some_iff.mp hzero
    obtain ⟨hfirst, hrest⟩ := List.forall_mem_cons.mp hdigits
    exact (Lexer.isNumber_of_isAsciiDigit hfirst fun d hmem =>
      Lexer.isAlphanumeric_of_isAsciiDigit (hrest d hmem)).1

/-- A hexadecimal literal that has a sign and ends with an `E`, and digits behind a superfluous
zero, both right behind a mark. -/
theorem integerLiterals_decode_signed :
    let before : Text := "x ="
    (Integer.Denotes "-0x1E" (-30) ∧ EndsApart before ∧ ¬ EndsInside before) ∧
      lexemes (before ++ (Text.ofString "-0x1E" ++ Text.ofString ";")) = .ok [.identifier "x",
        .punctuation .equals, .number "-0x1E", .punctuation .semicolon] ∧
      Reads Parse.enumValue [.identifier "x", .punctuation .equals, .number "-0x1E",
        .punctuation .semicolon] ⟨"x", -30, []⟩ [] ∧
      lexemes (before ++ (Text.ofString "089" ++ Text.ofString ";")) = .ok [.identifier "x",
        .punctuation .equals, .number "089", .punctuation .semicolon] ∧
      Refuses Parse.enumValue [.identifier "x", .punctuation .equals] .invalidInteger
        [.number "089", .punctuation .semicolon] := by
  intro before
  obtain ⟨hread, hrefused⟩ := integerLiterals_decode
  have hdenotes : Integer.Denotes "-0x1E" (-30) :=
    .minus (.hexadecimal (.inl rfl) (show Integer.Spells 16 "1E" 30 by decide) (by decide))
  have hapart : EndsApart before := Lexer.endsApart_concat (.inr ⟨.equals, rfl⟩) "x "
  have hinside : ¬ EndsInside before := Lexer.not_endsInside_of_plain (by decide)
  have hname : (Lexeme.identifier "x").isName := rfl
  have hoptions : Reads bracketOptions [] [] [.punctuation .semicolon] := .peekKind (.pure [] _)
  have hliteral := hread hdenotes
  have hzero : IsRefused "089" := hrefused (by decide) rfl ⟨'8', by decide, .inl rfl⟩
  refine ⟨⟨hdenotes, hapart, hinside⟩, ?_, ?_, ?_, ?_⟩
  · exact hliteral.scanned hapart hinside rfl
  · exact hliteral.enumValue hname hoptions
  · exact hzero.scanned hapart hinside rfl
  · exact hzero.enumValue [.punctuation .semicolon] hname

end ProtoSchema
