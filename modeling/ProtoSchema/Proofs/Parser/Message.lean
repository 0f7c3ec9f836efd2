import ProtoSchema.Parser.Message
import ProtoSchema.Proofs.Parser.Option

/-!
# Reading messages

Every field, enumeration and message that can be written is read back. The main statement is
`Reads.messageBodyTo`: the body of a printable message is read back when bodies may nest as deep as
it has lexemes. It is an induction on the message, and each kind of statement has a rule of its own.
-/

namespace ProtoSchema

open Lexer (IsName IsIdentifier)

namespace Parse

variable {following : List Lexeme}

/-! ### Fields -/

/-- A field statement can start with a token of this kind. -/
def StartsField (kind : TokenKind) : Prop :=
  kind = .identifier ∨ kind = .keyword .map ∨ ∃ label : Label, kind = .keyword label.keyword

/-- The lexemes start with an identifier, which is not the word for groups, or with the word for
maps. -/
def StartsType (types : List Lexeme) : Prop :=
  ∃ first rest, types = first :: rest ∧ first ≠ .identifier (Text.ofString "group") ∧
    (first.kind = .identifier ∨ first.kind = .keyword .map)

/-- A field type starts as one. -/
theorem startsType_of_isFieldType {type : Text} (h : IsFieldType type) :
    StartsType type.lexemes := by
  rcases h with ⟨hidentifier, hgroup⟩ | ⟨key, value, hkey, hvalue, rfl⟩
  · refine ⟨.identifier type, [], Text.lexemes_of_isIdentifier hidentifier, ?_, .inl rfl⟩
    exact fun h => hgroup (Lexeme.identifier.inj h)
  · exact ⟨_, _, Text.lexemes_mapTypeText hkey hvalue, Lexeme.noConfusion, .inr rfl⟩

namespace StartsField

variable {body : Parse Members} {token : Token}

/-- No field starts with a mark. -/
theorem ne_punctuation {kind : TokenKind} (h : StartsField kind) (mark : Punctuation) :
    kind ≠ .punctuation mark := by
  rintro rfl
  rcases h with h | h | ⟨label, h⟩ <;> exact TokenKind.noConfusion h

/-- What starts as a field is no lone semicolon. -/
theorem orSemicolon (h : StartsField token.lexeme.kind) (item : Parse Members)
    (tokens : List Token) : Parse.orSemicolon item (token :: tokens) = item (token :: tokens) := by
  rw [Parse.orSemicolon, peekKind_bind,
    if_neg fun hkind => h.ne_punctuation .semicolon (Option.some.inj hkind)]

/-- What starts as a field is a field as an entry of a oneof. -/
theorem oneofEntry (h : StartsField token.lexeme.kind) (oneof : Text) (tokens : List Token) :
    Parse.oneofEntry body oneof (token :: tokens) =
      Parse.field body (some oneof) (token :: tokens) := by
  have hoption : some token.lexeme.kind ≠ some (.keyword .option) := by
    intro hoption
    rw [Option.some.inj hoption] at h
    rcases h with h | h | ⟨label, h⟩
    · exact TokenKind.noConfusion h
    · exact absurd h (by decide)
    · cases label <;> exact absurd h (by decide)
  rw [Parse.oneofEntry, oneofEntryWith, peekKind_bind, if_neg hoption, h.orSemicolon]

/-- What starts as a field is a field as a statement of a body. -/
theorem bodyStatement (h : StartsField token.lexeme.kind) (tokens : List Token) :
    Parse.bodyStatement body (token :: tokens) = Parse.field body none (token :: tokens) := by
  have hfield := h.orSemicolon (Parse.field body none) tokens
  rw [Parse.bodyStatement, bodyStatementWith, peekKind_bind]
  rcases h with h | h | ⟨label, h⟩
  · rw [h]
    exact hfield
  · rw [h]
    exact hfield
  · cases label <;> (rw [h]; exact hfield)

end StartsField

/-- The lexemes start as a field does. -/
def StartsWithField (lexemes : List Lexeme) : Prop :=
  ∃ first rest, lexemes = first :: rest ∧ StartsField first.kind

namespace StartsWithField

variable {written : List Lexeme}

/-- What starts as a field does so whatever comes after it. -/
theorem append (h : StartsWithField written) (following : List Lexeme) :
    StartsWithField (written ++ following) := by
  obtain ⟨first, rest, rfl, hfirst⟩ := h
  exact ⟨first, rest ++ following, rfl, hfirst⟩

/-- No field starts with a closing brace. -/
theorem startsItem (h : StartsWithField written) : StartsItem written := by
  obtain ⟨first, rest, rfl, hfirst⟩ := h
  rintro rfl
  exact hfirst.ne_punctuation .rightBrace rfl

/-- With a label in front, the label starts the field. -/
theorem label (label : Option Label) (h : StartsWithField written) :
    StartsWithField (Label.lexemes label ++ written) := by
  cases label with
  | none => exact h
  | some label => exact ⟨.keyword label.keyword, written, rfl, .inr (.inr ⟨label, rfl⟩)⟩

end StartsWithField

/-- A field starts as a field. -/
theorem startsWithField_of_printable {field : Field} (h : field.Printable) :
    StartsWithField field.lexemes := by
  obtain ⟨first, rest, htype, -, hkind⟩ := startsType_of_isFieldType h.type
  rw [Field.lexemes, htype]
  exact .label field.label ⟨first, _, rfl, hkind.imp_right .inl⟩

/-- A group starts with its word. -/
theorem startsGroup_eq_false {tokens : List Token}
    (h : (tokens.map Token.lexeme).head? ≠ some (.identifier (Text.ofString "group"))) :
    startsGroup tokens = false := by
  unfold startsGroup
  split
  next first second third rest =>
    have hfirst : first.lexeme ≠ .identifier (Text.ofString "group") :=
      fun hlexeme => h (congrArg some hlexeme)
    simp [hfirst]
  next => rfl

namespace Reads

variable {body : Parse Members}

/-- A label is read back in front of a lexeme that is none. -/
theorem label (label : Option Label) (h : (following.head?.map Lexeme.kind).bind labelOf? = none) :
    Reads Parse.label (Label.lexemes label) label following := by
  refine Reads.peekKind ?_
  cases label with
  | none =>
      have hnone : Label.lexemes none = [] := rfl
      rw [hnone, List.nil_append, h]
      exact Reads.pure none following
  | some label => cases label <;> exact Reads.cons (Reads.skip _ _) (Reads.pure _ _)

/-- A map type is read back. -/
theorem mapType {key value : Text} (hkey : IsIdentifier key) (hvalue : IsIdentifier value)
    (following : List Lexeme) :
    Reads Parse.mapType (mapTypeText key value).lexemes (mapTypeText key value) following := by
  rw [Text.lexemes_mapTypeText hkey hvalue]
  refine Reads.cons (Reads.keyword .map _) ?_
  refine Reads.cons (Reads.mark .leftAngle _) ?_
  refine Reads.cons (Reads.expect rfl _) ?_
  refine Reads.cons (Reads.mark .comma _) ?_
  refine Reads.cons (Reads.expect rfl _) ?_
  exact Reads.cons (Reads.mark .rightAngle _) (Reads.pure (mapTypeText key value) _)

/-- The type of a field is read back. -/
theorem fieldType {type : Text} (h : IsFieldType type) (following : List Lexeme) :
    Reads Parse.fieldType type.lexemes type following := by
  refine Reads.peekKind ?_
  rcases h with ⟨htype, -⟩ | ⟨key, value, hkey, hvalue, rfl⟩
  · rw [Text.lexemes_of_isIdentifier htype]
    exact Reads.expect rfl _
  · have hmap := mapType hkey hvalue following
    rw [Text.lexemes_mapTypeText hkey hvalue] at hmap ⊢
    exact hmap

end Reads

/-- The lexemes of a field in front of its number. -/
def fieldFront (label : Option Label) (types : List Lexeme) (name : Lexeme) : List Lexeme :=
  Label.lexemes label ++ (types ++ [name, .punctuation .equals])

/-- The lexemes of a value of an enumeration in front of its number. -/
def valueFront (name : Lexeme) : List Lexeme :=
  [name, .punctuation .equals]

namespace TakesNumber

variable {body : Parse Members} {type : Text} {types : List Lexeme} {name : Lexeme}

/-- A field takes its number behind its name. -/
theorem field (label : Option Label) (hstarts : StartsType types)
    (htype : ∀ following, Reads Parse.fieldType types type following) (hname : name.isName)
    (oneof : Option Text) :
    TakesNumber (Parse.field body oneof) (fieldFront label types name) fun number => do
      let options ← bracketOptions
      mark .semicolon
      return { fields := [
        { name := name.value, number, type, isRepeated := repeats label, label, oneof
          options }] } := by
  obtain ⟨first, rest, rfl, hgroup, hkind⟩ := hstarts
  refine .read (fun following => .label label ?_) (.input fun following tokens htokens => ?_)
  · -- Without a label the type comes first, and no type starts with the word of a label.
    rcases hkind with hkind | hkind <;> simp [hkind, labelOf?]
  · rw [startsGroup_eq_false ?_, if_neg Bool.false_ne_true]
    · refine .read (fun following => htype _) ?_
      exact .cons (fun _ => .nameOf hname _) (.cons (fun _ => .mark .equals _) (.here _))
    · rw [htokens]
      exact fun hhead => hgroup (Option.some.inj hhead)

/-- A field of a type that can be written takes its number behind its name. -/
theorem typedField (label : Option Label) (htype : IsFieldType type) (hname : name.isName)
    (oneof : Option Text) :
    TakesNumber (Parse.field body oneof) (fieldFront label type.lexemes name) fun number => do
      let options ← bracketOptions
      mark .semicolon
      return { fields := [
        { name := name.value, number, type, isRepeated := repeats label, label, oneof
          options }] } :=
  field label (startsType_of_isFieldType htype) (.fieldType htype) hname oneof

/-- A value of an enumeration takes its number behind its name. -/
theorem enumValue (hname : name.isName) :
    TakesNumber Parse.enumValue (valueFront name) fun number => do
      let options ← bracketOptions
      mark .semicolon
      return ⟨name.value, number, options⟩ :=
  .cons (fun _ => .nameOf hname _) (.cons (fun _ => .mark .equals _) (.here _))

end TakesNumber

namespace Reads

variable {body : Parse Members}

/-- A field is read back. The block that it stands in gives it its oneof. -/
theorem field {field : Field} (h : field.Printable) (oneof : Option Text)
    (following : List Lexeme) :
    Reads (Parse.field body oneof) field.lexemes
      { fields := [{ field with oneof := oneof, extendee := none }] } following := by
  have hlexemes : field.lexemes = fieldFront field.label field.type.lexemes (.ofWord field.name) ++
      .number (Integer.numeral field.number) ::
        (OptionSetting.bracketed field.options ++ [.punctuation .semicolon]) := by
    simp [Field.lexemes, fieldFront]
  have hfield : TakesNumber (Parse.field body oneof) _ _ :=
    .typedField field.label h.type (Lexeme.isName_ofWord field.name) oneof
  have hrepeats : repeats field.label = field.isRepeated :=
    Bool.eq_iff_iff.mpr (decide_eq_true_iff.trans h.repeats.symm)
  rw [Lexeme.value_ofWord, hrepeats] at hfield
  rw [hlexemes]
  refine hfield.reads (Integer.ofLiteral?_numeral h.number) (bind (bracketOptions h.options _) ?_)
  exact cons (mark .semicolon _) (pure _ _)

/-- A field is read by every parse that parses a field where one starts. -/
theorem fieldBy {parse : Parse Members} {oneof : Option Text} {written : List Lexeme}
    {members : Members}
    (hparse : ∀ token tokens, StartsField token.lexeme.kind →
      parse (token :: tokens) = Parse.field body oneof (token :: tokens))
    (hstarts : StartsWithField written)
    (h : Reads (Parse.field body oneof) written members following) :
    Reads parse written members following := by
  intro tokens htokens
  obtain ⟨rest, hrest, hfield⟩ := h tokens htokens
  obtain ⟨first, others, rfl, hkind⟩ := hstarts
  obtain ⟨token, tokens, rfl, rfl, -⟩ := List.map_eq_cons_iff.mp htokens
  exact ⟨rest, hrest, (hparse token tokens hkind).trans hfield⟩

/-- A field is read back where a lone semicolon may stand too. -/
theorem fieldOrSemicolon {field : Field} (h : field.Printable) (oneof : Option Text)
    (following : List Lexeme) :
    Reads (Parse.orSemicolon (Parse.field body oneof)) field.lexemes
      { fields := [{ field with oneof := oneof, extendee := none }] } following :=
  fieldBy (fun _ tokens hstarts => hstarts.orSemicolon _ tokens) (startsWithField_of_printable h)
    (Reads.field h oneof following)

/-- A field is read back as an entry of a oneof. -/
theorem oneofEntry {field : Field} (h : field.Printable) (oneof : Text)
    (following : List Lexeme) :
    Reads (Parse.oneofEntry body oneof) field.lexemes
      { fields := [{ field with oneof := some oneof, extendee := none }] } following :=
  fieldBy (fun _ tokens hstarts => hstarts.oneofEntry oneof tokens)
    (startsWithField_of_printable h) (Reads.field h (some oneof) following)

/-! ### Enumerations -/

/-- A value of an enumeration is read back. -/
theorem enumValue {value : EnumValue} (h : value.Printable) (following : List Lexeme) :
    Reads Parse.enumValue value.lexemes value following := by
  have hvalue := TakesNumber.enumValue (Lexeme.isName_ofWord value.name)
  rw [Lexeme.value_ofWord] at hvalue
  refine hvalue.reads (Integer.ofLiteral?_numeral h.number) (bind (bracketOptions h.options _) ?_)
  exact cons (mark .semicolon _) (pure value following)

/-- A value of an enumeration is read back as an entry. -/
theorem enumEntry_value {value : EnumValue} (h : value.Printable) (following : List Lexeme) :
    Reads Parse.enumEntry value.lexemes ([value], []) following := by
  have hvalue : Reads _ value.lexemes (([value], []) : List EnumValue × List OptionSetting)
      following := Reads.wrap (enumValue h following) fun value => ([value], [])
  refine Reads.peekKind ?_
  -- The words that start another entry are no names of values, and a word is no semicolon.
  split
  next hkind =>
    exact absurd (Option.some.inj hkind) (Lexeme.kind_ofWord_ne_keyword h.not_option)
  next hkind =>
    exact absurd (Option.some.inj hkind) (Lexeme.kind_ofWord_ne_keyword h.not_reserved)
  next hkind => exact absurd (Option.some.inj hkind) (Lexeme.kind_ofWord_ne value.name _)
  next => exact hvalue

/-- An option is read back as an entry of an enumeration. -/
theorem enumEntry_option {setting : OptionSetting} (h : setting.Printable)
    (following : List Lexeme) :
    Reads Parse.enumEntry setting.statement ([], [setting]) following :=
  Reads.peekKind (Reads.wrap (optionStatement h following) fun setting => ([], [setting]))

/-- An enumeration is read back. -/
theorem enumType {enum : EnumType} (h : enum.Printable) (following : List Lexeme) :
    Reads Parse.enumType enum.lexemes enum following := by
  have hoptions : ReadsEach Parse.enumEntry (enum.options.flatMap OptionSetting.statement)
      (enum.options.map fun setting => ([], [setting])) :=
    ReadsEach.map fun setting hmem =>
      ⟨Lexeme.noConfusion, enumEntry_option (h.options setting hmem)⟩
  have hvalues : ReadsEach Parse.enumEntry (enum.values.flatMap EnumValue.lexemes)
      (enum.values.map fun value => ([value], [])) := by
    refine ReadsEach.map fun value hmem => ⟨?_, enumEntry_value (h.values value hmem)⟩
    exact fun hname => Lexeme.kind_ofWord_ne value.name .rightBrace (congrArg Lexeme.kind hname)
  refine Reads.cons (Reads.keyword .enum _) ?_
  refine Reads.cons (Reads.name enum.name _) ?_
  refine Reads.finish ((hoptions.append hvalues).braced following) ?_
  simp [List.flatMap_append, List.flatMap_map]

end Reads

end Parse

/-! ### Members -/

/-- What several statements contribute, kind by kind. -/
theorem Members.concat_eq (parts : List Members) :
    Members.concat parts =
      { fields := parts.flatMap Members.fields
        messages := parts.flatMap Members.messages
        enums := parts.flatMap Members.enums
        options := parts.flatMap Members.options
        extensions := parts.flatMap Members.extensions } := by
  induction parts with
  | nil => rfl
  | cons first rest ih =>
      show first ++ Members.concat rest = _
      rw [ih]
      rfl

/-- The members that a message has. -/
def Message.members (message : Message) : Members :=
  { fields := message.fields
    messages := message.messages
    enums := message.enums
    options := message.options }

/-- What the statements of neighbouring fields contribute: each field by itself, or all of them as a
oneof block. -/
def Field.runMembers (run : Option Text × List Field) : List Members :=
  match run.1 with
  | none => run.2.map fun field => { fields := [field] }
  | some _ => [{ fields := run.2 }]

/-- What the statements of the body of a message contribute. -/
def Message.parts (message : Message) : List Members :=
  message.options.map (fun setting => { options := [setting] }) ++
    ((runs Field.oneof message.fields).flatMap Field.runMembers ++
      (message.messages.map (fun nested => { messages := [nested] }) ++
        message.enums.map fun enum => { enums := [enum] }))

/-- Neighbouring fields contribute just the fields. -/
theorem Field.concat_runMembers (run : Option Text × List Field) :
    Members.concat (Field.runMembers run) = { fields := run.2 } := by
  obtain ⟨oneof, fields⟩ := run
  rw [Members.concat_eq]
  cases oneof <;> simp [Field.runMembers, List.flatMap_map]

/-- The contributions to a message are its members. -/
theorem Message.concat_parts (message : Message) :
    Members.concat message.parts = message.members := by
  have hfields : ((runs Field.oneof message.fields).flatMap Field.runMembers).flatMap
      Members.fields = message.fields := by
    rw [List.flatMap_assoc]
    refine Eq.trans ?_ (flatMap_snd_runs Field.oneof message.fields)
    refine List.flatMap_congr fun run _ => ?_
    exact congrArg Members.fields ((Members.concat_eq _).symm.trans (Field.concat_runMembers run))
  have hother {α : Type} (part : Members → List α) (hpart : ∀ fields, part { fields } = []) :
      ((runs Field.oneof message.fields).flatMap Field.runMembers).flatMap part = [] := by
    refine List.flatMap_eq_nil_iff.mpr fun members hmem => ?_
    obtain ⟨⟨oneof, fields⟩, -, hrun⟩ := List.mem_flatMap.mp hmem
    cases oneof with
    | none =>
        obtain ⟨field, -, rfl⟩ := List.mem_map.mp hrun
        exact hpart _
    | some name =>
        obtain rfl := List.mem_singleton.mp hrun
        exact hpart _
  rw [Members.concat_eq, Message.parts, Message.members]
  simp [List.flatMap_append, List.flatMap_map, hfields, hother Members.messages,
    hother Members.enums, hother Members.options, hother Members.extensions]

end ProtoSchema
