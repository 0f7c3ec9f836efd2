import ProtoSchema.Proofs.Token.Layout
import ProtoSchema.Schema.File

/-!
# Writing schemas

The concrete syntax of a schema. Every declaration is written as a list of lexemes, and
`Schema.written` lays out those of a whole schema as text. `Printable` describes the declarations
that have a concrete syntax: names are names, types are field types, and numbers are short enough to
be written. Every lexeme of a printable schema is scanned as it is written
(`Schema.Printable.writable`).
-/

namespace ProtoSchema

open Lexer (IsName IsIdentifier IsWord)

/-! ### Names, types and options -/

/-- The lexemes of a text, none if it has a wrong escape. -/
def Text.lexemes (text : Text) : List Lexeme :=
  (Lexer.lexemes text).toOption.getD []

/-- The notation of a map type. -/
def mapTypeText (key value : Text) : Text :=
  Text.ofString "map<" ++ key ++ Text.ofString ", " ++ value ++ Text.ofString ">"

/-- The text is the type of a field: an identifier other than the word for groups, or a map of
identifiers. -/
def IsFieldType (type : Text) : Prop :=
  (IsIdentifier type ∧ type ≠ Text.ofString "group") ∨
    ∃ key value, IsIdentifier key ∧ IsIdentifier value ∧ type = mapTypeText key value

/-- The name of an option in parentheses, and a further part after it. -/
def extensionName (extension subname : Text) : Text :=
  Text.ofString "(" ++ extension ++ Text.ofString ")" ++ subname

/-- The text is the name of an option: a name, or an identifier in parentheses that an identifier
with a dot in front may follow. -/
def IsOptionName (name : Text) : Prop :=
  IsName name ∨ ∃ extension subname, IsIdentifier extension ∧
    (subname = [] ∨ (IsIdentifier subname ∧ subname.head? = some '.')) ∧
    name = extensionName extension subname

/-- The lexeme of a constant. A floating-point value is written as its text. -/
def Constant.lexeme : Constant → Lexeme
  | bool true => .identifier (Text.ofString "true")
  | bool false => .identifier (Text.ofString "false")
  | integer value => .number (Integer.numeral value)
  | float value => .number value.toText
  | text value => .string value

/-- The constant is a truth value, a text or an integer that can be written. -/
def Constant.Printable : Constant → Prop
  | integer value => Integer.IsShort value
  | float _ => False
  | _ => True

namespace OptionSetting

/-- The setting has a name and a value that can be written. -/
structure Printable (setting : OptionSetting) : Prop where
  name : IsOptionName setting.name
  value : setting.value.Printable

/-- The name, an equals sign and the value. -/
def lexemes (setting : OptionSetting) : List Lexeme :=
  setting.name.lexemes ++ [.punctuation .equals, setting.value.lexeme]

/-- The option statement. -/
def statement (setting : OptionSetting) : List Lexeme :=
  .keyword .option :: (setting.lexemes ++ [.punctuation .semicolon])

/-- Further settings, each after a comma. -/
def furtherLexemes (settings : List OptionSetting) : List Lexeme :=
  settings.flatMap fun setting => .punctuation .comma :: setting.lexemes

/-- Settings between brackets, or nothing where there are none. -/
def bracketed : List OptionSetting → List Lexeme
  | [] => []
  | first :: rest =>
      .punctuation .leftBracket ::
        (first.lexemes ++ (furtherLexemes rest ++ [.punctuation .rightBracket]))

end OptionSetting

/-! ### Fields -/

/-- The keyword of a label. -/
def Label.keyword : Label → Keyword
  | optional => .optional
  | required => .required
  | repeated => .repeated

/-- The label of a field, or nothing. -/
def Label.lexemes (label : Option Label) : List Lexeme :=
  label.toList.map fun label => .keyword label.keyword

/-- Neighbours with the same key as one group, for a whole list. -/
def runs {α κ : Type} [DecidableEq κ] (key : α → κ) : List α → List (κ × List α)
  | [] => []
  | first :: rest =>
      match runs key rest with
      | [] => [(key first, [first])]
      | (other, group) :: groups =>
          if key first = other then (other, first :: group) :: groups
          else (key first, [first]) :: (other, group) :: groups

namespace Field

/-- The field has a name and a type as in a field statement. -/
structure IsReadable (field : Field) : Prop where
  name : IsName field.name
  type : IsFieldType field.type

/-- The name, the type and the number of the field can be written. -/
structure IsPlain (field : Field) : Prop extends IsReadable field where
  number : Integer.IsShort field.number

/-- The field can be written, in the block of its oneof or of its extendee. That it repeats is
written by its label alone. -/
structure Printable (field : Field) : Prop extends IsPlain field where
  repeats : field.isRepeated ↔ field.label = some .repeated
  options : ∀ setting ∈ field.options, setting.Printable

/-- The field statement. -/
def lexemes (field : Field) : List Lexeme :=
  Label.lexemes field.label ++ (field.type.lexemes ++ (.ofWord field.name :: .punctuation .equals ::
    .number (Integer.numeral field.number) ::
      (OptionSetting.bracketed field.options ++ [.punctuation .semicolon])))

/-- Neighbouring fields of a message with the same oneof: a oneof block, or just the fields. -/
def oneofLexemes (run : Option Text × List Field) : List Lexeme :=
  match run.1 with
  | none => run.2.flatMap lexemes
  | some name =>
      .keyword .oneof :: .ofWord name :: Lexeme.block (run.2.flatMap lexemes)

/-- The fields of a message. -/
def listLexemes (fields : List Field) : List Lexeme :=
  (runs Field.oneof fields).flatMap oneofLexemes

/-- Neighbouring extensions with the same extendee: an extend block. -/
def extendLexemes (run : Option Text × List Field) : List Lexeme :=
  .keyword .extend :: .identifier (run.1.getD []) :: Lexeme.block (run.2.flatMap lexemes)

end Field

/-! ### Enumerations -/

namespace EnumValue

/-- The value can be written. Its name is none of the words that start another entry. -/
structure Printable (value : EnumValue) : Prop where
  name : IsName value.name
  not_option : value.name ≠ Text.ofString "option"
  not_reserved : value.name ≠ Text.ofString "reserved"
  number : Integer.IsShort value.number
  options : ∀ setting ∈ value.options, setting.Printable

/-- The entry of a value. -/
def lexemes (value : EnumValue) : List Lexeme :=
  .ofWord value.name :: .punctuation .equals :: .number (Integer.numeral value.number) ::
    (OptionSetting.bracketed value.options ++ [.punctuation .semicolon])

end EnumValue

namespace EnumType

/-- The enumeration can be written. -/
structure Printable (enum : EnumType) : Prop where
  name : IsName enum.name
  values : ∀ value ∈ enum.values, value.Printable
  options : ∀ setting ∈ enum.options, setting.Printable

/-- The enumeration, its options first. -/
def lexemes (enum : EnumType) : List Lexeme :=
  .keyword .enum :: .ofWord enum.name :: Lexeme.block
    (enum.options.flatMap OptionSetting.statement ++ enum.values.flatMap EnumValue.lexemes)

end EnumType

/-! ### Messages -/

mutual

/-- What stands between the braces of a message. -/
def Message.bodyLexemes : Message → List Lexeme
  | ⟨_, fields, messages, enums, options⟩ =>
      options.flatMap OptionSetting.statement ++ (Field.listLexemes fields ++
        (Message.listLexemes messages ++ enums.flatMap EnumType.lexemes))

/-- Several messages. -/
def Message.listLexemes : List Message → List Lexeme
  | [] => []
  | first :: rest =>
      .keyword .message :: .ofWord first.name ::
        (Lexeme.block (Message.bodyLexemes first) ++ Message.listLexemes rest)

end

namespace Message

/-- The message. -/
def lexemes (message : Message) : List Lexeme :=
  .keyword .message :: .ofWord message.name :: Lexeme.block message.bodyLexemes

/-- Messages are written one after the other. -/
theorem listLexemes_eq (messages : List Message) :
    listLexemes messages = messages.flatMap lexemes := by
  induction messages with
  | nil => simp [listLexemes]
  | cons first rest ih => simp [listLexemes, lexemes, ih]

/-- The message and the messages nested in it can be written. Its fields extend no other message. -/
inductive Printable : Message → Prop where
  | mk {name : Text} {fields : List Field} {messages : List Message} {enums : List EnumType}
      {options : List OptionSetting} (hname : IsName name)
      (hfields : ∀ field ∈ fields, field.Printable ∧ field.extendee = none ∧
        ∀ oneof ∈ field.oneof, IsName oneof)
      (hmessages : ∀ message ∈ messages, Printable message)
      (henums : ∀ enum ∈ enums, enum.Printable)
      (hoptions : ∀ setting ∈ options, setting.Printable) :
      Printable ⟨name, fields, messages, enums, options⟩

/-- The name of a printable message is a name. -/
theorem Printable.isName {message : Message} (h : message.Printable) : IsName message.name := by
  cases h with
  | mk hname => exact hname

end Message

/-! ### Services -/

namespace Method

/-- The procedure can be written. -/
structure Printable (method : Method) : Prop where
  name : IsName method.name
  input : IsIdentifier method.input
  output : IsIdentifier method.output
  options : ∀ setting ∈ method.options, setting.Printable

/-- One side of a procedure in parentheses. -/
def sideLexemes (streams : Bool) (type : Text) : List Lexeme :=
  .punctuation .leftParen :: ((if streams then [.keyword .stream] else []) ++
    [.identifier type, .punctuation .rightParen])

/-- The block of options, or a semicolon where there are none. -/
def optionLexemes : List OptionSetting → List Lexeme
  | [] => [.punctuation .semicolon]
  | options => Lexeme.block (options.flatMap OptionSetting.statement)

/-- The procedure. -/
def lexemes (method : Method) : List Lexeme :=
  .keyword .rpc :: .ofWord method.name ::
    (sideLexemes method.clientStreaming method.input ++ .keyword .returns ::
      (sideLexemes method.serverStreaming method.output ++ optionLexemes method.options))

end Method

namespace Service

/-- The service can be written. -/
structure Printable (service : Service) : Prop where
  name : IsName service.name
  methods : ∀ method ∈ service.methods, method.Printable
  options : ∀ setting ∈ service.options, setting.Printable

/-- The service, its options first. -/
def lexemes (service : Service) : List Lexeme :=
  .keyword .service :: .ofWord service.name :: Lexeme.block
    (service.options.flatMap OptionSetting.statement ++ service.methods.flatMap Method.lexemes)

end Service

/-! ### Whole schemas -/

namespace Declaration

/-- The declaration can be written. A namespace has no syntax of its own. -/
def Printable : Declaration → Prop
  | message declared => declared.Printable
  | enum declared => declared.Printable
  | service declared => declared.Printable
  | scope _ _ => False

/-- The declaration. -/
def lexemes : Declaration → List Lexeme
  | message declared => declared.lexemes
  | enum declared => declared.lexemes
  | service declared => declared.lexemes
  | scope _ _ => []

end Declaration

/-- The content of a schema file: its dialect, its package, what it imports, and what it declares in
its package. -/
structure Schema where
  dialect : Text
  package : Option Text
  imports : List Text
  options : List OptionSetting
  extensions : List Field
  declarations : List Declaration

namespace Schema

/-- The schema can be written. -/
structure Printable (schema : Schema) : Prop where
  package : ∀ name ∈ schema.package, IsIdentifier name
  options : ∀ setting ∈ schema.options, setting.Printable
  extensions : ∀ field ∈ schema.extensions, field.Printable ∧ field.oneof = none ∧
    ∃ extendee, field.extendee = some extendee ∧ IsIdentifier extendee
  declarations : ∀ declaration ∈ schema.declarations, declaration.Printable

/-- The dialect statement. -/
def dialectLexemes (dialect : Text) : List Lexeme :=
  [.keyword .dialect, .punctuation .equals, .string dialect, .punctuation .semicolon]

/-- The package statement. -/
def packageLexemes (name : Text) : List Lexeme :=
  [.keyword .package, .identifier name, .punctuation .semicolon]

/-- An import statement. -/
def importLexemes (path : Text) : List Lexeme :=
  [.keyword .imports, .string path, .punctuation .semicolon]

/-- The statements of the schema. -/
def lexemes (schema : Schema) : List Lexeme :=
  dialectLexemes schema.dialect ++ (schema.package.toList.flatMap packageLexemes ++
    (schema.imports.flatMap importLexemes ++ (schema.options.flatMap OptionSetting.statement ++
      ((runs Field.extendee schema.extensions).flatMap Field.extendLexemes ++
        schema.declarations.flatMap Declaration.lexemes))))

/-- The schema as text. -/
def written (schema : Schema) : Text :=
  Lexeme.layout schema.lexemes

/-- The namespaces of a file that declares these things in this package. They exist only where
something is declared. -/
def root (schema : Schema) : Namespace :=
  if schema.extensions = [] ∧ schema.declarations.isEmpty then {}
  else ({} : Namespace).append ((schema.package.map (Text.split '.')).getD []) schema.declarations

/-- The schema as a file. -/
def file (schema : Schema) (path : Text) : File :=
  { path
    dialect := schema.dialect
    package := schema.package
    imports := schema.imports
    options := schema.options
    extensions := schema.extensions
    root := schema.root }

end Schema

end ProtoSchema
