import ProtoSchema.Parser.Option
import ProtoSchema.Text.Case

/-!
# Messages

The grammar of messages, of their fields and of extensions. Each statement of a message body
contributes members, and the body is their concatenation. A group is a message and a field of its
type at once. Rules that call each other take their callees as arguments. They are written down in
this way once, put together over the parse of a nested body (`Parse.Rules.over`), and tied into a
knot by `Parse.messageBody`.
-/

namespace ProtoSchema

/-- What the statements of a message body contribute. `extensions` are the fields that extend blocks
in the body, at any depth, add to other messages. -/
structure Members where
  fields : List Field := []
  messages : List Message := []
  enums : List EnumType := []
  options : List OptionSetting := []
  extensions : List Field := []

namespace Members

instance : Append Members where
  append first second :=
    { fields := first.fields ++ second.fields
      messages := first.messages ++ second.messages
      enums := first.enums ++ second.enums
      options := first.options ++ second.options
      extensions := first.extensions ++ second.extensions }

/-- The contributions of several statements, in order. -/
def concat (parts : List Members) : Members :=
  parts.foldr (· ++ ·) {}

/-- The message of this name with these members. Extensions do not belong to it. -/
def toMessage (members : Members) (name : Text) : Message :=
  { name := name
    fields := members.fields
    messages := members.messages
    enums := members.enums
    options := members.options }

/-- A message declared with these members, as a member itself. -/
def declared (members : Members) (name : Text) : Members :=
  { messages := [members.toMessage name], extensions := members.extensions }

/-- The members of an extend block: its fields extend `extendee`, after those of inner blocks. -/
def extending (members : Members) (extendee : Text) : Members :=
  { members with
    fields := []
    extensions := members.extensions ++
      members.fields.map fun field => { field with extendee := some extendee } }

end Members

namespace Parse

/-- The label that a keyword is. -/
def labelOf? : TokenKind → Option Label
  | .keyword .repeated => some .repeated
  | .keyword .optional => some .optional
  | .keyword .required => some .required
  | _ => none

/-- The label of a field, which may be absent. -/
def label : Parse (Option Label) := do
  match (← peekKind).bind labelOf? with
  | some label =>
      skip
      return some label
  | none => return none

/-- A map type, written out with one blank after the comma. -/
def mapType : Parse Text := do
  keyword .map
  mark .leftAngle
  let key ← expect .identifier
  mark .comma
  let value ← expect .identifier
  mark .rightAngle
  return Text.ofString "map<" ++ key ++ Text.ofString ", " ++ value ++ Text.ofString ">"

/-- The type of a field. -/
def fieldType : Parse Text := do
  if (← peekKind) = some (.keyword .map) then mapType else expect .identifier

/-- The tokens start a group: the word `group`, any token and an equals sign. -/
def startsGroup : List Token → Bool
  | first :: _ :: third :: _ =>
      first.lexeme = .identifier (Text.ofString "group") &&
        third.lexeme = .punctuation .equals
  | _ => false

/-- A field under this label repeats. -/
def repeats (label : Option Label) : Bool :=
  label = some .repeated

/-- A group, after its label: a field and the message that is its type. The name of the field is the
name of the message in lower case. -/
def group (body : Parse Members) (label : Option Label) (oneof : Option Text) : Parse Members := do
  let _ ← expect .identifier
  let type ← name
  mark .equals
  let number ← integer
  let options ← bracketOptions
  mark .leftBrace
  let members ← body
  mark .rightBrace
  let field : Field :=
    { name := Text.lower type, number, type, isRepeated := repeats label, label, oneof, options }
  return { members.declared type with fields := [field] }

/-- A field that is no group, after its label. -/
def plainField (label : Option Label) (oneof : Option Text) : Parse Members := do
  let type ← fieldType
  let fieldName ← name
  mark .equals
  let number ← integer
  let options ← bracketOptions
  mark .semicolon
  let field : Field :=
    { name := fieldName, number, type, isRepeated := repeats label, label, oneof, options }
  return { fields := [field] }

/-- A field or a group. -/
def fieldWith (group : Option Label → Option Text → Parse Members) (oneof : Option Text) :
    Parse Members := do
  let label ← label
  if startsGroup (← get) then group label oneof else plainField label oneof

/-- A statement that is skipped if it is a lone semicolon and else parsed as `item`. -/
def orSemicolon (item : Parse Members) : Parse Members := do
  if (← peekKind) = some (.punctuation .semicolon) then
    skip
    return {}
  else item

/-- An entry of a oneof: a field, or an option, which is dropped. -/
def oneofEntryWith (field : Option Text → Parse Members) (oneof : Text) : Parse Members := do
  if (← peekKind) = some (.keyword .option) then
    let _ ← optionStatement
    return {}
  else orSemicolon (field (some oneof))

/-- A oneof block. -/
def oneofWith (field : Option Text → Parse Members) : Parse Members := do
  keyword .oneof
  let oneofName ← name
  return Members.concat (← braced (oneofEntryWith field oneofName))

/-- An extend block. -/
def extensionWith (field : Option Text → Parse Members) : Parse Members := do
  keyword .extend
  let extendee ← expect .identifier
  let parts ← braced (orSemicolon (field none))
  return (Members.concat parts).extending extendee

/-- A value of an enumeration. -/
def enumValue : Parse EnumValue := do
  let valueName ← name
  mark .equals
  let number ← integer
  let options ← bracketOptions
  mark .semicolon
  return ⟨valueName, number, options⟩

/-- An entry of an enumeration. Reserved numbers and lone semicolons contribute nothing. -/
def enumEntry : Parse (List EnumValue × List OptionSetting) := do
  match ← peekKind with
  | some (.keyword .option) => return ([], [← optionStatement])
  | some (.keyword .reserved) =>
      skipStatement
      return ([], [])
  | some (.punctuation .semicolon) =>
      skip
      return ([], [])
  | _ => return ([← enumValue], [])

/-- An enumeration. -/
def enumType : Parse EnumType := do
  keyword .enum
  let enumName ← name
  let entries ← braced enumEntry
  return ⟨enumName, entries.flatMap Prod.fst, entries.flatMap Prod.snd⟩

/-- A message, with its body as a member. -/
def message (body : Parse Members) : Parse Members := do
  keyword .message
  let messageName ← name
  mark .leftBrace
  let members ← body
  mark .rightBrace
  return members.declared messageName

/-- The rules of the grammar that call each other. -/
structure Rules where
  body : Parse Members
  message : Parse Members
  field : Option Text → Parse Members
  group : Option Label → Option Text → Parse Members
  oneof : Parse Members
  extension : Parse Members

/-- A statement of a message body. -/
def bodyStatementWith (callees : Rules) : Parse Members := do
  match ← peekKind with
  | some (.keyword .message) => callees.message
  | some (.keyword .enum) => return { enums := [← enumType] }
  | some (.keyword .option) => return { options := [← optionStatement] }
  | some (.keyword .oneof) => callees.oneof
  | some (.keyword .extend) => callees.extension
  | some (.keyword .reserved) | some (.keyword .extensions) =>
      skipStatement
      return {}
  | _ => orSemicolon (callees.field none)

/-! ### The rules over a nested body -/

/-- A field or a group. -/
def field (body : Parse Members) (oneof : Option Text) : Parse Members :=
  fieldWith (group body) oneof

/-- An entry of a oneof: a field, or an option, which is dropped. -/
def oneofEntry (body : Parse Members) (oneof : Text) : Parse Members :=
  oneofEntryWith (field body) oneof

/-- A oneof block. -/
def oneof (body : Parse Members) : Parse Members :=
  oneofWith (field body)

/-- An extend block. -/
def extension (body : Parse Members) : Parse Members :=
  extensionWith (field body)

/-- The rules of the grammar over the parse of a nested body. -/
def Rules.over (body : Parse Members) : Rules where
  body := body
  message := Parse.message body
  field := Parse.field body
  group := Parse.group body
  oneof := Parse.oneof body
  extension := Parse.extension body

/-- A statement of a message body. -/
def bodyStatement (body : Parse Members) : Parse Members :=
  bodyStatementWith (.over body)

/-- A message body with bodies nested to at most this depth. -/
def messageBodyTo : Nat → Parse Members
  | 0 => pure {}
  | depth + 1 => do
      let parts ← untilBrace (bodyStatement (messageBodyTo depth)) (← get).length
      return Members.concat parts

/-- A message body, up to its closing brace. Every nested body follows a token of its own, so the
bodies nest no deeper than there are tokens. -/
def messageBody : Parse Members := do
  messageBodyTo ((← get).length + 1)

end Parse

end ProtoSchema
