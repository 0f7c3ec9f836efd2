import ProtoSchema.Schema.Basic

/-!
# Writing messages

Messages as a schema file of their own in the third dialect. Only the fields are written, each with
its type, its name, its number and whether it repeats. A number that is too long to be written makes
the whole file fail.
-/

namespace ProtoSchema

/-- The line of a field. -/
def Field.line? (field : Field) : Option Text := do
  let number ← Integer.decimal? field.number
  return Text.ofString "  " ++ (if field.isRepeated then Text.ofString "repeated " else []) ++
    field.type ++ Text.ofString " " ++ field.name ++ Text.ofString " = " ++ number ++
    Text.ofString ";\n"

/-- The lines of a message, with an empty one before them. -/
def Message.block? (message : Message) : Option Text := do
  let lines ← message.fields.mapM Field.line?
  return Text.ofString "\nmessage " ++ message.name ++ Text.ofString " \x7b\n" ++ lines.flatten ++
    Text.ofString "\x7d\n"

/-- The file that declares these messages. -/
def Message.renderAll? (messages : List Message) : Option Text := do
  let blocks ← messages.mapM Message.block?
  return Text.ofString "syntax = \"proto3\";\n" ++ blocks.flatten

end ProtoSchema
