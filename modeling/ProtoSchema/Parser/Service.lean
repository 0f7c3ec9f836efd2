import ProtoSchema.Parser.Option

/-!
# Services

The grammar of services and of their procedures.
-/

namespace ProtoSchema.Parse

/-- The word that makes one side of a procedure a stream, which may be absent. It counts only where
an identifier follows. -/
def streaming : Parse Bool := do
  match ← get with
  | first :: second :: _ =>
      if first.lexeme = .keyword .stream && second.lexeme.kind = .identifier then
        skip
        return true
      else return false
  | _ => return false

/-- One side of a procedure: whether it is a stream, and its message type. -/
def methodSide : Parse (Bool × Text) := do
  mark .leftParen
  let streams ← streaming
  let type ← expect .identifier
  mark .rightParen
  return (streams, type)

/-- An entry of the block of a procedure. -/
def methodEntry : Parse (List OptionSetting) := do
  if (← peekKind) = some (.keyword .option) then return [← optionStatement]
  else
    mark .semicolon
    return []

/-- The options of a procedure: a block, or a semicolon in its place. -/
def methodOptions : Parse (List OptionSetting) := do
  if (← peekKind) = some (.punctuation .leftBrace) then return (← braced methodEntry).flatten
  else
    mark .semicolon
    return []

/-- A procedure. -/
def method : Parse Method := do
  keyword .rpc
  let methodName ← name
  let (clientStreaming, input) ← methodSide
  keyword .returns
  let (serverStreaming, output) ← methodSide
  let options ← methodOptions
  return { name := methodName, input, output, clientStreaming, serverStreaming, options }

/-- An entry of a service. -/
def serviceEntry : Parse (List Method × List OptionSetting) := do
  match ← peekKind with
  | some (.keyword .rpc) => return ([← method], [])
  | some (.keyword .option) => return ([], [← optionStatement])
  | some (.punctuation .semicolon) =>
      skip
      return ([], [])
  | _ => refuse .unexpectedInService

/-- A service. -/
def service : Parse Service := do
  keyword .service
  let serviceName ← name
  let entries ← braced serviceEntry
  return ⟨serviceName, entries.flatMap Prod.fst, entries.flatMap Prod.snd⟩

end ProtoSchema.Parse
