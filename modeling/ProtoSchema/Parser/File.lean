import ProtoSchema.Parser.Message
import ProtoSchema.Parser.Service
import ProtoSchema.Schema.File

/-!
# Schema text

The grammar of whole files, and the way from a text to a schema file. `parse` scans the whole text
before it looks at the tokens, so a wrong escape is reported before any error of the grammar.
-/

namespace ProtoSchema

namespace Parse

/-- The dialect statement. -/
def dialectStatement : Parse Statement := do
  keyword .dialect
  mark .equals
  let name ← expect .string
  mark .semicolon
  return .dialect name

/-- The package statement. -/
def packageStatement : Parse Statement := do
  keyword .package
  let name ← expect .identifier
  mark .semicolon
  return .package name

/-- The word that qualifies an import, which may be absent. -/
def importModifier : Parse Unit := do
  match ← peek with
  | some (.identifier word) =>
      if word = Text.ofString "public" || word = Text.ofString "weak" then skip else return ()
  | _ => return ()

/-- The import statement. -/
def importStatement : Parse Statement := do
  keyword .imports
  importModifier
  let path ← expect .string
  mark .semicolon
  return .imported path

/-- The declarations that members of a file are: the messages they bring. -/
def declaring (members : Members) : Statement :=
  .declare (members.messages.map .message) members.extensions

/-- A statement at the top level, or nothing for a lone semicolon. -/
def statementWith (callees : Rules) : Parse (Option Statement) := do
  match ← peekKind with
  | some (.keyword .dialect) => return some (← dialectStatement)
  | some (.keyword .package) => return some (← packageStatement)
  | some (.keyword .imports) => return some (← importStatement)
  | some (.keyword .option) => return some (.option (← optionStatement))
  | some (.keyword .message) => return some (declaring (← callees.message))
  | some (.keyword .enum) => return some (.declare [.enum (← enumType)] [])
  | some (.keyword .service) => return some (.declare [.service (← service)] [])
  | some (.keyword .extend) => return some (declaring (← callees.extension))
  | some (.punctuation .semicolon) =>
      skip
      return none
  | _ => refuse .unexpectedStatement

/-- Statements up to the end of the input, at most `fuel` of them. -/
def statementsWithin (statement : Parse (Option Statement)) : Nat → Parse (List Statement)
  | 0 => pure []
  | fuel + 1 => do
      if (← get).isEmpty then return []
      else
        let first ← statement
        let others ← statementsWithin statement fuel
        return first.toList ++ others

/-- All statements of a file, with the rules that they call. Every statement takes a token. -/
def Rules.statements (callees : Rules) : Parse (List Statement) := do
  statementsWithin (statementWith callees) (← get).length

/-- The rules of the grammar. -/
def Rules.grammar : Rules :=
  .over messageBody

/-- A statement at the top level, or nothing for a lone semicolon. -/
def statement : Parse (Option Statement) :=
  statementWith .grammar

/-- All statements of a file. -/
def statements : Parse (List Statement) :=
  Rules.grammar.statements

end Parse

/-- Why a text is no schema file: a wrong escape, a refused token with its place, or a number
literal without a value. The place of a refusal at the end of the text is the end. -/
inductive ParseError where
  | escape (error : EscapeError)
  | refused (cause : Refusal) (found : Option Lexeme) (position : Position)
  | notNumeric (spelling : Text)
  deriving DecidableEq

namespace Refusal

/-- The kind of what was found instead. -/
def foundLabel (found : Option Lexeme) : Text :=
  match found with
  | some lexeme => lexeme.kind.label
  | none => Text.ofString "EOF"

/-- The value of what was found instead, between quotes. -/
def foundValue (found : Option Lexeme) : Text :=
  Text.quoted ((found.map Lexeme.value).getD [])

/-- The kind and the value of what was found instead. -/
def describe (found : Option Lexeme) : Text :=
  foundLabel found ++ Text.ofString " (" ++ foundValue found ++ Text.ofString ")"

/-- The message of a refusal, without its place. -/
def message (cause : Refusal) (found : Option Lexeme) : Text :=
  match cause with
  | expected kind =>
      Text.ofString "Expected " ++ kind.label ++ Text.ofString ", got " ++ describe found
  | expectedName => Text.ofString "Expected name, got " ++ describe found
  | expectedConstant => Text.ofString "Expected constant, got " ++ describe found
  | invalidInteger => Text.ofString "Invalid integer " ++ foundValue found
  | unterminatedAggregate => Text.ofString "Unterminated option aggregate"
  | unexpectedStatement => Text.ofString "Unexpected top-level token " ++ describe found
  | unexpectedInService => Text.ofString "Unexpected token in service: " ++ describe found

end Refusal

namespace ParseError

/-- A number that counts lines or columns as a text. -/
def countText (count : Nat) : Text :=
  Text.ofString (toString count)

/-- The message of an error. -/
def message : ParseError → Text
  | escape error => error.message
  | refused cause found position =>
      Text.ofString "Line " ++ countText position.line ++ Text.ofString ":" ++
        countText position.column ++ Text.ofString ": " ++ cause.message found
  | notNumeric spelling =>
      Text.ofString "could not convert string to float: " ++ Text.quoted spelling

/-- The error of a fault in a text that ends at this place. -/
def ofFault (stop : Position) : Fault → ParseError
  | .refused cause rest =>
      refused cause (rest.head?.map Token.lexeme) ((rest.head?.map Token.position).getD stop)
  | .notNumeric spelling => notNumeric spelling

end ParseError

/-- The statements that a list of tokens spells. -/
def Statement.ofTokens (tokens : List Token) : Except Fault (List Statement) :=
  (Parse.statements.run tokens).map Prod.fst

/-- The schema file that a text spells. -/
def File.parse (text path : Text) : Except ParseError File :=
  match Lexer.scan text with
  | .error error => .error (.escape error)
  | .ok scan =>
      match Statement.ofTokens scan.tokens with
      | .error fault => .error (.ofFault scan.stop fault)
      | .ok statements => .ok (.ofStatements path statements)

end ProtoSchema
