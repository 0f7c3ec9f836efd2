import ProtoSchema.Parser.Basic
import ProtoSchema.Schema.Basic

/-!
# Options

The grammar of options: `option name = value;` as a statement and `[name = value, ...]` after a
field. A value is a literal, a word or an aggregate between braces, whose tokens are kept as text.
-/

namespace ProtoSchema.Parse

/-- The values of the adjacent string tokens, joined, and the tokens after them. -/
def joinStrings : List Token → Text × List Token
  | [] => ([], [])
  | token :: rest =>
      match token.lexeme with
      | .string value =>
          let (tail, following) := joinStrings rest
          (value ++ tail, following)
      | _ => ([], token :: rest)

/-- A token inside an aggregate as text: a string between double quotes, any other by its value. -/
def aggregatePart (lexeme : Lexeme) : Text :=
  match lexeme with
  | .string value => Text.ofString "\"" ++ value ++ Text.ofString "\""
  | other => other.value

/-- The parts of an aggregate up to the brace that closes it, with `depth` further braces open, and
the tokens after it. -/
def aggregateParts (depth : Nat) : List Token → Option (List Text × List Token)
  | [] => none
  | token :: rest =>
      match token.lexeme, depth with
      | .punctuation .rightBrace, 0 => some ([aggregatePart token.lexeme], rest)
      | .punctuation .rightBrace, depth + 1 => do
          let (parts, following) ← aggregateParts depth rest
          return (aggregatePart token.lexeme :: parts, following)
      | .punctuation .leftBrace, depth => do
          let (parts, following) ← aggregateParts (depth + 1) rest
          return (aggregatePart token.lexeme :: parts, following)
      | _, depth => do
          let (parts, following) ← aggregateParts depth rest
          return (aggregatePart token.lexeme :: parts, following)

/-- The tokens of an aggregate, after its opening brace, as one text. -/
def aggregate : Parse Constant := fun tokens =>
  match aggregateParts 0 tokens with
  | some (parts, rest) =>
      .ok (.text (Text.join (Text.ofString " ") (Punctuation.leftBrace.spelling :: parts)), rest)
  | none => .error (.refused .unterminatedAggregate [])

/-- The floating-point value that a word stands for. -/
def floatWord? (word : Text) : Option Binary64 :=
  if word = Text.ofString "inf" || word = Text.ofString "+inf" then some (.infinity false)
  else if word = Text.ofString "-inf" then some (.infinity true)
  else if word = Text.ofString "nan" || word = Text.ofString "+nan" ||
      word = Text.ofString "-nan" then some .notANumber
  else none

/-- The value that a word stands for: a truth value, a special number, or the word itself. -/
def wordConstant (word : Text) : Constant :=
  if word = Text.ofString "true" then .bool true
  else if word = Text.ofString "false" then .bool false
  else
    match floatWord? word with
    | some value => .float value
    | none => .text word

/-- The value of a number literal: an integer if it is one, else a floating-point value. -/
def numberConstant? (spelling : Text) : Option Constant :=
  match Integer.ofLiteral? spelling with
  | some value => some (.integer value)
  | none => (Decimal.ofLiteral? spelling).map fun decimal => .float (.ofDecimal decimal)

/-- The value of an option. -/
def constant : Parse Constant
  | [] => .error (.refused .expectedConstant [])
  | token :: rest =>
      match token.lexeme with
      | .string _ =>
          let (value, following) := joinStrings (token :: rest)
          .ok (.text value, following)
      | .number spelling =>
          match numberConstant? spelling with
          | some value => .ok (value, rest)
          | none => .error (.notNumeric spelling)
      | .punctuation .leftBrace => aggregate rest
      | .punctuation _ => .error (.refused .expectedConstant (token :: rest))
      | .identifier word => .ok (wordConstant word, rest)
      | .keyword word => .ok (wordConstant word.spelling, rest)

/-- A further part of an option name: an identifier that starts with a dot. It may be absent. -/
def optionSubname : Parse Text := do
  match ← peek with
  | some (.identifier word) =>
      if word.head? = some '.' then
        skip
        return word
      else return []
  | _ => return []

/-- The name of an option: a name, or an identifier in parentheses with an optional further part. -/
def optionName : Parse Text := do
  if (← peekKind) = some (.punctuation .leftParen) then
    skip
    let extension ← expect .identifier
    mark .rightParen
    let subname ← optionSubname
    return Text.ofString "(" ++ extension ++ Text.ofString ")" ++ subname
  else name

/-- A name and the value set for it. -/
def optionSetting : Parse OptionSetting := do
  let name ← optionName
  mark .equals
  let value ← constant
  return ⟨name, value⟩

/-- An option statement. -/
def optionStatement : Parse OptionSetting := do
  keyword .option
  let setting ← optionSetting
  mark .semicolon
  return setting

/-- Further settings, each after a comma, at most `fuel` of them. -/
def moreSettings : Nat → Parse (List OptionSetting)
  | 0 => pure []
  | fuel + 1 => do
      if (← peekKind) = some (.punctuation .comma) then
        skip
        let first ← optionSetting
        let others ← moreSettings fuel
        return first :: others
      else return []

/-- The options of a field between brackets, which may be absent. -/
def bracketOptions : Parse (List OptionSetting) := do
  if (← peekKind) = some (.punctuation .leftBracket) then
    skip
    let first ← optionSetting
    let others ← moreSettings (← get).length
    mark .rightBracket
    return first :: others
  else return []

end ProtoSchema.Parse
