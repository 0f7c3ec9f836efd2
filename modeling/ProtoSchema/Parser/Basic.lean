import ProtoSchema.Token.Lexer
import ProtoSchema.Text.Quoted

/-!
# Reading tokens

The vocabulary of the grammar: a parse takes tokens from the front of a list and leaves the rest. A
refusal keeps the tokens from the offending one on, so that its place in the list is known; no
tokens left means that the end of the text was met.
-/

namespace ProtoSchema

/-- Why a token is refused. -/
inductive Refusal where
  | expected (kind : TokenKind)
  | expectedName
  | expectedConstant
  | invalidInteger
  | unterminatedAggregate
  | unexpectedStatement
  | unexpectedInService
  deriving DecidableEq

/-- Why a parse stops: a token is refused, or a number literal has no value. A refusal comes with
the tokens from the refused one on. -/
inductive Fault where
  | refused (cause : Refusal) (rest : List Token)
  | notNumeric (spelling : Text)
  deriving DecidableEq

/-- A parse takes tokens from the front of the input. -/
abbrev Parse := StateT (List Token) (Except Fault)

namespace Parse

/-- Refuse the next token. -/
def refuse {α : Type} (cause : Refusal) : Parse α :=
  fun tokens => .error (.refused cause tokens)

/-- The next lexeme, which stays in the input. -/
def peek : Parse (Option Lexeme) :=
  fun tokens => .ok (tokens.head?.map Token.lexeme, tokens)

/-- The kind of the next token, which stays in the input. -/
def peekKind : Parse (Option TokenKind) :=
  fun tokens => .ok (tokens.head?.map (Lexeme.kind ∘ Token.lexeme), tokens)

/-- Drop the next token. -/
def skip : Parse Unit :=
  fun tokens => .ok ((), tokens.tail)

/-- Take a token of this kind and give its value. -/
def expect (kind : TokenKind) : Parse Text
  | [] => .error (.refused (.expected kind) [])
  | token :: rest =>
      if token.lexeme.kind = kind then .ok (token.lexeme.value, rest)
      else .error (.refused (.expected kind) (token :: rest))

/-- Take this keyword. -/
def keyword (word : Keyword) : Parse Unit := do
  let _ ← expect (.keyword word)

/-- Take this punctuation mark. -/
def mark (mark : Punctuation) : Parse Unit := do
  let _ ← expect (.punctuation mark)

/-- Take a name, which may be a keyword. -/
def name : Parse Text
  | [] => .error (.refused .expectedName [])
  | token :: rest =>
      if token.lexeme.isName then .ok (token.lexeme.value, rest)
      else .error (.refused .expectedName (token :: rest))

/-- Take a number literal that is an integer. -/
def integer : Parse Int := fun tokens => do
  let (spelling, rest) ← expect .number tokens
  match Integer.ofLiteral? spelling with
  | some value => .ok (value, rest)
  | none => .error (.refused .invalidInteger tokens)

/-- Parse items up to a closing brace or the end of the input, at most `fuel` of them. -/
def untilBrace {α : Type} (item : Parse α) : Nat → Parse (List α)
  | 0 => pure []
  | fuel + 1 => do
      match ← peekKind with
      | none => return []
      | some kind =>
          if kind = .punctuation .rightBrace then return []
          else
            let first ← item
            let others ← untilBrace item fuel
            return first :: others

/-- Parse items between braces. Every item takes a token, so there are no more items than tokens. -/
def braced {α : Type} (item : Parse α) : Parse (List α) := do
  mark .leftBrace
  let items ← untilBrace item (← get).length
  mark .rightBrace
  return items

/-- Skip tokens up to and including the next semicolon. -/
def skipStatement : Parse Unit :=
  fun tokens =>
    .ok ((), (tokens.dropWhile fun token => token.lexeme ≠ .punctuation .semicolon).tail)

end Parse

end ProtoSchema
