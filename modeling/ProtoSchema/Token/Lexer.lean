import ProtoSchema.Token.Basic
import ProtoSchema.Token.Escape

/-!
# From text to tokens

The lexer cuts a text into steps, each of them a lexeme or a piece of a gap. Gaps are white space,
comments and every code point that starts no lexeme. A lexeme is as long as its rule allows: names
take dotted parts, numbers take letters and dots and the sign of an exponent, and a string runs to
its closing quote or to the end of the text.
-/

namespace ProtoSchema.Lexer

/-- One step of the lexer: the lexeme it found, if any, how many code points it takes, and the place
after it. -/
structure Step where
  lexeme : Option Lexeme
  length : Nat
  after : Position

/-- A letter or an underscore. -/
def startsIdentifier (c : CodePoint) : Bool :=
  c.isLetter || c = '_'

/-- The text goes on with a code point of this property. -/
def nextIs (property : CodePoint → Bool) (text : Text) : Bool :=
  text.head?.any property

/-- A letter, a numeral or an underscore. -/
def continuesIdentifier (c : CodePoint) : Bool :=
  c.isAlphanumeric || c = '_'

/-- A plus or a minus sign. -/
def isSign (c : CodePoint) : Bool :=
  c = '-' || c = '+'

/-- The part of an identifier after its first code point. A dot belongs to it before a letter or an
underscore. -/
def identifierTail : Text → Text
  | [] => []
  | c :: rest =>
      if continuesIdentifier c || (c = '.' && nextIs startsIdentifier rest) then
        c :: identifierTail rest
      else []

/-- The part of a number after its code point `previous`. A sign belongs to it after the mark of a
decimal exponent. -/
def numberTail (hexadecimal : Bool) (previous : CodePoint) : Text → Text
  | [] => []
  | c :: rest =>
      if c.isAlphanumeric || c = '.' ||
          (isSign c && (previous = 'e' || previous = 'E') && !hexadecimal) then
        c :: numberTail hexadecimal c rest
      else []

/-- The text starts with `0x`. -/
def startsHexadecimal : Text → Bool
  | zero :: mark :: _ => zero = '0' && (mark = 'x' || mark = 'X')
  | _ => false

/-- The number that starts with `c` is hexadecimal. A minus sign may come first. -/
def isHexadecimal (c : CodePoint) (rest : Text) : Bool :=
  startsHexadecimal (c :: rest) || (c = '-' && startsHexadecimal rest)

/-- A word for a special floating-point value follows the sign, and the word ends there. -/
def startsFloatWord (rest : Text) : Bool :=
  (Text.startsWith rest (Text.ofString "inf") || Text.startsWith rest (Text.ofString "nan")) &&
    !nextIs continuesIdentifier (rest.drop 3)

/-- A number starts with a digit, or with a sign or a dot before a digit. -/
def startsNumber (c : CodePoint) (rest : Text) : Bool :=
  c.isDigit || ((isSign c || c = '.') && nextIs CodePoint.isDigit rest)

/-- A word starts with a letter or an underscore, or with a dot before one. -/
def startsWord (c : CodePoint) (rest : Text) : Bool :=
  startsIdentifier c || (c = '.' && nextIs startsIdentifier rest)

/-- The rest of a block comment: how many code points it takes, its end mark included, and the place
after it. A comment without an end mark runs to the end of the text. -/
def blockComment (taken : Nat) (position : Position) : Text → Nat × Position
  | [] => (taken, position)
  | c :: rest =>
      if c = '*' && nextIs (· = '/') rest then (taken + 2, position.right 2)
      else blockComment (taken + 1) (position.after c) rest

/-- The rest of a string literal: the raw text, how many code points it takes, its closing quote
included, and the place after it. `escaped` says that a backslash came just before. -/
def stringBody (quote : CodePoint) (escaped : Bool) (position : Position) :
    Text → Text × Nat × Position
  | [] => ([], 0, if escaped then position.right 1 else position)
  | c :: rest =>
      if !escaped && c = quote then ([], 1, position.right 1)
      else
        let (raw, taken, after) :=
          stringBody quote (!escaped && c = '\\') (position.after c) rest
        (c :: raw, taken + 1, after)

/-- A lexeme that lies on one line. -/
def lexemeStep (position : Position) (lexeme : Lexeme) (length : Nat) : Step :=
  ⟨some lexeme, length, position.right length⟩

/-- A piece of a gap. -/
def gapStep (length : Nat) (after : Position) : Step :=
  ⟨none, length, after⟩

/-- A string literal, after its opening quote. -/
def stringStep (position : Position) (quote : CodePoint) (rest : Text) :
    Except EscapeError Step := do
  let (raw, taken, after) := stringBody quote false (position.right 1) rest
  let value ← Escape.unescape raw
  return ⟨some (.string value), taken + 1, after⟩

/-- A number, a word or a code point that starts no lexeme. -/
def wordStep (position : Position) (c : CodePoint) (rest : Text) : Step :=
  -- A special value is an identifier that keeps its sign. It comes before the numbers, which may
  -- start with a sign too.
  if isSign c && startsFloatWord rest then
    lexemeStep position (.identifier (c :: rest.take 3)) 4
  else if startsNumber c rest then
    let spelling := c :: numberTail (isHexadecimal c rest) c rest
    lexemeStep position (.number spelling) spelling.length
  else if startsWord c rest then
    let word := c :: identifierTail rest
    lexemeStep position (Lexeme.ofWord word) word.length
  else gapStep 1 (position.right 1)

/-- The step at a place where the text goes on with `c` and then `rest`. A line comment leaves the
place as it is: the line feed after it starts a new line. -/
def step (position : Position) (c : CodePoint) (rest : Text) : Except EscapeError Step :=
  if c = ' ' || c = '\t' || c = '\r' || c = '\n' then .ok (gapStep 1 (position.after c))
  else if c = '/' && nextIs (· = '/') rest then
    .ok (gapStep (1 + (rest.takeWhile fun d : CodePoint => d ≠ '\n').length) position)
  else if c = '/' && nextIs (· = '*') rest then
    let (taken, after) := blockComment 2 (position.right 2) rest.tail
    .ok (gapStep taken after)
  else
    match Punctuation.ofCodePoint? c with
    | some mark => .ok (lexemeStep position (.punctuation mark) 1)
    | none =>
        if c = '"' || c = '\'' then stringStep position c rest
        else .ok (wordStep position c rest)

/-- The tokens of a text and the place where it ends. -/
structure Scan where
  tokens : List Token
  stop : Position
  deriving DecidableEq

/-- The scan with one more token in front, if the step found one. -/
def Scan.add (scan : Scan) (found : Option Lexeme) (position : Position) : Scan :=
  match found with
  | some lexeme => { scan with tokens := ⟨lexeme, position⟩ :: scan.tokens }
  | none => scan

/-- Scan the text at a place. The first `skip` code points belong to a step already taken. -/
def scanFrom (skip : Nat) (position : Position) : Text → Except EscapeError Scan
  | [] => .ok ⟨[], position⟩
  | c :: rest =>
      match skip with
      | skip + 1 => scanFrom skip position rest
      | 0 => do
          let found ← step position c rest
          let scan ← scanFrom (found.length - 1) found.after rest
          return scan.add found.lexeme position

/-- The tokens of a text. -/
def scan (text : Text) : Except EscapeError Scan :=
  scanFrom 0 Position.start text

end ProtoSchema.Lexer
