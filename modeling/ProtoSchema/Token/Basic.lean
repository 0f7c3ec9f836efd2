import ProtoSchema.Text.Case

/-!
# Tokens

The lexemes of schema text and the tokens that place them. A keyword and a punctuation mark are
known by themselves; a name, a number and a string carry their value. The value of a string token is
what the literal stands for, and every other value is the text of the lexeme.
-/

namespace ProtoSchema

/-- The words with a meaning of their own. -/
inductive Keyword where
  | message
  | repeated
  | optional
  | required
  | dialect
  | package
  | option
  | reserved
  | extensions
  | imports
  | enum
  | oneof
  | map
  | extend
  | service
  | rpc
  | returns
  | stream
  deriving DecidableEq, Repr

namespace Keyword

/-- Every keyword. -/
def all : List Keyword :=
  [message, repeated, optional, required, dialect, package, option, reserved, extensions, imports,
    enum, oneof, map, extend, service, rpc, returns, stream]

/-- The word itself. -/
def word : Keyword → String
  | message => "message"
  | repeated => "repeated"
  | optional => "optional"
  | required => "required"
  | dialect => "syntax"
  | package => "package"
  | option => "option"
  | reserved => "reserved"
  | extensions => "extensions"
  | imports => "import"
  | enum => "enum"
  | oneof => "oneof"
  | map => "map"
  | extend => "extend"
  | service => "service"
  | rpc => "rpc"
  | returns => "returns"
  | stream => "stream"

/-- The word as a text. -/
def spelling (keyword : Keyword) : Text :=
  Text.ofString keyword.word

/-- The keyword that a text spells. -/
def ofText? (text : Text) : Option Keyword :=
  all.find? fun keyword => keyword.spelling = text

end Keyword

/-- The punctuation marks. -/
inductive Punctuation where
  | leftBrace
  | rightBrace
  | leftParen
  | rightParen
  | leftBracket
  | rightBracket
  | leftAngle
  | rightAngle
  | semicolon
  | equals
  | comma
  | colon
  deriving DecidableEq, Repr

namespace Punctuation

/-- Every punctuation mark. -/
def all : List Punctuation :=
  [leftBrace, rightBrace, leftParen, rightParen, leftBracket, rightBracket, leftAngle, rightAngle,
    semicolon, equals, comma, colon]

/-- The mark itself. -/
def char : Punctuation → Char
  | leftBrace => '\x7b'
  | rightBrace => '\x7d'
  | leftParen => '('
  | rightParen => ')'
  | leftBracket => '['
  | rightBracket => ']'
  | leftAngle => '<'
  | rightAngle => '>'
  | semicolon => ';'
  | equals => '='
  | comma => ','
  | colon => ':'

/-- The mark as a text. -/
def spelling (mark : Punctuation) : Text :=
  [CodePoint.ofChar mark.char]

/-- The name of a mark in messages. -/
def label : Punctuation → String
  | leftBrace => "LBRACE"
  | rightBrace => "RBRACE"
  | leftParen => "LPAREN"
  | rightParen => "RPAREN"
  | leftBracket => "LBRACKET"
  | rightBracket => "RBRACKET"
  | leftAngle => "LANGLE"
  | rightAngle => "RANGLE"
  | semicolon => "SEMICOLON"
  | equals => "EQUALS"
  | comma => "COMMA"
  | colon => "COLON"

/-- The mark that a code point is. -/
def ofCodePoint? (c : CodePoint) : Option Punctuation :=
  all.find? fun mark => CodePoint.ofChar mark.char = c

end Punctuation

/-- The kinds of token that a grammar rule can ask for. -/
inductive TokenKind where
  | keyword (word : Keyword)
  | punctuation (mark : Punctuation)
  | identifier
  | number
  | string
  deriving DecidableEq, Repr

/-- The name of a kind in messages: a keyword in capitals, a mark by its label. -/
def TokenKind.label : TokenKind → Text
  | keyword word => word.spelling.flatMap CodePoint.upper
  | punctuation mark => Text.ofString mark.label
  | identifier => Text.ofString "IDENT"
  | number => Text.ofString "NUMBER"
  | string => Text.ofString "STRING_LIT"

/-- A token without its place. -/
inductive Lexeme where
  | keyword (word : Keyword)
  | punctuation (mark : Punctuation)
  | identifier (name : Text)
  | number (spelling : Text)
  | string (value : Text)
  deriving DecidableEq

namespace Lexeme

/-- The kind of a lexeme. -/
def kind : Lexeme → TokenKind
  | keyword word => .keyword word
  | punctuation mark => .punctuation mark
  | identifier _ => .identifier
  | number _ => .number
  | string _ => .string

/-- The value of a lexeme: what a string stands for, and the text of any other lexeme. -/
def value : Lexeme → Text
  | keyword word => word.spelling
  | punctuation mark => mark.spelling
  | identifier name => name
  | number spelling => spelling
  | string value => value

/-- The keyword or the identifier that a word is. -/
def ofWord (word : Text) : Lexeme :=
  match Keyword.ofText? word with
  | some found => .keyword found
  | none => .identifier word

/-- The lexeme may be used as a name: keywords are names too. -/
def isName : Lexeme → Bool
  | .keyword _ | .identifier _ => true
  | _ => false

end Lexeme

/-- A place in a text. Lines and columns are counted from one. -/
structure Position where
  line : Nat
  column : Nat
  deriving DecidableEq, Repr

namespace Position

/-- The start of a text. -/
def start : Position := ⟨1, 1⟩

/-- The place some columns further on the same line. -/
def right (position : Position) (columns : Nat) : Position :=
  { position with column := position.column + columns }

/-- The start of the next line. -/
def nextLine (position : Position) : Position :=
  ⟨position.line + 1, 1⟩

/-- The place after a code point. -/
def after (position : Position) (c : CodePoint) : Position :=
  if c = '\n' then position.nextLine else position.right 1

end Position

/-- A lexeme and the place where it starts. -/
structure Token where
  lexeme : Lexeme
  position : Position
  deriving DecidableEq

end ProtoSchema
