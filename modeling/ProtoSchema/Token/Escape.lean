import ProtoSchema.Number.Integer

/-!
# Escapes in string literals

What the text between the quotes of a literal stands for. A backslash starts an escape: a letter for
a control character, up to two hexadecimal or three octal digits, or exactly four or eight
hexadecimal digits for a code point. Any other escaped code point stands for itself, and so does a
backslash at the end.
-/

namespace ProtoSchema

/-- An escape that names a number above the last code point. -/
structure EscapeError where
  number : Nat
  deriving DecidableEq

namespace EscapeError

/-- The number does not even fit a signed 32-bit word. -/
def exceedsWord (error : EscapeError) : Bool :=
  0x7FFFFFFF < error.number

/-- The message of the error. -/
def message (error : EscapeError) : Text :=
  if error.exceedsWord then Text.ofString "Python int too large to convert to C int"
  else Text.ofString "chr() arg not in range(0x110000)"

end EscapeError

namespace Escape

/-- What an escape stands for, and how many code points after the backslash belong to it. -/
structure Decoded where
  value : CodePoint
  length : Nat

/-- The code point that a letter or a mark stands for after a backslash. -/
def simple? (c : CodePoint) : Option CodePoint :=
  if c = 'a' then some '\x07'
  else if c = 'b' then some '\x08'
  else if c = 'f' then some '\x0c'
  else if c = 'n' then some '\n'
  else if c = 'r' then some '\r'
  else if c = 't' then some '\t'
  else if c = 'v' then some '\x0b'
  else if c = '\\' || c = '\'' || c = '"' || c = '?' then some c
  else none

/-- An ASCII octal digit. -/
def isOctalDigit (c : CodePoint) : Bool :=
  c.between 0x30 0x37

/-- An ASCII hexadecimal digit. -/
def isHexDigit (c : CodePoint) : Bool :=
  c.between 0x30 0x39 || c.between 0x41 0x46 || c.between 0x61 0x66

/-- The longest run of at most `limit` code points with a property, at the start of a text. -/
def run (property : CodePoint → Bool) (limit : Nat) (text : Text) : Text :=
  (text.take limit).takeWhile property

/-- The number that digits spell. -/
def numberOf (base : Nat) (digits : Text) : Nat :=
  (Integer.ofDigitsFrom base 0 digits).getD 0

/-- The escape whose number is spelled by `digits` and which has this length. -/
def ofNumber (number length : Nat) : Except EscapeError Decoded :=
  match CodePoint.ofNat? number with
  | some value => .ok ⟨value, length⟩
  | none => .error ⟨number⟩

/-- The escape that starts with `c` and goes on with `rest`, after the backslash. -/
def decode (c : CodePoint) (rest : Text) : Except EscapeError Decoded :=
  match simple? c with
  | some value => .ok ⟨value, 1⟩
  | none =>
      if c = 'x' || c = 'X' then
        let digits := run isHexDigit 2 rest
        if digits.isEmpty then .ok ⟨c, 1⟩ else ofNumber (numberOf 16 digits) (1 + digits.length)
      else if isOctalDigit c then
        let digits := c :: run isOctalDigit 2 rest
        ofNumber (numberOf 8 digits) digits.length
      else if c = 'u' || c = 'U' then
        let width := if c = 'u' then 4 else 8
        let digits := run isHexDigit width rest
        if digits.length = width then ofNumber (numberOf 16 digits) (1 + width) else .ok ⟨c, 1⟩
      else .ok ⟨c, 1⟩

/-- What a text stands for whose first `skip` code points belong to an escape already decoded. -/
def unescapeFrom (skip : Nat) : Text → Except EscapeError Text
  | [] => .ok []
  | c :: rest =>
      match skip with
      | skip + 1 => unescapeFrom skip rest
      | 0 =>
          if c = '\\' then
            match rest with
            | [] => .ok [c]
            | escaped :: following => do
                let decoded ← decode escaped following
                let tail ← unescapeFrom decoded.length rest
                return decoded.value :: tail
          else do
            let tail ← unescapeFrom 0 rest
            return c :: tail

/-- What the text between the quotes of a literal stands for. -/
def unescape (raw : Text) : Except EscapeError Text :=
  unescapeFrom 0 raw

end Escape

end ProtoSchema
