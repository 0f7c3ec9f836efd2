import ProtoSchema.Text.Letter

/-!
# Integers

How integer literals are read and how integers are written. A literal is decimal, or octal after a
`0`, or hexadecimal, octal or binary after `0x`, `0o` or `0b`, with an optional sign. Digits of any
decimal system count as decimal digits. Only decimal notation has a limit: more than
`decimalDigitLimit` digits are neither read nor written.
-/

namespace ProtoSchema.Integer

/-- The greatest number of decimal digits that are read or written. -/
def decimalDigitLimit : Nat := 4300

/-- The decimal notation of an integer, unless it is too long. -/
def decimal? (value : Int) : Option Text :=
  let digits := Nat.toDigits 10 value.natAbs
  if digits.length ≤ decimalDigitLimit then
    let magnitude := digits.map CodePoint.ofChar
    some (if value < 0 then '-' :: magnitude else magnitude)
  else none

/-- The text with every decimal digit of any script replaced by the ASCII digit of its value. -/
def withAsciiDigits (text : Text) : Text :=
  text.map fun c =>
    match c.decimalValue? with
    | some value => CodePoint.ofNatOr c (0x30 + value)
    | none => c

/-- The value of an ASCII digit or letter as a digit. -/
def digitValue? (c : CodePoint) : Option Nat :=
  if c.between 0x30 0x39 then some (c.val - 0x30)
  else if c.between 0x41 0x5A then some (c.val - 0x41 + 10)
  else if c.between 0x61 0x7A then some (c.val - 0x61 + 10)
  else none

/-- The value of digits to a base, with the value of the digits before them. -/
def ofDigitsFrom (base value : Nat) : Text → Option Nat
  | [] => some value
  | c :: rest =>
      match digitValue? c with
      | some digit => if digit < base then ofDigitsFrom base (value * base + digit) rest else none
      | none => none

/-- The value of one or more digits to a base. -/
def ofDigits? (base : Nat) (digits : Text) : Option Nat :=
  if digits.isEmpty then none else ofDigitsFrom base 0 digits

/-- A leading sign, true for a minus, and what follows it. -/
def splitSign : Text → Bool × Text
  | [] => (false, [])
  | c :: rest =>
      if c = '-' then (true, rest) else if c = '+' then (false, rest) else (false, c :: rest)

/-- The value with its sign. -/
def signed (negative : Bool) (magnitude : Nat) : Int :=
  if negative then -(magnitude : Int) else magnitude

/-- A zero and one or more octal digits, all of them ASCII. -/
def isOctal : Text → Bool
  | [] => false
  | c :: rest => c = '0' && !rest.isEmpty && rest.all (fun d => d.between 0x30 0x37)

/-- The base that the letter after a leading zero announces. -/
def announcedBase? (c : CodePoint) : Option Nat :=
  if c = 'x' || c = 'X' then some 16
  else if c = 'o' || c = 'O' then some 8
  else if c = 'b' || c = 'B' then some 2
  else none

/-- The value of decimal digits within the limit, of which only zero may start with a zero. -/
def ofDecimal? (digits : Text) : Option Nat :=
  if digits.length ≤ decimalDigitLimit then
    match ofDigits? 10 digits with
    | some value => if digits.head? = some '0' && value ≠ 0 then none else some value
    | none => none
  else none

/-- The value of a literal without its sign that is not a plain octal one. -/
def magnitude? (body : Text) : Option Nat :=
  match body with
  | first :: second :: rest =>
      if first = '0' then
        match announcedBase? second with
        | some base => ofDigits? base rest
        | none => ofDecimal? body
      else ofDecimal? body
  | _ => ofDecimal? body

/-- The value of an integer literal. -/
def ofLiteral? (spelling : Text) : Option Int :=
  let (negative, body) := splitSign spelling
  let magnitude := if isOctal body then ofDigits? 8 body else magnitude? (withAsciiDigits body)
  magnitude.map (signed negative)

end ProtoSchema.Integer
