/-!
# Code points and texts

A text is a list of code points. Surrogate code points are allowed, because an escape in a string
literal may name one, so a text is more general than a list of characters.
-/

namespace ProtoSchema

/-- A Unicode code point, surrogates included. -/
structure CodePoint where
  val : Nat
  val_lt : val < 0x110000
  deriving DecidableEq

namespace CodePoint

/-- The code point with this number, if there is one. -/
def ofNat? (number : Nat) : Option CodePoint :=
  if h : number < 0x110000 then some ⟨number, h⟩ else none

/-- The code point with this number, or the fallback where there is none. -/
def ofNatOr (fallback : CodePoint) (number : Nat) : CodePoint :=
  (ofNat? number).getD fallback

/-- Every character is a code point. -/
def ofChar (char : Char) : CodePoint :=
  ⟨char.toNat, by
    have h := char.valid
    simp only [UInt32.isValidChar, Nat.isValidChar] at h
    simp only [Char.toNat]
    omega⟩

instance : Coe Char CodePoint := ⟨ofChar⟩

instance : Inhabited CodePoint := ⟨ofChar 'A'⟩

/-- The code point lies between two others, ends included. -/
def between (low high : Nat) (c : CodePoint) : Bool :=
  low ≤ c.val && c.val ≤ high

/-- The surrogate code points, which are no characters. -/
def isSurrogate (c : CodePoint) : Bool :=
  c.between 0xD800 0xDFFF

/-- The character of a code point that is no surrogate. -/
def toChar? (c : CodePoint) : Option Char :=
  if h : c.val.isValidChar then some (Char.ofNatAux c.val h) else none

@[simp] theorem val_ofChar (char : Char) : (ofChar char).val = char.toNat := rfl

/-- Distinct characters are distinct code points. -/
theorem ofChar_injective {a b : Char} (h : ofChar a = ofChar b) : a = b := by
  have hval : a.toNat = b.toNat := congrArg CodePoint.val h
  exact Char.ext (UInt32.toNat_inj.mp hval)

end CodePoint

/-- A text is a sequence of code points. -/
abbrev Text := List CodePoint

namespace Text

/-- The text that spells a string. -/
def ofString (string : String) : Text :=
  string.toList.map CodePoint.ofChar

instance : Coe String Text := ⟨ofString⟩

/-- The parts with a separator between each two. -/
def join (separator : Text) : List Text → Text
  | [] => []
  | [part] => part
  | part :: next :: rest => part ++ separator ++ join separator (next :: rest)

/-- The text starts with another one. -/
def startsWith (text start : Text) : Bool :=
  start.isPrefixOf text

/-- The text ends with another one. -/
def endsWith (text stop : Text) : Bool :=
  stop.isSuffixOf text

end Text

end ProtoSchema
