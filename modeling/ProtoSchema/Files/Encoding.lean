import ProtoSchema.Files.Path
import ProtoSchema.Text.Quoted
import ProtoSchema.Text.Utf8

/-!
# Paths as bytes

A file system knows a path by its bytes. The surrogates from `0xDC80` to `0xDCFF` stand for single
bytes that are no part of a code point; a path with another surrogate has no bytes, and one with a
null character is none. Both are found before the file system is asked for anything.
-/

namespace ProtoSchema

/-- Which code points a fault covers: one by its number, several by their positions. -/
def Utf8.EncodeFault.extent (fault : Utf8.EncodeFault) : Text :=
  if fault.count = 1 then
    Text.ofString "character '\\u" ++ Text.hexadecimal 4 fault.first.val ++
      Text.ofString "' in position " ++ Text.ofString (toString fault.position)
  else
    Text.ofString "characters in position " ++ Text.ofString (toString fault.position) ++
      Text.ofString "-" ++ Text.ofString (toString (fault.position + fault.count - 1))

/-- The message of a fault. -/
def Utf8.EncodeFault.message (fault : Utf8.EncodeFault) : Text :=
  Text.ofString "'utf-8' codec can't encode " ++ fault.extent ++
    Text.ofString ": surrogates not allowed"

/-- Why a text is no path. -/
inductive PathError where
  | unencodable (fault : Utf8.EncodeFault)
  | nullCharacter
  deriving DecidableEq

/-- The message of an error. -/
def PathError.message : PathError → Text
  | unencodable fault => fault.message
  | nullCharacter => Text.ofString "embedded null byte"

namespace Path

/-- The code point stands for a byte that is no part of another code point. -/
def standsForByte (c : CodePoint) : Bool :=
  c.between 0xDC80 0xDCFF

/-- The bytes of a path, or of a name on it. -/
def encode (path : Text) : List UInt8 :=
  path.flatMap fun c =>
    if standsForByte c then [(c.val - 0xDC00).toUInt8] else Utf8.encodeCodePoint c

/-- What is wrong with a text as a path, if anything. -/
def error? (path : Text) : Option PathError :=
  match Utf8.encodeFault? standsForByte path with
  | some fault => some (.unencodable fault)
  | none => if path.any fun c => c.val = 0 then some .nullCharacter else none

end Path

end ProtoSchema
