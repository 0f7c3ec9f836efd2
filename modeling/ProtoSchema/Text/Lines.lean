import ProtoSchema.Text.CodePoint

/-!
# Blanks and lines

Trimming, splitting at a separator and splitting into lines. A blank is any white space of Unicode
and the four ASCII information separators; a line ends at every line or paragraph break, and a
carriage return with a line feed after it is one break.
-/

namespace ProtoSchema.CodePoint

/-- White space that trimming removes. -/
def isBlank (c : CodePoint) : Bool :=
  c.between 0x09 0x0D || c.between 0x1C 0x20 || c.val == 0x85 || c.val == 0xA0 ||
    c.val == 0x1680 || c.between 0x2000 0x200A || c.between 0x2028 0x2029 || c.val == 0x202F ||
    c.val == 0x205F || c.val == 0x3000

/-- A code point that ends a line. -/
def isLineBreak (c : CodePoint) : Bool :=
  c.between 0x0A 0x0D || c.between 0x1C 0x1E || c.val == 0x85 || c.between 0x2028 0x2029

end ProtoSchema.CodePoint

namespace ProtoSchema.Text

/-- The text without the blanks at its start and its end. -/
def trim (text : Text) : Text :=
  ((text.dropWhile CodePoint.isBlank).reverse.dropWhile CodePoint.isBlank).reverse

/-- The parts between the separators, one more than there are separators. -/
def split (separator : CodePoint) : Text → List Text
  | [] => [[]]
  | c :: rest =>
      if c = separator then [] :: split separator rest
      else
        match split separator rest with
        | [] => [[c]]
        | part :: parts => (c :: part) :: parts

/-- The lines of a text that follow the reversed start `line` of a line. `afterReturn` says that a
carriage return has just ended a line, so that a line feed here belongs to it. -/
def linesFrom (afterReturn : Bool) (line : Text) : Text → List Text
  | [] => if line.isEmpty then [] else [line.reverse]
  | c :: rest =>
      if afterReturn && c = '\n' then linesFrom false [] rest
      else if c.isLineBreak then line.reverse :: linesFrom (c = '\r') [] rest
      else linesFrom false (c :: line) rest

/-- The lines of a text, without their breaks. A break at the end opens no further line. -/
def lines (text : Text) : List Text :=
  linesFrom false [] text

/-- Turn every line break of carriage returns into a line feed. `afterReturn` says that the code
point before was a carriage return, whose line feed is already written. -/
def unifyBreaksFrom (afterReturn : Bool) : Text → Text
  | [] => []
  | c :: rest =>
      if afterReturn && c = '\n' then unifyBreaksFrom false rest
      else if c = '\r' then '\n' :: unifyBreaksFrom true rest
      else c :: unifyBreaksFrom false rest

/-- The text with every carriage return, alone or before a line feed, turned into a line feed. -/
def unifyBreaks (text : Text) : Text :=
  unifyBreaksFrom false text

end ProtoSchema.Text
