import ProtoSchema.Descriptor.Basic

/-!
# Cursors into source locations

A cursor points to a declaration of a compiled file: it holds the table of the file's locations and
the path to the declaration. Opening a child extends the path. Cursors are the same if they come
from the same making of a table and have the same path, so each making of a table gets a mark of its
own.
-/

namespace ProtoSchema

/-- Where a table of locations comes from: the one empty table, or the numbered making of a table
from a file. -/
inductive TableOrigin where
  | empty
  | file (serial : Nat)
  deriving DecidableEq

/-- Locations with different paths, with the mark of their table. -/
structure LocationTable where
  origin : TableOrigin
  locations : List Location

namespace LocationTable

/-- The table without locations. -/
def empty : LocationTable := ⟨.empty, []⟩

/-- Add a location, unless there is one with its path. Of several locations the first is the
declaration itself. -/
def addNew (made : List Location) (location : Location) : List Location :=
  if made.any fun other => other.path = location.path then made else made ++ [location]

/-- The table of a file, marked by a serial number. -/
def ofFile (serial : Nat) (file : FileDescriptor) : LocationTable :=
  ⟨.file serial, file.locations.foldl addNew []⟩

/-- The location of a path. -/
def find? (table : LocationTable) (path : List Int) : Option Location :=
  table.locations.find? fun location => location.path = path

end LocationTable

/-- A declaration by its path in a table of locations. -/
structure Cursor where
  table : LocationTable
  path : List Int

namespace Cursor

/-- The cursor at the file itself. -/
def root (table : LocationTable) : Cursor := ⟨table, []⟩

/-- The cursor of the child with this index in a repeated field. -/
def child (cursor : Cursor) (kind index : Int) : Cursor :=
  { cursor with path := cursor.path ++ [kind, index] }

/-- The location of the child with this index in a repeated field. -/
def lookup (cursor : Cursor) (kind index : Int) : Option Location :=
  cursor.table.find? (cursor.path ++ [kind, index])

/-- The location of the declaration. -/
def location (cursor : Cursor) : Option Location :=
  cursor.table.find? cursor.path

/-- The comment before the declaration. -/
def leading (cursor : Cursor) : Text :=
  (cursor.location.map Location.leading).getD []

/-- The comment after the declaration. -/
def trailing (cursor : Cursor) : Text :=
  (cursor.location.map Location.trailing).getD []

/-- The comments that stand apart before the declaration. -/
def detached (cursor : Cursor) : List Text :=
  (cursor.location.map Location.detached).getD []

/-- Where the declaration stands. -/
def span (cursor : Cursor) : List Int :=
  (cursor.location.map Location.span).getD []

/-- Two cursors are the same: they share their table and their path. -/
def same (first second : Cursor) : Bool :=
  first.table.origin = second.table.origin && first.path = second.path

/-- A list of numbers between parentheses. -/
def tupleText : List Int → Text
  | [] => Text.ofString "()"
  | [number] => Text.ofString "(" ++ Text.ofString (toString number) ++ Text.ofString ",)"
  | numbers =>
      Text.ofString "(" ++
        Text.join (Text.ofString ", ")
          (numbers.map fun number => Text.ofString (toString number)) ++
        Text.ofString ")"

/-- The cursor as a text. -/
def describe (cursor : Cursor) : Text :=
  Text.ofString "SourceInfo(path=" ++ tupleText cursor.path ++ Text.ofString ")"

end Cursor

/-- A way to make a cursor: the root of a new table, the root of the empty table, or a child of the
cursor with this number. -/
inductive CursorStep where
  | root (file : FileDescriptor)
  | empty
  | child (parent : Nat) (kind index : Int)

/-- The cursors made so far, in order, and how many tables were made. -/
structure CursorPool where
  made : Nat := 0
  cursors : List Cursor := []

namespace CursorPool

/-- The cursor that a step makes, none if the parent does not exist. -/
def cursorOf? (pool : CursorPool) : CursorStep → Option Cursor
  | .root file => some (.root (.ofFile pool.made file))
  | .empty => some (.root .empty)
  | .child parent kind index => (pool.cursors[parent]?).map fun cursor => cursor.child kind index

/-- How many tables there are after a step. -/
def madeAfter (pool : CursorPool) : CursorStep → Nat
  | .root _ => pool.made + 1
  | _ => pool.made

/-- The pool after a step. A step without a cursor changes nothing. -/
def take (pool : CursorPool) (step : CursorStep) : CursorPool :=
  match pool.cursorOf? step with
  | some cursor => ⟨pool.madeAfter step, pool.cursors ++ [cursor]⟩
  | none => pool

end CursorPool

end ProtoSchema
