import ProtoSchema.Descriptor.Visit
import ProtoSchema.Files.Path

/-!
# Outlines

An outline lists the types generated from a compiled file: one entry for each enumeration and
message, in the order of a visit, and then one for each service. An entry shows the name of the
type, the name in the schema and the comment before the declaration, line by line.
-/

namespace ProtoSchema

/-- An entry of an outline. -/
structure OutlineEntry where
  kind : Text
  outputName : Text
  protoName : Text
  comment : Text := []
  deriving DecidableEq

namespace OutlineEntry

/-- The lines of the comment, trimmed, without blank ones. -/
def commentLines (entry : OutlineEntry) : List Text :=
  ((Text.lines (Text.trim entry.comment)).map Text.trim).filter fun line => !line.isEmpty

/-- The entry of a call, with the comment before the declaration. -/
def ofCall (kind : Text) (call : Call) : OutlineEntry :=
  ⟨kind, call.outputName, call.protoName, call.cursor.leading⟩

/-- The entry of a service. -/
def ofService (service : ServiceDescriptor) (cursor : Cursor) : OutlineEntry :=
  ⟨Text.ofString "service", service.name, service.name, cursor.leading⟩

/-- The text padded with blanks to a width. -/
def padTo (width : Nat) (text : Text) : Text :=
  text ++ List.replicate (width - text.length) (CodePoint.ofChar ' ')

/-- The line of an entry and the lines of its comment. -/
def render (entry : OutlineEntry) : Text :=
  padTo 8 entry.kind ++ Text.ofString " " ++ entry.outputName ++ Text.ofString " <- " ++
    entry.protoName ++ Text.ofString "\n" ++
    entry.commentLines.flatMap fun line =>
      Text.ofString "         // " ++ line ++ Text.ofString "\n"

end OutlineEntry

namespace Outline

/-- The visitor that appends an entry for each call. -/
def collector : Visitor (StateM (List OutlineEntry)) where
  onEnum call := modify (· ++ [.ofCall (Text.ofString "enum") call])
  onMessage call := modify (· ++ [.ofCall (Text.ofString "message") call])

/-- The walk over a file that collects its entries. -/
def walk (file : FileDescriptor) (options : NamingOptions) : StateM (List OutlineEntry) Unit := do
  let root := Cursor.root (.ofFile 0 file)
  Visit.scope collector options { cursor := root } file.scope
  Visit.services (fun service cursor => modify (· ++ [.ofService service cursor])) root 0
    file.services

/-- The entries of a file. -/
def build (file : FileDescriptor) (options : NamingOptions := {}) : List OutlineEntry :=
  ((walk file options).run []).2

/-- The outline of a file of this name and package with these entries. -/
def render (name package : Text) (entries : List OutlineEntry) : Text :=
  Text.ofString "# " ++ name ++
    (if package.isEmpty then []
      else Text.ofString " (package " ++ package ++ Text.ofString ")") ++
    Text.ofString "\n\n" ++ entries.flatMap OutlineEntry.render

/-- Where the outline of a file of this name goes. -/
def outputPath (name directory : Text) : Text :=
  Path.join directory (Path.stem name ++ Text.ofString ".outline.txt")

end Outline

end ProtoSchema
