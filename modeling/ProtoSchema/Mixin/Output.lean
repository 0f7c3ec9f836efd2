import ProtoSchema.Mixin.Expand
import ProtoSchema.Files.Tree
import ProtoSchema.Schema.Printer

/-!
# Writing expansions

Expanded messages go to one file for each source file, which has the source's base name in the
output directory. A write that fails leaves what was written before it.
-/

namespace ProtoSchema

/-- Why a text cannot be written to a file: there is no access to the file, or the text has no
bytes. -/
inductive WriteError where
  | access (error : AccessError)
  | text (fault : Utf8.EncodeFault)
  deriving DecidableEq

/-- The message of an error. -/
def WriteError.message : WriteError → Text
  | access error => error.message
  | text fault => fault.message

/-- Why expansions cannot be written: a file operation fails, a number is too long, or there is no
directory to write to. -/
inductive OutputError where
  | file (error : WriteError)
  | numberTooLong
  | noDirectory
  deriving DecidableEq

/-- An action on a file tree. What it did before a failure stays. -/
abbrev FileAction := ExceptT OutputError (StateM FileTree)

namespace FileAction

/-- Make a directory and those above it. -/
def makeDirectories (path : Text) : FileAction Unit := fun tree =>
  match tree.makeDirectories path with
  | (made, .ok ()) => (.ok (), made)
  | (made, .error error) => (.error (.file (.access error)), made)

/-- Write bytes as the file at a path. -/
def writeBytes (path : Text) (bytes : List UInt8) : FileAction Unit := fun tree =>
  match tree.write (Path.display path) bytes with
  | .ok written => (.ok (), written)
  | .error error => (.error (.file (.access error)), tree)

/-- Write a text as the file at a path. The file is opened before the text is encoded, so a text
without bytes leaves an empty file. -/
def writeText (path text : Text) : FileAction Unit := do
  match Utf8.encodeFault? (fun _ => false) text with
  | none => writeBytes path (Utf8.encode text)
  | some fault =>
      writeBytes path []
      throw (.file (.text fault))

end FileAction

namespace Expansion

/-- Where the expansions from a source file go. -/
def outputPath (source directory : Text) : Text :=
  Path.join directory (Path.base source)

/-- Write expansions from one source file, and give the path that was written. -/
def writeFile (source : Text) (messages : List Message) (directory : Text) : FileAction Text := do
  let path := outputPath source directory
  FileAction.makeDirectories directory
  match Message.renderAll? messages with
  | none => throw .numberTooLong
  | some text =>
      FileAction.writeText path text
      return path

/-- Add an expansion to the group of the file that its name is found in. A name that is found
nowhere is left out. -/
def addToSource (entries : List Entry) (groups : Dictionary (List Message))
    (expansion : Text × Message) : Dictionary (List Message) :=
  match Entry.find? entries expansion.1 with
  | none => groups
  | some entry => groups.insert entry.file ((groups.get? entry.file).getD [] ++ [expansion.2])

/-- The expansions by source file, in the order in which the files first occur. -/
def bySource (expanded : Dictionary Message) (entries : List Entry) : Dictionary (List Message) :=
  expanded.foldl (addToSource entries) []

/-- Write all expansions, one file for each source file, and give the paths that were written. -/
def writeAll (expanded : Dictionary Message) (entries : List Entry) (directory : Text) :
    FileAction (List Text) :=
  (bySource expanded entries).mapM fun group => writeFile group.1 group.2 directory

end Expansion

end ProtoSchema
