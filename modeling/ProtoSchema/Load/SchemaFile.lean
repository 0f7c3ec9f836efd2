import ProtoSchema.Load.Failure

/-!
# Loading schema files

A schema file is loaded by reading its bytes, decoding them and parsing the text. What goes wrong is
a load failure of that path, with two exceptions. A literal that has no value, that is a wrong
escape or a number that is none, is an error of its own, and so is a text that is no path. Several
files are loaded in order, and the first one that cannot be loaded ends the loading.
-/

namespace ProtoSchema

/-- How an error of parsing counts for the file at a path. -/
def LoadError.ofParse (path : Text) (error : ParseError) : LoadError :=
  match error with
  | .refused _ _ _ => .failure ⟨path, .malformed error⟩
  | .escape _ => .literal error
  | .notNumeric _ => .literal error

namespace File

/-- The text of the file at a path, with line feeds as its only line breaks. -/
def readText (tree : FileTree) (path : Text) : Except LoadError Text :=
  match tree.read (Path.display path) with
  | .error error => .error (.ofAccess path error)
  | .ok bytes =>
      match Utf8.decode bytes with
      | .error fault => .error (.failure ⟨path, .undecodable fault⟩)
      | .ok text => .ok (Text.unifyBreaks text)

/-- Load the schema file at a path. -/
def load (tree : FileTree) (path : Text) : Except LoadError File :=
  match readText tree path with
  | .error error => .error error
  | .ok text =>
      match File.parse text path with
      | .error error => .error (.ofParse path error)
      | .ok file => .ok file

/-- Load the schema files at several paths. -/
def loadAll (tree : FileTree) (paths : List Text) : Except LoadError (List File) :=
  paths.mapM (load tree)

end File

end ProtoSchema
