import ProtoSchema.CommandLine.Expand

/-!
# The program

Runs the expansion program on the real file system. The files that it may touch are read into a file
tree, the program runs on it, and what it changed is written back. The outline program is not run
here: it needs a compiler and a reader of descriptor sets, and neither is part of this library.
-/

namespace ProtoSchema.Program

/-- A text as a string, without surrogates. -/
def toString (text : Text) : String :=
  String.ofList (text.filterMap CodePoint.toChar?)

/-- The path of a place on the real file system. -/
def realPath (place : Place) : String :=
  toString (Path.slash :: Text.join [Path.slash] place)

/-- Add what stands at a place, if anything. -/
def probe (tree : FileTree) (place : Place) : IO FileTree := do
  let path := (← IO.currentDir) / realPath place
  if ← path.isDir then return tree.put place .directory
  else if ← path.pathExists then
    return tree.put place (.file (← IO.FS.readBinFile path).toList)
  else return tree

/-- The places on the way to a path, from the root on. -/
def placesTo (working path : Text) : List Place :=
  let place := Path.parts (Path.absolute working path)
  (List.range place.length).map fun count => place.take (count + 1)

/-- The part of the real file system that the paths lead through. -/
def snapshot (paths : List Text) : IO FileTree := do
  let working := Text.ofString (← IO.currentDir).toString
  let places := (working :: paths).flatMap (placesTo working)
  places.eraseDups.foldlM probe { working := Path.parts working, nodes := [] }

/-- Write back what changed. -/
def commit (before after : FileTree) : IO Unit :=
  after.nodes.forM fun node => do
    if before.find? node.1 = some node.2 then return
    match node.2 with
    | .directory => IO.FS.createDirAll (realPath node.1)
    | .file bytes => IO.FS.writeBinFile (realPath node.1) (ByteArray.mk bytes.toArray)

/-- Show a report, write back its changes and give the exit code. -/
def conclude (name : Text) (before : FileTree) (report : Report) : IO UInt32 := do
  commit before report.console.tree
  IO.print (toString report.console.printed)
  IO.eprint (toString (report.ending.complaint name))
  match report.ending with
  | .escaped error => IO.eprintln (toString error.message)
  | .misused _ => IO.eprintln ""
  | _ => pure ()
  return report.ending.exitStatus.toUInt32

/-- The paths that the expansion program may touch. -/
def expandPaths (arguments : List Text) : List Text :=
  match ExpandProgram.settings arguments with
  | .ok settings =>
      settings.files ++ settings.out.toList.flatMap fun directory =>
        directory :: settings.files.map fun file => Expansion.outputPath file directory
  | .error _ => []

/-- Run the expansion program on these arguments. -/
def run (arguments : List String) : IO UInt32 := do
  let given := arguments.map Text.ofString
  let tree ← snapshot (expandPaths given)
  conclude ExpandProgram.name tree (ExpandProgram.run given tree)

end ProtoSchema.Program

/-- The entry point of the program. -/
def main (arguments : List String) : IO UInt32 :=
  ProtoSchema.Program.run arguments
