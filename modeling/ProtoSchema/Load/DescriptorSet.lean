import ProtoSchema.Descriptor.Basic
import ProtoSchema.Load.Failure

/-!
# Loading descriptor sets

A descriptor set comes from a file or from a run of the compiler, and files are picked from it by
name. The compiler records names relative to its include directories, so a request picks the first
file whose recorded name it equals or ends with. Neither the compiler nor the library that reads the
bytes of a set is part of the program, so both are parameters: what a run of the compiler comes to,
and a reader of bytes.
-/

namespace ProtoSchema

/-- The compiled files of a set, in order. -/
abbrev DescriptorSet := List FileDescriptor

namespace DescriptorSet

/-- A reader of sets: the set that bytes hold, or what it says about bytes that are none. -/
abbrev Reader := List UInt8 → Except Text DescriptorSet

/-- The set that bytes hold, as an input of this name. -/
def ofBytes (reader : Reader) (path : Text) (bytes : List UInt8) : Except LoadError DescriptorSet :=
  match reader bytes with
  | .ok files => .ok files
  | .error message => .error (.failure ⟨path, .notDescriptorSet message⟩)

/-- Load the set in the file at a path. -/
def load (reader : Reader) (tree : FileTree) (path : Text) : Except LoadError DescriptorSet :=
  match tree.read path with
  | .error error => .error (.ofAccess path error)
  | .ok bytes => ofBytes reader path bytes

/-- A recorded name answers a request: they are equal, or the request ends with the name after a
slash. -/
def answers (request recorded : Text) : Bool :=
  request = recorded || Text.endsWith request (Path.slash :: recorded)

/-- The first file of the set that answers a request, with its index. -/
def pick (files : DescriptorSet) (request : Text) : Except LoadFailure (FileDescriptor × Nat) :=
  match files.zipIdx.find? fun indexed => answers request indexed.1.name with
  | some found => .ok found
  | none => .error ⟨request, .notInSet (files.map FileDescriptor.name)⟩

/-- The files that answer several requests, in the order of the requests. -/
def select (files : DescriptorSet) (requests : List Text) :
    Except LoadFailure (List (FileDescriptor × Nat)) :=
  requests.mapM files.pick

end DescriptorSet

/-- How a run of the compiler ends: the program is missing, it cannot be started for another reason,
or it exits with a code, a text on its error stream and perhaps a written set. -/
inductive CompilerRun where
  | missing
  | unstartable (message : Text)
  | exited (code : Int) (errors : List UInt8) (written : Option (List UInt8))

/-- A request to compile files: the program, the include directories and the files. -/
structure Compilation where
  binary : Text := Text.ofString "protoc"
  includes : List Text := []
  paths : List Text

namespace Compilation

/-- The directories to search: those given and those of the files, each once, without empty ones. -/
def searchPath (compilation : Compilation) (working : Text) : List Text :=
  let directories := compilation.paths.map fun path => Path.parent (Path.absolute working path)
  ((compilation.includes ++ directories).filter fun directory => !directory.isEmpty).eraseDups

/-- The command line of the compiler, run in the directory `working` and told to write to `target`.
-/
def arguments (compilation : Compilation) (working target : Text) : List Text :=
  [compilation.binary, Text.ofString "--include_imports", Text.ofString "--include_source_info",
      Text.ofString "--descriptor_set_out=" ++ target] ++
    (compilation.searchPath working).flatMap (fun directory => [Text.ofString "-I", directory]) ++
    compilation.paths.map (Path.absolute working)

/-- The name under which the failure of a compilation is reported. -/
def label (compilation : Compilation) : Text :=
  Text.join (Text.ofString ", ") compilation.paths

/-- The set that a run of the compiler gives, where `target` is the file it was told to write. -/
def result (compilation : Compilation) (reader : DescriptorSet.Reader) (target : Text) :
    CompilerRun → Except LoadError DescriptorSet
  | .missing => .error (.failure ⟨compilation.label, .compilerMissing compilation.binary⟩)
  | .unstartable message => .error (.compiler message)
  | .exited code errors written =>
      if code ≠ 0 then .error (.failure ⟨compilation.label, .compilerFailed errors⟩)
      else
        match written with
        | none => .error (.failure ⟨target, .unreadable ⟨.missing, target⟩⟩)
        | some bytes => DescriptorSet.ofBytes reader target bytes

end Compilation

end ProtoSchema
