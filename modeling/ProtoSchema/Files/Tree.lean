import ProtoSchema.Files.Encoding

/-!
# File trees

A file tree as a value: what stands at each place, a place being the list of names that leads to it
from the root. Paths are resolved from a working directory, and every directory on the way has to
exist. The operations are those of a program that reads and writes files: read a file, write a file,
make a directory and make a directory with those above it.
-/

namespace ProtoSchema

/-- What stands at a place. -/
inductive FileNode where
  | directory
  | file (bytes : List UInt8)
  deriving DecidableEq

/-- Why a file system refuses an operation. -/
inductive FileFault where
  | missing
  | exists
  | notDirectory
  | isDirectory
  | nameTooLong
  deriving DecidableEq

namespace FileFault

/-- The number of a fault. -/
def number : FileFault → Nat
  | missing => 2
  | .exists => 17
  | notDirectory => 20
  | isDirectory => 21
  | nameTooLong => 36

/-- What a fault says. -/
def description : FileFault → Text
  | missing => Text.ofString "No such file or directory"
  | .exists => Text.ofString "File exists"
  | notDirectory => Text.ofString "Not a directory"
  | isDirectory => Text.ofString "Is a directory"
  | nameTooLong => Text.ofString "File name too long"

end FileFault

/-- A fault and the path that was asked for. -/
structure FileError where
  fault : FileFault
  path : Text
  deriving DecidableEq

/-- The message of an error. -/
def FileError.message (error : FileError) : Text :=
  Text.ofString "[Errno " ++ Text.ofString (toString error.fault.number) ++ Text.ofString "] " ++
    error.fault.description ++ Text.ofString ": " ++ Text.quoted error.path

/-- Why a path gives no access: it is none, or the file system refuses the operation. -/
inductive AccessFault where
  | path (error : PathError)
  | system (fault : FileFault)
  deriving DecidableEq

/-- A failed access: the path is none, or the file system refuses the operation at the path. -/
inductive AccessError where
  | path (error : PathError)
  | file (error : FileError)
  deriving DecidableEq

/-- Something stands at the path already. -/
def AccessError.isExists : AccessError → Bool
  | file error => error.fault = .exists
  | path _ => false

/-- The message of an error. -/
def AccessError.message : AccessError → Text
  | path error => error.message
  | file error => error.message

/-- A place: the names that lead to it from the root. -/
abbrev Place := List Text

/-- A file tree: the working directory, and what stands at the places other than the root. -/
structure FileTree where
  working : Place := []
  nodes : List (Place × FileNode) := []

namespace FileTree

/-- What stands at a place. The root is always a directory. -/
def find? (tree : FileTree) (place : Place) : Option FileNode :=
  if place.isEmpty then some .directory
  else (tree.nodes.find? fun entry => entry.1 = place).map Prod.snd

/-- Put something at a place, in the stead of what stands there. -/
def put (tree : FileTree) (place : Place) (node : FileNode) : FileTree :=
  let rec go : List (Place × FileNode) → List (Place × FileNode)
    | [] => [(place, node)]
    | entry :: rest => if entry.1 = place then (place, node) :: rest else entry :: go rest
  { tree with nodes := go tree.nodes }

/-- The parts of a path as it is resolved. A slash at the end asks for a directory, as a single dot
does. -/
def pathParts (path : Text) : List Text :=
  let named := (Text.split Path.slash path).filter fun part => !part.isEmpty
  if path.getLast? = some Path.slash then named ++ [Path.here] else named

/-- The greatest number of bytes in a name. -/
def nameLimit : Nat := 255

/-- The greatest number of bytes in a path. -/
def pathLimit : Nat := 4095

/-- What is wrong with a path, whatever stands in the tree. -/
def pathFault? (path : Text) : Option AccessFault :=
  match Path.error? path with
  | some error => some (.path error)
  | none =>
      if path.isEmpty then some (.system .missing)
      else if pathLimit < (Path.encode path).length then some (.system .nameTooLong)
      else none

/-- Follow names from a place. Every place that is left behind has to be a directory; the last one
may be anything, or missing. -/
def follow (tree : FileTree) (place : Place) : List Text → Except AccessFault Place
  | [] => .ok place
  | name :: rest =>
      match tree.find? place with
      | none => .error (.system .missing)
      | some (.file _) => .error (.system .notDirectory)
      | some .directory =>
          if name = Path.here then tree.follow place rest
          else if name = Path.up then tree.follow place.dropLast rest
          else if nameLimit < (Path.encode name).length then .error (.system .nameTooLong)
          else tree.follow (place ++ [name]) rest

/-- The place that a path is followed from. -/
def origin (tree : FileTree) (path : Text) : Place :=
  if path.head? = some Path.slash then [] else tree.working

/-- The place to which names lead that are read off a path. -/
def resolveAs (tree : FileTree) (path : Text) (names : List Text) : Except AccessFault Place :=
  match pathFault? path with
  | some fault => .error fault
  | none => tree.follow (tree.origin path) names

/-- The place of a path. -/
def resolve (tree : FileTree) (path : Text) : Except AccessFault Place :=
  tree.resolveAs path (pathParts path)

/-- What stands at a path, if anything. -/
def nodeAt? (tree : FileTree) (path : Text) : Option FileNode :=
  match tree.resolve path with
  | .ok place => tree.find? place
  | .error _ => none

/-- There is a directory at the path. -/
def isDirectory (tree : FileTree) (path : Text) : Bool :=
  tree.nodeAt? path = some .directory

/-- The bytes of the file at a place. -/
def contents (tree : FileTree) (place : Place) : Except AccessFault (List UInt8) :=
  match tree.find? place with
  | none => .error (.system .missing)
  | some .directory => .error (.system .isDirectory)
  | some (.file bytes) => .ok bytes

/-- Attach the path to a fault of the file system. -/
def atPath {α : Type} (path : Text) : Except AccessFault α → Except AccessError α
  | .ok value => .ok value
  | .error (.path error) => .error (.path error)
  | .error (.system fault) => .error (.file ⟨fault, path⟩)

/-- The bytes of the file at a path. -/
def read (tree : FileTree) (path : Text) : Except AccessError (List UInt8) :=
  atPath path (tree.resolve path >>= tree.contents)

/-- The tree after a file is written at a place. -/
def writeAt (tree : FileTree) (bytes : List UInt8) (place : Place) : Except AccessFault FileTree :=
  match tree.find? place with
  | some .directory => .error (.system .isDirectory)
  | _ => .ok (tree.put place (.file bytes))

/-- The tree after a file is written at a path. -/
def write (tree : FileTree) (path : Text) (bytes : List UInt8) : Except AccessError FileTree :=
  atPath path (tree.resolve path >>= tree.writeAt bytes)

/-- The tree after a directory is made at a place. -/
def makeDirectoryAt (tree : FileTree) (place : Place) : Except AccessFault FileTree :=
  match tree.find? place with
  | some _ => .error (.system .exists)
  | none => .ok (tree.put place .directory)

/-- The tree after a directory is made at a path, which may end in slashes. -/
def makeDirectory (tree : FileTree) (path : Text) : Except AccessError FileTree :=
  atPath path
    (tree.resolveAs path (pathParts (Path.trimSlashes path)) >>= tree.makeDirectoryAt)

/-- The path before the last part and the last part. A slash at the end does not count. -/
def parentAndBase (path : Text) : Text × Text :=
  if (Path.base path).isEmpty then
    let shorter := Path.parent path
    (Path.parent shorter, Path.base shorter)
  else (Path.parent path, Path.base path)

/-- Make a directory that may be there already. -/
def ensureDirectory (tree : FileTree) (path : Text) : FileTree × Except AccessError Unit :=
  match tree.makeDirectory path with
  | .ok made => (made, .ok ())
  | .error error => (tree, if tree.isDirectory path then .ok () else .error error)

/-- Make a directory and those above it, where they are missing. A failure leaves what is already
made. There are no more directories above a path than it has code points, which bounds the steps. -/
def makeDirectoriesWithin (tree : FileTree) (path : Text) :
    Nat → FileTree × Except AccessError Unit
  | 0 => tree.ensureDirectory path
  | fuel + 1 =>
      let (above, last) := parentAndBase path
      if above.isEmpty || last.isEmpty || (tree.nodeAt? above).isSome then tree.ensureDirectory path
      else
        match tree.makeDirectoriesWithin above fuel with
        | (made, .ok ()) => if last = Path.here then (made, .ok ()) else made.ensureDirectory path
        | (made, .error error) =>
            if error.isExists then
              if last = Path.here then (made, .ok ()) else made.ensureDirectory path
            else (made, .error error)

/-- Make a directory and those above it, where they are missing. -/
def makeDirectories (tree : FileTree) (path : Text) : FileTree × Except AccessError Unit :=
  tree.makeDirectoriesWithin path path.length

end FileTree

end ProtoSchema
