import ProtoSchema.Text.Lines

/-!
# Paths

Paths with slashes between their parts, as texts: taking them apart, joining them, and the forms in
which they are shown.
-/

namespace ProtoSchema.Path

/-- The text of a slash. -/
def slash : CodePoint := '/'

/-- The path up to its last slash, that one included, and what follows it. -/
def splitAtLastSlash (path : Text) : Text × Text :=
  let base := (path.reverse.takeWhile (· ≠ slash)).reverse
  (path.take (path.length - base.length), base)

/-- The last part of a path, empty after a slash at the end. -/
def base (path : Text) : Text :=
  (splitAtLastSlash path).2

/-- The path without the slashes at its end. A path of slashes alone stays as it is. -/
def trimSlashes (path : Text) : Text :=
  let trimmed := (path.reverse.dropWhile (· = slash)).reverse
  if trimmed.isEmpty then path else trimmed

/-- The path before the last part, without the slashes in between. -/
def parent (path : Text) : Text :=
  trimSlashes (splitAtLastSlash path).1

/-- A path from a directory. A path that starts with a slash leaves the directory out. -/
def join (directory path : Text) : Text :=
  if path.head? = some slash then path
  else if directory.isEmpty || directory.getLast? = some slash then directory ++ path
  else directory ++ slash :: path

/-- The last part of a path without its extension. The extension starts at the last dot that follows
another code point than a dot. -/
def stem (path : Text) : Text :=
  let name := base path
  let dots := name.takeWhile (· = CodePoint.ofChar '.')
  let rest := name.drop dots.length
  let fromDot := rest.reverse.dropWhile (· ≠ CodePoint.ofChar '.')
  if fromDot.isEmpty then name else dots ++ (fromDot.drop 1).reverse

/-- The slashes that a path starts with, as far as they count: two are kept, more are one. -/
def leadingSlashes (path : Text) : Text :=
  match (path.takeWhile (· = slash)).length with
  | 0 => []
  | 2 => [slash, slash]
  | _ => [slash]

/-- A single dot, which stands for the directory itself. -/
def here : Text := Text.ofString "."

/-- Two dots, which stand for the parent directory. -/
def up : Text := Text.ofString ".."

/-- The parts of a path that say something: neither empty nor a single dot. -/
def parts (path : Text) : List Text :=
  (Text.split slash path).filter fun part => !part.isEmpty && part ≠ here

/-- The path as it is shown: without single dots and superfluous slashes. -/
def display (path : Text) : Text :=
  let shown := leadingSlashes path ++ Text.join [slash] (parts path)
  if shown.isEmpty then here else shown

/-- Add a part to the reversed parts before it. Two dots take the part before them away, if there is
one; at the root they vanish. -/
def addPart (rooted : Bool) (before : List Text) (part : Text) : List Text :=
  if part ≠ up then part :: before
  else
    match before with
    | [] => if rooted then [] else [part]
    | previous :: earlier => if previous = up then part :: before else earlier

/-- The path without single dots, superfluous slashes, and parts that two dots take away. -/
def normalize (path : Text) : Text :=
  let slashes := leadingSlashes path
  let kept := (parts path).foldl (addPart (!slashes.isEmpty)) []
  let shown := slashes ++ Text.join [slash] kept.reverse
  if shown.isEmpty then here else shown

/-- The normal form of a path that starts in a directory. -/
def absolute (directory path : Text) : Text :=
  normalize (join directory path)

end ProtoSchema.Path
