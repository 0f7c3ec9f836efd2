import ProtoSchema.Text.Case
import ProtoSchema.Text.Lines

/-!
# Names of generated types

How the name of a declaration becomes the name of a type in generated code: camel case on request,
affixes around the whole name, and a suffix for names that the target language has taken.
-/

namespace ProtoSchema

/-- The choices that shape type names. -/
structure NamingOptions where
  /-- Turn names with underscores into camel case. -/
  snakeToCamel : Bool := false
  /-- Put an underscore between the names of nested types. -/
  snakeTypeNames : Bool := false
  /-- The text before every type name. -/
  before : Text := []
  /-- The text after every type name. -/
  behind : Text := []

namespace Naming

/-- The word with its first code point in upper case. -/
def capitalize : Text → Text
  | [] => []
  | c :: rest => c.upper ++ rest

/-- The name in camel case: its words, at the underscores, are joined and all but the first are
capitalized. A name without a lower-case letter is lowered first, word by word. -/
def snakeToCamel (name : Text) : Text :=
  let words := Text.split '_' name
  let lowered := if name.any CodePoint.isLower then words else words.map Text.lower
  match lowered with
  | [] => []
  | first :: rest => first ++ (rest.map capitalize).flatten

/-- The name in camel case if the options ask for it and the name has an underscore. -/
def maybeCamel (options : NamingOptions) (name : Text) : Text :=
  if options.snakeToCamel && name.contains (CodePoint.ofChar '_') then snakeToCamel name else name

/-- The name between the affixes of the options. -/
def wrap (options : NamingOptions) (name : Text) : Text :=
  options.before ++ name ++ options.behind

/-- The names that the target language has taken. -/
def taken : List Text :=
  [Text.ofString "Date", Text.ofString "Function"]

/-- The name, with a suffix if it is taken. -/
def avoidTaken (name : Text) : Text :=
  if taken.contains name then name ++ Text.ofString "Message" else name

/-- What stands between the name of a type and the name of a type nested in it. -/
def delimiter (options : NamingOptions) : Text :=
  if options.snakeTypeNames then Text.ofString "_" else []

end Naming

end ProtoSchema
