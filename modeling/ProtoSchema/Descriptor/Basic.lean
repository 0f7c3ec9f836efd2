import ProtoSchema.Text.CodePoint

/-!
# Descriptors

What a compiled schema file says of its declarations: their names, their nesting, and a list of
source locations. A location carries the path of field numbers and indices that leads to the
declaration it belongs to, and the comments around it.
-/

namespace ProtoSchema

/-- An enumeration of a compiled file. -/
structure EnumDescriptor where
  name : Text
  deriving DecidableEq

/-- A service of a compiled file. -/
structure ServiceDescriptor where
  name : Text
  deriving DecidableEq

/-- A message of a compiled file with the types nested in it. -/
structure MessageDescriptor where
  name : Text := []
  enums : List EnumDescriptor := []
  messages : List MessageDescriptor := []

instance : Inhabited MessageDescriptor := ⟨{ name := [] }⟩

/-- A source location: the path of the declaration it belongs to, where it stands, and its
comments. -/
structure Location where
  path : List Int := []
  span : List Int := []
  leading : Text := []
  trailing : Text := []
  detached : List Text := []
  deriving DecidableEq

/-- A compiled schema file. -/
structure FileDescriptor where
  name : Text := []
  package : Text := []
  enums : List EnumDescriptor := []
  messages : List MessageDescriptor := []
  services : List ServiceDescriptor := []
  locations : List Location := []

/-! ## The field numbers on the paths of locations -/

namespace FieldNumber

/-- Messages of a file. -/
def fileMessage : Int := 4

/-- Enumerations of a file. -/
def fileEnum : Int := 5

/-- Services of a file. -/
def fileService : Int := 6

/-- Messages of a message. -/
def messageMessage : Int := 3

/-- Enumerations of a message. -/
def messageEnum : Int := 4

end FieldNumber

end ProtoSchema
