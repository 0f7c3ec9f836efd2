import ProtoSchema.Number.Binary64

/-!
# Declarations of a schema

The things that a schema file declares: messages with their fields, enumerations and services, each
with the options set on it.
-/

namespace ProtoSchema

/-- The value of an option. -/
inductive Constant where
  | bool (value : Bool)
  | integer (value : Int)
  | float (value : Binary64)
  | text (value : Text)
  deriving DecidableEq

/-- The value as a text, unless it is an integer too long to be written. -/
def Constant.toText? : Constant → Option Text
  | bool true => some (Text.ofString "True")
  | bool false => some (Text.ofString "False")
  | integer value => Integer.decimal? value
  | float value => some value.toText
  | text value => some value

/-- One setting of an option. -/
structure OptionSetting where
  name : Text
  value : Constant
  deriving DecidableEq

/-- The words that may stand before the type of a field. -/
inductive Label where
  | optional
  | required
  | repeated
  deriving DecidableEq, Repr

/-- A field of a message or of an extension. `isRepeated` says that the field may hold more than one
value, whatever its label is. `extendee` is the message that an extension adds the field to, and
`oneof` the group of alternatives that the field belongs to. -/
structure Field where
  name : Text
  number : Int
  type : Text
  isRepeated : Bool := false
  label : Option Label := none
  extendee : Option Text := none
  oneof : Option Text := none
  options : List OptionSetting := []
  deriving DecidableEq

/-- A named number of an enumeration. -/
structure EnumValue where
  name : Text
  number : Int
  options : List OptionSetting := []
  deriving DecidableEq

/-- An enumeration. -/
structure EnumType where
  name : Text
  values : List EnumValue := []
  options : List OptionSetting := []
  deriving DecidableEq

/-- A message type with the types nested in it. -/
structure Message where
  name : Text
  fields : List Field := []
  messages : List Message := []
  enums : List EnumType := []
  options : List OptionSetting := []

instance : Inhabited Message := ⟨⟨[], [], [], [], []⟩⟩

/-- A procedure of a service, with the messages it takes and gives. -/
structure Method where
  name : Text
  input : Text
  output : Text
  clientStreaming : Bool := false
  serverStreaming : Bool := false
  options : List OptionSetting := []
  deriving DecidableEq

/-- A service. -/
structure Service where
  name : Text
  methods : List Method := []
  options : List OptionSetting := []
  deriving DecidableEq

end ProtoSchema
