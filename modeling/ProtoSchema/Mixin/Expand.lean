import ProtoSchema.Mixin.Entry
import ProtoSchema.Text.Dictionary

/-!
# Mixins

A message declares mixins by an option that names other messages. Its expansion has the fields of
each mixin, in the order in which the mixins are declared, and then its own fields. Mixins are
looked up among all entries by full name, where the first entry of a name counts, and their own
mixins are not expanded.
-/

namespace ProtoSchema

/-- The option that declares a mixin. -/
def mixinOption : Text :=
  Text.ofString "(ts_proto_options.mixins)"

/-- Why messages cannot be expanded. `numberTooLong` is an integer that has to be written out but
has more digits than are written. -/
inductive MixinError where
  | notFound (mixin message : Text)
  | numberConflict (field : Text) (number : Int) (message : Text)
  | numberTooLong
  deriving DecidableEq

/-- The message about an integer that is too long to be written. -/
def numberTooLongMessage : Text :=
  Text.ofString "Exceeds the limit (4300 digits) for integer string conversion; " ++
    Text.ofString "use sys.set_int_max_str_digits() to increase the limit"

/-- An integer as a text, however long it is. -/
def integerText (value : Int) : Text :=
  Text.ofString (toString value)

/-- The message of an error. -/
def MixinError.message : MixinError → Text
  | notFound mixin message =>
      Text.ofString "Mixin '" ++ mixin ++ Text.ofString "' not found" ++
        (if message.isEmpty then []
          else Text.ofString " (declared by '" ++ message ++ Text.ofString "')")
  | numberConflict field number message =>
      Text.ofString "Field number conflict on '" ++ field ++ Text.ofString "' (tag " ++
        integerText number ++ Text.ofString ") in " ++ message
  | numberTooLong => numberTooLongMessage

/-- The names of the mixins that a message declares, in order, unless one of them is an integer too
long to be written. -/
def Message.mixins (message : Message) : Except MixinError (List Text) :=
  (message.options.filter fun setting => setting.name = mixinOption).mapM fun setting =>
    match setting.value.toText? with
    | some name => .ok name
    | none => .error .numberTooLong

/-- Messages by full name. -/
abbrev MessageIndex := Dictionary Message

/-- The index of the entries. The first entry of a name counts. -/
def MessageIndex.ofEntries (entries : List Entry) : MessageIndex :=
  entries.foldl (fun index entry => Dictionary.insertNew entry.fullName entry.message index) []

/-- The first entry of this full name. -/
def Entry.find? (entries : List Entry) (name : Text) : Option Entry :=
  entries.find? fun entry => entry.fullName = name

/-- The field as a part of an expansion, where it belongs to no group of alternatives. -/
def Field.detached (field : Field) : Field :=
  { field with oneof := none }

/-- The error of a field whose number is taken. -/
def MixinError.conflict (host : Text) (field : Field) : MixinError :=
  match Integer.decimal? field.number with
  | some _ => .numberConflict field.name field.number host
  | none => .numberTooLong

/-- Add a field to those merged so far, unless its number is taken. -/
def Field.addTo (host : Text) (merged : List Field) (field : Field) :
    Except MixinError (List Field) :=
  if merged.any fun other => other.number = field.number then .error (.conflict host field)
  else .ok (merged ++ [field.detached])

/-- Add the fields of a mixin to those merged so far. -/
def MessageIndex.addMixin (index : MessageIndex) (host : Text) (merged : List Field)
    (mixin : Text) : Except MixinError (List Field) :=
  match index.get? mixin with
  | none => .error (.notFound mixin host)
  | some message => message.fields.foldlM (Field.addTo host) merged

/-- The expansion of a message with these mixins. -/
def Message.expand (message : Message) (mixins : List Text) (index : MessageIndex) :
    Except MixinError Message := do
  let inherited ← mixins.foldlM (index.addMixin message.name) []
  let fields ← message.fields.foldlM (Field.addTo message.name) inherited
  return { name := message.name, fields }

/-- Expand the message of an entry, if it declares mixins, and record the expansion. -/
def Entry.expandInto (index : MessageIndex) (expanded : Dictionary Message) (entry : Entry) :
    Except MixinError (Dictionary Message) := do
  let mixins ← entry.message.mixins
  if mixins.isEmpty then return expanded
  let message ← entry.message.expand mixins index
  return expanded.insert entry.fullName message

/-- The expansions of all entries that declare mixins, by full name, looking mixins up in `index`.
-/
def expandWith (index : MessageIndex) (entries : List Entry) :
    Except MixinError (Dictionary Message) :=
  entries.foldlM (Entry.expandInto index) []

/-- The expansions of all entries that declare mixins, by full name. -/
def expand (entries : List Entry) : Except MixinError (Dictionary Message) :=
  expandWith (.ofEntries entries) entries

end ProtoSchema
