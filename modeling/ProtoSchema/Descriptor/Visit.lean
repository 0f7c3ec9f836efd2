import ProtoSchema.Descriptor.Cursor
import ProtoSchema.Naming

/-!
# Visiting declarations

The declarations of a compiled file in order: the enumerations of a scope before its messages, and
each message before what is nested in it. A visitor is called with the name of the generated type,
the name in the schema, the descriptor and its cursor. Its calls run in any monad, so a visitor may
keep state and may stop the visit. The calls themselves do not depend on the visitor, and `calls`
lists them.
-/

namespace ProtoSchema

/-- A declaration that a visit meets. -/
inductive Declared where
  | enum (descriptor : EnumDescriptor)
  | message (descriptor : MessageDescriptor)

/-- The name of a declaration in its descriptor. -/
def Declared.name : Declared → Text
  | enum descriptor => descriptor.name
  | message descriptor => descriptor.name

/-- A call of a visit: the name of the generated type, the name in the schema, what is declared, and
its cursor. -/
structure Call where
  outputName : Text
  protoName : Text
  declared : Declared
  cursor : Cursor

/-- What a visit does for each enumeration and for each message. -/
structure Visitor (m : Type → Type) where
  onEnum : Call → m Unit
  onMessage : Call → m Unit

/-- The visitor with these callbacks. Without one for enumerations it passes over them. -/
def Visitor.ofCallbacks {m : Type → Type} [Pure m] (onMessage : Call → m Unit)
    (onEnum? : Option (Call → m Unit) := none) : Visitor m where
  onEnum := onEnum?.getD fun _ => pure ()
  onMessage := onMessage

/-- The declarations directly in a scope, and the field numbers that lead to them. -/
structure Scope where
  enums : List EnumDescriptor
  messages : List MessageDescriptor
  enumKind : Int
  messageKind : Int

/-- A file as a scope. -/
def FileDescriptor.scope (file : FileDescriptor) : Scope :=
  ⟨file.enums, file.messages, FieldNumber.fileEnum, FieldNumber.fileMessage⟩

/-- A message as a scope. -/
def MessageDescriptor.scope (message : MessageDescriptor) : Scope :=
  ⟨message.enums, message.messages, FieldNumber.messageEnum, FieldNumber.messageMessage⟩

/-- Where a visit stands: the cursor of the scope, and what comes before the names of its members in
generated code and in the schema. -/
structure Frame where
  cursor : Cursor
  namePath : Text := []
  protoPath : Text := []

namespace Frame

/-- The name of a member, before affixes. -/
def flatName (frame : Frame) (options : NamingOptions) (name : Text) : Text :=
  frame.namePath ++ Naming.maybeCamel options name

/-- The call for a member of the scope. -/
def call (frame : Frame) (options : NamingOptions) (declared : Declared) (kind index : Int) :
    Call :=
  { outputName := Naming.avoidTaken (Naming.wrap options (frame.flatName options declared.name))
    protoName := frame.protoPath ++ declared.name
    declared := declared
    cursor := frame.cursor.child kind index }

/-- The frame of a message that is a member of the scope. -/
def enter (frame : Frame) (options : NamingOptions) (name : Text) (kind index : Int) : Frame :=
  { cursor := frame.cursor.child kind index
    namePath := frame.flatName options name ++ Naming.delimiter options
    protoPath := frame.protoPath ++ name ++ Text.ofString "." }

end Frame

namespace Visit

variable {m : Type → Type} [Monad m]

/-- Visit enumerations, numbered from `index` on. -/
def enums (visitor : Visitor m) (options : NamingOptions) (frame : Frame) (kind : Int)
    (index : Nat) : List EnumDescriptor → m Unit
  | [] => pure ()
  | first :: rest => do
      visitor.onEnum (frame.call options (.enum first) kind index)
      enums visitor options frame kind (index + 1) rest

mutual

/-- Visit what is nested in a message. -/
def message (visitor : Visitor m) (options : NamingOptions) (frame : Frame) :
    MessageDescriptor → m Unit
  | ⟨_, nestedEnums, nestedMessages⟩ => do
      enums visitor options frame FieldNumber.messageEnum 0 nestedEnums
      messages visitor options frame FieldNumber.messageMessage 0 nestedMessages

/-- Visit messages, numbered from `index` on, and what is nested in them. -/
def messages (visitor : Visitor m) (options : NamingOptions) (frame : Frame) (kind : Int)
    (index : Nat) : List MessageDescriptor → m Unit
  | [] => pure ()
  | first :: rest => do
      visitor.onMessage (frame.call options (.message first) kind index)
      message visitor options (frame.enter options first.name kind index) first
      messages visitor options frame kind (index + 1) rest

end

/-- Visit everything in a scope. -/
def scope (visitor : Visitor m) (options : NamingOptions) (frame : Frame) (scope : Scope) :
    m Unit := do
  enums visitor options frame scope.enumKind 0 scope.enums
  messages visitor options frame scope.messageKind 0 scope.messages

/-- The calls for enumerations, numbered from `index` on. -/
def enumCalls (options : NamingOptions) (frame : Frame) (kind : Int) (index : Nat) :
    List EnumDescriptor → List Call
  | [] => []
  | first :: rest =>
      frame.call options (.enum first) kind index ::
        enumCalls options frame kind (index + 1) rest

mutual

/-- The calls for what is nested in a message. -/
def nestedCalls (options : NamingOptions) (frame : Frame) : MessageDescriptor → List Call
  | ⟨_, nestedEnums, nestedMessages⟩ =>
      enumCalls options frame FieldNumber.messageEnum 0 nestedEnums ++
        messageCalls options frame FieldNumber.messageMessage 0 nestedMessages

/-- The calls for messages, numbered from `index` on, and for what is nested in them. -/
def messageCalls (options : NamingOptions) (frame : Frame) (kind : Int) (index : Nat) :
    List MessageDescriptor → List Call
  | [] => []
  | first :: rest =>
      frame.call options (.message first) kind index ::
        (nestedCalls options (frame.enter options first.name kind index) first ++
          messageCalls options frame kind (index + 1) rest)

end

/-- The calls that a visit of a scope makes, in order. -/
def calls (options : NamingOptions) (frame : Frame) (scope : Scope) : List Call :=
  enumCalls options frame scope.enumKind 0 scope.enums ++
    messageCalls options frame scope.messageKind 0 scope.messages

/-- Visit services, numbered from `index` on. -/
def services (onService : ServiceDescriptor → Cursor → m Unit) (cursor : Cursor) (index : Nat) :
    List ServiceDescriptor → m Unit
  | [] => pure ()
  | first :: rest => do
      onService first (cursor.child FieldNumber.fileService index)
      services onService cursor (index + 1) rest

end Visit

end ProtoSchema
