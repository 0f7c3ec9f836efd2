import ProtoSchema.Schema.Basic

/-!
# Namespaces

The tree of declarations. A namespace holds declarations in their order, further namespaces among
them, and a path of names leads from a namespace to one below it. Updating a namespace by its path
creates what is missing on the way and leaves every other namespace as it is.
-/

namespace ProtoSchema

/-- A member of a namespace. -/
inductive Declaration where
  | message (message : Message)
  | enum (enum : EnumType)
  | service (service : Service)
  | scope (name : Text) (members : List Declaration)

/-- A named list of declarations. -/
structure Namespace where
  name : Text := []
  members : List Declaration := []

namespace Declaration

/-- The message that a declaration is. -/
def message? : Declaration → Option Message
  | message declared => some declared
  | _ => none

/-- The enumeration that a declaration is. -/
def enum? : Declaration → Option EnumType
  | enum declared => some declared
  | _ => none

/-- The service that a declaration is. -/
def service? : Declaration → Option Service
  | service declared => some declared
  | _ => none

/-- The namespace that a declaration is. -/
def namespace? : Declaration → Option Namespace
  | scope name members => some ⟨name, members⟩
  | _ => none

/-- Update the members of the first namespace of this name, or of a new one at the end. -/
def updateScope (name : Text) (update : List Declaration → List Declaration) :
    List Declaration → List Declaration
  | [] => [scope name (update [])]
  | scope other members :: rest =>
      if other = name then scope other (update members) :: rest
      else scope other members :: updateScope name update rest
  | declaration :: rest => declaration :: updateScope name update rest

/-- Update the members of the namespace at a path. Namespaces missing on the path are created. -/
def updateAt (update : List Declaration → List Declaration) :
    List Text → List Declaration → List Declaration
  | [], members => update members
  | name :: path, members => updateScope name (updateAt update path) members

end Declaration

namespace Namespace

/-- The messages declared directly in the namespace. -/
def messages (space : Namespace) : List Message :=
  space.members.filterMap Declaration.message?

/-- The enumerations declared directly in the namespace. -/
def enums (space : Namespace) : List EnumType :=
  space.members.filterMap Declaration.enum?

/-- The services declared directly in the namespace. -/
def services (space : Namespace) : List Service :=
  space.members.filterMap Declaration.service?

/-- The namespaces directly below. -/
def namespaces (space : Namespace) : List Namespace :=
  space.members.filterMap Declaration.namespace?

/-- The first namespace of this name directly below. -/
def child? (space : Namespace) (name : Text) : Option Namespace :=
  space.namespaces.find? fun child => child.name = name

/-- The namespace at a path, if it exists. -/
def find? (space : Namespace) : List Text → Option Namespace
  | [] => some space
  | name :: path =>
      match space.child? name with
      | some child => child.find? path
      | none => none

/-- Append declarations to the namespace at a path, which is created if it does not exist. -/
def append (space : Namespace) (path : List Text) (declarations : List Declaration) : Namespace :=
  { space with members := Declaration.updateAt (· ++ declarations) path space.members }

end Namespace

end ProtoSchema
