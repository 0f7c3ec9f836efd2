import ProtoSchema.Schema.File

/-!
# Message entries

The messages of a schema file, each with the file it stands in and the path of names around it. The
entries of a tree come in declaration order, a message before the messages nested in it.
-/

namespace ProtoSchema

/-- A message with the file it was found in and the names of the namespaces and messages around
it. -/
structure Entry where
  file : Text
  path : List Text
  message : Message

/-- The full name of an entry: the names on its path and its own, joined by dots. -/
def Entry.fullName (entry : Entry) : Text :=
  Text.join (Text.ofString ".") (entry.path ++ [entry.message.name])

mutual

/-- The entries of a message and of the messages nested in it. -/
def Message.entries (file : Text) (path : List Text) : Message → List Entry
  | ⟨name, fields, messages, enums, options⟩ =>
      ⟨file, path, ⟨name, fields, messages, enums, options⟩⟩ ::
        Message.entriesOfList file (path ++ [name]) messages

/-- The entries of several messages in order. -/
def Message.entriesOfList (file : Text) (path : List Text) : List Message → List Entry
  | [] => []
  | first :: rest => Message.entries file path first ++ Message.entriesOfList file path rest

end

mutual

/-- The entries of a declaration, none for one that is neither a message nor a namespace. -/
def Declaration.entries (file : Text) (path : List Text) : Declaration → List Entry
  | .message declared => declared.entries file path
  | .enum _ => []
  | .service _ => []
  | .scope name members => Declaration.entriesOfList file (path ++ [name]) members

/-- The entries of several declarations in order. -/
def Declaration.entriesOfList (file : Text) (path : List Text) : List Declaration → List Entry
  | [] => []
  | first :: rest =>
      Declaration.entries file path first ++ Declaration.entriesOfList file path rest

end

/-- The entries of a namespace that is reached by `path`. Its own name is not on their paths. -/
def Namespace.entries (space : Namespace) (file : Text) (path : List Text) : List Entry :=
  Declaration.entriesOfList file path space.members

/-- The entries of a schema file. -/
def File.entries (file : File) (path : List Text := []) : List Entry :=
  file.root.entries file.path path

end ProtoSchema
