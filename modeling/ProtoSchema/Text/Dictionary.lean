import ProtoSchema.Text.CodePoint

/-!
# Ordered dictionaries

A dictionary is a list of keys with their values, in the order in which the keys were first added.
-/

namespace ProtoSchema

/-- Keys with values, in the order of their first insertion. -/
abbrev Dictionary (α : Type) := List (Text × α)

namespace Dictionary

/-- The keys in order. -/
def keys {α : Type} (dictionary : Dictionary α) : List Text :=
  dictionary.map Prod.fst

/-- The values in the order of their keys. -/
def values {α : Type} (dictionary : Dictionary α) : List α :=
  dictionary.map Prod.snd

/-- The value of a key. -/
def get? {α : Type} (dictionary : Dictionary α) (key : Text) : Option α :=
  (dictionary.find? fun entry => entry.1 = key).map Prod.snd

/-- Set the value of a key. A key that is there keeps its place and a new one goes to the end. -/
def insert {α : Type} (key : Text) (value : α) : Dictionary α → Dictionary α
  | [] => [(key, value)]
  | entry :: rest =>
      if entry.1 = key then (key, value) :: rest else entry :: insert key value rest

/-- Add a key with its value, unless the key is there. -/
def insertNew {α : Type} (key : Text) (value : α) : Dictionary α → Dictionary α
  | [] => [(key, value)]
  | entry :: rest => if entry.1 = key then entry :: rest else entry :: insertNew key value rest

end Dictionary

end ProtoSchema
