import ProtoSchema.Parser.Message
import ProtoSchema.Proofs.Schema.Written

/-!
# Sources of fields and messages

The fields and messages that statements can bring. A message has a name, and a field is that of a
field statement or that of a group, whose name and type need not be fit for a field statement. A
message takes an opening brace of its own, and every group among its fields takes another one.
`AreSourced` counts these braces, so a text with no more braces than messages is known to have no
groups among their fields.
-/

namespace ProtoSchema

open Lexer (IsName IsIdentifier IsWord)

namespace Field

/-- The field of a group: its type is a name, and its name is the type in lower case. -/
def IsGroup (field : Field) : Prop :=
  IsName field.type ∧ field.name = Text.lower field.type

/-- All but `cost - count` of the fields have a name and a type as in a field statement. -/
def Exceptions (count cost : Nat) (fields : List Field) : Prop :=
  ∃ groups : List Field, count + groups.length ≤ cost ∧
    ∀ field ∈ fields, field.IsReadable ∨ field ∈ groups

/-- No fields have no exceptions. -/
theorem Exceptions.nil {count cost : Nat} (h : count ≤ cost) : Exceptions count cost [] :=
  ⟨[], h, fun _ hmem => absurd hmem List.not_mem_nil⟩

/-- Exceptions of two lists add up. -/
theorem Exceptions.append {count cost other more : Nat} {first second : List Field}
    (hfirst : Exceptions count cost first) (hsecond : Exceptions other more second) :
    Exceptions (count + other) (cost + more) (first ++ second) := by
  obtain ⟨groups, hcost, hgroups⟩ := hfirst
  obtain ⟨others, hmore, hothers⟩ := hsecond
  refine ⟨groups ++ others, ?_, ?_⟩
  · rw [List.length_append]
    omega
  · intro field hmem
    rcases List.mem_append.mp hmem with hmem | hmem
    · exact (hgroups field hmem).imp_right (List.mem_append_left others)
    · exact (hothers field hmem).imp_right (List.mem_append_right groups)

/-- More braces leave room for more exceptions. -/
theorem Exceptions.mono {count cost other more : Nat} {fields : List Field}
    (h : Exceptions count cost fields) (hle : other + cost ≤ count + more) :
    Exceptions other more fields := by
  obtain ⟨groups, hcost, hgroups⟩ := h
  exact ⟨groups, by omega, hgroups⟩

end Field

namespace Message

/-- The message and those nested in it have names, and their fields are plain or those of groups. -/
inductive IsSourced : Message → Prop where
  | mk {name : Text} {fields : List Field} {messages : List Message} {enums : List EnumType}
      {options : List OptionSetting} (hname : IsName name)
      (hfields : ∀ field ∈ fields, field.IsReadable ∨ field.IsGroup)
      (hmessages : ∀ message ∈ messages, IsSourced message) :
      IsSourced ⟨name, fields, messages, enums, options⟩

/-- The messages are sourced, and each of them and each exception among their fields has a brace. -/
structure AreSourced (cost : Nat) (messages : List Message) : Prop where
  exceptions : Field.Exceptions messages.length cost (messages.flatMap Message.fields)
  sourced : ∀ message ∈ messages, message.IsSourced

/-- No messages need no brace. -/
theorem AreSourced.nil (cost : Nat) : AreSourced cost [] :=
  ⟨.nil (Nat.zero_le cost), fun _ hmem => absurd hmem List.not_mem_nil⟩

/-- The braces of two lists add up. -/
theorem AreSourced.append {cost more : Nat} {first second : List Message}
    (hfirst : AreSourced cost first) (hsecond : AreSourced more second) :
    AreSourced (cost + more) (first ++ second) where
  exceptions := by
    rw [List.length_append, List.flatMap_append]
    exact hfirst.exceptions.append hsecond.exceptions
  sourced := List.forall_mem_append.mpr ⟨hfirst.sourced, hsecond.sourced⟩

/-- More braces do no harm. -/
theorem AreSourced.mono {cost more : Nat} {messages : List Message} (h : AreSourced cost messages)
    (hle : cost ≤ more) : AreSourced more messages :=
  ⟨h.exceptions.mono (Nat.add_le_add_left hle _), h.sourced⟩

/-- The order of the messages does not matter. -/
theorem AreSourced.of_perm {cost : Nat} {first second : List Message} (h : AreSourced cost first)
    (hperm : first.Perm second) : AreSourced cost second where
  exceptions := by
    obtain ⟨groups, hcost, hgroups⟩ := h.exceptions
    refine ⟨groups, by rwa [← hperm.length_eq], fun field hmem => hgroups field ?_⟩
    exact (hperm.flatMap_right Message.fields).mem_iff.mpr hmem
  sourced := fun message hmem => h.sourced message (hperm.mem_iff.mpr hmem)

end Message

namespace Members

/-- The members come from statements: their fields are plain or those of groups, and there are
enough braces for the groups and for the messages. -/
structure AreSourced (cost : Nat) (members : Members) : Prop where
  exceptions : Field.Exceptions 0 cost members.fields
  fields : ∀ field ∈ members.fields, field.IsReadable ∨ field.IsGroup
  messages : Message.AreSourced cost members.messages

namespace AreSourced

variable {cost more : Nat} {members first second : Members}

/-- Members without fields and messages come from anything. -/
theorem of_nil (hfields : members.fields = []) (hmessages : members.messages = []) (cost : Nat) :
    members.AreSourced cost where
  exceptions := hfields ▸ .nil (Nat.zero_le cost)
  fields := hfields ▸ fun _ hmem => absurd hmem List.not_mem_nil
  messages := hmessages ▸ .nil cost

/-- The braces of two statements add up. -/
theorem append (hfirst : first.AreSourced cost) (hsecond : second.AreSourced more) :
    (first ++ second).AreSourced (cost + more) where
  exceptions := hfirst.exceptions.append hsecond.exceptions
  fields := List.forall_mem_append.mpr ⟨hfirst.fields, hsecond.fields⟩
  messages := hfirst.messages.append hsecond.messages

/-- More braces do no harm. -/
theorem mono (h : members.AreSourced cost) (hle : cost ≤ more) : members.AreSourced more where
  exceptions := h.exceptions.mono (Nat.add_le_add_left hle 0)
  fields := h.fields
  messages := h.messages.mono hle

/-- A plain field needs no brace. -/
theorem of_readable {field : Field} (h : field.IsReadable) :
    ({ fields := [field] } : Members).AreSourced 0 where
  exceptions := ⟨[], Nat.le_refl 0, List.forall_mem_singleton.mpr (.inl h)⟩
  fields := List.forall_mem_singleton.mpr (.inl h)
  messages := .nil 0

/-- A message needs a brace besides those of its members. -/
theorem declared {name : Text} (hname : IsName name) (h : members.AreSourced cost) :
    (members.declared name).AreSourced (cost + 1) where
  exceptions := .nil (Nat.zero_le _)
  fields := fun _ hmem => absurd hmem List.not_mem_nil
  messages :=
    { exceptions := by
        have hfields : ([members.toMessage name].flatMap Message.fields) = members.fields :=
          List.append_nil _
        have hlength : [members.toMessage name].length = 1 := rfl
        show Field.Exceptions [members.toMessage name].length (cost + 1)
          ([members.toMessage name].flatMap Message.fields)
        rw [hfields, hlength]
        exact h.exceptions.mono (by omega)
      sourced := List.forall_mem_singleton.mpr (.mk hname h.fields h.messages.sourced) }

/-- A group is a message and a field, and one brace is enough for both. -/
theorem group {field : Field} (hfield : field.IsGroup) (h : members.AreSourced cost) :
    ({ members.declared field.type with fields := [field] } : Members).AreSourced (cost + 1) where
  exceptions := by
    -- One brace counts for the field and for the message: a message body keeps the field for the
    -- count, and an extend block the message.
    refine ⟨[field], ?_, List.forall_mem_singleton.mpr (.inr List.mem_cons_self)⟩
    rw [List.length_singleton]
    omega
  fields := List.forall_mem_singleton.mpr (.inr hfield)
  messages := (declared hfield.1 h).messages

/-- The fields of an extend block go elsewhere. -/
theorem extending (h : members.AreSourced cost) (extendee : Text) :
    (members.extending extendee).AreSourced cost where
  exceptions := .nil (Nat.zero_le _)
  fields := fun _ hmem => absurd hmem List.not_mem_nil
  messages := h.messages

end AreSourced

end Members

end ProtoSchema
