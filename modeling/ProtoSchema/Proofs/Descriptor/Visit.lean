import Mathlib.Data.List.Basic
import ProtoSchema.Descriptor.Visit

/-!
# What a visit meets

A path of field numbers and indices leads from a file to a declaration (`FileDescriptor.at?`). A
visit makes one call for every declaration that a path leads to, with that path on its cursor
(`Visit.Covers`), in the order of `Visit.Precedes`: the enumerations of a scope come first, and a
message comes right before what is nested in it. `Visit.scope_enumerates` is the main statement, for
visitors in any monad.
-/

namespace ProtoSchema

/-! ### Where paths lead -/

/-- The item of a list at this index. There is none at a negative one. -/
def itemAt? {α : Type} (items : List α) (index : Int) : Option α :=
  index.toNat?.bind fun position => items[position]?

/-- There is an item at an index exactly when it is the item at that position. -/
theorem itemAt?_eq_some_iff {α : Type} {items : List α} {index : Int} {item : α} :
    itemAt? items index = some item ↔
      ∃ position : Nat, index = position ∧ items[position]? = some item := by
  simp only [itemAt?, Option.bind_eq_some_iff, Int.mem_toNat?]

/-- What a path of field numbers and indices leads to from a scope. The path goes on through the
messages of the scope, which have the field number 4 for their enumerations and 3 for the messages
nested in them. -/
def Scope.at? (scope : Scope) : List Int → Option Declared
  | [number, index] =>
      if number = scope.enumKind then (itemAt? scope.enums index).map .enum
      else if number = scope.messageKind then (itemAt? scope.messages index).map .message
      else none
  | number :: index :: path =>
      if number = scope.messageKind then
        (itemAt? scope.messages index).bind fun message =>
          at? ⟨message.enums, message.messages, 4, 3⟩ path
      else none
  | _ => none

/-- What a path leads to from a file, which has the field number 5 for its enumerations and 4 for
its messages. -/
def FileDescriptor.at? (file : FileDescriptor) : List Int → Option Declared :=
  Scope.at? ⟨file.enums, file.messages, 5, 4⟩

/-- A path leads to an enumeration of the scope, to a message of it, or on from such a message. -/
theorem Scope.at?_eq_some_iff {scope : Scope} (hkinds : scope.messageKind < scope.enumKind)
    {path : List Int} {declared : Declared} :
    scope.at? path = some declared ↔
      (∃ (index : Nat) (enum : EnumDescriptor), scope.enums[index]? = some enum ∧
        path = [scope.enumKind, (index : Int)] ∧ declared = .enum enum) ∨
      ∃ (index : Nat) (message : MessageDescriptor), scope.messages[index]? = some message ∧
        (path = [scope.messageKind, (index : Int)] ∧ declared = .message message ∨
          ∃ rest, path = scope.messageKind :: (index : Int) :: rest ∧
            message.scope.at? rest = some declared) := by
  constructor
  · intro h
    unfold at? at h
    split at h
    next number index =>
      split at h
      next hnumber =>
        obtain ⟨enum, hitem, rfl⟩ := Option.map_eq_some_iff.mp h
        obtain ⟨position, rfl, hitem⟩ := itemAt?_eq_some_iff.mp hitem
        exact .inl ⟨position, enum, hitem, by rw [hnumber], rfl⟩
      next =>
        split at h
        next hnumber =>
          obtain ⟨message, hitem, rfl⟩ := Option.map_eq_some_iff.mp h
          obtain ⟨position, rfl, hitem⟩ := itemAt?_eq_some_iff.mp hitem
          exact .inr ⟨position, message, hitem, .inl ⟨by rw [hnumber], rfl⟩⟩
        next => cases h
    next number index rest _ =>
      split at h
      next hnumber =>
        obtain ⟨message, hitem, hrest⟩ := Option.bind_eq_some_iff.mp h
        obtain ⟨position, rfl, hitem⟩ := itemAt?_eq_some_iff.mp hitem
        exact .inr ⟨position, message, hitem, .inr ⟨rest, by rw [hnumber], hrest⟩⟩
      next => cases h
    next => cases h
  · rintro (⟨index, enum, hitem, rfl, rfl⟩ |
      ⟨index, message, hitem, ⟨rfl, rfl⟩ | ⟨rest, rfl, hrest⟩⟩)
    · rw [at?, if_pos rfl, itemAt?_eq_some_iff.mpr ⟨index, rfl, hitem⟩, Option.map_some]
    · rw [at?, if_neg (Int.ne_of_lt hkinds), if_pos rfl,
        itemAt?_eq_some_iff.mpr ⟨index, rfl, hitem⟩, Option.map_some]
    · have hne : rest ≠ [] := by
        rintro rfl
        cases hrest
      rw [at?, if_pos rfl, itemAt?_eq_some_iff.mpr ⟨index, rfl, hitem⟩, Option.bind_some]
      · exact hrest
      · exact hne

/-! ### The order of paths -/

namespace Visit

/-- The order of a visit: a path comes before those that go on from it, and where two paths part,
the greater field number comes first, and for one field number the lower index. Enumerations have a
greater field number than messages, in a file and in a message. -/
def Precedes : List Int → List Int → Prop
  | number :: index :: path, other :: position :: rest =>
      other < number ∨ other = number ∧ (index < position ∨ index = position ∧ Precedes path rest)
  | [], _ :: _ => True
  | _, _ => False

/-- A path does not go on to one that it follows. -/
theorem Precedes.not_goesOn {first second : List Int} (h : Precedes first second) :
    ¬ second <+: first := by
  fun_induction Precedes first second with
  | case1 number index path other position rest ih =>
      rw [List.cons_prefix_cons, List.cons_prefix_cons]
      rintro ⟨hnumber, hindex, hthrough⟩
      rcases h with h | ⟨-, h | ⟨-, hrest⟩⟩
      · omega
      · omega
      · exact ih hrest hthrough
  | case2 => simp
  | case3 => exact h.elim

/-- What comes between a path and one that goes on from it goes on from it as well. -/
theorem Precedes.prefix_between {first middle last : List Int} (hfirst : Precedes first middle)
    (hlast : Precedes middle last) (h : first <+: last) : first <+: middle := by
  fun_induction Precedes first middle generalizing last with
  | case1 number index path other position rest ih =>
      obtain ⟨tail, rfl⟩ := h
      simp only [List.cons_append, Precedes] at hlast
      obtain ⟨rfl, rfl⟩ : other = number ∧ index = position := by omega
      have hpath : Precedes path rest := by simpa using hfirst
      have hrest : Precedes rest (path ++ tail) := by simpa using hlast
      exact (List.prefix_append_right_inj [other, index]).mpr
        (ih hpath hrest (List.prefix_append path tail))
  | case2 => exact List.nil_prefix
  | case3 => exact hfirst.elim

/-! ### The calls of a scope -/

/-- The calls for enumerations are one for each. -/
theorem enumCalls_eq (options : NamingOptions) (frame : Frame) (kind : Int) (index : Nat)
    (enums : List EnumDescriptor) :
    enumCalls options frame kind index enums =
      (enums.zipIdx index).map fun item => frame.call options (.enum item.1) kind item.2 := by
  induction enums generalizing index with
  | nil => rfl
  | cons first rest ih => rw [enumCalls, ih, List.zipIdx_cons, List.map_cons]

/-- What is nested in a message is what its scope has. -/
theorem nestedCalls_eq (options : NamingOptions) (frame : Frame) (message : MessageDescriptor) :
    nestedCalls options frame message = calls options frame message.scope := by
  cases message
  rfl

/-- The calls for a message, which has this index, and for what is nested in it. -/
def messageBlock (options : NamingOptions) (frame : Frame) (kind : Int)
    (item : MessageDescriptor × Nat) : List Call :=
  frame.call options (.message item.1) kind item.2 ::
    calls options (frame.enter options item.1.name kind item.2) item.1.scope

/-- The calls for messages come message by message. -/
theorem messageCalls_eq (options : NamingOptions) (frame : Frame) (kind : Int) (index : Nat)
    (messages : List MessageDescriptor) :
    messageCalls options frame kind index messages =
      (messages.zipIdx index).flatMap (messageBlock options frame kind) := by
  induction messages generalizing index with
  | nil => rfl
  | cons first rest ih =>
      rw [messageCalls, ih, List.zipIdx_cons, List.flatMap_cons, messageBlock, nestedCalls_eq,
        List.cons_append]

end Visit

/-- What holds of a message when it holds of those nested in it holds of every message. -/
theorem MessageDescriptor.nested_induction {motive : MessageDescriptor → Prop}
    (step : ∀ message : MessageDescriptor,
      (∀ inner ∈ message.messages, motive inner) → motive message)
    (message : MessageDescriptor) : motive message :=
  step message fun inner _ => nested_induction step inner
termination_by sizeOf message
decreasing_by
  cases message
  have hlt := List.sizeOf_lt_of_mem ‹_›
  simp at hlt ⊢
  omega

/-- A path from a child goes on from the path to the child. -/
theorem Cursor.path_child_append (cursor : Cursor) (kind index : Int) (rest : List Int) :
    (cursor.child kind index).path ++ rest = cursor.path ++ kind :: index :: rest :=
  List.append_assoc cursor.path [kind, index] rest

/-- Items come with growing indices. -/
theorem pairwise_zipIdx {α : Type} (items : List α) :
    items.zipIdx.Pairwise fun first second => first.2 < second.2 := by
  have hindices := List.pairwise_lt_range' (s := 0) (n := items.length) 1
  rw [← List.zipIdx_map_snd 0 items] at hindices
  exact List.pairwise_map.mp hindices

namespace Visit

/-- The calls go through what the paths from a scope lead to, in order: they are made at cursors
that go on from the cursor of the scope. -/
structure Covers (scope : Scope) (cursor : Cursor) (calls : List Call) : Prop where
  leads : ∀ call ∈ calls, ∃ path, call.cursor = ⟨cursor.table, cursor.path ++ path⟩ ∧
    scope.at? path = some call.declared
  reached : ∀ path declared, scope.at? path = some declared →
    ∃ call ∈ calls, call.cursor.path = cursor.path ++ path ∧ call.declared = declared
  ordered : calls.Pairwise fun first second => ∃ path other,
    first.cursor.path = cursor.path ++ path ∧ second.cursor.path = cursor.path ++ other ∧
      Precedes path other

variable {scope : Scope} {options : NamingOptions} {frame : Frame}

/-- The calls for a message and for what is nested in it are at paths through this message. -/
theorem Covers.leads_block {message : MessageDescriptor} {index : Nat}
    (hkinds : scope.messageKind < scope.enumKind) (hitem : scope.messages[index]? = some message)
    (h : Covers message.scope (frame.cursor.child scope.messageKind index)
      (calls options (frame.enter options message.name scope.messageKind index) message.scope))
    {call : Call} (hcall : call ∈ messageBlock options frame scope.messageKind (message, index)) :
    ∃ rest, call.cursor =
        ⟨frame.cursor.table, frame.cursor.path ++ scope.messageKind :: (index : Int) :: rest⟩ ∧
      scope.at? (scope.messageKind :: (index : Int) :: rest) = some call.declared := by
  rcases List.mem_cons.mp hcall with rfl | hnested
  · exact ⟨[], rfl, (Scope.at?_eq_some_iff hkinds).mpr
      (.inr ⟨index, message, hitem, .inl ⟨rfl, rfl⟩⟩)⟩
  · obtain ⟨rest, hcursor, hrest⟩ := h.leads call hnested
    refine ⟨rest, ?_, (Scope.at?_eq_some_iff hkinds).mpr
      (.inr ⟨index, message, hitem, .inr ⟨rest, rfl, hrest⟩⟩)⟩
    rw [hcursor, Cursor.path_child_append]
    rfl

/-- The calls for a message and for what is nested in it are in order. -/
theorem Covers.ordered_block {message : MessageDescriptor} {index : Nat} {kind : Int}
    (h : Covers message.scope (frame.cursor.child kind index)
      (calls options (frame.enter options message.name kind index) message.scope)) :
    (messageBlock options frame kind (message, index)).Pairwise fun first second => ∃ path other,
      first.cursor.path = frame.cursor.path ++ path ∧
        second.cursor.path = frame.cursor.path ++ other ∧ Precedes path other := by
  refine List.pairwise_cons.mpr ⟨fun call hcall => ?_, h.ordered.imp ?_⟩
  · obtain ⟨rest, hcursor, hrest⟩ := h.leads call hcall
    refine ⟨[kind, index], kind :: index :: rest, rfl, ?_, ?_⟩
    · rw [hcursor, Cursor.path_child_append]
    · -- The empty path leads nowhere, so the path of a nested call goes on.
      cases rest with
      | nil => cases hrest
      | cons number rest => simp [Precedes]
  · rintro first second ⟨path, other, hfirst, hsecond, hbefore⟩
    refine ⟨kind :: index :: path, kind :: index :: other, ?_, ?_, ?_⟩
    · rw [hfirst, Cursor.path_child_append]
    · rw [hsecond, Cursor.path_child_append]
    · exact .inr ⟨rfl, .inr ⟨rfl, hbefore⟩⟩

/-- The calls for a scope cover it when those for its messages cover these. -/
theorem Covers.of_messages (hkinds : scope.messageKind < scope.enumKind)
    (h : ∀ message ∈ scope.messages, ∀ frame : Frame,
      Covers message.scope frame.cursor (calls options frame message.scope)) :
    Covers scope frame.cursor (calls options frame scope) := by
  have hinner {message : MessageDescriptor} {index : Nat}
      (hitem : scope.messages[index]? = some message) :=
    h message (List.mem_of_getElem? hitem)
      (frame.enter options message.name scope.messageKind index)
  rw [calls, enumCalls_eq, messageCalls_eq]
  refine ⟨?leads, ?reached, ?ordered⟩
  case leads =>
    intro call hcall
    rcases List.mem_append.mp hcall with hcall | hcall
    · obtain ⟨⟨enum, index⟩, hitem, rfl⟩ := List.mem_map.mp hcall
      exact ⟨[scope.enumKind, (index : Int)], rfl, (Scope.at?_eq_some_iff hkinds).mpr
        (.inl ⟨index, enum, List.mem_zipIdx_iff_getElem?.mp hitem, rfl, rfl⟩)⟩
    · obtain ⟨⟨message, index⟩, hitem, hcall⟩ := List.mem_flatMap.mp hcall
      have hitem := List.mem_zipIdx_iff_getElem?.mp hitem
      obtain ⟨rest, hcursor, hat⟩ := Covers.leads_block hkinds hitem (hinner hitem) hcall
      exact ⟨_, hcursor, hat⟩
  case reached =>
    intro path declared hpath
    rcases (Scope.at?_eq_some_iff hkinds).mp hpath with
      ⟨index, enum, hitem, rfl, rfl⟩ | ⟨index, message, hitem, hrest⟩
    · refine ⟨_, List.mem_append_left _ (List.mem_map.mpr
        ⟨(enum, index), List.mem_zipIdx_iff_getElem?.mpr hitem, rfl⟩), rfl, rfl⟩
    · have hblock {call : Call}
          (hcall : call ∈ messageBlock options frame scope.messageKind (message, index)) :
          call ∈ (scope.messages.zipIdx 0).flatMap (messageBlock options frame scope.messageKind) :=
        List.mem_flatMap.mpr ⟨(message, index), List.mem_zipIdx_iff_getElem?.mpr hitem, hcall⟩
      rcases hrest with ⟨rfl, rfl⟩ | ⟨rest, rfl, hrest⟩
      · exact ⟨_, List.mem_append_right _ (hblock List.mem_cons_self), rfl, rfl⟩
      · obtain ⟨call, hcall, hcursor, hdeclared⟩ := (hinner hitem).reached rest declared hrest
        refine ⟨call, List.mem_append_right _ (hblock (List.mem_cons_of_mem _ hcall)), ?_,
          hdeclared⟩
        rw [hcursor, Frame.enter, Cursor.path_child_append]
  case ordered =>
    refine List.pairwise_append.mpr ⟨?_, List.pairwise_flatMap.mpr ⟨?_, ?_⟩, ?_⟩
    · refine List.pairwise_map.mpr ((pairwise_zipIdx scope.enums).imp fun {first second} hlt => ?_)
      refine ⟨[scope.enumKind, first.2], [scope.enumKind, second.2], rfl, rfl, ?_⟩
      exact .inr ⟨rfl, .inl (Int.ofNat_lt.mpr hlt)⟩
    · rintro ⟨message, index⟩ hitem
      exact (hinner (List.mem_zipIdx_iff_getElem?.mp hitem)).ordered_block
    · refine (pairwise_zipIdx scope.messages).imp_of_mem fun {first second} hfirst hsecond hlt => ?_
      intro call hcall other hother
      have hfirst := List.mem_zipIdx_iff_getElem?.mp hfirst
      have hsecond := List.mem_zipIdx_iff_getElem?.mp hsecond
      obtain ⟨path, hpath, -⟩ := Covers.leads_block hkinds hfirst (hinner hfirst) hcall
      obtain ⟨rest, hrest, -⟩ := Covers.leads_block hkinds hsecond (hinner hsecond) hother
      exact ⟨_, _, congrArg Cursor.path hpath, congrArg Cursor.path hrest,
        .inr ⟨rfl, .inl (Int.ofNat_lt.mpr hlt)⟩⟩
    · intro call hcall other hother
      obtain ⟨⟨enum, index⟩, -, rfl⟩ := List.mem_map.mp hcall
      obtain ⟨⟨message, position⟩, hitem, hother⟩ := List.mem_flatMap.mp hother
      have hitem := List.mem_zipIdx_iff_getElem?.mp hitem
      obtain ⟨rest, hrest, -⟩ := Covers.leads_block hkinds hitem (hinner hitem) hother
      exact ⟨_, _, rfl, congrArg Cursor.path hrest, .inl hkinds⟩

/-- In a message, the field number of enumerations is the greater one. -/
theorem kinds_message (message : MessageDescriptor) :
    message.scope.messageKind < message.scope.enumKind := by
  show FieldNumber.messageMessage < FieldNumber.messageEnum
  decide

/-- In a file, the field number of enumerations is the greater one. -/
theorem kinds_file (file : FileDescriptor) : file.scope.messageKind < file.scope.enumKind := by
  show FieldNumber.fileMessage < FieldNumber.fileEnum
  decide

/-- The calls for a message cover it. -/
theorem covers_message (options : NamingOptions) (message : MessageDescriptor) (frame : Frame) :
    Covers message.scope frame.cursor (calls options frame message.scope) := by
  induction message using MessageDescriptor.nested_induction generalizing frame with
  | step message ih => exact Covers.of_messages (kinds_message message) ih

/-- The calls for a file cover it. -/
theorem covers_file (options : NamingOptions) (file : FileDescriptor) (frame : Frame) :
    Covers file.scope frame.cursor (calls options frame file.scope) :=
  Covers.of_messages (kinds_file file) fun message _ => covers_message options message

/-! ### Running a visit -/

end Visit

/-- Hand a call to the part of the visitor for its kind of declaration. -/
def Visitor.accept {m : Type → Type} (visitor : Visitor m) (call : Call) : m Unit :=
  match call.declared with
  | .enum _ => visitor.onEnum call
  | .message _ => visitor.onMessage call

namespace Visit

variable {m : Type → Type} [Monad m]

/-- Visiting services is calling for each of them in order, at the field number 6. -/
theorem services_eq_forM (onService : ServiceDescriptor → Cursor → m Unit) (cursor : Cursor)
    (index : Nat) (services : List ServiceDescriptor) :
    Visit.services onService cursor index services =
      (services.zipIdx index).forM fun item =>
        onService item.1 ⟨cursor.table, cursor.path ++ [6, (item.2 : Int)]⟩ := by
  induction services generalizing index with
  | nil => rfl
  | cons first rest ih =>
      rw [Visit.services, ih]
      rfl

/-- Visiting enumerations is making their calls. -/
theorem enums_eq_forM (visitor : Visitor m) (options : NamingOptions) (frame : Frame) (kind : Int)
    (index : Nat) (enums : List EnumDescriptor) :
    Visit.enums visitor options frame kind index enums =
      (enumCalls options frame kind index enums).forM visitor.accept := by
  induction enums generalizing index with
  | nil => rfl
  | cons first rest ih =>
      rw [Visit.enums, ih]
      rfl

variable [LawfulMonad m] (visitor : Visitor m) (options : NamingOptions)

mutual

/-- Visiting what is nested in a message is making the calls for it. -/
theorem message_eq_forM (frame : Frame) : ∀ message : MessageDescriptor,
    Visit.message visitor options frame message =
      (nestedCalls options frame message).forM visitor.accept
  | ⟨_, enums, messages⟩ => by
      rw [Visit.message, nestedCalls, List.forM_eq_forM, List.forM_append, enums_eq_forM,
        messages_eq_forM frame FieldNumber.messageMessage 0 messages]
      rfl

/-- Visiting messages is making the calls for them and for what is nested in them. -/
theorem messages_eq_forM (frame : Frame) (kind : Int) (index : Nat) :
    ∀ messages : List MessageDescriptor,
      Visit.messages visitor options frame kind index messages =
        (messageCalls options frame kind index messages).forM visitor.accept
  | [] => rfl
  | first :: rest => by
      rw [Visit.messages, messageCalls, List.forM_eq_forM, List.forM_cons, List.forM_append,
        message_eq_forM _ first, messages_eq_forM frame kind (index + 1) rest]
      rfl

end

/-- Visiting a scope is making its calls. -/
theorem scope_eq_forM (frame : Frame) (scope : Scope) :
    Visit.scope visitor options frame scope =
      (calls options frame scope).forM visitor.accept := by
  rw [Visit.scope, calls, List.forM_eq_forM, List.forM_append, enums_eq_forM, messages_eq_forM]
  rfl

/-! ### Visits of files -/

/-- The calls after a call begin with those whose paths go on from its path. -/
theorem exists_inside {call : Call} {after : List Call}
    (h : (call :: after).Pairwise fun first second =>
      Precedes first.cursor.path second.cursor.path) :
    ∃ inside rest, after = inside ++ rest ∧
      (∀ other ∈ inside, call.cursor.path <+: other.cursor.path) ∧
      ∀ other ∈ rest, ¬ call.cursor.path <+: other.cursor.path := by
  obtain ⟨hcall, hafter⟩ := List.pairwise_cons.mp h
  induction after with
  | nil => exact ⟨[], [], rfl, by simp, by simp⟩
  | cons first after ih =>
      obtain ⟨hfirst, hafter⟩ := List.pairwise_cons.mp hafter
      obtain ⟨hbefore, hcall⟩ := List.forall_mem_cons.mp hcall
      by_cases hthrough : call.cursor.path <+: first.cursor.path
      · obtain ⟨inside, rest, rfl, hinside, hrest⟩ :=
          ih (List.pairwise_cons.mpr ⟨hcall, hafter⟩) hcall hafter
        exact ⟨first :: inside, rest, rfl, List.forall_mem_cons.mpr ⟨hthrough, hinside⟩, hrest⟩
      · -- What follows a path from elsewhere is from elsewhere.
        refine ⟨[], first :: after, rfl, by simp, List.forall_mem_cons.mpr ⟨hthrough, ?_⟩⟩
        intro other hother hgoesOn
        exact hthrough (hbefore.prefix_between (hfirst other hother) hgoesOn)

/-- The calls of a visit of a file with this table of locations. -/
structure Enumerates (file : FileDescriptor) (table : LocationTable) (calls : List Call) :
    Prop where
  /-- The path of a call leads to what the call is for. -/
  leads : ∀ call ∈ calls,
    call.cursor.table = table ∧ file.at? call.cursor.path = some call.declared
  /-- Everything that a path leads to is called. -/
  reached : ∀ path declared, file.at? path = some declared →
    ∃ call ∈ calls, call.cursor.path = path ∧ call.declared = declared
  /-- No path is called twice. -/
  distinct : (calls.map fun call => call.cursor.path).Nodup
  /-- The enumerations of a scope come first, then its messages, both by their indices. -/
  ordered : calls.Pairwise fun first second => Precedes first.cursor.path second.cursor.path
  /-- What is inside a message comes right after it, and nowhere else. -/
  contiguous : ∀ before call after, calls = before ++ call :: after →
    ∃ inside rest, after = inside ++ rest ∧
      (∀ other ∈ inside, call.cursor.path <+: other.cursor.path) ∧
      ∀ other ∈ before ++ rest, ¬ call.cursor.path <+: other.cursor.path

/-- The calls for a file enumerate what it declares. -/
theorem enumerates_calls (options : NamingOptions) (file : FileDescriptor) (table : LocationTable)
    (namePath protoPath : Text) :
    Enumerates file table (calls options ⟨.root table, namePath, protoPath⟩ file.scope) := by
  have hcovers := covers_file options file ⟨.root table, namePath, protoPath⟩
  have hordered : (calls options ⟨.root table, namePath, protoPath⟩ file.scope).Pairwise
      fun first second => Precedes first.cursor.path second.cursor.path := by
    refine hcovers.ordered.imp ?_
    rintro first second ⟨path, other, hfirst, hsecond, hbefore⟩
    rw [hfirst, hsecond]
    exact hbefore
  refine ⟨?leads, hcovers.reached, ?distinct, hordered, ?contiguous⟩
  case leads =>
    intro call hcall
    obtain ⟨path, hcursor, hpath⟩ := hcovers.leads call hcall
    rw [hcursor]
    exact ⟨rfl, hpath⟩
  case distinct =>
    refine List.pairwise_map.mpr (hordered.imp fun {first second} hbefore hsame => ?_)
    exact hbefore.not_goesOn (hsame ▸ List.prefix_rfl)
  case contiguous =>
    intro before call after hcalls
    rw [hcalls] at hordered
    obtain ⟨-, hafter, hbefore⟩ := List.pairwise_append.mp hordered
    obtain ⟨inside, rest, rfl, hinside, hrest⟩ := exists_inside hafter
    refine ⟨inside, rest, rfl, hinside, List.forall_mem_append.mpr ⟨?_, hrest⟩⟩
    exact fun other hother => (hbefore other hother call List.mem_cons_self).not_goesOn

/-- A visit of a file makes one call for every enumeration and every message in it, at any depth:
the calls are made in order, with cursors at the paths that lead to what they are for. A visit of
its services makes one call for each of them, in order. -/
theorem scope_enumerates (onService : ServiceDescriptor → Cursor → m Unit) (file : FileDescriptor)
    (table : LocationTable) (namePath protoPath : Text) :
    let frame : Frame := ⟨.root table, namePath, protoPath⟩
    Visit.scope visitor options frame file.scope =
        (calls options frame file.scope).forM visitor.accept ∧
      Enumerates file table (calls options frame file.scope) ∧
      Visit.services onService (.root table) 0 file.services =
        file.services.zipIdx.forM fun item => onService item.1 ⟨table, [6, (item.2 : Int)]⟩ :=
  ⟨scope_eq_forM visitor options _ file.scope,
    enumerates_calls options file table namePath protoPath,
    services_eq_forM onService (.root table) 0 file.services⟩

/-- A file with a message that has an enumeration and messages of its own. -/
def shopFile : FileDescriptor where
  enums := [⟨"Kind"⟩]
  messages :=
    [{ name := "Order"
       enums := [⟨"Status"⟩]
       messages := [{ name := "Item", messages := [{ name := "Tax" }] }, { name := "Note" }] },
      { name := "Date" }]
  services := [⟨"Shop"⟩]

/-- The visitor that notes the paths of its calls. -/
def pathRecorder : Visitor (StateM (List (List Int))) where
  onEnum call := modify (· ++ [call.cursor.path])
  onMessage call := modify (· ++ [call.cursor.path])

/-- The paths of a visit of this file. -/
theorem scope_enumerates_shop :
    LawfulMonad (StateM (List (List Int))) ∧
      Enumerates shopFile .empty (calls {} ⟨.root .empty, [], []⟩ shopFile.scope) ∧
      ((Visit.scope pathRecorder {} ⟨.root .empty, [], []⟩ shopFile.scope).run []).2 =
        [[5, 0], [4, 0], [4, 0, 4, 0], [4, 0, 3, 0], [4, 0, 3, 0, 3, 0], [4, 0, 3, 1], [4, 1]] := by
  obtain ⟨hrun, henumerates, -⟩ := scope_enumerates pathRecorder {}
    (fun _ cursor => modify (· ++ [cursor.path])) shopFile .empty [] []
  refine ⟨inferInstance, henumerates, ?_⟩
  rw [hrun]
  rfl

end Visit

end ProtoSchema
