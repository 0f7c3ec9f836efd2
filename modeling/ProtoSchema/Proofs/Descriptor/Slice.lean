import ProtoSchema.Proofs.Descriptor.Enclosing

/-!
# Visits of a message

A visit can start at a message. With the cursor opened along the path of the message, and with the
names of the messages down to it in front of those of its members, the calls of this visit are a
part of the calls for the whole file: `Visit.scope_slice` says that they come right after the call
for the message, and that they are all the calls whose paths go on from its path.
-/

namespace ProtoSchema

/-- The cursor opened along a path, one field number and index after the other. -/
def Cursor.along (cursor : Cursor) : List Int → Cursor
  | kind :: index :: path => (cursor.child kind index).along path
  | _ => cursor

/-- A path through a message leads where the rest of it leads to from there. -/
theorem Scope.at?_through {scope : Scope} {index : Nat} {message : MessageDescriptor}
    (hitem : scope.messages[index]? = some message) {rest : List Int} (hne : rest ≠ []) :
    scope.at? (scope.messageKind :: (index : Int) :: rest) = message.scope.at? rest := by
  rw [at?, if_pos rfl, itemAt?_eq_some_iff.mpr ⟨index, rfl, hitem⟩, Option.bind_some]
  · rfl
  · exact hne

namespace Scope.Leads

variable {scope : Scope} {path : List Int} {enclosing : List MessageDescriptor}
  {message : MessageDescriptor}

/-- Opening a cursor along a path to a declaration puts the path behind that of the cursor. -/
theorem along_eq {declared : Declared} (h : scope.Leads path enclosing declared) (cursor : Cursor) :
    cursor.along path = ⟨cursor.table, cursor.path ++ path⟩ := by
  induction h generalizing cursor with
  | enum => rfl
  | message => rfl
  | nested _ _ ih =>
      rw [Cursor.along, ih, Cursor.path_child_append]
      rfl

/-- What goes on from the path of a message leads where the rest leads to from the message. -/
theorem at?_append (h : scope.Leads path enclosing (.message message)) {rest : List Int}
    (hne : rest ≠ []) : scope.at? (path ++ rest) = message.scope.at? rest := by
  generalize hdeclared : Declared.message message = declared at h
  induction h with
  | enum => cases hdeclared
  | message hitem =>
      cases hdeclared
      exact Scope.at?_through hitem hne
  | nested hitem _ ih =>
      rw [List.cons_append, List.cons_append,
        Scope.at?_through hitem (List.append_ne_nil_of_right_ne_nil _ hne)]
      exact ih hdeclared

end Scope.Leads

/-- The frame of a message that this path leads to from the scope of the frame, through these
messages. -/
def Frame.inside (frame : Frame) (options : NamingOptions) (path : List Int)
    (enclosing : List MessageDescriptor) (message : MessageDescriptor) : Frame where
  cursor := frame.cursor.along path
  namePath := frame.namePath ++ (Naming.flatPath options enclosing ++
    Naming.maybeCamel options message.name ++ Naming.delimiter options)
  protoPath := frame.protoPath ++ (Naming.dottedPath enclosing ++ message.name ++ Text.ofString ".")

/-- Inside a member of the scope stands the frame that is entered for it. -/
theorem Frame.enter_eq_inside (frame : Frame) (options : NamingOptions)
    (message : MessageDescriptor) (kind index : Int) :
    frame.enter options message.name kind index =
      frame.inside options [kind, index] [] message := by
  simp only [inside, enter, flatName, Naming.flatPath, Naming.dottedPath, List.flatMap_nil,
    List.nil_append, List.append_assoc]
  rfl

/-- What is inside a message of a member is inside this message. -/
theorem Frame.inside_enter (frame : Frame) (options : NamingOptions)
    (outer : MessageDescriptor) (kind index : Int) (path : List Int)
    (enclosing : List MessageDescriptor) (message : MessageDescriptor) :
    (frame.enter options outer.name kind index).inside options path enclosing message =
      frame.inside options (kind :: index :: path) (outer :: enclosing) message := by
  simp only [inside, enter, flatName, Naming.flatPath, Naming.dottedPath, List.flatMap_cons,
    List.append_assoc]
  rfl

namespace Visit

variable {scope : Scope} {path : List Int} {enclosing : List MessageDescriptor}
  {message : MessageDescriptor}

/-- The calls for a member that is a message, and for what is nested in it, stand together. -/
theorem exists_block (options : NamingOptions) {index : Nat}
    (hitem : scope.messages[index]? = some message) (frame : Frame) :
    ∃ before after, calls options frame scope =
      before ++ messageBlock options frame scope.messageKind (message, index) ++ after := by
  have hmem : (message, index) ∈ scope.messages.zipIdx := List.mem_zipIdx_iff_getElem?.mpr hitem
  obtain ⟨front, back, hitems⟩ := List.append_of_mem hmem
  refine ⟨enumCalls options frame scope.enumKind 0 scope.enums ++
      front.flatMap (messageBlock options frame scope.messageKind),
    back.flatMap (messageBlock options frame scope.messageKind), ?_⟩
  rw [calls, messageCalls_eq, hitems, List.flatMap_append, List.flatMap_cons]
  simp only [List.append_assoc]

/-- The calls of a visit that starts inside a message come right after the call for the message. -/
theorem exists_slice (options : NamingOptions) (h : scope.Leads path enclosing (.message message))
    (frame : Frame) :
    ∃ before after, calls options frame scope =
      before ++ frame.callThrough options path enclosing (.message message) ::
        (calls options (frame.inside options path enclosing message) message.scope ++ after) := by
  generalize hdeclared : Declared.message message = declared at h
  induction h generalizing frame with
  | enum => cases hdeclared
  | @message scope index message hitem =>
      cases hdeclared
      obtain ⟨before, after, hcalls⟩ := exists_block options hitem frame
      refine ⟨before, after, ?_⟩
      rw [hcalls, messageBlock, Frame.enter_eq_inside, frame.call_eq_callThrough,
        List.append_assoc, List.cons_append]
  | @nested scope index outer path enclosing declared hitem _ ih =>
      subst hdeclared
      obtain ⟨before, after, hcalls⟩ := exists_block options hitem frame
      obtain ⟨front, back, hinner⟩ :=
        ih (frame.enter options outer.name scope.messageKind index) rfl
      refine ⟨before ++ frame.call options (.message outer) scope.messageKind index :: front,
        back ++ after, ?_⟩
      rw [hcalls, messageBlock, hinner, Frame.callThrough_enter, Frame.inside_enter]
      simp only [List.append_assoc, List.cons_append]

/-- The calls for a scope are at paths that go on from that of its cursor. -/
theorem Covers.goesOn {cursor : Cursor} {list : List Call} (h : Covers scope cursor list) :
    ∀ call ∈ list, cursor.path <+: call.cursor.path ∧ call.cursor.path ≠ cursor.path := by
  intro call hcall
  obtain ⟨rest, hcursor, hrest⟩ := h.leads call hcall
  rw [hcursor]
  refine ⟨List.prefix_append cursor.path rest, fun hsame => ?_⟩
  rw [List.append_right_eq_self.mp hsame] at hrest
  cases hrest

/-- Calls that stand apart are at different paths. -/
theorem Enumerates.apart {file : FileDescriptor} {table : LocationTable} {front back : List Call}
    (h : Enumerates file table (front ++ back)) :
    ∀ call ∈ front, ∀ other ∈ back, call.cursor.path ≠ other.cursor.path :=
  (List.pairwise_append.mp (List.pairwise_map.mp h.distinct)).2.2

/-- Where the calls that cover a message come right after the call for it, the other calls are at
paths that do not go on from its path. -/
theorem Enumerates.outside {file : FileDescriptor} {table : LocationTable}
    {before inner after : List Call} {own : Call}
    (h : Enumerates file table (before ++ own :: (inner ++ after)))
    (hleads : file.scope.Leads path enclosing (.message message)) (hown : own.cursor.path = path)
    (hinner : Covers message.scope ⟨table, path⟩ inner) :
    ∀ call ∈ before ++ after, ¬ path <+: call.cursor.path := by
  subst hown
  obtain ⟨_, _, -, -, houtside⟩ := h.contiguous before own (inner ++ after) rfl
  refine List.forall_mem_append.mpr ⟨fun call hcall =>
    houtside call (List.mem_append_left _ hcall), ?_⟩
  rintro call hcall ⟨rest, hrest⟩
  rw [← List.cons_append, ← List.append_assoc] at h
  have hcalled := (h.leads call (List.mem_append_right _ hcall)).2
  have hapart {other : Call} (hother : other ∈ own :: inner) :
      other.cursor.path ≠ call.cursor.path :=
    h.apart other (List.mem_append_right _ hother) call hcall
  -- A path that goes on leads into the message, and the call with this path is an inner one.
  rcases eq_or_ne rest [] with rfl | hne
  · rw [List.append_nil] at hrest
    exact hapart List.mem_cons_self hrest
  · rw [← hrest] at hcalled
    obtain ⟨other, hother, hsame, -⟩ :=
      hinner.reached rest call.declared ((hleads.at?_append hne).symm.trans hcalled)
    exact hapart (List.mem_cons_of_mem _ hother) (hsame.trans hrest)

/-- A visit that starts at a message, with the cursor opened along its path, the names of the
messages down to it joined in front and its dotted name in front, makes the calls that the visit of
the file makes right after the call for the message. They are the calls at the paths that go on from
the path of the message, and no call before or after them is at such a path. -/
theorem scope_slice {m : Type → Type} [Monad m] [LawfulMonad m] (visitor : Visitor m)
    (options : NamingOptions) (table : LocationTable) {file : FileDescriptor}
    (h : file.scope.Leads path enclosing (.message message)) :
    let whole : Frame := { cursor := .root table }
    let inside : Frame :=
      { cursor := (Cursor.root table).along path
        namePath := Naming.flatPath options enclosing ++ Naming.maybeCamel options message.name ++
          Naming.delimiter options
        protoPath := Naming.dottedPath enclosing ++ message.name ++ Text.ofString "." }
    Visit.scope visitor options inside message.scope =
        (calls options inside message.scope).forM visitor.accept ∧
      ∃ before own after,
        calls options whole file.scope =
            before ++ own :: (calls options inside message.scope ++ after) ∧
          own.declared = .message message ∧ own.cursor = ⟨table, path⟩ ∧
          (∀ call ∈ calls options inside message.scope,
            path <+: call.cursor.path ∧ call.cursor.path ≠ path) ∧
          (∀ call ∈ before ++ after, ¬ path <+: call.cursor.path) ∧
          Visit.scope visitor options whole file.scope = (do
            before.forM visitor.accept
            visitor.onMessage own
            Visit.scope visitor options inside message.scope
            after.forM visitor.accept) := by
  intro whole inside
  obtain ⟨before, after, hcalls⟩ := exists_slice options h whole
  have hinside : whole.inside options path enclosing message = inside := rfl
  rw [hinside] at hcalls
  have hcovers : Covers message.scope ⟨table, path⟩ (calls options inside message.scope) := by
    have hcursor : inside.cursor = ⟨table, path⟩ := h.along_eq (.root table)
    rw [← hcursor]
    exact covers_message options message inside
  have henumerates := enumerates_calls options file table [] []
  have hrun := scope_eq_forM visitor options inside message.scope
  refine ⟨hrun, before, whole.callThrough options path enclosing (.message message), after, hcalls,
    rfl, rfl, hcovers.goesOn, ?outside, ?run⟩
  case outside =>
    rw [hcalls] at henumerates
    exact henumerates.outside h rfl hcovers
  case run =>
    rw [scope_eq_forM, hcalls, hrun]
    simp only [List.forM_eq_forM, List.forM_append, List.forM_cons]
    rfl

/-- The message `Item` of the shop. -/
def itemMessage : MessageDescriptor where
  name := "Item"
  messages := [{ name := "Tax" }]

/-- The message `Order` of the shop, around `Item`. -/
def orderMessage : MessageDescriptor where
  name := "Order"
  enums := [⟨"Status"⟩]
  messages := [itemMessage, { name := "Note" }]

/-- A visit that starts at the message `Item` makes the one call for `Tax`. -/
theorem scope_slice_item :
    LawfulMonad (StateM (List (List Int))) ∧
      shopFile.scope.Leads [4, 0, 3, 0] [orderMessage] (.message itemMessage) ∧
      ((Visit.scope pathRecorder {} ⟨⟨.empty, [4, 0, 3, 0]⟩, "OrderItem", "Order.Item."⟩
        itemMessage.scope).run []).2 = [[4, 0, 3, 0, 3, 0]] ∧
      ∃ before own after,
        calls {} { cursor := .root .empty } shopFile.scope = before ++ own ::
          (calls {} ⟨⟨.empty, [4, 0, 3, 0]⟩, "OrderItem", "Order.Item."⟩ itemMessage.scope ++
            after) ∧
        own.cursor.path = [4, 0, 3, 0] ∧
        ∀ call ∈ before ++ after, ¬ [4, 0, 3, 0] <+: call.cursor.path := by
  have hleads : shopFile.scope.Leads [4, 0, 3, 0] [orderMessage] (.message itemMessage) :=
    .nested rfl (.message rfl)
  obtain ⟨hrun, before, own, after, hcalls, -, hcursor, -, houtside, -⟩ :=
    scope_slice pathRecorder {} .empty hleads
  refine ⟨inferInstance, hleads, ?_, before, own, after, hcalls, congrArg Cursor.path hcursor,
    houtside⟩
  exact (congrArg (fun run => (StateT.run run []).2) hrun).trans rfl

end Visit

end ProtoSchema
