import ProtoSchema.Proofs.Descriptor.Names

/-!
# The messages around a declaration

A path leads to a declaration through the messages around it, the outermost first (`Scope.Leads`).
The names that a visit calls with are made of the names of these messages and of the declaration:
`Visit.scope_names` is the main statement. Affixes and the suffix for taken names stand around the
whole name, so they do not return in the names of what is nested.
-/

namespace ProtoSchema

/-- A name that is kept away from the taken ones is not taken. -/
theorem Naming.avoidTaken_notMem_taken (name : Text) : avoidTaken name ∉ taken := by
  rw [avoidTaken]
  split
  next htaken => exact suffixed_notMem_taken name (List.contains_iff_mem.mp htaken)
  next htaken => exact fun hmem => htaken (List.contains_iff_mem.mpr hmem)

/-! ### Paths through messages -/

/-- The path leads from the scope to the declaration, through these messages from the outermost on.
-/
inductive Scope.Leads : Scope → List Int → List MessageDescriptor → Declared → Prop
  | enum {scope : Scope} {index : Nat} {enum : EnumDescriptor}
      (hitem : scope.enums[index]? = some enum) :
      Leads scope [scope.enumKind, (index : Int)] [] (.enum enum)
  | message {scope : Scope} {index : Nat} {message : MessageDescriptor}
      (hitem : scope.messages[index]? = some message) :
      Leads scope [scope.messageKind, (index : Int)] [] (.message message)
  | nested {scope : Scope} {index : Nat} {message : MessageDescriptor} {path : List Int}
      {enclosing : List MessageDescriptor} {declared : Declared}
      (hitem : scope.messages[index]? = some message)
      (hrest : Leads message.scope path enclosing declared) :
      Leads scope (scope.messageKind :: (index : Int) :: path) (message :: enclosing) declared

/-- What holds of a scope when it holds of its messages holds of every scope. -/
theorem Scope.nested_induction {motive : Scope → Prop}
    (step : ∀ scope : Scope, (∀ message ∈ scope.messages, motive message.scope) → motive scope)
    (scope : Scope) : motive scope :=
  step scope fun message _ =>
    MessageDescriptor.nested_induction (motive := fun message => motive message.scope)
      (fun message => step message.scope) message

/-! ### The call for a declaration -/

/-- The names of messages in the case that the options ask for, each with the delimiter after it. -/
def Naming.flatPath (options : NamingOptions) (messages : List MessageDescriptor) : Text :=
  messages.flatMap fun message => maybeCamel options message.name ++ delimiter options

/-- The names of messages, each with a dot after it. -/
def Naming.dottedPath (messages : List MessageDescriptor) : Text :=
  messages.flatMap fun message => message.name ++ Text.ofString "."

/-- The call for a declaration that this path leads to from the scope of the frame, through these
messages. -/
def Frame.callThrough (frame : Frame) (options : NamingOptions) (path : List Int)
    (enclosing : List MessageDescriptor) (declared : Declared) : Call where
  outputName := Naming.avoidTaken (options.before ++ (frame.namePath ++
    (Naming.flatPath options enclosing ++ Naming.maybeCamel options declared.name)) ++
      options.behind)
  protoName := frame.protoPath ++ (Naming.dottedPath enclosing ++ declared.name)
  declared := declared
  cursor := ⟨frame.cursor.table, frame.cursor.path ++ path⟩

/-- The call for a member of the scope goes through no message. -/
theorem Frame.call_eq_callThrough (frame : Frame) (options : NamingOptions) (declared : Declared)
    (kind index : Int) :
    frame.call options declared kind index =
      frame.callThrough options [kind, index] [] declared :=
  rfl

/-- From inside a message, the call for a declaration is the call through this message. -/
theorem Frame.callThrough_enter (frame : Frame) (options : NamingOptions)
    (message : MessageDescriptor) (kind index : Int) (path : List Int)
    (enclosing : List MessageDescriptor) (declared : Declared) :
    (frame.enter options message.name kind index).callThrough options path enclosing declared =
      frame.callThrough options (kind :: index :: path) (message :: enclosing) declared := by
  simp only [callThrough, enter, flatName, Naming.flatPath, Naming.dottedPath,
    Cursor.path_child_append, List.flatMap_cons, List.append_assoc]
  rfl

namespace Visit

variable {options : NamingOptions}

/-- The calls for a scope are those for the declarations that paths lead to from it. -/
theorem mem_calls_iff {scope : Scope} {frame : Frame} {call : Call} :
    call ∈ calls options frame scope ↔ ∃ path enclosing declared,
      scope.Leads path enclosing declared ∧
        call = frame.callThrough options path enclosing declared := by
  induction scope using Scope.nested_induction generalizing frame call with
  | step scope ih =>
      rw [calls, enumCalls_eq, messageCalls_eq, List.mem_append, List.mem_map, List.mem_flatMap]
      constructor
      · rintro (⟨⟨enum, index⟩, hitem, rfl⟩ | ⟨⟨message, index⟩, hitem, hcall⟩)
        · exact ⟨_, _, _, .enum (List.mem_zipIdx_iff_getElem?.mp hitem),
            frame.call_eq_callThrough options (.enum enum) _ _⟩
        · have hitem := List.mem_zipIdx_iff_getElem?.mp hitem
          -- The frame inside the message makes the calls of this frame through the message.
          rcases List.mem_cons.mp hcall with rfl | hnested
          · exact ⟨_, _, _, .message hitem,
              frame.call_eq_callThrough options (.message message) _ _⟩
          · obtain ⟨path, enclosing, declared, hleads, rfl⟩ :=
              (ih message (List.mem_of_getElem? hitem)).mp hnested
            exact ⟨_, _, _, .nested hitem hleads, frame.callThrough_enter options message _ _ _ _ _⟩
      · rintro ⟨path, enclosing, declared, hleads, rfl⟩
        cases hleads with
        | @enum _ index enum hitem =>
            exact .inl ⟨(enum, index), List.mem_zipIdx_iff_getElem?.mpr hitem,
              frame.call_eq_callThrough options (.enum enum) _ _⟩
        | @message _ index message hitem =>
            refine .inr ⟨(message, index), List.mem_zipIdx_iff_getElem?.mpr hitem, ?_⟩
            rw [← frame.call_eq_callThrough]
            exact List.mem_cons_self
        | @nested _ index message path enclosing _ hitem hleads =>
            refine .inr ⟨(message, index), List.mem_zipIdx_iff_getElem?.mpr hitem,
              List.mem_cons_of_mem _ ?_⟩
            exact (ih message (List.mem_of_getElem? hitem)).mpr ⟨path, enclosing, declared, hleads,
              (frame.callThrough_enter options message _ _ _ _ _).symm⟩

/-- A visit of a file calls with a declaration exactly where a path leads to it. Through the
messages `a`, …, `b` around a declaration `x`, its name in the schema is `a.….b.x`. Its generated
name has the names `a`, …, `b`, `x` in the case that the options ask for, with the delimiter between
them, between the affixes, and is kept away from the taken names. So no generated name is one of
these. -/
theorem scope_names {m : Type → Type} [Monad m] [LawfulMonad m] (visitor : Visitor m)
    (options : NamingOptions) (file : FileDescriptor) (table : LocationTable) :
    Visit.scope visitor options { cursor := .root table } file.scope =
        (calls options { cursor := .root table } file.scope).forM visitor.accept ∧
      (∀ call, call ∈ calls options { cursor := .root table } file.scope ↔
        ∃ path enclosing declared, file.scope.Leads path enclosing declared ∧ call =
          { outputName := Naming.avoidTaken (options.before ++
              (Naming.flatPath options enclosing ++ Naming.maybeCamel options declared.name) ++
                options.behind)
            protoName := Naming.dottedPath enclosing ++ declared.name
            declared := declared
            cursor := ⟨table, path⟩ }) ∧
      ∀ call ∈ calls options { cursor := .root table } file.scope,
        call.outputName ≠ Text.ofString "Date" ∧ call.outputName ≠ Text.ofString "Function" := by
  refine ⟨scope_eq_forM visitor options _ file.scope, fun _ => mem_calls_iff, fun call hcall => ?_⟩
  obtain ⟨path, enclosing, declared, -, rfl⟩ := mem_calls_iff.mp hcall
  have htaken := Naming.avoidTaken_notMem_taken (options.before ++
    (Naming.flatPath options enclosing ++ Naming.maybeCamel options declared.name) ++
      options.behind)
  rw [Naming.taken, List.mem_cons, List.mem_singleton, not_or] at htaken
  exact htaken

/-- A file with a message that has a taken name, and a message in it. -/
def datedFile : FileDescriptor where
  messages := [{ name := "Date", messages := [{ name := "Part" }] }]

/-- The suffix for the taken name is not in the name of what is nested. -/
theorem scope_names_dated :
    LawfulMonad (StateM (List (List Int))) ∧
      (∃ call ∈ calls {} { cursor := .root .empty } datedFile.scope,
        call.protoName = "Date" ∧ call.outputName = "DateMessage") ∧
      ∃ call ∈ calls {} { cursor := .root .empty } datedFile.scope,
        call.protoName = "Date.Part" ∧ call.outputName = "DatePart" := by
  obtain ⟨-, hcalls, -⟩ := scope_names pathRecorder {} datedFile .empty
  have hdate : datedFile.scope.Leads [4, 0] []
      (.message { name := "Date", messages := [{ name := "Part" }] }) := .message rfl
  have hpart : datedFile.scope.Leads [4, 0, 3, 0]
      [{ name := "Date", messages := [{ name := "Part" }] }] (.message { name := "Part" }) :=
    .nested rfl (.message rfl)
  exact ⟨inferInstance, ⟨_, (hcalls _).mpr ⟨_, _, _, hdate, rfl⟩, by decide, by decide⟩,
    ⟨_, (hcalls _).mpr ⟨_, _, _, hpart, rfl⟩, by decide, by decide⟩⟩

end Visit

end ProtoSchema
