import ProtoSchema.Outline.Basic
import ProtoSchema.Proofs.Descriptor.Cursor
import ProtoSchema.Proofs.Descriptor.Visit

/-!
# Outlines and their comments

An outline has one entry for every call of a visit and then one for every service. The comment of an
entry is looked up by the path of its declaration, so it comes from the first location with exactly
this path (`Location.Comments`). `Outline.build_comments` is the main statement. It also says that a
location leaves all entries alone but the one whose path it is the first to have.
-/

namespace ProtoSchema

/-! ### The comment of a path -/

/-- The comment before the first location with this path. It is empty if no location has the path.
-/
inductive Location.Comments (locations : List Location) (path : List Int) : Text → Prop
  | first {before after : List Location} {location : Location}
      (hlocations : locations = before ++ location :: after) (hpath : location.path = path)
      (hbefore : ∀ earlier ∈ before, earlier.path ≠ path) : Comments locations path location.leading
  | none (h : ∀ location ∈ locations, location.path ≠ path) : Comments locations path []

/-- The cursor of a path shows the comment of the path. -/
theorem Cursor.comments_leading (serial : Nat) (file : FileDescriptor) (path : List Int) :
    Location.Comments file.locations path (leading ⟨.ofFile serial file, path⟩) := by
  rw [leading, location, LocationTable.ofFile, LocationTable.find?_ofLocations]
  have hfirst := LocationTable.isFirst_find? path file.locations
  cases hfound : file.locations.find? fun location => location.path = path with
  | none =>
      rw [hfound] at hfirst
      exact .none hfirst
  | some location =>
      rw [hfound] at hfirst
      obtain ⟨before, after, hlocations, hpath, hbefore⟩ := hfirst
      exact .first hlocations hpath hbefore

/-- A location changes the comment of no path that is not its own, and of no path that a location in
front of it has. -/
theorem Cursor.leading_without {before : List Location} {extra : Location} {path : List Int}
    (h : extra.path ≠ path ∨ ∃ earlier ∈ before, earlier.path = path) (after : List Location)
    (serial : Nat) {file : FileDescriptor}
    (hlocations : file.locations = before ++ extra :: after) :
    leading ⟨.ofFile serial { file with locations := before ++ after }, path⟩ =
      leading ⟨.ofFile serial file, path⟩ := by
  have hfind : (before ++ after).find? (fun location => location.path = path) =
      (before ++ extra :: after).find? fun location => location.path = path := by
    rw [List.find?_append, List.find?_append]
    rcases h with hother | ⟨earlier, hmem, hpath⟩
    · rw [List.find?_cons_of_neg (by simpa using hother)]
    · have hsome : (before.find? fun location => location.path = path).isSome :=
        List.find?_isSome.mpr ⟨earlier, hmem, decide_eq_true hpath⟩
      rw [Option.or_of_isSome hsome, Option.or_of_isSome hsome]
  rw [leading, leading, location, location, LocationTable.ofFile, LocationTable.ofFile, hlocations,
    LocationTable.find?_ofLocations, LocationTable.find?_ofLocations, hfind]

/-! ### The table of a visit -/

/-- The cursor at the same path in another table. -/
def Cursor.within (cursor : Cursor) (table : LocationTable) : Cursor :=
  { cursor with table }

/-- The call with its cursor in another table. -/
def Call.within (call : Call) (table : LocationTable) : Call :=
  { call with cursor := call.cursor.within table }

/-- The frame with its cursor in another table. -/
def Frame.within (frame : Frame) (table : LocationTable) : Frame :=
  { frame with cursor := frame.cursor.within table }

namespace Visit

variable {options : NamingOptions} {table : LocationTable}

/-- The calls for a scope have their cursors in the table of the frame, if this is so for its
messages. -/
theorem calls_within_of_messages {scope : Scope}
    (h : ∀ message ∈ scope.messages, ∀ frame : Frame,
      calls options (frame.within table) message.scope =
        (calls options frame message.scope).map (Call.within · table))
    (frame : Frame) :
    calls options (frame.within table) scope =
      (calls options frame scope).map (Call.within · table) := by
  have hblock : ∀ item ∈ scope.messages.zipIdx 0,
      messageBlock options (frame.within table) scope.messageKind item =
        (messageBlock options frame scope.messageKind item).map (Call.within · table) := by
    rintro ⟨message, index⟩ hitem
    have hmem := List.mem_of_getElem? (List.mem_zipIdx_iff_getElem?.mp hitem)
    have hinner := h message hmem (frame.enter options message.name scope.messageKind index)
    exact congrArg (List.cons _) hinner
  rw [calls, calls, enumCalls_eq, enumCalls_eq, messageCalls_eq, messageCalls_eq, List.map_append,
    List.map_map, List.map_flatMap, List.flatMap_congr hblock]
  rfl

/-- The calls for a message have their cursors in the table of the frame. -/
theorem calls_within_message (message : MessageDescriptor) (frame : Frame) :
    calls options (frame.within table) message.scope =
      (calls options frame message.scope).map (Call.within · table) := by
  induction message using MessageDescriptor.nested_induction generalizing frame with
  | step message ih => exact calls_within_of_messages ih frame

/-- The calls for a scope differ between tables in the tables of their cursors only. -/
theorem calls_within (options : NamingOptions) (table : LocationTable) (scope : Scope)
    (frame : Frame) :
    calls options (frame.within table) scope =
      (calls options frame scope).map (Call.within · table) :=
  calls_within_of_messages (fun message _ => calls_within_message message) frame

end Visit

/-! ### Entries -/

/-- The word for a kind of declaration. -/
def Declared.kind : Declared → Text
  | enum _ => Text.ofString "enum"
  | message _ => Text.ofString "message"

/-- Steps that append an element each append them all. -/
theorem run_forM_push {α β : Type} (entry : α → β) (items : List α) (state : List β) :
    ((items.forM fun item => modify (· ++ [entry item])) : StateM (List β) PUnit).run state =
      ((), state ++ items.map entry) := by
  induction items generalizing state with
  | nil => rw [List.map_nil, List.append_nil]; rfl
  | cons item items ih =>
      have hrest := ih (state ++ [entry item])
      rw [List.append_assoc] at hrest
      exact hrest

namespace Outline

/-- The entries of a file with these comments for the paths of its declarations: those of the
enumerations and messages in the order of a visit, and then those of the services, which are at the
field number 6. -/
def annotated (file : FileDescriptor) (options : NamingOptions) (comment : List Int → Text) :
    List OutlineEntry :=
  (Visit.calls options { cursor := .root .empty } file.scope).map (fun call =>
      ⟨call.declared.kind, call.outputName, call.protoName, comment call.cursor.path⟩) ++
    file.services.zipIdx.map fun item =>
      ⟨Text.ofString "service", item.1.name, item.1.name, comment [6, (item.2 : Int)]⟩

/-- The entry that is collected for a call. -/
theorem accept_collector (call : Call) :
    collector.accept call =
      modify (· ++ [OutlineEntry.ofCall call.declared.kind call]) := by
  obtain ⟨outputName, protoName, declared, cursor⟩ := call
  cases declared <;> rfl

/-- An outline shows the comments that the cursors in the table of its file show. -/
theorem build_eq_annotated (file : FileDescriptor) (options : NamingOptions) :
    build file options =
      annotated file options fun path => Cursor.leading ⟨.ofFile 0 file, path⟩ := by
  have hscope : Visit.scope collector options { cursor := .root (.ofFile 0 file) } file.scope =
      (Visit.calls options { cursor := .root (.ofFile 0 file) } file.scope).forM fun call =>
        modify (· ++ [OutlineEntry.ofCall call.declared.kind call]) := by
    rw [Visit.scope_eq_forM]
    exact congrArg (List.forM _) (funext accept_collector)
  have hservices := Visit.services_eq_forM (m := StateM (List OutlineEntry))
    (fun service cursor => modify (· ++ [.ofService service cursor])) (.root (.ofFile 0 file)) 0
    file.services
  have hcalls := Visit.calls_within options (.ofFile 0 file) file.scope { cursor := .root .empty }
  show (((Visit.scope collector options _ file.scope >>= fun _ =>
    Visit.services _ _ 0 file.services) : StateM (List OutlineEntry) Unit).run []).2 = _
  rw [hscope, hservices, StateT.run_bind, run_forM_push]
  show (((file.services.zipIdx 0).forM _ : StateM (List OutlineEntry) Unit).run _).2 = _
  rw [run_forM_push]
  show [] ++ (Visit.calls options (Frame.within { cursor := .root .empty } (.ofFile 0 file))
    file.scope).map _ ++ _ = _
  rw [hcalls, List.map_map]
  rfl

/-- An outline has one entry for every enumeration and every message of the file, in the order of a
visit, and then one for every service. The comment of an entry is the one before the first location
with the path of its declaration. A location with another path, or with a path that a location in
front of it has, contributes nothing to the entry. -/
theorem build_comments (file : FileDescriptor) (options : NamingOptions) :
    Visit.Enumerates file .empty
        (Visit.calls options { cursor := .root .empty } file.scope) ∧
      ∃ comment : List Int → Text,
        (∀ path, Location.Comments file.locations path (comment path)) ∧
        build file options = annotated file options comment ∧
        ∀ before extra after, file.locations = before ++ extra :: after →
          ∃ other : List Int → Text,
            build { file with locations := before ++ after } options =
              annotated file options other ∧
            ∀ path, (extra.path ≠ path ∨ ∃ earlier ∈ before, earlier.path = path) →
              other path = comment path := by
  refine ⟨Visit.enumerates_calls options file .empty [] [],
    fun path => Cursor.leading ⟨.ofFile 0 file, path⟩, ?_, build_eq_annotated file options, ?_⟩
  · exact fun path => Cursor.comments_leading 0 file path
  · intro before extra after hlocations
    exact ⟨fun path => Cursor.leading ⟨.ofFile 0 { file with locations := before ++ after }, path⟩,
      build_eq_annotated { file with locations := before ++ after } options,
      fun path h => Cursor.leading_without h after 0 hlocations⟩

/-- A message and its enumeration at `4, 0` and `4, 0, 4, 0`, in front of locations for the list of
messages, for a field and for the enumeration again. -/
example :
    (build
      { messages := [{ name := "Order", enums := [⟨"Status"⟩] }]
        services := [⟨"Shop"⟩]
        locations :=
          [{ path := [4], leading := "the messages" },
            { path := [4, 0, 2, 0], leading := "a field" },
            { path := [4, 0], leading := "an order" }, { path := [4, 0, 4, 0] },
            { path := [4, 0, 4, 0], leading := "a later one" },
            { path := [6, 0], leading := "the shop" }] }).map OutlineEntry.comment =
      ["an order", "", "the shop"] := by
  rfl

end Outline

end ProtoSchema
