import Mathlib.Data.List.Nodup
import ProtoSchema.Proofs.Descriptor.Visit
import ProtoSchema.Proofs.Files.Path

/-!
# The names that a visit generates

The generated name of a declaration depends on its route, the names from the file down to it: they
are joined, put between the affixes, and kept away from the names that are taken.
`Visit.nodup_outputNames_iff` says when all generated names of a file are distinct. Names that are
distinct in every scope are not enough, because the route is lost where its names are joined
(`Visit.outputNames_joined_twice`).
-/

namespace ProtoSchema

/-! ### Names from routes -/

namespace Naming

variable {options : NamingOptions}

/-- The names of a route as one name, before affixes. -/
def flatten (options : NamingOptions) (route : List Text) : Text :=
  Text.join (delimiter options) (route.map (maybeCamel options))

/-- The generated name for a flat name. -/
def generated (options : NamingOptions) (flat : Text) : Text :=
  avoidTaken (wrap options flat)

/-- A route of several names is the first one, the delimiter, and the route from there. -/
theorem flatten_cons (name : Text) {route : List Text} (h : route ≠ []) :
    flatten options (name :: route) =
      maybeCamel options name ++ delimiter options ++ flatten options route := by
  obtain ⟨next, rest, rfl⟩ := List.exists_cons_of_ne_nil h
  rfl

/-- A taken name with the suffix is not taken. -/
theorem suffixed_notMem_taken :
    ∀ name ∈ taken, name ++ Text.ofString "Message" ∉ taken := by
  decide

/-- Avoiding taken names makes two names equal only when one is taken and the other is the same with
the suffix. -/
theorem avoidTaken_eq_iff {name other : Text} :
    avoidTaken name = avoidTaken other ↔ name = other ∨
      (name ∈ taken ∧ other = name ++ Text.ofString "Message") ∨
      (other ∈ taken ∧ name = other ++ Text.ofString "Message") := by
  have hsuffix := suffixed_notMem_taken
  simp only [avoidTaken, List.contains_iff_mem]
  by_cases hname : name ∈ taken
  · by_cases hother : other ∈ taken
    · rw [if_pos hname, if_pos hother, List.append_left_inj]
      constructor
      · exact .inl
      · rintro (h | ⟨-, rfl⟩ | ⟨-, rfl⟩)
        · exact h
        · exact absurd hother (hsuffix name hname)
        · exact absurd hname (hsuffix other hother)
    · rw [if_pos hname, if_neg hother]
      constructor
      · intro h
        exact .inr (.inl ⟨hname, h.symm⟩)
      · rintro (rfl | ⟨-, h⟩ | ⟨h, -⟩)
        · exact absurd hname hother
        · exact h.symm
        · exact absurd h hother
  · by_cases hother : other ∈ taken
    · rw [if_neg hname, if_pos hother]
      constructor
      · intro h
        exact .inr (.inr ⟨hother, h⟩)
      · rintro (rfl | ⟨h, -⟩ | ⟨-, h⟩)
        · exact absurd hother hname
        · exact absurd h hname
        · exact h
    · rw [if_neg hname, if_neg hother]
      constructor
      · exact .inl
      · rintro (h | ⟨h, -⟩ | ⟨h, -⟩)
        · exact h
        · exact absurd h hname
        · exact absurd h hother

/-- Two generated names are equal only when the flat names are, or one of them is taken between the
affixes and the other is the same with the suffix. -/
theorem generated_eq_iff {flat other : Text} :
    generated options flat = generated options other ↔ flat = other ∨
      (wrap options flat ∈ taken ∧
        wrap options other = wrap options flat ++ Text.ofString "Message") ∨
      (wrap options other ∈ taken ∧
        wrap options flat = wrap options other ++ Text.ofString "Message") := by
  have hwrap : wrap options flat = wrap options other ↔ flat = other := by simp [wrap]
  rw [generated, generated, avoidTaken_eq_iff, hwrap]

/-- With an underscore between names that have none, the flat name says what the names are. -/
theorem flatten_eq_iff {route other : List Text} (hdelimiter : options.snakeTypeNames)
    (hroute : route ≠ []) (hother : other ≠ [])
    (hnames : ∀ name ∈ route ++ other, CodePoint.ofChar '_' ∉ maybeCamel options name) :
    flatten options route = flatten options other ↔
      route.map (maybeCamel options) = other.map (maybeCamel options) := by
  obtain ⟨hnames, hothers⟩ := List.forall_mem_append.mp hnames
  have hsplit {names : List Text} (hne : names ≠ [])
      (h : ∀ name ∈ names, CodePoint.ofChar '_' ∉ maybeCamel options name) :
      Text.split '_' (flatten options names) = names.map (maybeCamel options) := by
    rw [flatten, delimiter, if_pos hdelimiter]
    exact Text.split_join (by simpa using hne) (List.forall_mem_map.mpr h)
  constructor
  · intro h
    rw [← hsplit hroute hnames, h, hsplit hother hothers]
  · intro h
    rw [flatten, h, flatten]

end Naming

/-! ### Routes of declarations -/

mutual

/-- The routes from a message to what is nested in it. -/
def MessageDescriptor.routes : MessageDescriptor → List (List Text)
  | ⟨_, enums, messages⟩ =>
      (enums.map fun enum => [enum.name]) ++ MessageDescriptor.routesOfList messages

/-- The routes to messages and on to what is nested in them. -/
def MessageDescriptor.routesOfList : List MessageDescriptor → List (List Text)
  | [] => []
  | first :: rest =>
      [first.name] :: (first.routes.map fun route => first.name :: route) ++
        MessageDescriptor.routesOfList rest

end

namespace Scope

/-- The routes from a scope to everything in it, in the order of a visit. -/
def routes (scope : Scope) : List (List Text) :=
  (scope.enums.map fun enum => [enum.name]) ++ MessageDescriptor.routesOfList scope.messages

/-- The names of the declarations directly in a scope. -/
def names (scope : Scope) : List Text :=
  scope.enums.map EnumDescriptor.name ++ scope.messages.map MessageDescriptor.name

/-- In a scope and in every scope nested in it, the names are not empty and no two are the same. -/
inductive HasDistinctNames : Scope → Prop
  | mk {scope : Scope} (named : ∀ name ∈ scope.names, name ≠ []) (distinct : scope.names.Nodup)
      (nested : ∀ message ∈ scope.messages, HasDistinctNames message.scope) :
      HasDistinctNames scope

end Scope

/-- What is nested in a message has the routes of its scope. -/
theorem MessageDescriptor.routes_eq (message : MessageDescriptor) :
    message.routes = message.scope.routes := by
  cases message
  rfl

/-- The routes to messages come message by message. -/
theorem MessageDescriptor.routesOfList_eq (messages : List MessageDescriptor) :
    routesOfList messages = messages.flatMap fun message =>
      [message.name] :: message.scope.routes.map fun route => message.name :: route := by
  induction messages with
  | nil => rfl
  | cons first rest ih => rw [routesOfList, ih, List.flatMap_cons, routes_eq]

namespace Scope

/-- A route of a scope is the name of an enumeration, or the name of a message and a route from
there. -/
theorem mem_routes_iff {scope : Scope} {route : List Text} :
    route ∈ scope.routes ↔
      (∃ enum ∈ scope.enums, route = [enum.name]) ∨
      ∃ message ∈ scope.messages, route = [message.name] ∨
        ∃ rest ∈ message.scope.routes, route = message.name :: rest := by
  rw [routes, MessageDescriptor.routesOfList_eq]
  simp only [List.mem_append, List.mem_map, List.mem_flatMap, List.mem_cons, eq_comm]

/-- A route has a name. -/
theorem ne_nil_of_mem_routes {scope : Scope} {route : List Text} (h : route ∈ scope.routes) :
    route ≠ [] := by
  rcases mem_routes_iff.mp h with ⟨enum, -, rfl⟩ | ⟨message, -, rfl | ⟨rest, -, rfl⟩⟩ <;>
    exact List.cons_ne_nil _ _

/-- The routes to a message and through it begin with its name. -/
theorem head?_of_mem_block {name : Text} {routes : List (List Text)} {route : List Text}
    (h : route ∈ [name] :: routes.map fun route => name :: route) : route.head? = some name := by
  rcases List.mem_cons.mp h with rfl | h
  · rfl
  · obtain ⟨rest, -, rfl⟩ := List.mem_map.mp h
    rfl

/-- Where names are distinct in every scope, routes are distinct. -/
theorem HasDistinctNames.nodup_routes {scope : Scope} (h : scope.HasDistinctNames) :
    scope.routes.Nodup := by
  induction h with
  | @mk scope _ hdistinct _ ih =>
      rw [names, List.nodup_append] at hdistinct
      obtain ⟨henums, hmessages, hapart⟩ := hdistinct
      rw [routes, MessageDescriptor.routesOfList_eq, List.nodup_append, List.nodup_flatMap]
      refine ⟨?enums, ⟨?block, ?messages⟩, ?apart⟩
      case enums =>
        have hroutes : (scope.enums.map fun enum => [enum.name]) =
            (scope.enums.map EnumDescriptor.name).map fun name => [name] := by simp
        rw [hroutes]
        exact henums.map fun _ _ => List.singleton_inj.mp
      case block =>
        intro message hmessage
        refine List.nodup_cons.mpr ⟨fun hmem => ?_, ?_⟩
        · obtain ⟨rest, hrest, hroute⟩ := List.mem_map.mp hmem
          exact ne_nil_of_mem_routes hrest (List.cons.inj hroute).2
        · exact (ih message hmessage).map (List.cons_injective)
      case messages =>
        refine (List.pairwise_map.mp hmessages).imp
          fun {first second} hne route hfirst hsecond => ?_
        have hsame := (head?_of_mem_block hfirst).symm.trans (head?_of_mem_block hsecond)
        exact hne (Option.some.inj hsame)
      case apart =>
        intro route hroute other hother hsame
        obtain ⟨enum, henum, rfl⟩ := List.mem_map.mp hroute
        obtain ⟨message, hmessage, hother⟩ := List.mem_flatMap.mp hother
        have hhead := head?_of_mem_block hother
        rw [← hsame] at hhead
        exact hapart enum.name (List.mem_map_of_mem henum) message.name
          (List.mem_map_of_mem hmessage) (Option.some.inj hhead)

end Scope

namespace Visit

variable {options : NamingOptions}

/-- The names generated for enumerations are those of their routes. -/
theorem outputNames_enumCalls (frame : Frame) (kind : Int) (index : Nat)
    (enums : List EnumDescriptor) :
    (enumCalls options frame kind index enums).map Call.outputName =
      (enums.map fun enum => [enum.name]).map fun route =>
        Naming.generated options (frame.namePath ++ Naming.flatten options route) := by
  induction enums generalizing index with
  | nil => rfl
  | cons first rest ih =>
      rw [enumCalls, List.map_cons, ih]
      rfl

mutual

/-- The names generated for what is nested in a message are those of its routes. -/
theorem outputNames_nestedCalls (frame : Frame) : ∀ message : MessageDescriptor,
    (nestedCalls options frame message).map Call.outputName =
      message.routes.map fun route =>
        Naming.generated options (frame.namePath ++ Naming.flatten options route)
  | ⟨_, enums, messages⟩ => by
      rw [nestedCalls, MessageDescriptor.routes, List.map_append, List.map_append,
        outputNames_enumCalls, outputNames_messageCalls frame _ 0 messages]

/-- The names generated for messages and for what is nested in them are those of their routes. -/
theorem outputNames_messageCalls (frame : Frame) (kind : Int) (index : Nat) :
    ∀ messages : List MessageDescriptor,
      (messageCalls options frame kind index messages).map Call.outputName =
        (MessageDescriptor.routesOfList messages).map fun route =>
          Naming.generated options (frame.namePath ++ Naming.flatten options route)
  | [] => rfl
  | first :: rest => by
      -- Entering the message puts its name and the delimiter in front.
      have hnested : (first.routes.map fun route => Naming.generated options
          ((frame.enter options first.name kind index).namePath ++
            Naming.flatten options route)) =
          first.routes.map fun route => Naming.generated options
            (frame.namePath ++ Naming.flatten options (first.name :: route)) := by
        refine List.map_congr_left fun route hroute => ?_
        rw [MessageDescriptor.routes_eq] at hroute
        rw [Naming.flatten_cons first.name (Scope.ne_nil_of_mem_routes hroute)]
        simp [Frame.enter, Frame.flatName]
      rw [messageCalls, List.map_cons, List.map_append,
        outputNames_nestedCalls _ first, outputNames_messageCalls frame kind (index + 1) rest,
        hnested, MessageDescriptor.routesOfList, List.map_append, List.map_cons, List.map_map]
      rfl

end

/-- The names generated in a visit are those of the routes. -/
theorem outputNames_calls (cursor : Cursor) (scope : Scope) :
    (calls options { cursor := cursor } scope).map Call.outputName =
      scope.routes.map fun route => Naming.generated options (Naming.flatten options route) := by
  rw [calls, Scope.routes, List.map_append, List.map_append, outputNames_enumCalls,
    outputNames_messageCalls]
  rfl

/-- In a file whose names are distinct in every scope, all generated names are distinct exactly when
no two routes have the same flat name, and when no flat name that is taken between the affixes is
another one without the suffix. With an underscore between names that have none, two routes have the
same flat name only where they have the same names in the case that the options ask for. -/
theorem nodup_outputNames_iff {file : FileDescriptor} (options : NamingOptions) (cursor : Cursor)
    (h : file.scope.HasDistinctNames) :
    (((calls options { cursor := cursor } file.scope).map Call.outputName).Nodup ↔
      (∀ route ∈ file.scope.routes, ∀ other ∈ file.scope.routes,
        Naming.flatten options route = Naming.flatten options other → route = other) ∧
      ∀ route ∈ file.scope.routes, ∀ other ∈ file.scope.routes,
        Naming.wrap options (Naming.flatten options route) ∈ Naming.taken →
          Naming.wrap options (Naming.flatten options other) ≠
            Naming.wrap options (Naming.flatten options route) ++ Text.ofString "Message") ∧
    (options.snakeTypeNames →
      (∀ route ∈ file.scope.routes, ∀ name ∈ route,
        CodePoint.ofChar '_' ∉ Naming.maybeCamel options name) →
      ∀ route ∈ file.scope.routes, ∀ other ∈ file.scope.routes,
        (Naming.flatten options route = Naming.flatten options other ↔
          route.map (Naming.maybeCamel options) = other.map (Naming.maybeCamel options))) := by
  refine ⟨?_, ?_⟩
  · rw [outputNames_calls, List.nodup_map_iff_inj_on h.nodup_routes]
    constructor
    · intro hdistinct
      refine ⟨fun route hroute other hother hflat => ?_,
        fun route hroute other hother htaken hsuffix => ?_⟩
      · exact hdistinct route hroute other hother (congrArg (Naming.generated options) hflat)
      · have hsame := hdistinct route hroute other hother
          (Naming.generated_eq_iff.mpr (.inr (.inl ⟨htaken, hsuffix⟩)))
        rw [← hsame, List.self_eq_append_right] at hsuffix
        cases hsuffix
    · rintro ⟨hflat, hsuffix⟩ route hroute other hother hsame
      rcases Naming.generated_eq_iff.mp hsame with h | ⟨htaken, h⟩ | ⟨htaken, h⟩
      · exact hflat route hroute other hother h
      · exact absurd h (hsuffix route hroute other hother htaken)
      · exact absurd h (hsuffix other hother route hroute htaken)
  · intro hdelimiter hnames route hroute other hother
    exact Naming.flatten_eq_iff hdelimiter (Scope.ne_nil_of_mem_routes hroute)
      (Scope.ne_nil_of_mem_routes hother)
      (List.forall_mem_append.mpr ⟨hnames route hroute, hnames other hother⟩)

/-- A file with an enumeration `AB` and a message `A` that has an enumeration `B`. -/
def joinedFile : FileDescriptor where
  enums := [⟨"AB"⟩]
  messages := [{ name := "A", enums := [⟨"B"⟩] }]

/-- The names of this file are distinct in every scope. -/
theorem hasDistinctNames_joined : joinedFile.scope.HasDistinctNames := by
  refine .mk (by decide) (by decide) (List.forall_mem_singleton.mpr ?_)
  exact .mk (by decide) (by decide) fun _ hmem => absurd hmem List.not_mem_nil

/-- With an underscore between them, the names generated for this file are distinct. -/
theorem nodup_outputNames_delimited :
    joinedFile.scope.HasDistinctNames ∧
      ((calls { snakeTypeNames := true } { cursor := .root .empty } joinedFile.scope).map
        Call.outputName).Nodup := by
  refine ⟨hasDistinctNames_joined, ?_⟩
  obtain ⟨hiff, hroutes⟩ := nodup_outputNames_iff { snakeTypeNames := true } (.root .empty)
    hasDistinctNames_joined
  have hplain : Naming.maybeCamel { snakeTypeNames := true } = id := rfl
  refine hiff.mpr ⟨fun route hroute other hother h => ?_, by decide⟩
  simpa [hplain] using (hroutes rfl (by decide) route hroute other hother).mp h

/-- Without it, `AB` is generated for both enumerations. -/
theorem outputNames_joined_twice :
    joinedFile.scope.HasDistinctNames ∧
      (calls {} { cursor := .root .empty } joinedFile.scope).map Call.outputName =
        ["AB", "A", "AB"] ∧
      ¬ ((calls {} { cursor := .root .empty } joinedFile.scope).map Call.outputName).Nodup :=
  ⟨hasDistinctNames_joined, by decide, by decide⟩

end Visit

end ProtoSchema
