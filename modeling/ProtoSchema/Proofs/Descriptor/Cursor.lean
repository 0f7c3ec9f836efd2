import Mathlib.Data.List.Infix
import ProtoSchema.Descriptor.Cursor

/-!
# The algebra of cursors

A cursor is known by where it stems from and by the children that were opened on the way to it
(`Reaches`), whatever other cursors were made in between. Main statement:
`CursorPool.after_isLawful`. Two cursors are the same exactly if they agree in both, what a cursor
reads is the first location with its path in the file it stems from, and the cursors made later
change nothing.

The numbers on a path come in pairs, so a path tells the children apart (`pathOf_injective`), and
the mark of a table counts the tables made before it, so a mark tells the tables apart
(`CursorSource.table_inj`).
-/

namespace ProtoSchema

/-! ### Tables -/

namespace LocationTable

/-- The location of a path, if there is one: the first on the list with the path. -/
def IsFirst (path : List Int) (locations : List Location) : Option Location → Prop
  | some location => ∃ before after, locations = before ++ location :: after ∧
      location.path = path ∧ ∀ earlier ∈ before, earlier.path ≠ path
  | none => ∀ location ∈ locations, location.path ≠ path

/-- A path is found where it was, and else at the location that is added. -/
theorem find?_addNew (made : List Location) (location : Location) (path : List Int) :
    ((addNew made location).find? fun other => other.path = path) =
      (made ++ [location]).find? fun other => other.path = path := by
  unfold addNew
  split
  next hmem =>
    obtain ⟨other, hother, hsame⟩ := List.any_eq_true.mp hmem
    rw [List.find?_append, List.find?_singleton]
    split
    next hpath =>
      have hfound : (made.find? fun other => other.path = path).isSome := by
        rw [List.find?_isSome]
        exact ⟨other, hother, by simpa [of_decide_eq_true hsame] using hpath⟩
      rw [Option.or_of_isSome hfound]
    next => rw [Option.or_none]
  next => rfl

/-- Locations that are added one by one give every path its first location among them. -/
theorem find?_foldl_addNew (made locations : List Location) (path : List Int) :
    ((locations.foldl addNew made).find? fun other => other.path = path) =
      (made ++ locations).find? fun other => other.path = path := by
  induction locations generalizing made with
  | nil => rw [List.append_nil, List.foldl_nil]
  | cons location locations ih =>
      rw [List.foldl_cons, ih, List.find?_append, find?_addNew, ← List.find?_append,
        List.append_assoc, List.singleton_append]

/-- The table of a list of locations finds the first one with the path. -/
theorem find?_ofLocations (origin : TableOrigin) (locations : List Location) (path : List Int) :
    (LocationTable.mk origin (locations.foldl addNew [])).find? path =
      locations.find? fun location => location.path = path :=
  find?_foldl_addNew [] locations path

/-- What is found on a list is the first location with the path. -/
theorem isFirst_find? (path : List Int) (locations : List Location) :
    IsFirst path locations (locations.find? fun location => location.path = path) := by
  cases hfound : locations.find? fun location => location.path = path with
  | none =>
      intro location hmem
      have hnone := List.find?_eq_none.mp hfound location hmem
      simpa using hnone
  | some location =>
      obtain ⟨hpath, before, after, hsplit, hbefore⟩ := List.find?_eq_some_iff_append.mp hfound
      refine ⟨before, after, hsplit, of_decide_eq_true hpath, fun earlier hmem => ?_⟩
      simpa using hbefore earlier hmem

end LocationTable

/-! ### Origins -/

/-- What a cursor stems from: the empty table, or the step that made a table. -/
inductive CursorSource where
  | empty
  | made (step : Nat)
  deriving DecidableEq

/-- The path to a declaration, from the fields and indices of the children opened on the way. -/
def pathOf (opens : List (Int × Int)) : List Int :=
  opens.flatMap fun child => [child.1, child.2]

/-- A path tells the children apart. -/
theorem pathOf_injective : Function.Injective pathOf := by
  intro first second h
  induction first generalizing second with
  | nil =>
      cases second with
      | nil => rfl
      | cons child second => cases h
  | cons child first ih =>
      cases second with
      | nil => cases h
      | cons other second =>
          obtain ⟨hkind, htail⟩ := List.cons.inj h
          obtain ⟨hindex, hrest⟩ := List.cons.inj htail
          rw [Prod.ext hkind hindex, ih hrest]

/-- Opening one more child extends the path. -/
theorem pathOf_concat (opens : List (Int × Int)) (kind index : Int) :
    pathOf (opens ++ [(kind, index)]) = pathOf opens ++ [kind, index] := by
  rw [pathOf, List.flatMap_append]
  rfl

namespace CursorStep

/-- The step makes a table from a file. -/
def isRoot : CursorStep → Bool
  | root _ => true
  | _ => false

/-- The cursor that a step makes stems from the source, through these children. -/
inductive Reaches (steps : List CursorStep) : Nat → CursorSource → List (Int × Int) → Prop
  | root {n : Nat} {file : FileDescriptor} (hstep : steps[n]? = some (.root file)) :
      Reaches steps n (.made n) []
  | empty {n : Nat} (hstep : steps[n]? = some .empty) : Reaches steps n .empty []
  | child {n parent : Nat} {kind index : Int} {source : CursorSource} {opens : List (Int × Int)}
      (hstep : steps[n]? = some (.child parent kind index))
      (hparent : Reaches steps parent source opens) :
      Reaches steps n source (opens ++ [(kind, index)])

/-- Every child is opened from a cursor that was made before. -/
def OpensExisting (steps : List CursorStep) : Prop :=
  ∀ (n parent : Nat) (kind index : Int),
    steps[n]? = some (.child parent kind index) → parent < n

variable {steps : List CursorStep}

/-- Without the last step, every child is still opened from a cursor that was made before. -/
theorem OpensExisting.of_append {more : List CursorStep} (h : OpensExisting (steps ++ more)) :
    OpensExisting steps := by
  intro n parent kind index hstep
  refine h n parent kind index ?_
  rw [List.getElem?_append_left (List.getElem?_eq_some_iff.mp hstep).1]
  exact hstep

/-- The source of a cursor that stems from a file is a step that made a table. -/
theorem Reaches.exists_root {n step : Nat} {opens : List (Int × Int)}
    (h : Reaches steps n (.made step) opens) : ∃ file, steps[step]? = some (.root file) := by
  generalize hsource : CursorSource.made step = source at h
  induction h with
  | root hstep =>
      obtain rfl := CursorSource.made.inj hsource
      exact ⟨_, hstep⟩
  | empty => cases hsource
  | child _ _ ih => exact ih hsource

/-- If children are opened from cursors made before, each cursor stems from somewhere. -/
theorem OpensExisting.exists_reaches (h : OpensExisting steps) {n : Nat} (hn : n < steps.length) :
    ∃ source opens, Reaches steps n source opens := by
  induction n using Nat.strongRecOn with
  | ind n ih =>
      have hstep : steps[n]? = some steps[n] := List.getElem?_eq_getElem hn
      cases hkind : steps[n] with
      | root file => exact ⟨.made n, [], .root (hstep.trans (congrArg some hkind))⟩
      | empty => exact ⟨.empty, [], .empty (hstep.trans (congrArg some hkind))⟩
      | child parent kind index =>
          rw [hkind] at hstep
          have hparent : parent < n := h n parent kind index hstep
          obtain ⟨source, opens, hreaches⟩ := ih parent hparent (by omega)
          exact ⟨source, opens ++ [(kind, index)], .child hstep hreaches⟩

end CursorStep

namespace CursorSource

open CursorStep (isRoot Reaches)

variable {steps : List CursorStep}

/-- The locations of a source: those of the file, and none for the empty table. -/
def locations (steps : List CursorStep) : CursorSource → List Location
  | empty => []
  | made step =>
      match steps[step]? with
      | some (.root file) => file.locations
      | _ => []

/-- The table of a source, marked by the number of tables made before it. -/
def table (steps : List CursorStep) (source : CursorSource) : LocationTable where
  origin :=
    match source with
    | empty => .empty
    | made step => .file ((steps.take step).countP isRoot)
  locations := (source.locations steps).foldl LocationTable.addNew []

/-- Fewer tables are made before the first of two steps that make one. -/
theorem countP_lt {first second : Nat} {file : FileDescriptor} (hlt : first < second)
    (hfirst : steps[first]? = some (.root file)) :
    (steps.take first).countP isRoot < (steps.take second).countP isRoot := by
  have htaken : (steps.take (first + 1)).countP isRoot = (steps.take first).countP isRoot + 1 := by
    rw [List.take_add_one, hfirst, List.countP_append]
    rfl
  have hle : (steps.take (first + 1)).countP isRoot ≤ (steps.take second).countP isRoot :=
    (List.take_sublist_take_left hlt).countP_le
  omega

/-- The mark of a table tells the sources apart. -/
theorem table_inj {m n : Nat} {source other : CursorSource} {opens others : List (Int × Int)}
    (hsource : Reaches steps m source opens) (hother : Reaches steps n other others)
    (h : (source.table steps).origin = (other.table steps).origin) : source = other := by
  cases source with
  | empty =>
      cases other with
      | empty => rfl
      | made second => cases h
  | made first =>
      cases other with
      | empty => cases h
      | made second =>
          obtain ⟨file, hfirst⟩ := hsource.exists_root
          obtain ⟨another, hsecond⟩ := hother.exists_root
          have hcount := TableOrigin.file.inj h
          rcases Nat.lt_trichotomy first second with hlt | heq | hgt
          · have hless := countP_lt hlt hfirst
            omega
          · rw [heq]
          · have hless := countP_lt hgt hsecond
            omega

end CursorSource

/-! ### Pools -/

namespace Cursor

/-- Everything that is read from the one cursor is read from the other. -/
structure ReadsAlike (first second : Cursor) : Prop where
  path : first.path = second.path
  location : first.location = second.location
  lookup : ∀ kind index, first.lookup kind index = second.lookup kind index
  leading : first.leading = second.leading
  trailing : first.trailing = second.trailing
  detached : first.detached = second.detached
  span : first.span = second.span
  describe : first.describe = second.describe

/-- Any cursor reads like itself. -/
theorem ReadsAlike.refl (cursor : Cursor) : cursor.ReadsAlike cursor where
  path := rfl
  location := rfl
  lookup _ _ := rfl
  leading := rfl
  trailing := rfl
  detached := rfl
  span := rfl
  describe := rfl

/-- Two cursors are the same if their tables have the same mark and their paths agree. -/
theorem same_iff {first second : Cursor} :
    first.same second ↔ first.table.origin = second.table.origin ∧ first.path = second.path := by
  simp [same]

end Cursor

namespace CursorPool

open CursorStep (isRoot Reaches OpensExisting)

variable {pool : CursorPool} {step : CursorStep} {steps more : List CursorStep}

/-- The pool after some steps. -/
def after (steps : List CursorStep) : CursorPool :=
  steps.foldl take {}

/-- The pool after one more step. -/
theorem after_concat (steps : List CursorStep) (step : CursorStep) :
    after (steps ++ [step]) = (after steps).take step :=
  List.foldl_concat take {} step steps

/-- A step with a cursor adds it behind the others. -/
theorem take_cursors {cursor : Cursor} (h : pool.cursorOf? step = some cursor) :
    (pool.take step).cursors = pool.cursors ++ [cursor] := by
  rw [take, h]

/-- A step keeps the cursors in front. -/
theorem cursors_take (pool : CursorPool) (step : CursorStep) :
    pool.cursors <+: (pool.take step).cursors := by
  unfold take
  split
  next cursor _ => exact List.prefix_append pool.cursors [cursor]
  next => exact List.prefix_rfl

/-- Later steps keep the cursors in front. -/
theorem cursors_after (steps more : List CursorStep) :
    (after steps).cursors <+: (after (steps ++ more)).cursors := by
  induction more using List.reverseRecOn with
  | nil =>
      rw [List.append_nil]
  | append_singleton more step ih =>
      rw [← List.append_assoc, after_concat]
      exact ih.trans (cursors_take _ step)

/-- A cursor is still there after later steps. -/
theorem getElem?_after {n : Nat} {cursor : Cursor} (h : (after steps).cursors[n]? = some cursor)
    (more : List CursorStep) : (after (steps ++ more)).cursors[n]? = some cursor := by
  obtain ⟨rest, hrest⟩ := cursors_after steps more
  rw [← hrest, List.getElem?_append_left (List.getElem?_eq_some_iff.mp h).1]
  exact h

/-- The pool counts the steps that make a table. -/
theorem made_after (steps : List CursorStep) : (after steps).made = steps.countP isRoot := by
  induction steps using List.reverseRecOn with
  | nil => rfl
  | append_singleton steps step ih =>
      rw [after_concat, List.countP_append, ← ih]
      cases step with
      | root file => rfl
      | empty => rfl
      | child parent kind index =>
          unfold take
          split <;> rfl

/-- A step makes a cursor if it opens none or an existing one. -/
theorem cursorOf?_isSome {pool : CursorPool} {step : CursorStep}
    (h : ∀ parent kind index, step = .child parent kind index → parent < pool.cursors.length) :
    ∃ cursor, pool.cursorOf? step = some cursor := by
  cases step with
  | root file => exact ⟨_, rfl⟩
  | empty => exact ⟨_, rfl⟩
  | child parent kind index =>
      have hparent := h parent kind index rfl
      exact ⟨_, congrArg (Option.map _) (List.getElem?_eq_getElem hparent)⟩

/-- Each step makes one cursor. -/
theorem length_after (h : OpensExisting steps) : (after steps).cursors.length = steps.length := by
  induction steps using List.reverseRecOn with
  | nil => rfl
  | append_singleton steps step ih =>
      have hlength := ih h.of_append
      obtain ⟨cursor, hcursor⟩ : ∃ cursor, (after steps).cursorOf? step = some cursor := by
        refine cursorOf?_isSome fun parent kind index hstep => ?_
        rw [hlength]
        exact h steps.length parent kind index (by rw [hstep, List.getElem?_concat_length])
      rw [after_concat, take_cursors hcursor, List.length_append, List.length_append, hlength]
      rfl

/-- The steps in front make as many cursors as there are. -/
theorem length_after_take (h : OpensExisting steps) {n : Nat} (hn : n ≤ steps.length) :
    (after (steps.take n)).cursors.length = n := by
  rw [← List.take_append_drop n steps] at h
  rw [length_after h.of_append, List.length_take_of_le hn]

/-- A cursor is the one that its step makes in the pool of the steps before. -/
theorem getElem?_after_of_step (h : OpensExisting steps) {n : Nat} {cursor : Cursor}
    (hstep : steps[n]? = some step)
    (hcursor : (after (steps.take n)).cursorOf? step = some cursor) :
    (after steps).cursors[n]? = some cursor := by
  obtain ⟨hn, hget⟩ := List.getElem?_eq_some_iff.mp hstep
  have hlength := length_after_take h (Nat.le_of_lt hn)
  have hsplit : steps = steps.take n ++ [step] ++ steps.drop (n + 1) := by
    rw [List.append_assoc, List.singleton_append, ← hget, ← List.drop_eq_getElem_cons hn,
      List.take_append_drop]
  have hmade : (after (steps.take n ++ [step])).cursors[n]? = some cursor := by
    rw [after_concat, take_cursors hcursor, List.getElem?_append_right (Nat.le_of_eq hlength),
      hlength, Nat.sub_self]
    rfl
  rw [hsplit]
  exact getElem?_after hmade _

/-- A cursor that was made before a step is there when the step is taken. -/
theorem getElem?_after_take (h : OpensExisting steps) {parent n : Nat} {cursor : Cursor}
    (hparent : parent < n) (hn : n ≤ steps.length)
    (hcursor : (after steps).cursors[parent]? = some cursor) :
    (after (steps.take n)).cursors[parent]? = some cursor := by
  obtain ⟨rest, hrest⟩ := cursors_after (steps.take n) (steps.drop n)
  have hlength := length_after_take h hn
  rw [List.take_append_drop] at hrest
  rw [← hrest, List.getElem?_append_left (by omega)] at hcursor
  exact hcursor

/-- A cursor holds the table of its source and the path through the children opened. -/
theorem getElem?_after_of_reaches (h : OpensExisting steps) {n : Nat} {source : CursorSource}
    {opens : List (Int × Int)} (hreaches : Reaches steps n source opens) :
    (after steps).cursors[n]? = some ⟨source.table steps, pathOf opens⟩ := by
  induction hreaches with
  | @root n file hstep =>
      have hlocations : (CursorSource.made n).locations steps = file.locations := by
        simp only [CursorSource.locations, hstep]
      refine getElem?_after_of_step h hstep ?_
      show some (Cursor.mk (.ofFile (after (steps.take n)).made file) []) = _
      rw [made_after, LocationTable.ofFile, ← hlocations]
      rfl
  | empty hstep => exact getElem?_after_of_step h hstep rfl
  | @child n parent kind index source opens hstep _ ih =>
      obtain ⟨hn, -⟩ := List.getElem?_eq_some_iff.mp hstep
      have hparent := getElem?_after_take h (h n parent kind index hstep) (Nat.le_of_lt hn) ih
      refine getElem?_after_of_step h hstep ?_
      rw [cursorOf?, hparent, pathOf_concat]
      rfl

/-! ### The laws -/

section

variable {m n : Nat} {cursor first second : Cursor} {source other : CursorSource}
  {opens others : List (Int × Int)}

/-- What a cursor holds is known from where it stems from. -/
theorem eq_of_reaches (h : OpensExisting steps) (hcursor : (after steps).cursors[n]? = some cursor)
    (hreaches : Reaches steps n source opens) :
    cursor = ⟨source.table steps, pathOf opens⟩ :=
  Option.some.inj (hcursor.symm.trans (getElem?_after_of_reaches h hreaches))

/-- Two cursors are the same exactly if they stem from the same source through the same children. -/
theorem same_iff_of_reaches (h : OpensExisting steps)
    (hfirst : (after steps).cursors[m]? = some first) (hsource : Reaches steps m source opens)
    (hsecond : (after steps).cursors[n]? = some second) (hother : Reaches steps n other others) :
    first.same second ↔ source = other ∧ opens = others := by
  obtain rfl := eq_of_reaches h hfirst hsource
  obtain rfl := eq_of_reaches h hsecond hother
  rw [Cursor.same_iff]
  constructor
  · intro hagree
    exact ⟨CursorSource.table_inj hsource hother hagree.1, pathOf_injective hagree.2⟩
  · intro hagree
    exact ⟨by rw [hagree.1], congrArg pathOf hagree.2⟩

/-- Every cursor stems from somewhere. -/
theorem exists_reaches_of_mem (h : OpensExisting steps) (hmem : cursor ∈ (after steps).cursors) :
    ∃ n source opens, (after steps).cursors[n]? = some cursor ∧ Reaches steps n source opens := by
  obtain ⟨n, hn⟩ := List.getElem?_of_mem hmem
  have hlength : n < steps.length := by
    rw [← length_after h]
    exact (List.getElem?_eq_some_iff.mp hn).1
  obtain ⟨source, opens, hreaches⟩ := h.exists_reaches hlength
  exact ⟨n, source, opens, hn, hreaches⟩

/-- Cursors that are the same read alike. -/
theorem readsAlike_of_same (h : OpensExisting steps) (hfirst : first ∈ (after steps).cursors)
    (hsecond : second ∈ (after steps).cursors) (hsame : first.same second) :
    first.ReadsAlike second := by
  obtain ⟨m, source, opens, hm, hsource⟩ := exists_reaches_of_mem h hfirst
  obtain ⟨n, other, others, hn, hother⟩ := exists_reaches_of_mem h hsecond
  obtain ⟨rfl, rfl⟩ := (same_iff_of_reaches h hm hsource hn hother).mp hsame
  rw [eq_of_reaches h hm hsource, eq_of_reaches h hn hother]
  exact .refl _

/-- Opening a child adds one cursor, whose location is what the look-up of the child gives. -/
theorem lookup_eq_opened (hcursor : (after steps).cursors[n]? = some cursor) (kind index : Int) :
    ∃ opened, (after (steps ++ [.child n kind index])).cursors = (after steps).cursors ++ [opened] ∧
      cursor.lookup kind index = opened.location := by
  have hopened :
      (after steps).cursorOf? (.child n kind index) = some (cursor.child kind index) := by
    rw [cursorOf?, hcursor]
    rfl
  refine ⟨cursor.child kind index, ?_, rfl⟩
  rw [after_concat, take_cursors hopened]

end

/-- What holds of the cursors that the steps make. -/
structure IsLawful (steps : List CursorStep) : Prop where
  /-- Each step makes one cursor, which stems from some source through some children. -/
  length_eq : (after steps).cursors.length = steps.length
  exists_reaches : ∀ n < steps.length, ∃ source opens, Reaches steps n source opens
  /-- Two cursors are the same exactly if they agree in where they stem from. -/
  same_iff : ∀ (m n : Nat) (first second : Cursor) (source other : CursorSource)
      (opens others : List (Int × Int)),
    (after steps).cursors[m]? = some first → Reaches steps m source opens →
    (after steps).cursors[n]? = some second → Reaches steps n other others →
      (first.same second ↔ source = other ∧ opens = others)
  /-- A cursor points to the first location with its path, if there is one in its source. -/
  path_eq : ∀ (n : Nat) (cursor : Cursor) (source : CursorSource) (opens : List (Int × Int)),
    (after steps).cursors[n]? = some cursor →
    Reaches steps n source opens → cursor.path = pathOf opens
  location : ∀ (n : Nat) (cursor : Cursor) (source : CursorSource) (opens : List (Int × Int)),
    (after steps).cursors[n]? = some cursor →
    Reaches steps n source opens →
      LocationTable.IsFirst (pathOf opens) (source.locations steps) cursor.location
  /-- Looking a child up gives the location of the cursor that opening it makes. -/
  lookup : ∀ (n : Nat) (cursor : Cursor) (kind index : Int),
    (after steps).cursors[n]? = some cursor →
    ∃ opened, (after (steps ++ [.child n kind index])).cursors = (after steps).cursors ++ [opened] ∧
      cursor.lookup kind index = opened.location
  /-- Everything read from cursors that are the same is the same. -/
  readsAlike : ∀ first ∈ (after steps).cursors, ∀ second ∈ (after steps).cursors,
    first.same second → first.ReadsAlike second
  /-- Later steps leave a cursor as it is, with all that is read from it. -/
  unchanged : ∀ (n : Nat) (cursor : Cursor) (more : List CursorStep),
    (after steps).cursors[n]? = some cursor →
      (after (steps ++ more)).cursors[n]? = some cursor

/-- The cursors that steps make obey the laws, if children are opened from existing cursors. -/
theorem after_isLawful (h : OpensExisting steps) : IsLawful steps where
  length_eq := length_after h
  exists_reaches n hn := h.exists_reaches hn
  same_iff m n first second source other opens others := same_iff_of_reaches h
  path_eq n cursor source opens hcursor hreaches := by
    rw [eq_of_reaches h hcursor hreaches]
  location n cursor source opens hcursor hreaches := by
    have hfound : cursor.location = (source.locations steps).find? fun location =>
        location.path = pathOf opens := by
      rw [eq_of_reaches h hcursor hreaches]
      exact LocationTable.find?_ofLocations _ _ _
    rw [hfound]
    exact LocationTable.isFirst_find? _ _
  lookup n cursor kind index hcursor := lookup_eq_opened hcursor kind index
  readsAlike first hfirst second hsecond := readsAlike_of_same h hfirst hsecond
  unchanged n cursor more hcursor := getElem?_after hcursor more

/-- Two tables of one file and the empty one, with a child opened in each and once more in the
first. -/
def twoTables : List CursorStep :=
  let file : FileDescriptor := { locations := [⟨[4, 0], [2, 0, 8, 1], "first", [], []⟩,
    ⟨[4, 0], [9, 0, 9, 5], "second", [], []⟩] }
  [.root file, .root file, .empty, .child 0 4 0, .child 1 4 0, .child 2 4 0, .child 0 4 0]

/-- The children in the first table are the same cursor, and the one in the second table is
another. -/
theorem after_isLawful_twoTables :
    OpensExisting twoTables ∧ ∃ first other again, (after twoTables).cursors[3]? = some first ∧
      (after twoTables).cursors[4]? = some other ∧ (after twoTables).cursors[6]? = some again ∧
      first.same again ∧ ¬ first.same other := by
  have hopens : OpensExisting twoTables := by
    intro n parent kind index hstep
    obtain ⟨hn, hget⟩ := List.getElem?_eq_some_iff.mp hstep
    match n, hn with
    | 0, _ | 1, _ | 2, _ => cases hget
    | 3, _ | 4, _ | 5, _ | 6, _ =>
        cases hget
        decide
  have hlaws := after_isLawful hopens
  have hfirst : Reaches twoTables 3 (.made 0) [(4, 0)] := .child rfl (.root rfl)
  have hother : Reaches twoTables 4 (.made 1) [(4, 0)] := .child rfl (.root rfl)
  have hagain : Reaches twoTables 6 (.made 0) [(4, 0)] := .child rfl (.root rfl)
  refine ⟨hopens, _, _, _, rfl, rfl, rfl, ?_, fun hsame => ?_⟩
  · exact (hlaws.same_iff 3 6 _ _ _ _ _ _ rfl hfirst rfl hagain).mpr ⟨rfl, rfl⟩
  · have hsource := ((hlaws.same_iff 3 4 _ _ _ _ _ _ rfl hfirst rfl hother).mp hsame).1
    exact absurd (CursorSource.made.inj hsource) (by decide)

end CursorPool

end ProtoSchema
