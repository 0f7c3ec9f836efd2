import ProtoSchema.Files.Tree
import ProtoSchema.Proofs.Files.Path
import ProtoSchema.Proofs.Outcome

/-!
# What file operations change

A path is resolved through directories only, so it keeps its place as long as no directory goes away
(`KeepsDirectories.resolve`). Making directories changes nothing that is there
(`addsDirectories_makeDirectories`), and writing changes the one place that the path leads to, which
is not a directory (`write_eq_ok`). The place of a path in a directory is that of the directory and
the last part of the path (`child_of_resolve_join`), so distinct last parts lead to distinct places.
-/

namespace ProtoSchema

/-- The place that a name leads to: the place itself for a dot, the one above for two dots. -/
def Place.child (place : Place) (name : Text) : Place :=
  if name = Path.here then place
  else if name = Path.up then place.dropLast
  else place ++ [name]

/-- Distinct names lead to distinct places, unless they lead to the root. -/
theorem Place.child_injective {place : Place} {name other : Text} (hroot : place.child name ≠ [])
    (h : place.child name = place.child other) : name = other := by
  -- The places are told apart by their lengths, except those with a name at the end.
  have hlength := congrArg List.length h
  have hempty : place.length = 0 → place = [] := List.length_eq_zero_iff.mp
  have hlast : place ++ [name] = place ++ [other] → name = other := by simp
  unfold Place.child at hroot h hlength
  grind

namespace FileTree

variable {tree before after : FileTree} {place : Place} {path : Text}

/-! ### Places -/

/-- Putting something at a place changes this place and nothing else. -/
theorem find?_put (hplace : place ≠ []) (node : FileNode) (other : Place) :
    (tree.put place node).find? other =
      if place = other then some node else tree.find? other := by
  have hnodes (nodes : List (Place × FileNode)) :
      ((put.go place node nodes).find? fun entry => entry.1 = other).map Prod.snd =
        if place = other then some node
        else (nodes.find? fun entry => entry.1 = other).map Prod.snd := by
    induction nodes with
    | nil => by_cases h : place = other <;> simp [put.go, h]
    | cons entry rest ih =>
        rw [put.go]
        split
        next hentry =>
          subst hentry
          by_cases h : entry.1 = other <;> simp [h]
        next hentry =>
          by_cases h : entry.1 = other
          · have hne : place ≠ other := fun heq => hentry (h.trans heq.symm)
            simp [h, hne]
          · simpa [h] using ih
  unfold find? put
  by_cases h : other.isEmpty
  · obtain rfl := List.isEmpty_iff.mp h
    rw [if_pos h, if_pos h, if_neg hplace]
  · rw [if_neg h, if_neg h]
    exact hnodes tree.nodes

/-- A name leads on from a directory, unless it is too long. -/
theorem follow_cons_eq_ok_iff {name : Text} {rest : List Text} {found : Place} :
    tree.follow place (name :: rest) = .ok found ↔
      tree.find? place = some .directory ∧
        (name = Path.here ∨ name = Path.up ∨ (Path.encode name).length ≤ nameLimit) ∧
        tree.follow (place.child name) rest = .ok found := by
  rw [follow, Place.child]
  cases hnode : tree.find? place with
  | none => simp
  | some node =>
      cases node with
      | file bytes => simp
      | directory =>
          by_cases hhere : name = Path.here
          · simp [hhere]
          · by_cases hup : name = Path.up
            · have hne : Path.up ≠ Path.here := by decide
              simp [hup, hne]
            · by_cases hlong : nameLimit < (Path.encode name).length
              · simp [hhere, hup, hlong, Nat.not_le.mpr hlong]
              · simp [hhere, hup, hlong, Nat.le_of_not_lt hlong]

/-- Names are followed one after the other. -/
theorem follow_append_eq_ok_iff {first rest : List Text} {found : Place} :
    tree.follow place (first ++ rest) = .ok found ↔
      ∃ middle, tree.follow place first = .ok middle ∧ tree.follow middle rest = .ok found := by
  induction first generalizing place with
  | nil => simp [follow]
  | cons name first ih =>
      rw [List.cons_append, follow_cons_eq_ok_iff, ih]
      simp only [follow_cons_eq_ok_iff]
      grind

/-- Following names fails because of the file system, but not because something is there. -/
theorem follow_eq_error {names : List Text} {fault : AccessFault}
    (h : tree.follow place names = .error fault) :
    ∃ cause, fault = .system cause ∧ cause ≠ .exists := by
  induction names generalizing place with
  | nil => exact ok_error_elim rfl h
  | cons name names ih =>
      rw [follow] at h
      split at h
      · exact ⟨.missing, (Except.error.inj h).symm, nofun⟩
      · exact ⟨.notDirectory, (Except.error.inj h).symm, nofun⟩
      · split at h
        · exact ih h
        · split at h
          · exact ih h
          · split at h
            · exact ⟨.nameTooLong, (Except.error.inj h).symm, nofun⟩
            · exact ih h

/-- Names that are read off a path lead on from its origin, unless something is wrong with the path.
-/
theorem resolveAs_eq_ok_iff {names : List Text} {found : Place} :
    tree.resolveAs path names = .ok found ↔
      pathFault? path = none ∧ tree.follow (tree.origin path) names = .ok found := by
  rw [resolveAs]
  cases pathFault? path <;> simp

/-! ### Paths that keep their places -/

/-- The directories of a tree are still there in another one. -/
structure KeepsDirectories (before after : FileTree) : Prop where
  working : after.working = before.working
  directory : ∀ place, before.find? place = some .directory → after.find? place = some .directory

namespace KeepsDirectories

/-- A tree keeps its own directories. -/
theorem refl (tree : FileTree) : KeepsDirectories tree tree :=
  ⟨rfl, fun _ h => h⟩

/-- Directories that are kept twice are kept. -/
theorem trans {middle : FileTree} (hfirst : KeepsDirectories before middle)
    (hrest : KeepsDirectories middle after) : KeepsDirectories before after :=
  ⟨hrest.working.trans hfirst.working,
    fun place h => hrest.directory place (hfirst.directory place h)⟩

/-- Names that were followed still lead to the same place. -/
theorem follow (h : KeepsDirectories before after) {names : List Text} {found : Place}
    (hfollow : before.follow place names = .ok found) : after.follow place names = .ok found := by
  induction names generalizing place with
  | nil => exact hfollow
  | cons name names ih =>
      obtain ⟨hplace, hname, hrest⟩ := follow_cons_eq_ok_iff.mp hfollow
      exact follow_cons_eq_ok_iff.mpr ⟨h.directory place hplace, hname, ih hrest⟩

/-- A path that was resolved still has the same place. -/
theorem resolve (h : KeepsDirectories before after) {found : Place}
    (hresolve : before.resolve path = .ok found) : after.resolve path = .ok found := by
  obtain ⟨hpath, hfollow⟩ := resolveAs_eq_ok_iff.mp hresolve
  refine resolveAs_eq_ok_iff.mpr ⟨hpath, ?_⟩
  rw [origin, h.working]
  exact h.follow hfollow

end KeepsDirectories

/-! ### Making directories -/

/-- A place is as it was, or a directory is there now where nothing was. -/
def KeptAt (before after : FileTree) (place : Place) : Prop :=
  after.find? place = before.find? place ∨
    before.find? place = none ∧ after.find? place = some .directory

namespace KeptAt

/-- A place that is kept twice is kept. -/
theorem trans {middle : FileTree} (hfirst : KeptAt before middle place)
    (hrest : KeptAt middle after place) : KeptAt before after place := by
  rcases hrest with hsame | ⟨hnone, hadded⟩
  · unfold KeptAt
    rw [hsame]
    exact hfirst
  · rcases hfirst with hsame | ⟨-, hdirectory⟩
    · exact .inr ⟨hsame.symm.trans hnone, hadded⟩
    · rw [hnone] at hdirectory
      exact absurd hdirectory (by simp)

/-- A file at a kept place stays as it is. -/
theorem find?_file (h : KeptAt before after place) {bytes : List UInt8}
    (hfile : before.find? place = some (.file bytes)) :
    after.find? place = some (.file bytes) := by
  rcases h with hsame | ⟨hnone, -⟩
  · rw [hsame, hfile]
  · rw [hfile] at hnone
    exact absurd hnone (by simp)

end KeptAt

/-- A tree has more directories than another one, and is the same at all other places. -/
structure AddsDirectories (before after : FileTree) : Prop where
  working : after.working = before.working
  kept : ∀ place, KeptAt before after place

namespace AddsDirectories

/-- Adding nothing. -/
theorem refl (tree : FileTree) : AddsDirectories tree tree :=
  ⟨rfl, fun _ => .inl rfl⟩

/-- Adding more. -/
theorem trans {middle : FileTree} (hfirst : AddsDirectories before middle)
    (hrest : AddsDirectories middle after) : AddsDirectories before after :=
  ⟨hrest.working.trans hfirst.working, fun place => (hfirst.kept place).trans (hrest.kept place)⟩

/-- The directories that were there are kept. -/
theorem keepsDirectories (h : AddsDirectories before after) : KeepsDirectories before after := by
  refine ⟨h.working, fun place hdirectory => ?_⟩
  rcases h.kept place with hsame | ⟨hnone, -⟩
  · rw [hsame, hdirectory]
  · rw [hdirectory] at hnone
    exact absurd hnone (by simp)

end AddsDirectories

/-- Attaching a path to a fault does not change what succeeds. -/
theorem atPath_eq_ok_iff {α : Type} {outcome : Except AccessFault α} {value : α} :
    atPath path outcome = .ok value ↔ outcome = .ok value := by
  rcases outcome with (_ | _) | _ <;> simp [atPath]

/-- Making a directory adds it. -/
theorem addsDirectories_makeDirectory {made : FileTree} (h : tree.makeDirectory path = .ok made) :
    AddsDirectories tree made := by
  obtain ⟨place, -, hmade⟩ := bind_eq_ok_iff.mp (atPath_eq_ok_iff.mp h)
  unfold makeDirectoryAt at hmade
  split at hmade
  next => exact absurd hmade (by simp)
  next hnone =>
    obtain rfl := Except.ok.inj hmade
    have hplace : place ≠ [] := by
      rintro rfl
      exact absurd hnone (by simp [FileTree.find?])
    refine ⟨rfl, fun other => ?_⟩
    rw [KeptAt, find?_put hplace]
    split
    next heq => exact .inr ⟨heq ▸ hnone, rfl⟩
    next => exact .inl rfl

/-- Making a directory that may be there adds at most this one. -/
theorem addsDirectories_ensureDirectory (tree : FileTree) (path : Text) :
    AddsDirectories tree (tree.ensureDirectory path).1 := by
  unfold ensureDirectory
  split
  next made hmade => exact addsDirectories_makeDirectory hmade
  next => exact .refl tree

/-- A path that is not empty, with nothing at it. -/
def IsMissing (tree : FileTree) (path : Text) : Prop :=
  path ≠ [] ∧ tree.nodeAt? path = none

/-- The directory at a path is there after it is made, or was there before. -/
def IsThere (result : Except AccessError Unit) : Prop :=
  ∀ error, result = .error error → error.isExists

/-- What making a directory and those above it comes to: the one at the path is made at once, or the
ones above it are made first. If these fail, it is left out, and so it is if the path ends in a dot.
-/
inductive MakeStep (tree : FileTree) (path : Text) (fuel : Nat) :
    FileTree × Except AccessError Unit → Prop
  | last : MakeStep tree path fuel (tree.ensureDirectory path)
  | stopped {made : FileTree} {error : AccessError}
      (hmissing : tree.IsMissing (parentAndBase path).1)
      (habove : tree.makeDirectoriesWithin (parentAndBase path).1 fuel = (made, .error error))
      (herror : ¬ error.isExists) : MakeStep tree path fuel (made, .error error)
  | here {made : FileTree} {result : Except AccessError Unit}
      (hmissing : tree.IsMissing (parentAndBase path).1)
      (habove : tree.makeDirectoriesWithin (parentAndBase path).1 fuel = (made, result))
      (hthere : IsThere result) (hlast : (parentAndBase path).2 = Path.here) :
      MakeStep tree path fuel (made, .ok ())
  | deeper {made : FileTree} {result : Except AccessError Unit}
      (hmissing : tree.IsMissing (parentAndBase path).1)
      (habove : tree.makeDirectoriesWithin (parentAndBase path).1 fuel = (made, result))
      (hthere : IsThere result) : MakeStep tree path fuel (made.ensureDirectory path)

/-- Making directories takes such a step. -/
theorem makeStep (tree : FileTree) (path : Text) (fuel : Nat) :
    MakeStep tree path fuel (tree.makeDirectoriesWithin path (fuel + 1)) := by
  rw [makeDirectoriesWithin]
  dsimp only
  split
  next => exact .last
  next hmissing =>
    replace hmissing : tree.IsMissing (parentAndBase path).1 := by
      simp only [Bool.or_eq_true, not_or, List.isEmpty_iff, Option.not_isSome_iff_eq_none]
        at hmissing
      exact ⟨hmissing.1.1, hmissing.2⟩
    cases habove : tree.makeDirectoriesWithin (parentAndBase path).1 fuel with
    | mk made result =>
        cases result with
        | ok value =>
            have hthere : IsThere (.ok value) := fun _ h => nomatch h
            dsimp only
            split
            next hlast => exact .here hmissing habove hthere hlast
            next => exact .deeper hmissing habove hthere
        | error error =>
            dsimp only
            split
            next hexists =>
              have hthere : IsThere (.error error) := fun _ h => Except.error.inj h ▸ hexists
              split
              next hlast => exact .here hmissing habove hthere hlast
              next => exact .deeper hmissing habove hthere
            next herror => exact .stopped hmissing habove herror

/-- Making directories adds directories, also where it fails. -/
theorem addsDirectories_makeDirectoriesWithin (tree : FileTree) (path : Text) (fuel : Nat) :
    AddsDirectories tree (tree.makeDirectoriesWithin path fuel).1 := by
  induction fuel generalizing path with
  | zero => exact addsDirectories_ensureDirectory tree path
  | succ fuel ih =>
      have hfirst := ih (parentAndBase path).1
      have hstep := makeStep tree path fuel
      generalize tree.makeDirectoriesWithin path (fuel + 1) = outcome at hstep ⊢
      cases hstep with
      | last => exact addsDirectories_ensureDirectory tree path
      | stopped _ habove _ | here _ habove _ _ =>
          rw [habove] at hfirst
          exact hfirst
      | @deeper made _ _ habove _ =>
          rw [habove] at hfirst
          exact hfirst.trans (addsDirectories_ensureDirectory made path)

/-- Making a directory and those above it adds directories, also where it fails. -/
theorem addsDirectories_makeDirectories (tree : FileTree) (path : Text) :
    AddsDirectories tree (tree.makeDirectories path).1 :=
  addsDirectories_makeDirectoriesWithin tree path path.length

/-! ### Writing files -/

/-- A file is written at the place of its path, where no directory is. -/
theorem write_eq_ok {bytes : List UInt8} {written : FileTree}
    (h : tree.write path bytes = .ok written) :
    ∃ place, tree.resolve path = .ok place ∧ tree.find? place ≠ some .directory ∧
      written = tree.put place (.file bytes) := by
  obtain ⟨place, hresolve, hwrite⟩ := bind_eq_ok_iff.mp (atPath_eq_ok_iff.mp h)
  unfold writeAt at hwrite
  split at hwrite
  next => exact absurd hwrite (by simp)
  next hplain => exact ⟨place, hresolve, hplain, (Except.ok.inj hwrite).symm⟩

/-- The file at the place of a path is read. -/
theorem read_eq_ok {bytes : List UInt8} (hresolve : tree.resolve path = .ok place)
    (hfile : tree.find? place = some (.file bytes)) : tree.read path = .ok bytes :=
  atPath_eq_ok_iff.mpr (bind_eq_ok_iff.mpr ⟨place, hresolve, by rw [contents, hfile]⟩)

/-- An error of the path is passed on. -/
theorem atPath_eq_path_iff {α : Type} {outcome : Except AccessFault α} {error : PathError} :
    atPath path outcome = .error (.path error) ↔ outcome = .error (.path error) := by
  rcases outcome with (_ | _) | _ <;> simp [atPath]

/-- The file system finds nothing wrong with a path itself. -/
theorem resolve_eq_path {error : PathError} (h : tree.resolve path = .error (.path error)) :
    Path.error? path = some error := by
  rw [resolve, resolveAs] at h
  split at h
  next fault hfault =>
    obtain rfl := Except.error.inj h
    unfold pathFault? at hfault
    split at hfault
    next herror => rw [herror, AccessFault.path.inj (Option.some.inj hfault)]
    next =>
      split at hfault
      · cases hfault
      · split at hfault <;> cases hfault
  next =>
    obtain ⟨cause, hcause, -⟩ := follow_eq_error h
    cases hcause

/-- Reading ends with an error of the path exactly if the text is no path. -/
theorem read_eq_path_iff :
    (∃ error, tree.read path = .error (.path error)) ↔ Path.error? path ≠ none := by
  constructor
  · rintro ⟨error, h⟩
    have hpath : Path.error? path = some error := by
      rcases bind_eq_error_iff.mp (atPath_eq_path_iff.mp h) with h | ⟨place, -, h⟩
      · exact resolve_eq_path h
      · unfold contents at h
        split at h <;> cases h
    simp [hpath]
  · intro h
    obtain ⟨error, herror⟩ := Option.ne_none_iff_exists'.mp h
    refine ⟨error, ?_⟩
    rw [read, resolve, resolveAs, pathFault?, herror]
    rfl

/-- What is no directory is not at the root. -/
theorem ne_root_of_find? (h : tree.find? place ≠ some .directory) : place ≠ [] := by
  rintro rfl
  exact h rfl

/-- Putting something at a place keeps every other place. -/
theorem keptAt_put {other : Place} (hplace : place ≠ []) (hne : place ≠ other) (node : FileNode) :
    KeptAt tree (tree.put place node) other :=
  .inl (by rw [find?_put hplace, if_neg hne])

/-- Putting a file where no directory is keeps all directories. -/
theorem keepsDirectories_put (h : tree.find? place ≠ some .directory) (bytes : List UInt8) :
    KeepsDirectories tree (tree.put place (.file bytes)) := by
  refine ⟨rfl, fun other hdirectory => ?_⟩
  have hne : place ≠ other := fun heq => h (heq ▸ hdirectory)
  rw [find?_put (ne_root_of_find? h), if_neg hne, hdirectory]

/-! ### Places of shown paths -/

/-- A shown path is resolved by the parts of the path, if there are any. -/
theorem pathParts_display (hparts : Path.parts path ≠ []) :
    pathParts (Path.display path) = Path.parts path := by
  have hlast : (Path.display path).getLast? ≠ some Path.slash := by
    rw [Path.display_of_parts hparts, List.getLast?_append_of_ne_nil _ (Path.join_parts_ne hparts)]
    exact Path.getLast?_join_parts hparts
  rw [pathParts, if_neg hlast, Path.split_display hparts]

/-- A shown path leads where the parts of the path lead from the origin of the path. -/
theorem follow_of_resolve_display {found : Place}
    (h : tree.resolve (Path.display path) = .ok found) :
    tree.follow (tree.origin path) (Path.parts path) = .ok found := by
  obtain ⟨-, h⟩ := resolveAs_eq_ok_iff.mp h
  by_cases hparts : Path.parts path = []
  · -- Without parts the path is shown as a dot or as slashes, which are resolved as a dot.
    rw [hparts]
    have hhere {start : Place} (h : tree.follow start [Path.here] = .ok found) :
        tree.follow start [] = .ok found := (follow_cons_eq_ok_iff.mp h).2.2
    by_cases hrooted : path.head? = some Path.slash
    · rw [origin, if_pos hrooted]
      rcases Path.leadingSlashes_cases hrooted with hslashes | hslashes
      all_goals
        rw [Path.display, hparts, hslashes] at h
        exact hhere h
    · rw [origin, if_neg hrooted]
      rw [Path.display, hparts, Path.leadingSlashes_of_head? hrooted] at h
      exact hhere h
  · rw [pathParts_display hparts] at h
    rw [origin]
    simpa only [origin, Path.head?_display hparts] using h

/-- The parts of a name in a directory are followed from the place of the directory. -/
theorem follow_of_join {directory name : Text} {found : Place} (hslash : Path.slash ∉ name)
    (h : tree.follow (tree.origin (Path.join directory name))
      (Path.parts (Path.join directory name)) = .ok found) :
    ∃ place, tree.follow (tree.origin directory) (Path.parts directory) = .ok place ∧
      tree.follow place (Path.parts name) = .ok found := by
  have horigin : tree.origin (Path.join directory name) = tree.origin directory := by
    simp only [origin, Path.head?_join hslash]
  rw [horigin, Path.parts_join hslash, follow_append_eq_ok_iff] at h
  exact h

/-- The place of a name in a directory is where the name leads from the place of the directory. -/
theorem child_of_resolve_join {directory name : Text} {found : Place} (hname : name ≠ [])
    (hslash : Path.slash ∉ name)
    (h : tree.resolve (Path.display (Path.join directory name)) = .ok found) :
    ∃ place, tree.follow (tree.origin directory) (Path.parts directory) = .ok place ∧
      found = place.child name := by
  obtain ⟨place, hplace, hfound⟩ := follow_of_join hslash (follow_of_resolve_display h)
  refine ⟨place, hplace, ?_⟩
  rw [Path.parts_of_name hname hslash] at hfound
  split at hfound
  next hhere =>
    rw [Place.child, if_pos hhere]
    exact (Except.ok.inj hfound).symm
  next =>
    obtain ⟨-, -, hchild⟩ := follow_cons_eq_ok_iff.mp hfound
    exact (Except.ok.inj hchild).symm

end FileTree

end ProtoSchema
