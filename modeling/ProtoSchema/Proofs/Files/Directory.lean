import ProtoSchema.Proofs.Files.Encoding
import ProtoSchema.Proofs.Files.Tree

/-!
# Where a path leads

A path leads to a place through its parts, whatever slashes and single dots stand in it
(`FileTree.LeadsTo`). What making directories does depends on what stands there: at a directory it
changes nothing (`makeDirectories_of_directory`), and at a file it fails
(`makeDirectories_of_file`).
-/

namespace ProtoSchema.FileTree

variable {tree before after : FileTree} {path : Text} {place found : Place} {names : List Text}

/-- The parts of the path lead to this place, through directories. -/
def LeadsTo (tree : FileTree) (path : Text) (place : Place) : Prop :=
  tree.follow (tree.origin path) (Path.parts path) = .ok place

/-- A path leads to one place, also in two trees with one working directory. -/
theorem LeadsTo.unique (hworking : after.working = before.working)
    (hplace : before.LeadsTo path place) (hfound : after.LeadsTo path found) : place = found := by
  have horigin : after.origin path = before.origin path := by rw [origin, origin, hworking]
  rw [LeadsTo] at hplace hfound
  rw [horigin] at hfound
  generalize before.origin path = start at hplace hfound
  generalize Path.parts path = names at hplace hfound
  induction names generalizing start with
  | nil => exact (Except.ok.inj hplace).symm.trans (Except.ok.inj hfound)
  | cons name names ih =>
      obtain ⟨-, -, hplace⟩ := follow_cons_eq_ok_iff.mp hplace
      obtain ⟨-, -, hfound⟩ := follow_cons_eq_ok_iff.mp hfound
      exact ih _ hplace hfound

/-- A path leads to its place as long as no directory goes away. -/
theorem KeepsDirectories.leadsTo (h : KeepsDirectories before after)
    (hplace : before.LeadsTo path place) : after.LeadsTo path place := by
  have horigin : after.origin path = before.origin path := by rw [origin, origin, h.working]
  rw [LeadsTo, horigin]
  exact h.follow hplace

/-! ### Paths without faults -/

/-- Nothing is wrong with a path that is one, is not empty and is not too long. -/
theorem pathFault?_eq_none_iff :
    pathFault? path = none ↔
      Path.IsEncodable path ∧ path ≠ [] ∧ (Path.encode path).length ≤ pathLimit := by
  rw [← Path.error?_eq_none_iff, pathFault?]
  cases Path.error? path with
  | some error => simp
  | none =>
      by_cases hempty : path = []
      · simp [hempty]
      · by_cases hlong : pathLimit < (Path.encode path).length
        · simp [hempty, hlong, Nat.not_le.mpr hlong]
        · simp [hempty, hlong, Nat.le_of_not_lt hlong]

/-- Nothing is wrong with a start of a path. -/
theorem pathFault?_of_start {start : Text} (h : start <+: path) (hne : start ≠ [])
    (hpath : pathFault? path = none) : pathFault? start = none := by
  obtain ⟨hencodable, -, hlength⟩ := pathFault?_eq_none_iff.mp hpath
  obtain ⟨rest, rfl⟩ := h
  rw [Path.encode, List.flatMap_append, List.length_append] at hlength
  refine pathFault?_eq_none_iff.mpr ⟨fun c hc => ?_, hne, Nat.le_of_add_right_le hlength⟩
  exact hencodable c (List.mem_append_left rest hc)

/-- What is wrong with a path is not that something is there. -/
theorem pathFault?_ne_exists (path : Text) : pathFault? path ≠ some (.system .exists) := by
  unfold pathFault?
  split
  · simp
  · split
    · simp
    · split <;> simp

/-! ### Parts and single dots -/

/-- The parts of a path as it is resolved are its parts and single dots. -/
theorem filter_pathParts (path : Text) :
    (pathParts path).filter (fun part => part ≠ Path.here) = Path.parts path := by
  have hnamed : ((Text.split Path.slash path).filter fun part => !part.isEmpty).filter
      (fun part => part ≠ Path.here) = Path.parts path := by
    rw [List.filter_filter, Path.parts]
    refine List.filter_congr fun part _ => ?_
    rw [Bool.and_comm]
  unfold pathParts
  split
  · rw [List.filter_append, hnamed]
    exact List.append_nil _
  · exact hnamed

/-- Single dots lead nowhere else. -/
theorem follow_filter (h : tree.follow place names = .ok found) :
    tree.follow place (names.filter fun name => name ≠ Path.here) = .ok found := by
  induction names generalizing place with
  | nil => exact h
  | cons name names ih =>
      obtain ⟨hplace, hname, hrest⟩ := follow_cons_eq_ok_iff.mp h
      by_cases hhere : name = Path.here
      · rw [List.filter_cons_of_neg (by simpa using hhere)]
        rw [Place.child, if_pos hhere] at hrest
        exact ih hrest
      · rw [List.filter_cons_of_pos (by simpa using hhere)]
        exact follow_cons_eq_ok_iff.mpr ⟨hplace, hname, ih hrest⟩

/-- Names that lead to a directory start at one. -/
theorem find?_of_follow (h : tree.follow place names = .ok found)
    (hfound : tree.find? found = some .directory) : tree.find? place = some .directory := by
  cases names with
  | nil => rwa [Except.ok.inj h]
  | cons name names => exact (follow_cons_eq_ok_iff.mp h).1

/-- Names that lead to a directory do so with single dots among them. -/
theorem follow_of_filter
    (h : tree.follow place (names.filter fun name => name ≠ Path.here) = .ok found)
    (hfound : tree.find? found = some .directory) : tree.follow place names = .ok found := by
  induction names generalizing place with
  | nil => exact h
  | cons name names ih =>
      by_cases hhere : name = Path.here
      · rw [List.filter_cons_of_neg (by simpa using hhere)] at h
        refine follow_cons_eq_ok_iff.mpr ⟨find?_of_follow h hfound, .inl hhere, ?_⟩
        rw [Place.child, if_pos hhere]
        exact ih h
      · rw [List.filter_cons_of_pos (by simpa using hhere)] at h
        obtain ⟨hplace, hname, hrest⟩ := follow_cons_eq_ok_iff.mp h
        exact follow_cons_eq_ok_iff.mpr ⟨hplace, hname, ih hrest⟩

/-- A path leads to the place to which its parts lead, with or without single dots. -/
theorem leadsTo_of_resolveAs (h : tree.resolveAs path names = .ok place)
    (hnames : names.filter (fun name => name ≠ Path.here) = Path.parts path) :
    tree.LeadsTo path place := by
  obtain ⟨-, hfollow⟩ := resolveAs_eq_ok_iff.mp h
  rw [LeadsTo, ← hnames]
  exact follow_filter hfollow

/-- A path that is resolved leads to its place. -/
theorem leadsTo_of_resolve (h : tree.resolve path = .ok place) : tree.LeadsTo path place :=
  leadsTo_of_resolveAs h (filter_pathParts path)

/-- A path without a fault that leads to a directory is resolved, with or without single dots. -/
theorem LeadsTo.resolveAs (h : tree.LeadsTo path place)
    (hdirectory : tree.find? place = some .directory) (hpath : pathFault? path = none)
    (hnames : names.filter (fun name => name ≠ Path.here) = Path.parts path) :
    tree.resolveAs path names = .ok place := by
  rw [LeadsTo, ← hnames] at h
  exact resolveAs_eq_ok_iff.mpr ⟨hpath, follow_of_filter h hdirectory⟩

/-- A path that leads to a directory is one of a directory. -/
theorem LeadsTo.nodeAt? (h : tree.LeadsTo path place)
    (hdirectory : tree.find? place = some .directory) (hpath : pathFault? path = none) :
    tree.nodeAt? path = some .directory := by
  rw [FileTree.nodeAt?, resolve, h.resolveAs hdirectory hpath (filter_pathParts path)]
  exact hdirectory

/-- A shown path leads to its place, through the parts of the directory and of the name if it is
joined of these. -/
theorem leadsTo_of_resolve_display (h : tree.resolve (Path.display path) = .ok place) :
    tree.LeadsTo path place :=
  follow_of_resolve_display h

/-- A start of a path has its first code point. -/
theorem head?_of_start {start : Text} (h : start <+: path) (hne : start ≠ []) :
    start.head? = path.head? := by
  obtain ⟨rest, rfl⟩ := h
  rw [List.head?_append_of_ne_nil _ hne]

/-- A trimmed path is resolved by the parts of the path and single dots. -/
theorem filter_pathParts_trimSlashes (path : Text) :
    (pathParts (Path.trimSlashes path)).filter (fun part => part ≠ Path.here) =
      Path.parts path := by
  rw [filter_pathParts, Path.parts_trimSlashes]

/-! ### Parents -/

/-- The path before the last part is the parent of the path, or the parent of that where the path
has slashes at its end. -/
theorem parentAndBase_cases (path : Text) :
    ∃ whole, whole <+: path ∧ Path.parts whole = Path.parts path ∧
      (parentAndBase path).1 = Path.parent whole ∧ (parentAndBase path).2 = Path.base whole := by
  by_cases hbase : (Path.base path).isEmpty
  · have hparts : Path.parts (Path.parent path) = Path.parts path := by
      have hnone : Path.parts [] = [] := rfl
      rw [Path.parts_parent_append_base path, List.isEmpty_iff.mp hbase, hnone, List.append_nil]
    exact ⟨Path.parent path, Path.parent_start path, hparts,
      by rw [parentAndBase, if_pos hbase], by rw [parentAndBase, if_pos hbase]⟩
  · exact ⟨path, List.prefix_refl path, rfl, by rw [parentAndBase, if_neg hbase],
      by rw [parentAndBase, if_neg hbase]⟩

/-- The parts of a path are those of the path before its last part and of this part. -/
theorem parts_parentAndBase (path : Text) :
    Path.parts path =
      Path.parts (parentAndBase path).1 ++ Path.parts (parentAndBase path).2 := by
  obtain ⟨whole, -, hparts, habove, hlast⟩ := parentAndBase_cases path
  rw [habove, hlast, ← hparts]
  exact Path.parts_parent_append_base whole

/-- The path before the last part is a start of the path, without slashes at its end. -/
theorem parentAndBase_start (path : Text) :
    (parentAndBase path).1 <+: path ∧
      Path.trimSlashes (parentAndBase path).1 = (parentAndBase path).1 := by
  obtain ⟨whole, hstart, -, habove, -⟩ := parentAndBase_cases path
  rw [habove]
  exact ⟨(Path.parent_start whole).trans hstart, Path.trimSlashes_trimSlashes _⟩

/-- The way of a path leads through the path before its last part. -/
theorem LeadsTo.above (h : tree.LeadsTo path place) (hne : (parentAndBase path).1 ≠ []) :
    ∃ middle, tree.LeadsTo (parentAndBase path).1 middle ∧
      tree.follow middle (Path.parts (parentAndBase path).2) = .ok place := by
  rw [LeadsTo, parts_parentAndBase, follow_append_eq_ok_iff] at h
  obtain ⟨middle, hmiddle, hrest⟩ := h
  refine ⟨middle, ?_, hrest⟩
  rw [LeadsTo, origin, head?_of_start (parentAndBase_start path).1 hne]
  exact hmiddle

/-! ### Making directories where something stands -/

/-- Resolving a path does not fail because something is there. -/
theorem resolveAs_ne_exists (tree : FileTree) (path : Text) (names : List Text) :
    tree.resolveAs path names ≠ .error (.system .exists) := by
  have hpath := pathFault?_ne_exists path
  rw [resolveAs]
  cases hfault : pathFault? path with
  | some fault =>
      rw [hfault] at hpath
      exact fun h => hpath (congrArg some (Except.error.inj h))
  | none =>
      intro h
      obtain ⟨cause, hcause, hne⟩ := follow_eq_error h
      exact hne (AccessFault.system.inj hcause).symm

/-- Where a directory is made, or something is there already, the path is resolved. -/
theorem resolveAs_of_makeDirectory {outcome : Except AccessError FileTree}
    (h : tree.makeDirectory path = outcome)
    (hthere : ∀ error, outcome = .error error → error.isExists) :
    ∃ found, tree.resolveAs path (pathParts (Path.trimSlashes path)) = .ok found ∧
      atPath path (tree.makeDirectoryAt found) = outcome := by
  rw [makeDirectory] at h
  cases hresolve : tree.resolveAs path (pathParts (Path.trimSlashes path)) with
  | ok found =>
      rw [hresolve] at h
      exact ⟨found, rfl, h⟩
  | error fault =>
      rw [hresolve] at h
      cases fault with
      | path error => exact nomatch hthere _ h.symm
      | system fault =>
          obtain rfl : fault = .exists := of_decide_eq_true (hthere _ h.symm)
          exact absurd hresolve (resolveAs_ne_exists tree path _)

/-- Where something is, no directory is made. -/
theorem LeadsTo.makeDirectoryAt {found : Place} (h : tree.LeadsTo path place) {node : FileNode}
    (hnode : tree.find? place = some node)
    (hresolve : tree.resolveAs path (pathParts (Path.trimSlashes path)) = .ok found) :
    tree.makeDirectoryAt found = .error (.system .exists) := by
  obtain rfl := h.unique rfl (leadsTo_of_resolveAs hresolve (filter_pathParts_trimSlashes path))
  rw [FileTree.makeDirectoryAt, hnode]

/-- Making one directory where something is changes nothing. -/
theorem ensureDirectory_fst (h : tree.LeadsTo path place) {node : FileNode}
    (hnode : tree.find? place = some node) : (tree.ensureDirectory path).1 = tree := by
  unfold ensureDirectory
  split
  next made hmade =>
    obtain ⟨found, hresolve, hmade⟩ := resolveAs_of_makeDirectory hmade fun _ h => nomatch h
    rw [h.makeDirectoryAt hnode hresolve] at hmade
    cases hmade
  next => rfl

/-- Making directories where the path leads to one changes nothing. -/
theorem makeDirectoriesWithin_fst (h : tree.LeadsTo path place)
    (hdirectory : tree.find? place = some .directory) (fuel : Nat) :
    (tree.makeDirectoriesWithin path fuel).1 = tree := by
  induction fuel generalizing path place with
  | zero => exact ensureDirectory_fst h hdirectory
  | succ fuel ih =>
      have habove {made : FileTree} {result : Except AccessError Unit}
          (hmissing : tree.IsMissing (parentAndBase path).1)
          (hmade : tree.makeDirectoriesWithin (parentAndBase path).1 fuel = (made, result)) :
          made = tree := by
        obtain ⟨middle, hmiddle, hrest⟩ := h.above hmissing.1
        have hfirst := ih hmiddle (find?_of_follow hrest hdirectory)
        rw [hmade] at hfirst
        exact hfirst
      have hstep := makeStep tree path fuel
      generalize tree.makeDirectoriesWithin path (fuel + 1) = outcome at hstep ⊢
      cases hstep with
      | last => exact ensureDirectory_fst h hdirectory
      | stopped hmissing hmade _ | here hmissing hmade _ _ => exact habove hmissing hmade
      | deeper hmissing hmade _ =>
          obtain rfl := habove hmissing hmade
          exact ensureDirectory_fst h hdirectory

/-! ### Making directories again -/

/-- A directory is made again where its path has no fault. -/
theorem ensureDirectory_of_directory (h : tree.LeadsTo path place)
    (hdirectory : tree.find? place = some .directory) (hpath : pathFault? path = none) :
    tree.ensureDirectory path = (tree, .ok ()) := by
  have hresolve := h.resolveAs hdirectory hpath (filter_pathParts_trimSlashes path)
  have hmake : tree.makeDirectory path = .error (.file ⟨.exists, path⟩) := by
    rw [makeDirectory, hresolve]
    show atPath path (tree.makeDirectoryAt place) = _
    rw [h.makeDirectoryAt hdirectory hresolve]
    rfl
  have hthere : tree.isDirectory path := by
    rw [isDirectory, h.nodeAt? hdirectory hpath]
    rfl
  rw [ensureDirectory, hmake]
  exact congrArg (Prod.mk tree) (if_pos hthere)

/-- The directory that a path without a fault leads to is made again without a failure. -/
theorem makeDirectories_of_directory (h : tree.LeadsTo path place)
    (hdirectory : tree.find? place = some .directory) (hpath : pathFault? path = none) :
    tree.makeDirectories path = (tree, .ok ()) := by
  have hensure := ensureDirectory_of_directory h hdirectory hpath
  rw [makeDirectories]
  cases path.length with
  | zero => exact hensure
  | succ fuel =>
      have hthere : ¬ tree.IsMissing (parentAndBase path).1 := by
        rintro ⟨hempty, hmissing⟩
        obtain ⟨middle, hmiddle, hrest⟩ := h.above hempty
        have hsound := pathFault?_of_start (parentAndBase_start path).1 hempty hpath
        rw [hmiddle.nodeAt? (find?_of_follow hrest hdirectory) hsound] at hmissing
        cases hmissing
      have hstep := makeStep tree path fuel
      generalize tree.makeDirectoriesWithin path (fuel + 1) = outcome at hstep ⊢
      cases hstep with
      | last => exact hensure
      | stopped hmissing _ _ | here hmissing _ _ _ | deeper hmissing _ _ =>
          exact absurd hmissing hthere

/-- A directory that is there after it is made has a path without a fault. -/
theorem pathFault?_of_ensureDirectory {made : FileTree} {result : Except AccessError Unit}
    (h : tree.ensureDirectory path = (made, result)) (hthere : IsThere result) :
    pathFault? path = none := by
  have hresolved {found : Place} {names : List Text}
      (hresolve : tree.resolveAs path names = .ok found) : pathFault? path = none :=
    (resolveAs_eq_ok_iff.mp hresolve).1
  unfold ensureDirectory at h
  split at h
  next hmade =>
    obtain ⟨found, hresolve, -⟩ := resolveAs_of_makeDirectory hmade fun _ h => nomatch h
    exact hresolved hresolve
  next error hmade =>
    obtain ⟨-, hresult⟩ := Prod.mk.inj h
    split at hresult
    next hdirectory =>
      have hnode : tree.nodeAt? path = some .directory := of_decide_eq_true hdirectory
      unfold FileTree.nodeAt? at hnode
      split at hnode
      next found hresolve => exact hresolved hresolve
      next => cases hnode
    next =>
      obtain ⟨found, hresolve, -⟩ := resolveAs_of_makeDirectory hmade fun other h =>
        Except.error.inj h ▸ hthere error hresult.symm
      exact hresolved hresolve

/-- Where the path leads to a directory, that one can be made again only if the path has no fault.
-/
theorem pathFault?_of_makeDirectoriesWithin (h : tree.LeadsTo path place)
    (hdirectory : tree.find? place = some .directory) {fuel : Nat} {made : FileTree}
    {result : Except AccessError Unit}
    (hmade : tree.makeDirectoriesWithin path fuel = (made, result)) (hthere : IsThere result) :
    pathFault? path = none := by
  induction fuel generalizing path place made result with
  | zero => exact pathFault?_of_ensureDirectory hmade hthere
  | succ fuel ih =>
      have hstep := makeStep tree path fuel
      rw [hmade] at hstep
      generalize houtcome : (made, result) = outcome at hstep
      cases hstep with
      | last => exact pathFault?_of_ensureDirectory houtcome.symm hthere
      | stopped _ _ herror =>
          obtain ⟨-, rfl⟩ := Prod.mk.inj houtcome
          exact absurd (hthere _ rfl) herror
      | here hmissing habove hfirst _ =>
          -- The path above leads to a directory too, so it would be there.
          obtain ⟨middle, hmiddle, hrest⟩ := h.above hmissing.1
          have hnode := find?_of_follow hrest hdirectory
          have hnone := hmissing.2
          rw [hmiddle.nodeAt? hnode (ih hmiddle hnode habove hfirst)] at hnone
          cases hnone
      | deeper => exact pathFault?_of_ensureDirectory houtcome.symm hthere

/-! ### Making directories where a file stands -/

/-- No directory is made where the path leads to a file. Where the path has no slash at its end, the
error that something is there tells that the path is resolved. -/
theorem ensureDirectory_of_file (h : tree.LeadsTo path place) {bytes : List UInt8}
    (hfile : tree.find? place = some (.file bytes)) :
    ∃ error, (tree.ensureDirectory path).2 = .error error ∧
      (error.isExists → Path.trimSlashes path = path → (tree.nodeAt? path).isSome) := by
  have hnode : tree.nodeAt? path ≠ some .directory := by
    intro hnode
    unfold FileTree.nodeAt? at hnode
    split at hnode
    next found hfound =>
      obtain rfl := h.unique rfl (leadsTo_of_resolve hfound)
      rw [hfile] at hnode
      cases hnode
    next => cases hnode
  have hnone : tree.isDirectory path = false := decide_eq_false hnode
  cases hmake : tree.makeDirectory path with
  | ok made =>
      obtain ⟨found, hresolve, hmade⟩ := resolveAs_of_makeDirectory hmake fun _ h => nomatch h
      rw [h.makeDirectoryAt hfile hresolve] at hmade
      cases hmade
  | error error =>
      refine ⟨error, by rw [ensureDirectory, hmake, hnone]; rfl, fun hexists htrim => ?_⟩
      obtain ⟨found, hresolve, -⟩ := resolveAs_of_makeDirectory hmake fun other h =>
        Except.error.inj h ▸ hexists
      rw [htrim] at hresolve
      obtain rfl := h.unique rfl (leadsTo_of_resolve hresolve)
      rw [FileTree.nodeAt?, resolve, hresolve]
      dsimp only
      rw [hfile]
      rfl

/-- Making directories fails where the path leads to a file. -/
theorem makeDirectoriesWithin_of_file (h : tree.LeadsTo path place) {bytes : List UInt8}
    (hfile : tree.find? place = some (.file bytes)) (fuel : Nat) :
    ∃ error, (tree.makeDirectoriesWithin path fuel).2 = .error error ∧
      (error.isExists → Path.trimSlashes path = path → (tree.nodeAt? path).isSome) := by
  induction fuel generalizing path with
  | zero => exact ensureDirectory_of_file h hfile
  | succ fuel ih =>
      -- What is missing above leads to a directory, in which nothing is made.
      have habove {made : FileTree} {result : Except AccessError Unit}
          (hmissing : tree.IsMissing (parentAndBase path).1)
          (hmade : tree.makeDirectoriesWithin (parentAndBase path).1 fuel = (made, result))
          (hthere : IsThere result) : Path.parts (parentAndBase path).2 ≠ [] ∧ made = tree := by
        obtain ⟨middle, hmiddle, hrest⟩ := h.above hmissing.1
        cases hlast : Path.parts (parentAndBase path).2 with
        | cons name names =>
            rw [hlast] at hrest
            have hfirst := makeDirectoriesWithin_fst hmiddle (follow_cons_eq_ok_iff.mp hrest).1 fuel
            rw [hmade] at hfirst
            exact ⟨List.cons_ne_nil _ _, hfirst⟩
        | nil =>
            -- The path above leads to the file as well, and is not resolved.
            rw [hlast] at hrest
            obtain rfl := Except.ok.inj hrest
            obtain ⟨error, herror, hexists⟩ := ih hmiddle
            rw [hmade] at herror
            have hnode := hexists (hthere _ herror) (parentAndBase_start path).2
            rw [hmissing.2] at hnode
            cases hnode
      have hstep := makeStep tree path fuel
      generalize tree.makeDirectoriesWithin path (fuel + 1) = outcome at hstep ⊢
      cases hstep with
      | last => exact ensureDirectory_of_file h hfile
      | @stopped _ error _ _ herror => exact ⟨error, rfl, fun hexists => absurd hexists herror⟩
      | here hmissing hmade hthere hlast =>
          have hparts := (habove hmissing hmade hthere).1
          rw [hlast] at hparts
          exact absurd rfl hparts
      | deeper hmissing hmade hthere =>
          obtain ⟨-, rfl⟩ := habove hmissing hmade hthere
          exact ensureDirectory_of_file h hfile

/-- Making directories fails where the path leads to a file. -/
theorem makeDirectories_of_file (h : tree.LeadsTo path place) {bytes : List UInt8}
    (hfile : tree.find? place = some (.file bytes)) :
    ∃ error, (tree.makeDirectories path).2 = .error error := by
  obtain ⟨error, herror, -⟩ := makeDirectoriesWithin_of_file h hfile path.length
  exact ⟨error, herror⟩

/-! ### What the path leads to -/

/-- The path leads to a directory. -/
def LeadsToDirectory (tree : FileTree) (path : Text) : Prop :=
  ∃ place, tree.LeadsTo path place ∧ tree.find? place = some .directory

/-- The path leads to a file. -/
def LeadsToFile (tree : FileTree) (path : Text) : Prop :=
  ∃ place bytes, tree.LeadsTo path place ∧ tree.find? place = some (.file bytes)

/-- A path leads to a directory as long as no directory goes away. -/
theorem LeadsToDirectory.kept (h : before.LeadsToDirectory path)
    (hkeeps : KeepsDirectories before after) : after.LeadsToDirectory path := by
  obtain ⟨place, hplace, hdirectory⟩ := h
  exact ⟨place, hkeeps.leadsTo hplace, hkeeps.directory place hdirectory⟩

/-- Directories that are made again stay as they are. -/
theorem LeadsToDirectory.makeDirectories {made : FileTree} (h : tree.LeadsToDirectory path)
    (hmade : tree.makeDirectories path = (made, .ok ())) : made = tree := by
  obtain ⟨place, hplace, hdirectory⟩ := h
  have hsame := makeDirectoriesWithin_fst hplace hdirectory path.length
  rw [← FileTree.makeDirectories, hmade] at hsame
  exact hsame

/-- A directory that is made again may be made again in any tree in which it is one. -/
theorem LeadsToDirectory.makeDirectories_again {made : FileTree} (h : tree.LeadsToDirectory path)
    (hmade : tree.makeDirectories path = (made, .ok ())) (hafter : after.LeadsToDirectory path) :
    after.makeDirectories path = (after, .ok ()) := by
  obtain ⟨place, hplace, hdirectory⟩ := h
  obtain ⟨other, hother, hnode⟩ := hafter
  have hpath := pathFault?_of_makeDirectoriesWithin hplace hdirectory hmade fun _ h => nomatch h
  exact makeDirectories_of_directory hother hnode hpath

/-- No directories are made where the path leads to a file. -/
theorem not_leadsToFile_of_makeDirectories {made : FileTree}
    (hmade : tree.makeDirectories path = (made, .ok ())) : ¬ tree.LeadsToFile path := by
  rintro ⟨place, bytes, hplace, hfile⟩
  obtain ⟨error, herror⟩ := makeDirectories_of_file hplace hfile
  rw [hmade] at herror
  cases herror

/-- A name in a directory is reached through the directory. -/
theorem LeadsTo.of_join {directory name : Text} (hslash : Path.slash ∉ name)
    (h : tree.LeadsTo (Path.join directory name) place) :
    ∃ middle, tree.LeadsTo directory middle ∧
      tree.follow middle (Path.parts name) = .ok place :=
  follow_of_join hslash h

end ProtoSchema.FileTree
