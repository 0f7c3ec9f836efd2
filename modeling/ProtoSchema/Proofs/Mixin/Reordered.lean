import ProtoSchema.Proofs.Files.Directory
import ProtoSchema.Proofs.Mixin.Sources

/-!
# Files in another order

What the order of files changes where the full names of all entries are distinct: the expansions and
the groups come in another order, and nothing else (`File.expand_perm`, `File.groups_perm`). Groups
whose sources have distinct base names leave the same tree in every order in which they are written
(`Expansion.writeGroups_perm`). The first of them makes the output directory, and from then on each
write changes one place only. A run that stops at a group fails in a file operation or at a number
that is too long (`Expansion.writeGroups_eq_error`).
-/

namespace ProtoSchema

/-! ### Entries and expansions -/

section Entries

variable {entries others : List Entry} {index other : MessageIndex} {message : Message}

/-- Entries with distinct names are found in every order. -/
theorem Entry.find?_perm (horder : entries.Perm others)
    (hnames : (entries.map Entry.fullName).Nodup) (name : Text) :
    Entry.find? entries name = Entry.find? others name := by
  have hothers : (others.map Entry.fullName).Nodup := (horder.map _).nodup_iff.mp hnames
  cases hfound : Entry.find? entries name with
  | none =>
      refine (List.find?_eq_none.mpr fun entry hentry => ?_).symm
      exact List.find?_eq_none.mp hfound entry (horder.mem_iff.mpr hentry)
  | some entry =>
      obtain rfl : entry.fullName = name := by simpa using List.find?_some hfound
      have hmem := horder.mem_iff.mp (List.mem_of_find?_eq_some hfound)
      exact (Entry.find?_of_nodup hothers hmem).symm

/-- The index of entries with distinct names finds the same messages in every order. -/
theorem MessageIndex.get?_perm (horder : entries.Perm others)
    (hnames : (entries.map Entry.fullName).Nodup) (name : Text) :
    (MessageIndex.ofEntries entries).get? name = (MessageIndex.ofEntries others).get? name := by
  rw [MessageIndex.get?_ofEntries, MessageIndex.get?_ofEntries, Entry.find?_perm horder hnames]

/-- What is merged depends on what the index finds. -/
theorem Message.mergedFields_congr (h : ∀ name, index.get? name = other.get? name) :
    message.mergedFields index = message.mergedFields other := by
  have hnamed : index.named? = other.named? := by
    funext setting
    exact congrArg (Option.bind setting.value.toText?) (funext h)
  rw [mergedFields, mergedFields, hnamed]

/-- An expansion depends on what the index finds. -/
theorem Message.expansion_congr (h : ∀ name, index.get? name = other.get? name) :
    message.expansion index = message.expansion other := by
  rw [expansion, expansion, mergedFields_congr h]

/-- Whether there is an expansion depends on what the index finds. -/
theorem Message.Expandable.congr (h : ∀ name, index.get? name = other.get? name)
    (hexpandable : message.Expandable index) : message.Expandable other := by
  obtain ⟨hfound, hnumbers⟩ := hexpandable
  refine ⟨fun setting hsetting => ?_, mergedFields_congr h ▸ hnumbers⟩
  obtain ⟨name, hname, hkey⟩ := hfound setting hsetting
  refine ⟨name, hname, ?_⟩
  obtain ⟨found, hmessage⟩ := Dictionary.mem_keys_iff.mp hkey
  exact Dictionary.mem_keys_iff.mpr ⟨found, (h name).symm.trans hmessage⟩

/-- Entries with distinct names that can be expanded can be expanded in every order. -/
theorem expand_perm {expanded : Dictionary Message} (horder : entries.Perm others)
    (hnames : (entries.map Entry.fullName).Nodup) (h : expand entries = .ok expanded) :
    ∃ again, expand others = .ok again := by
  have hindex := MessageIndex.get?_perm horder hnames
  obtain ⟨hexpandable, -⟩ := Entry.foldlM_expandInto_eq_ok_iff_foldl.mp h
  refine ⟨_, Entry.foldlM_expandInto_eq_ok_iff_foldl.mpr ⟨fun entry hentry hhost => ?_, rfl⟩⟩
  exact (hexpandable entry (horder.mem_iff.mpr hentry) hhost).congr hindex

end Entries

namespace File

variable {files others : List File}

/-- The entries of files come in the order of the files. -/
theorem allEntries_perm (horder : files.Perm others) :
    (allEntries files).Perm (allEntries others) :=
  horder.flatMap_right _

/-- The groups of files come in the order of the files. -/
theorem groups_perm (horder : files.Perm others)
    (hnames : ((allEntries files).map Entry.fullName).Nodup) :
    (groups files).Perm (groups others) := by
  have hindex := MessageIndex.get?_perm (allEntries_perm horder) hnames
  have hgroup : ∀ file : File, (file.expansions (index files)).values =
      (file.expansions (index others)).values := by
    intro file
    rw [expansions, expansions]
    refine congrArg Dictionary.values (List.map_congr_left fun entry _ => ?_)
    exact congrArg (Prod.mk entry.fullName) (Message.expansion_congr hindex)
  simp only [groups, hgroup]
  exact (horder.filter _).map _

end File

/-! ### Writing groups -/

namespace Expansion

variable {group : Text × List Message} {groups others : Dictionary (List Message)}
  {source directory path : Text} {messages : List Message} {paths again : List Text}
  {tree before after later : FileTree} {cause : OutputError}

/-- Write groups one after the other. -/
def writeGroups (groups : Dictionary (List Message)) (directory : Text) :
    FileAction (List Text) :=
  groups.mapM fun group => writeFile group.1 group.2 directory

/-- Groups are written when the first one is and the others are after it. -/
theorem writeGroups_cons_eq_ok_iff :
    (writeGroups (group :: groups) directory).run.run before = (.ok paths, after) ↔
      ∃ path middle rest,
        (writeFile group.1 group.2 directory).run.run before = (.ok path, middle) ∧
        (writeGroups groups directory).run.run middle = (.ok rest, after) ∧
        paths = path :: rest := by
  rw [writeGroups, List.mapM_cons, run_bind_eq_ok_iff]
  constructor
  · rintro ⟨path, middle, hfirst, h⟩
    obtain ⟨rest, final, hrest, h⟩ := run_bind_eq_ok_iff.mp h
    cases h
    exact ⟨path, middle, rest, hfirst, hrest, rfl⟩
  · rintro ⟨path, middle, rest, hfirst, hrest, rfl⟩
    exact ⟨path, middle, hfirst, run_bind_eq_ok_iff.mpr ⟨rest, after, hrest, rfl⟩⟩

/-- The directory is made before a group is written. A source whose base name has a part that says
something is written into the directory; any other is written in its stead, where no directory is.
-/
theorem directory_of_writeFile
    (h : (writeFile source messages directory).run.run before = (.ok path, after)) :
    ∃ made, before.makeDirectories directory = (made, .ok ()) ∧ made.KeepsDirectories after ∧
      (Path.parts (Path.base source) ≠ [] ∧ made.LeadsToDirectory directory ∨
        ¬ before.LeadsToDirectory directory ∧ after.LeadsToFile directory) := by
  obtain ⟨rfl, text, made, place, -, hmade, hplace, hplain, rfl⟩ := writeFile_eq_ok h
  have hadds := before.addsDirectories_makeDirectories directory
  rw [hmade] at hadds
  have hput := FileTree.keepsDirectories_put hplain (Utf8.encode text)
  refine ⟨made, hmade, hput, ?_⟩
  obtain ⟨start, hstart, hrest⟩ :=
    (FileTree.leadsTo_of_resolve_display hplace).of_join (Path.slash_notMem_base source)
  cases hparts : Path.parts (Path.base source) with
  | cons name names =>
      rw [hparts] at hrest
      exact .inl ⟨List.cons_ne_nil _ _, start, hstart, (FileTree.follow_cons_eq_ok_iff.mp hrest).1⟩
  | nil =>
      rw [hparts] at hrest
      obtain rfl := Except.ok.inj hrest
      refine .inr ⟨?_, start, Utf8.encode text, hput.leadsTo hstart, ?_⟩
      · rintro ⟨other, hother, hdirectory⟩
        obtain rfl := (hadds.keepsDirectories.leadsTo hother).unique rfl hstart
        exact hplain (hadds.keepsDirectories.directory _ hdirectory)
      · rw [FileTree.find?_put (FileTree.ne_root_of_find? hplain), if_pos rfl]

/-- A group is written alike where the directory is already made. -/
theorem writeFile_of_made {made : FileTree}
    (hmade : before.makeDirectories directory = (made, .ok ()))
    (hagain : made.makeDirectories directory = (made, .ok ())) :
    (writeFile source messages directory).run.run before =
      (writeFile source messages directory).run.run made := by
  have hrun {tree : FileTree} (h : tree.makeDirectories directory = (made, .ok ())) :
      (FileAction.makeDirectories directory).run.run tree = (.ok (), made) := by
    show FileAction.makeDirectories directory tree = _
    rw [FileAction.makeDirectories, h]
  rw [writeFile, run_bind_of_ok (hrun hmade), run_bind_of_ok (hrun hagain)]

/-- Once the output directory is there, every written group has a name in it. -/
theorem base_ne_of_writeGroups (hdirectory : before.LeadsToDirectory directory)
    (h : (writeGroups groups directory).run.run before = (.ok paths, after)) :
    ∀ group ∈ groups, Path.base group.1 ≠ [] := by
  induction groups generalizing before paths with
  | nil => exact fun _ hmem => absurd hmem List.not_mem_nil
  | cons group groups ih =>
      obtain ⟨path, middle, rest, hfirst, hrest, -⟩ := writeGroups_cons_eq_ok_iff.mp h
      obtain ⟨made, hmade, hkeeps, ⟨hparts, hthere⟩ | ⟨hnone, -⟩⟩ := directory_of_writeFile hfirst
      · refine List.forall_mem_cons.mpr ⟨?_, ih (hthere.kept hkeeps) hrest⟩
        intro hbase
        exact hparts (by rw [hbase]; rfl)
      · exact absurd hdirectory hnone

/-- Where several groups are written, the first of them makes the output directory, and they are
written alike where it is already made. -/
theorem exists_made_of_writeGroups (hlength : 1 < groups.length)
    (h : (writeGroups groups directory).run.run before = (.ok paths, after)) :
    ∃ made, before.makeDirectories directory = (made, .ok ()) ∧ made.LeadsToDirectory directory ∧
      (writeGroups groups directory).run.run made = (.ok paths, after) := by
  match groups, hlength with
  | first :: second :: groups, _ =>
      obtain ⟨path, middle, rest, hfirst, hrest, rfl⟩ := writeGroups_cons_eq_ok_iff.mp h
      obtain ⟨_, _, _, hsecond, -, -⟩ := writeGroups_cons_eq_ok_iff.mp hrest
      obtain ⟨again, hagain, -⟩ := directory_of_writeFile hsecond
      obtain ⟨made, hmade, hkeeps, ⟨-, hthere⟩ | ⟨-, hfile⟩⟩ := directory_of_writeFile hfirst
      · -- The second group finds the directory made, so it may be made again from the start.
        have hsame := (hthere.kept hkeeps).makeDirectories_again hagain hthere
        refine ⟨made, hmade, hthere, writeGroups_cons_eq_ok_iff.mpr ?_⟩
        exact ⟨path, middle, rest, (writeFile_of_made hmade hsame).symm.trans hfirst, hrest, rfl⟩
      · -- A file in the stead of the directory stops the second group.
        exact absurd hfile (FileTree.not_leadsToFile_of_makeDirectories hagain)

/-- Once the output directory is there, only the places of the groups change. -/
theorem find?_of_writeGroups (hdirectory : before.LeadsToDirectory directory)
    (h : (writeGroups groups directory).run.run before = (.ok paths, after)) {place : Place}
    (hplace : ∀ group ∈ groups,
      after.resolve (Path.display (outputPath group.1 directory)) ≠ .ok place) :
    after.find? place = before.find? place := by
  induction groups generalizing before paths with
  | nil =>
      cases h
      rfl
  | cons group groups ih =>
      obtain ⟨hgroup, hgroups⟩ := List.forall_mem_cons.mp hplace
      obtain ⟨path, middle, rest, hfirst, hrest, -⟩ := writeGroups_cons_eq_ok_iff.mp h
      obtain ⟨rfl, text, made, found, -, hmade, hfound, hplain, rfl⟩ := writeFile_eq_ok hfirst
      obtain rfl := hdirectory.makeDirectories hmade
      have hput := FileTree.keepsDirectories_put hplain (Utf8.encode text)
      have hthere := hdirectory.kept hput
      obtain ⟨-, hwrites⟩ :=
        writesGroups_of_mapM (base_ne_of_writeGroups hthere hrest) hrest
      have hne : found ≠ place := by
        rintro rfl
        exact hgroup ((hput.trans hwrites.keeps).resolve hfound)
      rw [ih hthere hrest hgroups, FileTree.find?_put (FileTree.ne_root_of_find? hplain),
        if_neg hne]

/-- What is written for a group does not depend on the order of the groups. -/
theorem find?_perm_of_made (horder : groups.Perm others)
    (hbases : (groups.map fun group => Path.base group.1).Nodup)
    (hdirectory : before.LeadsToDirectory directory)
    (hfirst : (writeGroups groups directory).run.run before = (.ok paths, after))
    (hsecond : (writeGroups others directory).run.run before = (.ok again, later)) (place : Place) :
    after.find? place = later.find? place := by
  obtain ⟨-, hwrites⟩ := writesGroups_of_mapM (base_ne_of_writeGroups hdirectory hfirst) hfirst
  obtain ⟨-, hrewrites⟩ := writesGroups_of_mapM (base_ne_of_writeGroups hdirectory hsecond) hsecond
  have hagain : (others.map fun group => Path.base group.1).Nodup :=
    (horder.map _).nodup_iff.mp hbases
  -- A path leads to one place, whichever run wrote it.
  have hsame {path : Text} {first second : Place}
      (hafter : after.resolve (Path.display path) = .ok first)
      (hlater : later.resolve (Path.display path) = .ok second) : first = second :=
    (FileTree.leadsTo_of_resolve_display hafter).unique
      (hrewrites.keeps.working.trans hwrites.keeps.working.symm)
      (FileTree.leadsTo_of_resolve_display hlater)
  by_cases hwritten : ∃ group ∈ groups,
      after.resolve (Path.display (outputPath group.1 directory)) = .ok place
  · obtain ⟨group, hgroup, hplace⟩ := hwritten
    have hother := horder.mem_iff.mp hgroup
    obtain ⟨last, text, found, hlast, htext, hfound, hfile⟩ := hwrites.written group hgroup
    obtain ⟨next, textAgain, foundAgain, hnext, htextAgain, hfoundAgain, hfileAgain⟩ :=
      hrewrites.written group hother
    obtain rfl := lastAlike?_of_nodup hbases hgroup hlast
    obtain rfl := lastAlike?_of_nodup hagain hother hnext
    obtain rfl := Option.some.inj (htext.symm.trans htextAgain)
    obtain rfl := Except.ok.inj (hplace.symm.trans hfound)
    obtain rfl := hsame hplace hfoundAgain
    rw [hfile, hfileAgain]
  · have hfree : ∀ group ∈ groups,
        after.resolve (Path.display (outputPath group.1 directory)) ≠ .ok place :=
      fun group hgroup hplace => hwritten ⟨group, hgroup, hplace⟩
    have hfreeAgain : ∀ group ∈ others,
        later.resolve (Path.display (outputPath group.1 directory)) ≠ .ok place := by
      intro group hgroup hplace
      obtain ⟨-, -, found, -, -, hfound, -⟩ :=
        hwrites.written group (horder.mem_iff.mpr hgroup)
      obtain rfl := hsame hfound hplace
      exact hfree group (horder.mem_iff.mpr hgroup) hfound
    rw [find?_of_writeGroups hdirectory hfirst hfree,
      find?_of_writeGroups hdirectory hsecond hfreeAgain]

/-- Groups whose sources have distinct base names are written to the same paths in every order, and
leave the same tree. -/
theorem writeGroups_perm (horder : groups.Perm others)
    (hbases : (groups.map fun group => Path.base group.1).Nodup)
    (hfirst : (writeGroups groups directory).run.run tree = (.ok paths, after))
    (hsecond : (writeGroups others directory).run.run tree = (.ok again, later)) :
    paths.Perm again ∧ ∀ place, after.find? place = later.find? place := by
  by_cases hlength : 1 < groups.length
  · obtain ⟨made, hmade, hdirectory, hwrites⟩ := exists_made_of_writeGroups hlength hfirst
    obtain ⟨same, hsame, -, hrewrites⟩ :=
      exists_made_of_writeGroups (horder.length_eq ▸ hlength) hsecond
    obtain rfl := (Prod.mk.inj (hmade.symm.trans hsame)).1
    refine ⟨?_, find?_perm_of_made horder hbases hdirectory hwrites hrewrites⟩
    obtain ⟨rfl, -⟩ :=
      writesGroups_of_mapM (base_ne_of_writeGroups hdirectory hwrites) hwrites
    obtain ⟨rfl, -⟩ :=
      writesGroups_of_mapM (base_ne_of_writeGroups hdirectory hrewrites) hrewrites
    exact horder.map _
  · -- At most one group has no other order.
    have heq : groups = others := by
      cases groups with
      | nil => exact horder.nil_eq
      | cons group groups =>
          cases groups with
          | nil => exact List.singleton_perm.mp horder
          | cons second groups => exact absurd (by simp) hlength
    subst heq
    obtain ⟨houtcome, rfl⟩ := Prod.mk.inj (hfirst.symm.trans hsecond)
    obtain rfl := Except.ok.inj houtcome
    exact ⟨.refl paths, fun _ => rfl⟩

/-! ### Groups that are not written -/

/-- A group is not written where a file operation fails or a number is too long. -/
theorem writeFile_eq_error
    (h : (writeFile source messages directory).run.run before = (.error cause, after)) :
    (∃ error, cause = .file error) ∨
      cause = .numberTooLong ∧ Message.renderAll? messages = none := by
  rcases run_bind_eq_error_iff.mp h with h | ⟨_, made, -, h⟩
  · change FileAction.makeDirectories directory before = (.error cause, after) at h
    unfold FileAction.makeDirectories at h
    split at h
    next => cases h
    next made error _ =>
      cases h
      exact .inl ⟨.access error, rfl⟩
  · cases htext : Message.renderAll? messages with
    | none =>
        rw [htext] at h
        cases h
        exact .inr ⟨rfl, rfl⟩
    | some text =>
        rw [htext] at h
        rcases run_bind_eq_error_iff.mp h with h | ⟨_, written, -, h⟩
        · exact .inl (FileAction.writeText_eq_error h)
        · cases h

/-- Groups are not all written where a file operation fails or a number is too long. -/
theorem writeGroups_eq_error
    (h : (writeGroups groups directory).run.run before = (.error cause, after)) :
    (∃ error, cause = .file error) ∨
      cause = .numberTooLong ∧ ∃ group ∈ groups, Message.renderAll? group.2 = none := by
  induction groups generalizing before with
  | nil => cases h
  | cons group groups ih =>
      rw [writeGroups, List.mapM_cons] at h
      rcases run_bind_eq_error_iff.mp h with hfirst | ⟨path, middle, -, h⟩
      · exact (writeFile_eq_error hfirst).imp_right
          (And.imp_right fun htext => ⟨group, List.mem_cons_self, htext⟩)
      · rcases run_bind_eq_error_iff.mp h with hrest | ⟨rest, final, -, h⟩
        · refine (ih hrest).imp_right (And.imp_right ?_)
          rintro ⟨other, hother, htext⟩
          exact ⟨other, List.mem_cons_of_mem _ hother, htext⟩
        · cases h

/-- Groups that are written have no number that is too long. -/
theorem renderAll?_ne_none_of_writeGroups
    (h : (writeGroups groups directory).run.run before = (.ok paths, after)) :
    ∀ group ∈ groups, Message.renderAll? group.2 ≠ none := by
  induction groups generalizing before paths with
  | nil => exact fun _ hmem => absurd hmem List.not_mem_nil
  | cons group groups ih =>
      obtain ⟨path, middle, rest, hfirst, hrest, -⟩ := writeGroups_cons_eq_ok_iff.mp h
      obtain ⟨-, text, _, _, htext, -⟩ := writeFile_eq_ok hfirst
      exact List.forall_mem_cons.mpr ⟨by rw [htext]; simp, ih hrest⟩

/-- Where groups are written in one order, nothing but a file operation can fail in another. -/
theorem exists_file_error (horder : groups.Perm others)
    (hfirst : (writeGroups groups directory).run.run tree = (.ok paths, after))
    (hsecond : (writeGroups others directory).run.run tree = (.error cause, later)) :
    ∃ error, cause = .file error := by
  rcases writeGroups_eq_error hsecond with hfile | ⟨-, group, hgroup, htext⟩
  · exact hfile
  · exact absurd htext
      (renderAll?_ne_none_of_writeGroups hfirst group (horder.mem_iff.mpr hgroup))

end Expansion

end ProtoSchema
