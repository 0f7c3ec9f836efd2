import Mathlib.Data.List.Nodup
import ProtoSchema.Mixin.Output
import ProtoSchema.Proofs.Files.Tree
import ProtoSchema.Proofs.Mixin.Duplicates

/-!
# What writing expansions leaves on disk

Expansions are grouped by the file that their names are found in (`Expansion.bySource_eq_gathered`),
and each group is written to a file with the base name of its source. The places of two groups
differ exactly when their base names do, so a group stays on disk unless a later group has the same
base name (`Expansion.writesGroups_of_mapM`). `Expansion.allKept_iff` says when all expansions stay,
and `Expansion.writeAll_sameBase` is a case where one is lost.
-/

namespace ProtoSchema

/-- The block of every message is in the text that is rendered for all. -/
theorem Message.exists_block_of_renderAll? {messages : List Message} {text : Text}
    (h : Message.renderAll? messages = some text) {message : Message} (hmem : message ∈ messages) :
    ∃ block, message.block? = some block ∧ block <:+: text := by
  obtain ⟨blocks, hblocks, htext⟩ := Option.bind_eq_some_iff.mp h
  obtain rfl := Option.some.inj htext
  have hmap := mapM_eq_some_iff.mp hblocks
  have hblock : message.block? ∈ blocks.map some := hmap ▸ List.mem_map_of_mem hmem
  obtain ⟨block, hblock, hsome⟩ := List.mem_map.mp hblock
  exact ⟨block, hsome.symm, (List.infix_of_mem_flatten hblock).trans (List.infix_append_right ..)⟩

/-- The bytes of a part of a text are a part of its bytes. -/
theorem Utf8.encode_infix {part text : Text} (h : part <:+: text) :
    Utf8.encode part <:+: Utf8.encode text := by
  obtain ⟨before, after, rfl⟩ := h
  exact ⟨Utf8.encode before, Utf8.encode after, by simp [Utf8.encode]⟩

namespace FileAction

variable {tree after : FileTree} {path text : Text} {value : Unit}

/-- Directories are made in the tree. -/
theorem makeDirectories_eq_ok (h : (makeDirectories path).run.run tree = (.ok value, after)) :
    tree.makeDirectories path = (after, .ok ()) := by
  change makeDirectories path tree = (.ok value, after) at h
  unfold makeDirectories at h
  split at h
  next made hmade =>
    obtain ⟨-, rfl⟩ := Prod.mk.inj h
    exact hmade
  next => cases h

/-- Bytes are written at the place of the path as it is shown. -/
theorem writeBytes_eq_ok {bytes : List UInt8}
    (h : (writeBytes path bytes).run.run tree = (.ok value, after)) :
    ∃ place, tree.resolve (Path.display path) = .ok place ∧ tree.find? place ≠ some .directory ∧
      after = tree.put place (.file bytes) := by
  change writeBytes path bytes tree = (.ok value, after) at h
  unfold writeBytes at h
  split at h
  next written hwrite =>
    obtain ⟨-, rfl⟩ := Prod.mk.inj h
    exact FileTree.write_eq_ok hwrite
  next => cases h

/-- Bytes are not written where a file operation fails. -/
theorem writeBytes_eq_error {bytes : List UInt8} {cause : OutputError}
    (h : (writeBytes path bytes).run.run tree = (.error cause, after)) :
    ∃ error, cause = .file error := by
  change writeBytes path bytes tree = (.error cause, after) at h
  unfold writeBytes at h
  split at h
  next => cases h
  next error _ =>
    cases h
    exact ⟨.access error, rfl⟩

/-- A text that is written has bytes, and these are written. -/
theorem writeText_eq_ok (h : (writeText path text).run.run tree = (.ok value, after)) :
    ∃ place, tree.resolve (Path.display path) = .ok place ∧ tree.find? place ≠ some .directory ∧
      after = tree.put place (.file (Utf8.encode text)) := by
  unfold writeText at h
  split at h
  next => exact writeBytes_eq_ok h
  next =>
    obtain ⟨-, written, -, h⟩ := run_bind_eq_ok_iff.mp h
    cases h

/-- A text is not written where a file operation fails or it has no bytes. -/
theorem writeText_eq_error {cause : OutputError}
    (h : (writeText path text).run.run tree = (.error cause, after)) :
    ∃ error, cause = .file error := by
  unfold writeText at h
  split at h
  next => exact writeBytes_eq_error h
  next fault _ =>
    rcases run_bind_eq_error_iff.mp h with h | ⟨-, written, -, h⟩
    · exact writeBytes_eq_error h
    · cases h
      exact ⟨.text fault, rfl⟩

end FileAction

namespace Expansion

/-- A group is written by making the directory and then writing its text. -/
theorem writeFile_eq_ok {source directory path : Text} {messages : List Message}
    {before after : FileTree}
    (h : (writeFile source messages directory).run.run before = (.ok path, after)) :
    path = outputPath source directory ∧
      ∃ text middle place, Message.renderAll? messages = some text ∧
        before.makeDirectories directory = (middle, .ok ()) ∧
        middle.resolve (Path.display path) = .ok place ∧ middle.find? place ≠ some .directory ∧
        after = middle.put place (.file (Utf8.encode text)) := by
  obtain ⟨_, middle, hmade, h⟩ := run_bind_eq_ok_iff.mp h
  cases htext : Message.renderAll? messages with
  | none =>
      rw [htext] at h
      cases h
  | some text =>
      rw [htext] at h
      obtain ⟨_, written, hwritten, h⟩ := run_bind_eq_ok_iff.mp h
      cases h
      obtain ⟨place, hplace, hplain, rfl⟩ := FileAction.writeText_eq_ok hwritten
      exact ⟨rfl, text, middle, place, rfl, FileAction.makeDirectories_eq_ok hmade, hplace, hplain,
        rfl⟩

/-! ### Groups -/

/-- Expansions are grouped by the file in which their names are found. -/
theorem bySource_eq_gathered (expanded : Dictionary Message) (entries : List Entry) :
    bySource expanded entries = Dictionary.gathered (expanded.filterMap fun expansion =>
      (Entry.find? entries expansion.1).map fun entry => (entry.file, expansion.2)) := by
  rw [← Dictionary.foldl_push, List.foldl_filterMap, bySource]
  congr 1
  funext groups expansion
  rw [addToSource]
  cases Entry.find? entries expansion.1 <;> rfl

/-- The last group whose source has the same base name. -/
def lastAlike? (groups : Dictionary (List Message)) (source : Text) :
    Option (Text × List Message) :=
  (groups.filter fun group => Path.base group.1 = Path.base source).getLast?

/-- What is known of the last group with the same base name. -/
theorem of_lastAlike?_eq_some {groups : Dictionary (List Message)} {source : Text}
    {last : Text × List Message} (h : lastAlike? groups source = some last) :
    last ∈ groups ∧ Path.base last.1 = Path.base source := by
  obtain ⟨hmem, hbase⟩ := List.mem_filter.mp (List.mem_of_getLast? h)
  exact ⟨hmem, of_decide_eq_true hbase⟩

/-- A group in front counts only where no other group has its base name. -/
theorem lastAlike?_cons (group : Text × List Message) (groups : Dictionary (List Message))
    (source : Text) :
    lastAlike? (group :: groups) source = (lastAlike? groups source).or
      (if Path.base group.1 = Path.base source then some group else none) := by
  unfold lastAlike?
  by_cases h : Path.base group.1 = Path.base source
  · rw [List.filter_cons_of_pos (by simpa using h), List.getLast?_cons, if_pos h]
    cases (groups.filter fun group => Path.base group.1 = Path.base source).getLast? <;> rfl
  · rw [List.filter_cons_of_neg (by simpa using h), if_neg h, Option.or_none]

/-! ### Files on disk -/

/-- Files from sources of distinct base names have distinct places. -/
theorem place_ne {tree : FileTree} {source other directory : Text} {place found : Place}
    (hsource : Path.base source ≠ []) (hother : Path.base other ≠ [])
    (hbases : Path.base source ≠ Path.base other) (hroot : place ≠ [])
    (hplace : tree.resolve (Path.display (outputPath source directory)) = .ok place)
    (hfound : tree.resolve (Path.display (outputPath other directory)) = .ok found) :
    place ≠ found := by
  obtain ⟨start, hstart, rfl⟩ :=
    FileTree.child_of_resolve_join hsource (Path.slash_notMem_base source) hplace
  obtain ⟨same, hsame, rfl⟩ :=
    FileTree.child_of_resolve_join hother (Path.slash_notMem_base other) hfound
  obtain rfl := Except.ok.inj (hstart.symm.trans hsame)
  exact fun h => hbases (Place.child_injective hroot h)

/-- What writing one group leaves on disk: no directory goes away, the group's path leads to this
place with a file of its text, and other places are kept. -/
structure WritesGroup (group : Text × List Message) (directory : Text) (place : Place)
    (before after : FileTree) : Prop where
  keeps : before.KeepsDirectories after
  resolved : after.resolve (Path.display (outputPath group.1 directory)) = .ok place
  written : ∃ text, Message.renderAll? group.2 = some text ∧
    after.find? place = some (.file (Utf8.encode text))
  frame : ∀ other, place ≠ other → before.KeptAt after other

/-- What writing groups leaves on disk: no directory goes away, every group's path leads to a file
with the text of the last group with the same base name, and other places are kept. -/
structure WritesGroups (groups : Dictionary (List Message)) (directory : Text)
    (before after : FileTree) : Prop where
  keeps : before.KeepsDirectories after
  written : ∀ group ∈ groups, ∃ last text place, lastAlike? groups group.1 = some last ∧
    Message.renderAll? last.2 = some text ∧
    after.resolve (Path.display (outputPath group.1 directory)) = .ok place ∧
    after.find? place = some (.file (Utf8.encode text))
  frame : ∀ place, (∀ group ∈ groups,
    after.resolve (Path.display (outputPath group.1 directory)) ≠ .ok place) →
    before.KeptAt after place

variable {group : Text × List Message} {groups : Dictionary (List Message)} {directory : Text}
  {place : Place} {before middle after : FileTree}

/-- A group is written to its output path. -/
theorem writesGroup_of_writeFile {path : Text}
    (h : (writeFile group.1 group.2 directory).run.run before = (.ok path, after)) :
    path = outputPath group.1 directory ∧
      ∃ place, WritesGroup group directory place before after := by
  obtain ⟨rfl, text, made, place, htext, hmade, hplace, hplain, rfl⟩ := writeFile_eq_ok h
  have hadds := before.addsDirectories_makeDirectories directory
  rw [hmade] at hadds
  have hroot := FileTree.ne_root_of_find? hplain
  have hput := FileTree.keepsDirectories_put hplain (Utf8.encode text)
  refine ⟨rfl, place, hadds.keepsDirectories.trans hput, hput.resolve hplace, ⟨text, htext, ?_⟩, ?_⟩
  · rw [FileTree.find?_put hroot, if_pos rfl]
  · intro other hne
    exact (hadds.kept other).trans (FileTree.keptAt_put hroot hne _)

/-- The path of a source leads to the text of the last group with the same base name, if any. -/
theorem WritesGroups.written_alike (h : WritesGroups groups directory before after) {source : Text}
    {last : Text × List Message} (hlast : lastAlike? groups source = some last) :
    ∃ text place, Message.renderAll? last.2 = some text ∧
      after.resolve (Path.display (outputPath source directory)) = .ok place ∧
      after.find? place = some (.file (Utf8.encode text)) := by
  obtain ⟨hmem, hsame⟩ := of_lastAlike?_eq_some hlast
  obtain ⟨final, text, place, hfinal, htext, hplace, hfile⟩ := h.written last hmem
  have halike : lastAlike? groups last.1 = lastAlike? groups source := by
    rw [lastAlike?, hsame, lastAlike?]
  obtain rfl := Option.some.inj (hfinal.symm.trans (halike.trans hlast))
  have hpath : outputPath final.1 directory = outputPath source directory :=
    congrArg (Path.join directory) hsame
  exact ⟨text, place, htext, hpath ▸ hplace, hfile⟩

/-- A file stays where no later group has the same base name. -/
theorem WritesGroup.stays (h : WritesGroup group directory place before middle)
    (hrest : WritesGroups groups directory middle after) (hbase : Path.base group.1 ≠ [])
    (hbases : ∀ other ∈ groups, Path.base other.1 ≠ [])
    (hlast : lastAlike? groups group.1 = none) :
    ∃ text, Message.renderAll? group.2 = some text ∧
      after.find? place = some (.file (Utf8.encode text)) := by
  obtain ⟨text, htext, hfile⟩ := h.written
  have hroot : place ≠ [] := FileTree.ne_root_of_find? (by rw [hfile]; simp)
  have hothers : ∀ other ∈ groups,
      after.resolve (Path.display (outputPath other.1 directory)) ≠ .ok place := by
    intro other hother hfound
    have hne : Path.base group.1 ≠ Path.base other.1 := by
      intro hsame
      have hnone := List.getLast?_eq_none_iff.mp hlast
      exact List.filter_eq_nil_iff.mp hnone other hother (decide_eq_true hsame.symm)
    exact place_ne hbase (hbases other hother) hne hroot (hrest.keeps.resolve h.resolved) hfound rfl
  exact ⟨text, htext, (hrest.frame place hothers).find?_file hfile⟩

/-- Writing one group and then others writes them all. -/
theorem WritesGroup.cons (h : WritesGroup group directory place before middle)
    (hrest : WritesGroups groups directory middle after) (hbase : Path.base group.1 ≠ [])
    (hbases : ∀ other ∈ groups, Path.base other.1 ≠ []) :
    WritesGroups (group :: groups) directory before after := by
  have hresolved := hrest.keeps.resolve h.resolved
  refine ⟨h.keeps.trans hrest.keeps, List.forall_mem_cons.mpr ⟨?_, fun other hother => ?_⟩, ?_⟩
  · cases hlast : lastAlike? groups group.1 with
    | some last =>
        -- A later group is written to the same path.
        obtain ⟨text, found, hwritten⟩ := hrest.written_alike hlast
        refine ⟨last, text, found, ?_, hwritten⟩
        rw [lastAlike?_cons, hlast, Option.some_or]
    | none =>
        obtain ⟨text, htext, hfile⟩ := h.stays hrest hbase hbases hlast
        refine ⟨group, text, place, ?_, htext, hresolved, hfile⟩
        rw [lastAlike?_cons, hlast, if_pos rfl, Option.none_or]
  · obtain ⟨last, text, found, hlast, hwritten⟩ := hrest.written other hother
    refine ⟨last, text, found, ?_, hwritten⟩
    rw [lastAlike?_cons, hlast, Option.some_or]
  · intro free hfree
    obtain ⟨hgroup, hothers⟩ := List.forall_mem_cons.mp hfree
    have hne : place ≠ free := fun heq => hgroup (heq ▸ hresolved)
    exact (h.frame free hne).trans (hrest.frame free hothers)

/-- Groups are written one after the other. -/
theorem writesGroups_of_mapM {paths : List Text}
    (hbases : ∀ group ∈ groups, Path.base group.1 ≠ [])
    (h : (groups.mapM fun group => writeFile group.1 group.2 directory).run.run before =
      (.ok paths, after)) :
    paths = groups.map (fun group => outputPath group.1 directory) ∧
      WritesGroups groups directory before after := by
  induction groups generalizing before paths with
  | nil =>
      cases h
      exact ⟨rfl, .refl _, fun _ hmem => absurd hmem List.not_mem_nil, fun _ _ => .inl rfl⟩
  | cons group groups ih =>
      rw [List.mapM_cons] at h
      obtain ⟨path, written, hfirst, h⟩ := run_bind_eq_ok_iff.mp h
      obtain ⟨others, final, hrest, h⟩ := run_bind_eq_ok_iff.mp h
      cases h
      obtain ⟨hbase, hbases⟩ := List.forall_mem_cons.mp hbases
      obtain ⟨rfl, place, hwrite⟩ := writesGroup_of_writeFile hfirst
      obtain ⟨rfl, hwrites⟩ := ih hbases hrest
      exact ⟨rfl, hwrite.cons hwrites hbase hbases⟩

/-- The file of a group has the text of the last group with the same base name. -/
theorem WritesGroups.read (h : WritesGroups groups directory before after)
    (hgroup : group ∈ groups) :
    ∃ last text, lastAlike? groups group.1 = some last ∧ Message.renderAll? last.2 = some text ∧
      after.read (Path.display (outputPath group.1 directory)) = .ok (Utf8.encode text) := by
  obtain ⟨last, text, place, hlast, htext, hplace, hfile⟩ := h.written group hgroup
  exact ⟨last, text, hlast, htext, FileTree.read_eq_ok hplace hfile⟩

/-! ### Expansions on disk -/

/-- The output path of a source tells its base name. -/
theorem base_eq_of_outputPath {source other directory : Text}
    (h : outputPath source directory = outputPath other directory) :
    Path.base source = Path.base other :=
  Path.join_injective (Path.slash_notMem_base source) (Path.slash_notMem_base other) h

/-- Two groups have one output path exactly where two sources have one base name. -/
theorem nodup_outputPaths_iff (groups : Dictionary (List Message)) (directory : Text) :
    (groups.map fun group => outputPath group.1 directory).Nodup ↔
      (groups.map fun group => Path.base group.1).Nodup := by
  have hmap : (groups.map fun group => outputPath group.1 directory) =
      (groups.map fun group => Path.base group.1).map (Path.join directory) := by
    rw [List.map_map]
    rfl
  rw [hmap]
  refine ⟨List.Nodup.of_map _, fun h => (List.nodup_map_iff_inj_on h).mpr ?_⟩
  intro name hname other hother hjoin
  obtain ⟨group, -, rfl⟩ := List.mem_map.mp hname
  obtain ⟨next, -, rfl⟩ := List.mem_map.mp hother
  exact base_eq_of_outputPath hjoin

/-- Every expansion is on disk: its block is in the file for the source that its name is found in.
-/
def AllKept (expanded : Dictionary Message) (entries : List Entry) (directory : Text)
    (tree : FileTree) : Prop :=
  ∀ expansion ∈ expanded, ∃ entry block bytes,
    Entry.find? entries expansion.1 = some entry ∧ expansion.2.block? = some block ∧
    tree.read (Path.display (outputPath entry.file directory)) = .ok bytes ∧
    Utf8.encode block <:+: bytes

/-- The messages of the groups are the expansions whose names are found in their source. -/
theorem mem_bySource_iff {expanded : Dictionary Message} {entries : List Entry} {source : Text}
    {message : Message} :
    (∃ group ∈ bySource expanded entries, group.1 = source ∧ message ∈ group.2) ↔
      ∃ expansion ∈ expanded, ∃ entry, Entry.find? entries expansion.1 = some entry ∧
        entry.file = source ∧ expansion.2 = message := by
  rw [bySource_eq_gathered, Dictionary.mem_gathered_iff, List.mem_filterMap]
  simp [Option.map_eq_some_iff, Prod.ext_iff]

/-- The source of a group is the file of an entry. -/
theorem exists_entry_of_mem_bySource {expanded : Dictionary Message} {entries : List Entry}
    {group : Text × List Message} (h : group ∈ bySource expanded entries) :
    ∃ entry ∈ entries, entry.file = group.1 := by
  rw [bySource_eq_gathered] at h
  obtain ⟨source, hsource, rfl⟩ := List.mem_map.mp h
  obtain ⟨pair, hpair, rfl⟩ := List.mem_map.mp (List.mem_eraseDups.mp hsource)
  obtain ⟨expansion, -, hfound⟩ := List.mem_filterMap.mp hpair
  obtain ⟨entry, hentry, rfl⟩ := Option.map_eq_some_iff.mp hfound
  exact ⟨entry, List.mem_of_find?_eq_some hentry, rfl⟩

/-- Every name that is expanded is found. -/
theorem find?_of_expand {entries : List Entry} {expanded : Dictionary Message}
    (h : expand entries = .ok expanded) {expansion : Text × Message} (hmem : expansion ∈ expanded) :
    ∃ entry, Entry.find? entries expansion.1 = some entry := by
  obtain ⟨entry, -, hentry, -⟩ := Entry.resolves_of_expand h (List.mem_map_of_mem hmem)
  exact ⟨entry, hentry⟩

/-- Expansions are on disk when the blocks of every group are in the file for its source. -/
theorem allKept_iff_groups {entries : List Entry} {expanded : Dictionary Message}
    (hexpanded : expand entries = .ok expanded) (directory : Text) (tree : FileTree) :
    AllKept expanded entries directory tree ↔
      ∀ group ∈ bySource expanded entries, ∀ message ∈ group.2, ∃ block bytes,
        message.block? = some block ∧
        tree.read (Path.display (outputPath group.1 directory)) = .ok bytes ∧
        Utf8.encode block <:+: bytes := by
  constructor
  · intro h group hgroup message hmessage
    obtain ⟨expansion, hexpansion, entry, hentry, hfile, rfl⟩ :=
      mem_bySource_iff.mp ⟨group, hgroup, rfl, hmessage⟩
    obtain ⟨found, block, bytes, hfound, hblock⟩ := h expansion hexpansion
    obtain rfl := Option.some.inj (hentry.symm.trans hfound)
    exact ⟨block, bytes, hfile ▸ hblock⟩
  · intro h expansion hexpansion
    obtain ⟨entry, hentry⟩ := find?_of_expand hexpanded hexpansion
    obtain ⟨group, hgroup, hsource, hmessage⟩ :=
      mem_bySource_iff.mpr ⟨expansion, hexpansion, entry, hentry, rfl, rfl⟩
    obtain ⟨block, bytes, hblock⟩ := h group hgroup expansion.2 hmessage
    exact ⟨entry, block, bytes, hentry, hsource ▸ hblock⟩

/-- Where base names are distinct, a group is the last one with its base name. -/
theorem lastAlike?_of_nodup {groups : Dictionary (List Message)} {group last : Text × List Message}
    (hbases : (groups.map fun group => Path.base group.1).Nodup) (hgroup : group ∈ groups)
    (hlast : lastAlike? groups group.1 = some last) : last = group := by
  obtain ⟨hmem, hsame⟩ := of_lastAlike?_eq_some hlast
  exact List.inj_on_of_nodup_map hbases hmem hgroup hsame

/-- Where expansions are written, one path is returned for each source file, in the order of the
sources. A path is returned twice exactly when two sources have the same base name, and if none is,
all expansions are on disk. In general they are exactly when the block of every expansion is also in
the text of the last source with the same base name. -/
theorem allKept_iff {entries : List Entry} {expanded : Dictionary Message} {directory : Text}
    {before after : FileTree} {paths : List Text} (hexpanded : expand entries = .ok expanded)
    (hbases : ∀ entry ∈ entries, Path.base entry.file ≠ [])
    (hrun : (writeAll expanded entries directory).run.run before = (.ok paths, after)) :
    paths = (bySource expanded entries).map (fun group => outputPath group.1 directory) ∧
    (paths.Nodup ↔ ((bySource expanded entries).map fun group => Path.base group.1).Nodup) ∧
    (paths.Nodup → AllKept expanded entries directory after) ∧
    (AllKept expanded entries directory after ↔
      ∀ group ∈ bySource expanded entries, ∀ message ∈ group.2, ∃ last block text,
        lastAlike? (bySource expanded entries) group.1 = some last ∧
        message.block? = some block ∧ Message.renderAll? last.2 = some text ∧
        Utf8.encode block <:+: Utf8.encode text) := by
  have hgroups : ∀ group ∈ bySource expanded entries, Path.base group.1 ≠ [] := by
    intro group hgroup
    obtain ⟨entry, hentry, hfile⟩ := exists_entry_of_mem_bySource hgroup
    exact hfile ▸ hbases entry hentry
  obtain ⟨rfl, hwrites⟩ := writesGroups_of_mapM hgroups hrun
  have hpaths := nodup_outputPaths_iff (bySource expanded entries) directory
  refine ⟨rfl, hpaths, ?_, ?_⟩
  · intro hnodup
    refine (allKept_iff_groups hexpanded directory after).mpr
      fun group hgroup message hmessage => ?_
    obtain ⟨last, text, hlast, htext, hread⟩ := hwrites.read hgroup
    obtain rfl := lastAlike?_of_nodup (hpaths.mp hnodup) hgroup hlast
    obtain ⟨block, hblock, hinfix⟩ := Message.exists_block_of_renderAll? htext hmessage
    exact ⟨block, _, hblock, hread, Utf8.encode_infix hinfix⟩
  · rw [allKept_iff_groups hexpanded]
    refine forall₄_congr fun group hgroup message hmessage => ?_
    obtain ⟨last, text, hlast, htext, hread⟩ := hwrites.read hgroup
    constructor
    · rintro ⟨block, bytes, hblock, hbytes, hinfix⟩
      obtain rfl := Except.ok.inj (hread.symm.trans hbytes)
      exact ⟨last, block, text, hlast, hblock, htext, hinfix⟩
    · rintro ⟨other, block, rest, hother, hblock, hrest, hinfix⟩
      obtain rfl := Option.some.inj (hlast.symm.trans hother)
      obtain rfl := Option.some.inj (htext.symm.trans hrest)
      exact ⟨block, _, hblock, hread, hinfix⟩

/-- Messages `A` and `B` from these two sources, which both take `M` as their mixin. -/
def twoUsers (first second : Text) : List Entry :=
  [⟨first, [], mixinSource⟩,
    ⟨first, [], mixinUser "A" { name := "x", number := 2, type := "int32" }⟩,
    ⟨second, [], mixinUser "B" { name := "y", number := 3, type := "int32" }⟩]

/-- The expansions of `A` and `B`. -/
def twoExpansions : Dictionary Message :=
  [("A", { name := "A", fields := [{ name := "m", number := 1, type := "int32" },
      { name := "x", number := 2, type := "int32" }] }),
    ("B", { name := "B", fields := [{ name := "m", number := 1, type := "int32" },
      { name := "y", number := 3, type := "int32" }] })]

/-- The text of the file with `A`. -/
def firstText : Text :=
  "syntax = \"proto3\";\n\nmessage A \x7b\n  int32 m = 1;\n  int32 x = 2;\n\x7d\n"

/-- The text of the file with `B`. -/
def secondText : Text :=
  "syntax = \"proto3\";\n\nmessage B \x7b\n  int32 m = 1;\n  int32 y = 3;\n\x7d\n"

/-- Sources with distinct base names keep both expansions. -/
theorem writeAll_distinctBases :
    let entries := twoUsers "x/a.proto" "y/b.proto"
    let after : FileTree :=
      { nodes := [(["out"], .directory), (["out", "a.proto"], .file (Utf8.encode firstText)),
          (["out", "b.proto"], .file (Utf8.encode secondText))] }
    (expand entries = .ok twoExpansions ∧ (∀ entry ∈ entries, Path.base entry.file ≠ []) ∧
      (writeAll twoExpansions entries "out").run.run {} =
        (.ok ["out/a.proto", "out/b.proto"], after)) ∧
    AllKept twoExpansions entries "out" after := by
  intro entries after
  have hexpanded : expand entries = .ok twoExpansions := rfl
  have hbases : ∀ entry ∈ entries, Path.base entry.file ≠ [] := by decide
  have hrun : (writeAll twoExpansions entries "out").run.run {} =
      (.ok ["out/a.proto", "out/b.proto"], after) := rfl
  obtain ⟨-, -, hkept, -⟩ := allKept_iff hexpanded hbases hrun
  exact ⟨⟨hexpanded, hbases, hrun⟩, hkept (by decide)⟩

/-- Two sources of one base name are written to the same path, and the expansion of the first one is
lost. -/
theorem writeAll_sameBase :
    let entries := twoUsers "x/a.proto" "y/a.proto"
    let after : FileTree :=
      { nodes := [(["out"], .directory), (["out", "a.proto"], .file (Utf8.encode secondText))] }
    (entries.map Entry.fullName).Nodup ∧ expand entries = .ok twoExpansions ∧
      (writeAll twoExpansions entries "out").run.run {} =
        (.ok ["out/a.proto", "out/a.proto"], after) ∧
      ¬ AllKept twoExpansions entries "out" after := by
  intro entries after
  refine ⟨by decide, rfl, rfl, ?_⟩
  intro h
  obtain ⟨entry, block, bytes, hentry, hblock, hread, hinfix⟩ := h _ List.mem_cons_self
  obtain rfl := Option.some.inj hentry
  obtain rfl := Option.some.inj hblock
  obtain rfl := Except.ok.inj hread
  revert hinfix
  decide +kernel

end Expansion

end ProtoSchema
