import ProtoSchema.Proofs.Mixin.Output

/-!
# Expansions of loaded files

The entries of a file know the file that they stand in. So where the full names of all entries are
distinct, the expansions of several files come file by file (`File.expand_allEntries`), and grouping
them by the file that their names are found in gives these files back (`File.bySource_allEntries`).
-/

namespace ProtoSchema

mutual

/-- The entries of a message stand in the file they are taken from. -/
theorem Message.file_of_mem_entries {file : Text} {path : List Text} {entry : Entry} :
    ∀ message : Message, entry ∈ message.entries file path → entry.file = file
  | ⟨name, fields, messages, enums, options⟩, hmem => by
      rw [Message.entries] at hmem
      rcases List.mem_cons.mp hmem with rfl | hnested
      · rfl
      · exact Message.file_of_mem_entriesOfList messages hnested

/-- The entries of messages stand in the file they are taken from. -/
theorem Message.file_of_mem_entriesOfList {file : Text} {path : List Text} {entry : Entry} :
    ∀ messages : List Message, entry ∈ Message.entriesOfList file path messages →
      entry.file = file
  | [], hmem => absurd hmem List.not_mem_nil
  | first :: rest, hmem => by
      rw [Message.entriesOfList] at hmem
      rcases List.mem_append.mp hmem with hfirst | hrest
      · exact Message.file_of_mem_entries first hfirst
      · exact Message.file_of_mem_entriesOfList rest hrest

end

mutual

/-- The entries of a declaration stand in the file they are taken from. -/
theorem Declaration.file_of_mem_entries {file : Text} {path : List Text} {entry : Entry} :
    ∀ declaration : Declaration, entry ∈ declaration.entries file path → entry.file = file
  | .message declared, hmem => Message.file_of_mem_entries declared hmem
  | .enum _, hmem => absurd hmem List.not_mem_nil
  | .service _, hmem => absurd hmem List.not_mem_nil
  | .scope _ members, hmem => Declaration.file_of_mem_entriesOfList members hmem

/-- The entries of declarations stand in the file they are taken from. -/
theorem Declaration.file_of_mem_entriesOfList {file : Text} {path : List Text} {entry : Entry} :
    ∀ declarations : List Declaration, entry ∈ Declaration.entriesOfList file path declarations →
      entry.file = file
  | [], hmem => absurd hmem List.not_mem_nil
  | first :: rest, hmem => by
      rw [Declaration.entriesOfList] at hmem
      rcases List.mem_append.mp hmem with hfirst | hrest
      · exact Declaration.file_of_mem_entries first hfirst
      · exact Declaration.file_of_mem_entriesOfList rest hrest

end

/-- Where full names are distinct, the entry of a name is the one that is found. -/
theorem Entry.find?_of_nodup {entries : List Entry} {entry : Entry}
    (hnames : (entries.map Entry.fullName).Nodup) (hmem : entry ∈ entries) :
    Entry.find? entries entry.fullName = some entry := by
  obtain ⟨first, hfirst⟩ := Entry.find?_of_mem hmem
  rw [hfirst]
  unfold Entry.find? at hfirst
  have hname : first.fullName = entry.fullName := by simpa using List.find?_some hfirst
  rw [List.inj_on_of_nodup_map hnames (List.mem_of_find?_eq_some hfirst) hmem hname]

namespace File

/-- The entries of several files in order. -/
def allEntries (files : List File) : List Entry :=
  files.flatMap fun file => file.entries

/-- The index of the entries of several files. -/
def index (files : List File) : MessageIndex :=
  .ofEntries (allEntries files)

/-- The entries of a file that declare mixins. -/
def hosts (file : File) : List Entry :=
  file.entries.filter Entry.isHost

/-- The expansions of the messages of a file that declare mixins, by full name. -/
def expansions (file : File) (messages : MessageIndex) : Dictionary Message :=
  file.hosts.map fun entry => (entry.fullName, entry.message.expansion messages)

/-- The files in which a message declares mixins. -/
def sources (files : List File) : List File :=
  files.filter fun file => !file.hosts.isEmpty

/-- The sources by path, each with its expansions. -/
def groups (files : List File) : Dictionary (List Message) :=
  (sources files).map fun file => (file.path, (file.expansions (index files)).values)

variable {files : List File} {file : File} {messages : MessageIndex}

/-- An entry of a file that declares mixins stands in this file. -/
theorem file_of_mem_hosts {entry : Entry} (h : entry ∈ file.hosts) : entry.file = file.path :=
  Declaration.file_of_mem_entriesOfList _ (List.mem_filter.mp h).1

/-- An entry of one of the files that declares mixins is an entry of all files. -/
theorem mem_allEntries_of_mem_hosts {entry : Entry} (hfile : file ∈ files)
    (hentry : entry ∈ file.hosts) : entry ∈ allEntries files :=
  List.mem_flatMap.mpr ⟨file, hfile, (List.mem_filter.mp hentry).1⟩

/-- A source has expansions. -/
theorem expansions_ne_nil (h : file ∈ sources files) : file.expansions messages ≠ [] := by
  have hhosts := (List.mem_filter.mp h).2
  simpa [expansions] using hhosts

/-- Without an entry that declares mixins there are no sources. -/
theorem sources_eq_nil (h : ∀ entry ∈ allEntries files, ¬ entry.isHost) : sources files = [] := by
  refine List.filter_eq_nil_iff.mpr fun file hfile => ?_
  have hhosts : file.hosts = [] := List.filter_eq_nil_iff.mpr fun entry hentry =>
    h entry (List.mem_flatMap.mpr ⟨file, hfile, hentry⟩)
  simp [hhosts]

/-- Files that are no sources have no expansions. -/
theorem flatMap_expansions_sources (files : List File) (messages : MessageIndex) :
    (sources files).flatMap (fun file => file.expansions messages) =
      files.flatMap fun file => file.expansions messages := by
  induction files with
  | nil => rfl
  | cons file files ih =>
      rw [sources] at ih ⊢
      rw [List.flatMap_cons]
      by_cases h : file.hosts = []
      · have hnone : file.expansions messages = [] := by rw [expansions, h, List.map_nil]
        rw [List.filter_cons_of_neg (by simp [h]), ih, hnone, List.nil_append]
      · rw [List.filter_cons_of_pos (by simp [h]), List.flatMap_cons, ih]

/-- Where full names are distinct, the expansions come file by file. -/
theorem expand_allEntries {expanded : Dictionary Message}
    (hnames : ((allEntries files).map Entry.fullName).Nodup)
    (h : expand (allEntries files) = .ok expanded) :
    expanded = (sources files).flatMap fun file => file.expansions (index files) := by
  have hhosts : (allEntries files).filter Entry.isHost = files.flatMap hosts :=
    List.filter_flatMap ..
  have hdistinct : (((allEntries files).filter Entry.isHost).map Entry.fullName).Nodup :=
    (List.filter_sublist.map _).nodup hnames
  have hexpand : expand (allEntries files) = .ok expanded ↔ _ :=
    Entry.foldlM_expandInto_eq_ok_iff hdistinct
  obtain ⟨-, rfl⟩ := hexpand.mp h
  rw [List.nil_append, hhosts, List.map_flatMap, flatMap_expansions_sources]
  rfl

/-- An expansion is from one of the sources only. -/
theorem existsUnique_source (hnames : ((allEntries files).map Entry.fullName).Nodup)
    (hpaths : (files.map File.path).Nodup) {expansion : Text × Message}
    (h : expansion ∈ (sources files).flatMap fun file => file.expansions messages) :
    ∃! file, file ∈ sources files ∧ expansion ∈ file.expansions messages := by
  obtain ⟨file, hfile, hexpansion⟩ := List.mem_flatMap.mp h
  refine ⟨file, ⟨hfile, hexpansion⟩, ?_⟩
  rintro other ⟨hother, hagain⟩
  obtain ⟨entry, hentry, rfl⟩ := List.mem_map.mp hexpansion
  obtain ⟨same, hsame, heq⟩ := List.mem_map.mp hagain
  have hmem : file ∈ files := (List.mem_filter.mp hfile).1
  have hmemOther : other ∈ files := (List.mem_filter.mp hother).1
  have hentries : same = entry :=
    List.inj_on_of_nodup_map hnames (mem_allEntries_of_mem_hosts hmemOther hsame)
      (mem_allEntries_of_mem_hosts hmem hentry) (congrArg Prod.fst heq)
  have hpath : other.path = file.path := by
    rw [← file_of_mem_hosts hentry, ← file_of_mem_hosts hsame, hentries]
  exact List.inj_on_of_nodup_map hpaths hmemOther hmem hpath

/-- Grouping the expansions by the file that their names are found in gives the sources back. -/
theorem bySource_allEntries (hnames : ((allEntries files).map Entry.fullName).Nodup)
    (hpaths : (files.map File.path).Nodup) :
    Expansion.bySource ((sources files).flatMap fun file => file.expansions (index files))
        (allEntries files) = groups files := by
  have hfound : ∀ file ∈ sources files,
      (file.expansions (index files)).filterMap (fun expansion =>
        (Entry.find? (allEntries files) expansion.1).map fun entry => (entry.file, expansion.2)) =
      (file.expansions (index files)).values.map fun message => (file.path, message) := by
    intro file hfile
    rw [expansions, Dictionary.values, List.map_map, List.map_map, List.filterMap_map]
    rw [← List.filterMap_eq_map]
    refine List.filterMap_congr fun entry hentry => ?_
    have hmem := mem_allEntries_of_mem_hosts (List.mem_filter.mp hfile).1 hentry
    simp only [Function.comp_apply]
    rw [Entry.find?_of_nodup hnames hmem, Option.map_some, file_of_mem_hosts hentry]
  rw [Expansion.bySource_eq_gathered, List.filterMap_flatMap, List.flatMap_congr hfound]
  refine Dictionary.gathered_flatMap ?_ ?_
  · exact (List.filter_sublist.map File.path).nodup hpaths
  · intro file hfile
    simpa [Dictionary.values] using expansions_ne_nil hfile

end File

end ProtoSchema
