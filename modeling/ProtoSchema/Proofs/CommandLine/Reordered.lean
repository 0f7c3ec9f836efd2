import ProtoSchema.Proofs.CommandLine.Expand
import ProtoSchema.Proofs.Mixin.Reordered

/-!
# Runs on files in another order

Two runs of the expansion program on the same files in two orders. Main statement:
`reordered_runs_agree`. Where the base names of the files and the full names of the messages are
distinct and no file operation fails, either both runs finish, announce the same output paths and
leave the same tree, or neither finishes. Then the tree stays as it was, unless both stop at a
number that is too long to be written, which they find only among the groups that they write: see
`long_number_leaves_output`.
-/

namespace ProtoSchema

/-- The files among the requested ones that are loaded, in the order of the requests. -/
def File.loaded (tree : FileTree) (requests : List Text) : List File :=
  requests.filterMap fun path => (File.load tree path).toOption

/-- Where all files are loaded, these are the loaded ones. -/
theorem File.loaded_of_loadAll {tree : FileTree} {requests : List Text} {files : List File}
    (h : File.loadAll tree requests = .ok files) : File.loaded tree requests = files := by
  have hloads := congrArg (List.filterMap Except.toOption) (mapM_eq_ok_iff.mp h)
  rw [List.filterMap_map, List.filterMap_map] at hloads
  refine hloads.trans ?_
  exact List.filterMap_some

namespace ExpandProgram

variable {tree : FileTree} {directory : Text} {requests reordered : List Text} {files : List File}
  {expanded : Dictionary Message}

/-- The report of a run on these files with this output directory. -/
def report (tree : FileTree) (directory : Text) (requests : List Text) : Report :=
  Report.ofCommand (command ⟨requests, some directory⟩) tree

/-- The run finished and announced these output paths. -/
def Announces (report : Report) (paths : List Text) : Prop :=
  ∃ (files : List File) (expanded : Dictionary Message),
    report = ⟨.finished, Console.printLines { tree := report.console.tree }
      (files.map parsedLine ++ closingLines expanded paths)⟩

/-- All files are loaded, and their messages are expanded. -/
structure Prepared (tree : FileTree) (requests : List Text) (files : List File)
    (expanded : Dictionary Message) : Prop where
  loaded : File.loadAll tree requests = .ok files
  expanded : expand (File.allEntries files) = .ok expanded

/-- A run whose files are not all loaded and expanded does not finish and changes nothing. -/
theorem report_of_not_prepared (h : ∀ files expanded, ¬ Prepared tree requests files expanded)
    (directory : Text) :
    (report tree directory requests).ending ≠ .finished ∧
      (report tree directory requests).console.tree = tree := by
  have hending (error : RunError) : error.ending ≠ .finished := by
    unfold RunError.ending
    split <;> simp
  rw [report]
  cases hload : File.loadAll tree requests with
  | error error =>
      have hrun : (command ⟨requests, some directory⟩).run.run { tree } = _ :=
        run_command_of_load_error hload
      rw [Command.ofCommand_of_error hrun]
      exact ⟨hending _, rfl⟩
  | ok files =>
      cases hexpand : expand (File.allEntries files) with
      | error error =>
          have hrun : (command ⟨requests, some directory⟩).run.run { tree } = _ :=
            run_command_of_expand_error hload hexpand
          rw [Command.ofCommand_of_error hrun]
          exact ⟨hending _, Console.printLines_tree _ _⟩
      | ok expanded => exact absurd ⟨hload, hexpand⟩ (h files expanded)

/-- A run whose files are loaded and expanded finishes where its groups are written, and else ends
with the error of the output. -/
theorem report_of_prepared (h : Prepared tree requests files expanded)
    (hnames : ((File.allEntries files).map Entry.fullName).Nodup)
    (hpaths : requests.Nodup) (directory : Text) :
    (∃ paths after, (Expansion.writeGroups (File.groups files) directory).run.run tree =
        (.ok paths, after) ∧ Announces (report tree directory requests) paths ∧
      (report tree directory requests).console.tree = after) ∨
    ∃ cause after, (Expansion.writeGroups (File.groups files) directory).run.run tree =
        (.error cause, after) ∧
      (report tree directory requests).ending = .escaped (.output cause) := by
  obtain ⟨hload, hexpand⟩ := h
  obtain rfl := File.map_path_of_loadAll hload
  have hwriteAll : Expansion.writeAll expanded (File.allEntries files) directory =
      Expansion.writeGroups (File.groups files) directory := by
    rw [Expansion.writeAll, File.expand_allEntries hnames hexpand,
      File.bySource_allEntries hnames hpaths]
    rfl
  have hrun : (command ⟨files.map File.path, some directory⟩).run.run { tree } = _ :=
    run_command_of_expand_ok hload hexpand
  rw [← hwriteAll]
  cases hwrite : (Expansion.writeAll expanded (File.allEntries files) directory).run.run tree with
  | mk outcome after =>
      cases outcome with
      | ok paths =>
          have hfinish : (finish ⟨files.map File.path, some directory⟩ (File.allEntries files)
              expanded).run.run (Console.printLines { tree } (files.map parsedLine)) = _ :=
            run_finish hwrite (files.map File.path)
          have hreport := Command.ofCommand_of_ok (hrun.trans hfinish)
          refine .inl ⟨paths, after, rfl, ⟨files, expanded, ?_⟩, ?_⟩
          · rw [report, hreport, ← Console.printLines_printLines]
            rfl
          · rw [report, hreport]
            exact Console.printLines_tree _ _
      | error cause =>
          have hfinish : (finish ⟨files.map File.path, some directory⟩ (File.allEntries files)
              expanded).run.run (Console.printLines { tree } (files.map parsedLine)) = _ :=
            run_finish_of_error hwrite (files.map File.path)
          refine .inr ⟨cause, after, rfl, ?_⟩
          rw [report, Command.ofCommand_of_error (hrun.trans hfinish)]
          rfl

/-- Files that are loaded and expanded are so in every order, and their groups come in another
order. -/
theorem Prepared.perm (h : Prepared tree requests files expanded)
    (horder : requests.Perm reordered)
    (hnames : ((File.allEntries files).map Entry.fullName).Nodup) :
    ∃ others again, Prepared tree reordered others again ∧
      ((File.allEntries others).map Entry.fullName).Nodup ∧
      (File.groups files).Perm (File.groups others) := by
  obtain ⟨others, hload, hfiles⟩ := mapM_perm horder h.loaded
  have hentries := File.allEntries_perm hfiles
  obtain ⟨again, hexpand⟩ := expand_perm hentries hnames h.expanded
  exact ⟨others, again, ⟨hload, hexpand⟩, (hentries.map _).nodup_iff.mp hnames,
    File.groups_perm hfiles hnames⟩

/-- The run ended with an error of a file operation. -/
def FailsInFiles (report : Report) : Prop :=
  ∃ error, report.ending = .escaped (.output (.file error))

/-- The run stopped at a number that is too long to be written. -/
def StopsAtNumber (report : Report) : Prop :=
  report.ending = .escaped (.output .numberTooLong)

/-- Two runs on one tree agree: one finishes when the other does, and then they announce the same
output paths in some order and leave the same tree. If they do not finish, they leave the tree as it
was, or both stop at a number that is too long to be written. -/
structure Agree (tree : FileTree) (first second : Report) : Prop where
  finished : first.ending = .finished ↔ second.ending = .finished
  announced : first.ending = .finished → ∃ paths again : List Text,
    paths.Perm again ∧ Announces first paths ∧ Announces second again
  written : first.ending = .finished → ∀ place,
    first.console.tree.find? place = second.console.tree.find? place
  unfinished : first.ending ≠ .finished →
    first.console.tree = tree ∧ second.console.tree = tree ∨
      StopsAtNumber first ∧ StopsAtNumber second

/-- A run that announces its output paths finished. -/
theorem Announces.finished {report : Report} {paths : List Text} (h : Announces report paths) :
    report.ending = .finished := by
  obtain ⟨files, expanded, hreport⟩ := h
  rw [hreport]

/-- Runs whose groups are the same in some order agree, if no file operation fails. -/
theorem agree_of_prepared {others : List File} {again : Dictionary Message}
    (hprepared : Prepared tree requests files expanded)
    (hothers : Prepared tree reordered others again)
    (hnames : ((File.allEntries files).map Entry.fullName).Nodup)
    (hagain : ((File.allEntries others).map Entry.fullName).Nodup)
    (hpaths : requests.Nodup) (hrepaths : reordered.Nodup)
    (hgroups : (File.groups files).Perm (File.groups others))
    (hbases : ((File.groups files).map fun group => Path.base group.1).Nodup)
    (hfirst : ¬ FailsInFiles (report tree directory requests))
    (hsecond : ¬ FailsInFiles (report tree directory reordered)) :
    Agree tree (report tree directory requests) (report tree directory reordered) := by
  have hescaped {report : Report} {error : RunError} (h : report.ending = .escaped error) :
      report.ending ≠ .finished := by
    rw [h]
    exact fun hfinished => Ending.noConfusion hfinished
  rcases report_of_prepared hprepared hnames hpaths directory with
    ⟨paths, after, hwrite, hannounces, rfl⟩ | ⟨cause, after, hwrite, hending⟩
  · rcases report_of_prepared hothers hagain hrepaths directory with
      ⟨repaths, later, hrewrite, hreannounces, rfl⟩ | ⟨cause, later, hrewrite, hending⟩
    · obtain ⟨hperm, hsame⟩ := Expansion.writeGroups_perm hgroups hbases hwrite hrewrite
      have hfinished := hannounces.finished
      exact ⟨iff_of_true hfinished hreannounces.finished,
        fun _ => ⟨paths, repaths, hperm, hannounces, hreannounces⟩, fun _ => hsame,
        fun hne => absurd hfinished hne⟩
    · obtain ⟨error, rfl⟩ := Expansion.exists_file_error hgroups hwrite hrewrite
      exact absurd ⟨error, hending⟩ hsecond
  · rcases report_of_prepared hothers hagain hrepaths directory with
      ⟨repaths, later, hrewrite, -, -⟩ | ⟨recause, later, hrewrite, hreending⟩
    · obtain ⟨error, rfl⟩ := Expansion.exists_file_error hgroups.symm hrewrite hwrite
      exact absurd ⟨error, hending⟩ hfirst
    · rcases Expansion.writeGroups_eq_error hwrite with ⟨error, rfl⟩ | ⟨rfl, -⟩
      · exact absurd ⟨error, hending⟩ hfirst
      rcases Expansion.writeGroups_eq_error hrewrite with ⟨error, rfl⟩ | ⟨rfl, -⟩
      · exact absurd ⟨error, hreending⟩ hsecond
      have hnot := hescaped hending
      exact ⟨iff_of_false hnot (hescaped hreending), fun h => absurd h hnot,
        fun h => absurd h hnot, fun _ => .inr ⟨hending, hreending⟩⟩

/-- Where the base names of the files and the full names of the messages of those that are loaded
are distinct, and no file operation fails, runs on the files in two orders agree. -/
theorem reordered_runs_agree (horder : requests.Perm reordered)
    (hbases : (requests.map Path.base).Nodup)
    (hnames : ((File.allEntries (File.loaded tree requests)).map Entry.fullName).Nodup)
    (hfirst : ¬ FailsInFiles (report tree directory requests))
    (hsecond : ¬ FailsInFiles (report tree directory reordered)) :
    Agree tree (report tree directory requests) (report tree directory reordered) := by
  have hpaths : requests.Nodup := .of_map _ hbases
  by_cases hprepared : ∃ files expanded, Prepared tree requests files expanded
  · obtain ⟨files, expanded, hprepared⟩ := hprepared
    rw [File.loaded_of_loadAll hprepared.loaded] at hnames
    obtain ⟨others, again, hothers, hagain, hgroups⟩ := hprepared.perm horder hnames
    have hsources : ((File.groups files).map fun group => Path.base group.1).Nodup := by
      obtain rfl := File.map_path_of_loadAll hprepared.loaded
      rw [List.map_map] at hbases
      rw [File.groups, List.map_map]
      exact (List.filter_sublist.map _).nodup hbases
    exact agree_of_prepared hprepared hothers hnames hagain hpaths (horder.nodup_iff.mp hpaths)
      hgroups hsources hfirst hsecond
  · -- Neither run comes to its output.
    have hloaded : ((File.allEntries (File.loaded tree reordered)).map Entry.fullName).Nodup :=
      ((File.allEntries_perm (horder.filterMap _)).map _).nodup_iff.mp hnames
    have hnone : ∀ files expanded, ¬ Prepared tree requests files expanded :=
      fun files expanded h => hprepared ⟨files, expanded, h⟩
    have hnoneAgain : ∀ files expanded, ¬ Prepared tree reordered files expanded := by
      intro files expanded h
      rw [File.loaded_of_loadAll h.loaded] at hloaded
      obtain ⟨others, again, hothers, -⟩ := h.perm horder.symm hloaded
      exact hnone others again hothers
    obtain ⟨hnot, htree⟩ := report_of_not_prepared hnone directory
    obtain ⟨hnotAgain, htreeAgain⟩ := report_of_not_prepared hnoneAgain directory
    exact ⟨iff_of_false hnot hnotAgain, fun h => absurd h hnot, fun h => absurd h hnot,
      fun _ => .inl ⟨htree, htreeAgain⟩⟩

/-- A tree with the file that declares `M` and `A`, and a second file. -/
def withSecond (second : Text) : FileTree :=
  { nodes := [(["a.proto"], .file (Utf8.encode mixinInput)),
      (["b.proto"], .file (Utf8.encode second))] }

/-- A file whose message takes a mixin of the other file. -/
def userInput : Text :=
  "message B \x7b\n  option (ts_proto_options.mixins) = \"M\";\n\x7d\n"

/-- Both files are sources, and each run writes both. -/
theorem reordered_runs_agree_twoSources :
    let requests : List Text := ["a.proto", "b.proto"]
    let reordered : List Text := ["b.proto", "a.proto"]
    let tree := withSecond userInput
    (requests.Perm reordered ∧ (requests.map Path.base).Nodup ∧
      ((File.allEntries (File.loaded tree requests)).map Entry.fullName).Nodup ∧
      (report tree "out" requests).ending = .finished ∧
      ¬ FailsInFiles (report tree "out" requests) ∧
      ¬ FailsInFiles (report tree "out" reordered)) ∧
    Agree tree (report tree "out" requests) (report tree "out" reordered) := by
  intro requests reordered tree
  have hperm : requests.Perm reordered := .swap _ _ _
  have hbases : (requests.map Path.base).Nodup := by decide
  have hnames : ((File.allEntries (File.loaded tree requests)).map Entry.fullName).Nodup := by
    decide +kernel
  have hfinished : (report tree "out" requests).ending = .finished := by decide +kernel
  have hagain : (report tree "out" reordered).ending = .finished := by decide +kernel
  have hsafe {report : Report} (h : report.ending = .finished) : ¬ FailsInFiles report := by
    rintro ⟨error, herror⟩
    exact Ending.noConfusion (h.symm.trans herror)
  exact ⟨⟨hperm, hbases, hnames, hfinished, hsafe hfinished, hsafe hagain⟩,
    reordered_runs_agree hperm hbases hnames (hsafe hfinished) (hsafe hagain)⟩

/-- A file whose message takes a mixin with a number of more digits than are written. -/
def longInput : Text :=
  Text.ofString "message N \x7b\n  int32 n = 0x" ++ List.replicate 3600 (CodePoint.ofChar '1') ++
    Text.ofString ";\n\x7d\nmessage B \x7b\n  option (ts_proto_options.mixins) = \"N\";\n\x7d\n"

/-- Both runs stop at the number of the second file, and the first one has already written the
output for the other file. -/
theorem long_number_leaves_output :
    let requests : List Text := ["a.proto", "b.proto"]
    let reordered : List Text := ["b.proto", "a.proto"]
    let tree := withSecond longInput
    (requests.map Path.base).Nodup ∧
      ((File.allEntries (File.loaded tree requests)).map Entry.fullName).Nodup ∧
      StopsAtNumber (report tree "out" requests) ∧ StopsAtNumber (report tree "out" reordered) ∧
      tree.find? ["out", "a.proto"] = none ∧
      (report tree "out" requests).console.tree.find? ["out", "a.proto"] =
        some (.file (Utf8.encode mixinOutput)) := by
  unfold StopsAtNumber
  decide +kernel

end ExpandProgram

end ProtoSchema
