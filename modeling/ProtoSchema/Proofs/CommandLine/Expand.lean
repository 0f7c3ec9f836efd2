import Mathlib
import ProtoSchema.CommandLine.Expand
import ProtoSchema.Proofs.CommandLine.Console
import ProtoSchema.Proofs.Load.SchemaFile
import ProtoSchema.Proofs.Mixin.Sources

/-!
# Runs of the expansion program

A run as a chain of three steps: the files are loaded, their entries are announced and expanded, and
the expansions are written. `writes_file_per_source` says what a run that succeeds leaves on disk
and on the console where the base names of the files and the full names of the messages are
distinct: one file for each source, with the expansions of this source, and nothing else.
-/

namespace ProtoSchema.ExpandProgram

variable {settings : Settings} {tree after : FileTree} {files : List File}
  {expanded : Dictionary Message} {entries : List Entry} {directory : Text} {paths : List Text}

/-! ### What is printed -/

/-- The line about a loaded file. -/
def parsedLine (file : File) : Text :=
  Text.ofString "  Parsed " ++ file.path ++ Text.ofString ": " ++
    countText file.entries.length ++ Text.ofString " message(s)"

/-- The line about the expansions. -/
def expandedLine (expanded : Dictionary Message) : Text :=
  Text.ofString "Expanded " ++ countText expanded.length ++ Text.ofString " message(s)"

/-- The line about a written file. -/
def generatedLine (path : Text) : Text :=
  Text.ofString "  Generated: " ++ path

/-- The lines that follow those about the loaded files in a run that succeeds. -/
def closingLines (expanded : Dictionary Message) (paths : List Text) : List Text :=
  (if expanded.isEmpty then [Text.ofString "No messages declare mixins; nothing to write."]
    else expandedLine expanded :: paths.map generatedLine) ++ [Text.ofString "Expansion complete"]

/-! ### The steps of a run -/

/-- The files are announced in order, and their entries are those of all files. -/
theorem run_announce (files : List File) (console : Console) :
    (announce files).run.run console =
      (.ok (File.allEntries files), console.printLines (files.map parsedLine)) := by
  have hfiles : ∀ console : Console,
      (files.mapM fun file => do
        Command.printLine (parsedLine file)
        return file.entries : Command (List (List Entry))).run.run console =
        (.ok (files.map fun file => file.entries), console.printLines (files.map parsedLine)) := by
    induction files with
    | nil =>
        intro console
        rw [List.map_nil, List.map_nil, Console.printLines_nil]
        rfl
    | cons file files ih =>
        intro console
        rw [List.mapM_cons, bind_assoc, run_bind_of_ok (Command.run_printLine _ console), pure_bind,
          run_bind_of_ok (ih _), Console.printLines_printLines]
        rfl
  have hchain : announce files = (files.mapM fun file => do
      Command.printLine (parsedLine file)
      return file.entries : Command (List (List Entry))) >>= fun perFile =>
        pure perFile.flatten := rfl
  rw [hchain, run_bind_of_ok (hfiles console), File.allEntries, List.flatMap_def]
  rfl

/-- A run fails at once where a file cannot be loaded. -/
theorem run_command_of_load_error {error : LoadError}
    (hload : File.loadAll tree settings.files = .error error) :
    (command settings).run.run { tree } = (.error (.ofLoad error), { tree }) := by
  show (Command.orFail RunError.ofLoad (File.loadAll tree settings.files) >>= _).run.run
    { tree } = _
  rw [hload]
  exact run_bind_of_error (Command.run_orFail_error ..)

/-- What remains of a run once the files are loaded and expanded. -/
def finish (settings : Settings) (entries : List Entry) (expanded : Dictionary Message) :
    Command Unit :=
  if expanded.isEmpty then do
    Command.printLine (Text.ofString "No messages declare mixins; nothing to write.")
    Command.printLine (Text.ofString "Expansion complete")
  else do
    writeOut expanded entries settings.out
    Command.printLine (Text.ofString "Expansion complete")

/-- Once the files are loaded they are announced, and a run goes on to expand them. -/
theorem run_command_of_load_ok (hload : File.loadAll tree settings.files = .ok files) :
    (command settings).run.run { tree } =
      (Command.orFail RunError.mixin (expand (File.allEntries files)) >>=
        finish settings (File.allEntries files)).run.run
        (Console.printLines { tree } (files.map parsedLine)) := by
  show (Command.orFail RunError.ofLoad (File.loadAll tree settings.files) >>= fun files =>
    announce files >>= fun entries =>
      Command.orFail RunError.mixin (expand entries) >>= finish settings entries).run.run
        { tree } = _
  rw [hload, run_bind_of_ok (Command.run_orFail_ok ..), run_bind_of_ok (run_announce files _)]

/-- A run fails after the announcements where the messages cannot be expanded. -/
theorem run_command_of_expand_error {error : MixinError}
    (hload : File.loadAll tree settings.files = .ok files)
    (hexpand : expand (File.allEntries files) = .error error) :
    (command settings).run.run { tree } =
      (.error (.mixin error), Console.printLines { tree } (files.map parsedLine)) := by
  rw [run_command_of_load_ok hload, hexpand]
  exact run_bind_of_error (Command.run_orFail_error ..)

/-- Where the messages are expanded, a run goes on to its last part. -/
theorem run_command_of_expand_ok (hload : File.loadAll tree settings.files = .ok files)
    (hexpand : expand (File.allEntries files) = .ok expanded) :
    (command settings).run.run { tree } =
      (finish settings (File.allEntries files) expanded).run.run
        (Console.printLines { tree } (files.map parsedLine)) := by
  rw [run_command_of_load_ok hload, hexpand]
  exact run_bind_of_ok (Command.run_orFail_ok ..)

/-- Expansions are written into a directory, and the written files are announced. -/
theorem run_writeOut {console : Console}
    (hwrite : (Expansion.writeAll expanded entries directory).run.run console.tree =
      (.ok paths, after)) :
    (writeOut expanded entries (some directory)).run.run console =
      (.ok (), Console.printLines { console with tree := after }
        (expandedLine expanded :: paths.map generatedLine)) := by
  show (Command.printLine (expandedLine expanded) >>= fun _ =>
    Command.onFiles (Expansion.writeAll expanded entries directory) >>= fun paths =>
      paths.forM fun path => Command.printLine (generatedLine path)).run.run console = _
  have hwritten : (Command.onFiles (Expansion.writeAll expanded entries directory)).run.run
      (console.printLines [expandedLine expanded]) =
        (.ok paths, Console.printLines { console with tree := after } [expandedLine expanded]) :=
    Command.run_onFiles_of_ok hwrite
  rw [run_bind_of_ok (Command.run_printLine _ console), run_bind_of_ok hwritten,
    Command.run_forM_printLine, Console.printLines_printLines]
  rfl

/-- The last part of a run succeeds where the expansions are written. -/
theorem run_finish {console : Console}
    (hwrite : (Expansion.writeAll expanded entries directory).run.run console.tree =
      (.ok paths, after)) (files : List Text) :
    (finish ⟨files, some directory⟩ entries expanded).run.run console =
      (.ok (), Console.printLines { console with tree := after }
        (closingLines expanded paths)) := by
  cases expanded with
  | nil =>
      -- Nothing is written for no expansions.
      cases hwrite
      show (Command.printLine _ >>= fun _ => Command.printLine _).run.run console = _
      rw [run_bind_of_ok (Command.run_printLine _ console), Command.run_printLine,
        Console.printLines_printLines]
      rfl
  | cons first rest =>
      show (writeOut (first :: rest) entries (some directory) >>= fun _ =>
        Command.printLine _).run.run console = _
      rw [run_bind_of_ok (run_writeOut hwrite), Command.run_printLine,
        Console.printLines_printLines]
      rfl

/-- The last part of a run fails where the expansions are not written. -/
theorem run_finish_of_error {console : Console} {cause : OutputError}
    (hwrite : (Expansion.writeAll expanded entries directory).run.run console.tree =
      (.error cause, after)) (files : List Text) :
    (finish ⟨files, some directory⟩ entries expanded).run.run console =
      (.error (.output cause),
        Console.printLines { console with tree := after } [expandedLine expanded]) := by
  cases expanded with
  | nil => cases hwrite
  | cons first rest =>
      show (writeOut (first :: rest) entries (some directory) >>= fun _ =>
        Command.printLine _).run.run console = _
      refine run_bind_of_error ?_
      show (Command.printLine (expandedLine (first :: rest)) >>= fun _ =>
        Command.onFiles (Expansion.writeAll (first :: rest) entries directory) >>= fun paths =>
          paths.forM fun path => Command.printLine (generatedLine path)).run.run console = _
      have hfailed : (Command.onFiles
          (Expansion.writeAll (first :: rest) entries directory)).run.run
          (console.printLines [expandedLine (first :: rest)]) =
            (.error (.output cause),
              Console.printLines { console with tree := after } [expandedLine (first :: rest)]) :=
        Command.run_onFiles_of_error hwrite
      rw [run_bind_of_ok (Command.run_printLine _ console), run_bind_of_error hfailed]

/-- Why expansions are not written, and what is then left of the file tree: there is no directory to
write to, or an error ends the writing. -/
def NotWritten (expanded : Dictionary Message) (entries : List Entry) (before : FileTree)
    (cause : OutputError) (after : FileTree) : Option Text → Prop
  | none => cause = .noDirectory ∧ after = before
  | some directory => (Expansion.writeAll expanded entries directory).run.run before =
      (.error cause, after)

/-- The last part of a run finishes, or it stops where the expansions are not written. -/
theorem run_finish_cases (settings : Settings) (entries : List Entry)
    (expanded : Dictionary Message) (console : Console) :
    (∃ after, (finish settings entries expanded).run.run console = (.ok (), after)) ∨
    ∃ cause after, NotWritten expanded entries console.tree cause after settings.out ∧
      (finish settings entries expanded).run.run console =
        (.error (.output cause),
          Console.printLines { console with tree := after } [expandedLine expanded]) := by
  obtain ⟨files, out⟩ := settings
  cases out with
  | none =>
      cases expanded with
      | nil => exact .inl ⟨_, rfl⟩
      | cons first rest =>
          -- The expansions are counted, and then there is no directory for them.
          refine .inr ⟨.noDirectory, console.tree, ⟨rfl, rfl⟩, ?_⟩
          show ((Command.printLine (expandedLine (first :: rest)) >>= fun _ =>
            throw (.output .noDirectory) : Command Unit) >>= fun _ =>
              Command.printLine _).run.run console = _
          refine run_bind_of_error ?_
          rw [run_bind_of_ok (Command.run_printLine _ console)]
          rfl
  | some directory =>
      cases hwrite : (Expansion.writeAll expanded entries directory).run.run console.tree with
      | mk outcome after =>
          cases outcome with
          | ok paths => exact .inl ⟨_, run_finish hwrite files⟩
          | error cause => exact .inr ⟨cause, after, hwrite, run_finish_of_error hwrite files⟩

/-! ### One file for each source -/

/-- What is left on disk where every source has a file of its own: the path of a source leads to a
file with the text of its expansions, no two sources share a place, and every other place is kept.
-/
structure WritesSources (files : List File) (directory : Text) (before after : FileTree) :
    Prop where
  written : ∀ file ∈ File.sources files, ∃ text place,
    Message.renderAll? (file.expansions (File.index files)).values = some text ∧
    after.resolve (Path.display (Expansion.outputPath file.path directory)) = .ok place ∧
    after.find? place = some (.file (Utf8.encode text))
  apart : ∀ file ∈ File.sources files, ∀ other ∈ File.sources files, ∀ place,
    after.resolve (Path.display (Expansion.outputPath file.path directory)) = .ok place →
    after.resolve (Path.display (Expansion.outputPath other.path directory)) = .ok place →
    file = other
  frame : ∀ place, (∀ file ∈ File.sources files,
    after.resolve (Path.display (Expansion.outputPath file.path directory)) ≠ .ok place) →
    before.KeptAt after place

/-- Groups that are the sources with their expansions are written source by source. -/
theorem writesSources_of_writesGroups {before : FileTree}
    (hbases : ∀ file ∈ files, Path.base file.path ≠ [])
    (hdistinct : (files.map fun file => Path.base file.path).Nodup)
    (h : Expansion.WritesGroups (File.groups files) directory before after) :
    WritesSources files directory before after := by
  have hsources : ((File.sources files).map fun file => Path.base file.path).Nodup :=
    (List.filter_sublist.map _).nodup hdistinct
  have hgroups : ((File.groups files).map fun group => Path.base group.1).Nodup := by
    rwa [File.groups, List.map_map]
  have hwritten : ∀ file ∈ File.sources files, ∃ text place,
      Message.renderAll? (file.expansions (File.index files)).values =
        some text ∧
      after.resolve (Path.display (Expansion.outputPath file.path directory)) = .ok place ∧
      after.find? place = some (.file (Utf8.encode text)) := by
    intro file hfile
    have hgroup : (file.path, (file.expansions (File.index files)).values) ∈ File.groups files :=
      List.mem_map_of_mem hfile
    obtain ⟨last, text, place, hlast, htext, hplace⟩ := h.written _ hgroup
    obtain rfl := Expansion.lastAlike?_of_nodup hgroups hgroup hlast
    exact ⟨text, place, htext, hplace⟩
  refine ⟨hwritten, ?_, ?_⟩
  · intro file hfile other hother place hplace hfound
    by_contra hne
    have hmem (file) (hfile : file ∈ File.sources files) : Path.base file.path ≠ [] :=
      hbases file (List.mem_filter.mp hfile).1
    have hnames : Path.base file.path ≠ Path.base other.path := fun hsame =>
      hne (List.inj_on_of_nodup_map hsources hfile hother hsame)
    obtain ⟨text, written, -, hresolve, hnode⟩ := hwritten file hfile
    obtain rfl := Except.ok.inj (hplace.symm.trans hresolve)
    have hroot : place ≠ [] := FileTree.ne_root_of_find? (by rw [hnode]; simp)
    exact Expansion.place_ne (hmem file hfile) (hmem other hother) hnames hroot hplace hfound rfl
  · intro place hfree
    refine h.frame place fun group hgroup => ?_
    obtain ⟨file, hfile, rfl⟩ := List.mem_map.mp hgroup
    exact hfree file hfile

/-- Where the files of a run load, have distinct base names that are not empty and messages with
distinct full names, and where these are expanded and written, the run finishes. The expansions are
those of the sources in the order of the files, each is from one source, and the written paths are
those of the sources in the same order. Each source has a file of its own with the text of its
expansions, and nothing else is written; without a message that declares mixins, the file tree stays
as it was. -/
theorem writes_file_per_source {requests : List Text}
    (hload : File.loadAll tree requests = .ok files)
    (hbases : ∀ path ∈ requests, Path.base path ≠ [])
    (hdistinct : (requests.map Path.base).Nodup)
    (hnames : ((File.allEntries files).map Entry.fullName).Nodup)
    (hexpand : expand (File.allEntries files) = .ok expanded)
    (hwrite : (Expansion.writeAll expanded (File.allEntries files) directory).run.run tree =
      (.ok paths, after)) :
    Report.ofCommand (command ⟨requests, some directory⟩) tree =
      ⟨.finished, Console.printLines { tree := after }
        (files.map parsedLine ++ closingLines expanded paths)⟩ ∧
    files.map File.path = requests ∧
    expanded = (File.sources files).flatMap
      (fun file => file.expansions (File.index files)) ∧
    (∀ expansion ∈ expanded, ∃! file, file ∈ File.sources files ∧
      expansion ∈ file.expansions (File.index files)) ∧
    paths = (File.sources files).map (fun file => Expansion.outputPath file.path directory) ∧
    WritesSources files directory tree after ∧
    ((∀ entry ∈ File.allEntries files, ¬ entry.isHost) → after = tree) := by
  obtain rfl := File.map_path_of_loadAll hload
  obtain rfl := File.expand_allEntries hnames hexpand
  rw [List.map_map] at hdistinct
  have hpaths : (files.map File.path).Nodup := by
    refine List.Nodup.of_map Path.base ?_
    rwa [List.map_map]
  have hfiles : ∀ file ∈ files, Path.base file.path ≠ [] := fun file hfile =>
    hbases file.path (List.mem_map_of_mem hfile)
  have hgroups : ∀ group ∈ File.groups files, Path.base group.1 ≠ [] := by
    intro group hgroup
    obtain ⟨file, hfile, rfl⟩ := List.mem_map.mp hgroup
    exact hfiles file (List.mem_filter.mp hfile).1
  have hmapM := hwrite
  rw [Expansion.writeAll, File.bySource_allEntries hnames hpaths] at hmapM
  obtain ⟨rfl, hwrites⟩ := Expansion.writesGroups_of_mapM hgroups hmapM
  refine ⟨?_, rfl, rfl, fun expansion => File.existsUnique_source hnames hpaths, ?_,
    writesSources_of_writesGroups hfiles hdistinct hwrites, ?_⟩
  · have hfinish : (finish ⟨files.map File.path, some directory⟩ (File.allEntries files)
        _).run.run (Console.printLines { tree } (files.map parsedLine)) = _ :=
      run_finish hwrite (files.map File.path)
    refine Command.ofCommand_of_ok ?_
    rw [run_command_of_expand_ok hload hexpand, hfinish, ← Console.printLines_printLines]
    rfl
  · rw [File.groups, List.map_map]
    rfl
  · intro hplain
    rw [File.groups, File.sources_eq_nil hplain] at hmapM
    cases hmapM
    rfl

/-- The text of a file with the messages `M` and `A`, which takes `M` as its mixin. -/
def mixinInput : Text :=
  "message M\x7bint32 m=1;\x7dmessage A\x7boption(ts_proto_options.mixins)=\"M\";\x7d"

/-- The text of a file with the message `B`, which declares no mixins. -/
def plainInput : Text :=
  "message B\x7b\x7d"

/-- The text of the expansion of `A`. -/
def mixinOutput : Text :=
  "syntax = \"proto3\";\n\nmessage A \x7b\n  int32 m = 1;\n\x7d\n"

/-- A tree with the two files. -/
def twoInputs : FileTree :=
  { nodes := [(["a.proto"], .file (Utf8.encode mixinInput)),
      (["b.proto"], .file (Utf8.encode plainInput))] }

/-- The two files as they are loaded. -/
def twoFiles : List File :=
  [{ path := "a.proto"
     root := { members :=
      [.message mixinSource,
        .message { name := "A", options := [⟨mixinOption, .text "M"⟩] }] } },
    { path := "b.proto", root := { members := [.message { name := "B" }] } }]

/-- The tree after the expansion of `A` is written. -/
def oneOutput : FileTree :=
  { nodes := [(["a.proto"], .file (Utf8.encode mixinInput)),
      (["b.proto"], .file (Utf8.encode plainInput)),
      (["out"], .directory), (["out", "a.proto"], .file (Utf8.encode mixinOutput))] }

/-- Of two files, the one that declares mixins is written. -/
theorem writes_file_per_source_twoFiles :
    let requests : List Text := ["a.proto", "b.proto"]
    let expanded : Dictionary Message := [("A", { name := "A", fields := mixinSource.fields })]
    let lines : List Text :=
      ["  Parsed a.proto: 2 message(s)", "  Parsed b.proto: 1 message(s)",
        "Expanded 1 message(s)", "  Generated: out/a.proto", "Expansion complete"]
    (File.loadAll twoInputs requests = .ok twoFiles ∧
      (∀ path ∈ requests, Path.base path ≠ []) ∧ (requests.map Path.base).Nodup ∧
      ((File.allEntries twoFiles).map Entry.fullName).Nodup ∧
      expand (File.allEntries twoFiles) = .ok expanded ∧
      (Expansion.writeAll expanded (File.allEntries twoFiles) "out").run.run twoInputs =
        (.ok ["out/a.proto"], oneOutput)) ∧
    Report.ofCommand (command ⟨requests, some "out"⟩) twoInputs =
      ⟨.finished, Console.printLines { tree := oneOutput } lines⟩ := by
  intro requests expanded lines
  have hmixin : File.parse mixinInput "a.proto" = .ok (twoFiles[0]) := by cbv
  have hplain : File.parse plainInput "b.proto" = .ok (twoFiles[1]) := by cbv
  have hload : File.loadAll twoInputs requests = .ok twoFiles := by
    refine mapM_eq_ok_iff.mpr ?_
    rw [List.map_cons, List.map_cons, List.map_nil,
      File.load_eq_ok_iff.mpr ⟨mixinInput, by decide +kernel, hmixin⟩,
      File.load_eq_ok_iff.mpr ⟨plainInput, by decide +kernel, hplain⟩]
    rfl
  have hbases : ∀ path ∈ requests, Path.base path ≠ [] := by decide
  have hdistinct : (requests.map Path.base).Nodup := by decide
  have hnames : ((File.allEntries twoFiles).map Entry.fullName).Nodup := by decide
  have hexpand : expand (File.allEntries twoFiles) = .ok expanded := rfl
  have hwrite : (Expansion.writeAll expanded (File.allEntries twoFiles) "out").run.run twoInputs =
      (.ok ["out/a.proto"], oneOutput) := rfl
  have hlines : lines = twoFiles.map parsedLine ++ closingLines expanded ["out/a.proto"] := by
    decide +kernel
  refine ⟨⟨hload, hbases, hdistinct, hnames, hexpand, hwrite⟩, ?_⟩
  rw [hlines]
  exact (writes_file_per_source hload hbases hdistinct hnames hexpand hwrite).1

end ProtoSchema.ExpandProgram
