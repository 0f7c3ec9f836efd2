import ProtoSchema.CommandLine.Outline
import ProtoSchema.Proofs.CommandLine.Reordered

/-!
# Runs that fail

Both programs find what is wrong with their inputs before they write anything. A run of the
expansion program that ends with status one stopped at the first file that is not loaded, or after
all files are announced where the messages are not expanded, and then it has not touched the file
tree; or it stopped in its output (`ExpandProgram.report_cases`). The outline program has no output
at all before its files are found. `failed_runs_change_nothing` puts the two together. Output goes
out file by file, so a run that an error of the output ends may leave some of it behind, as
`failed_runs_leave_output` shows.
-/

namespace ProtoSchema

variable {tree : FileTree}

/-- The run ended with an exit status that tells of a failure. -/
def Report.IsFailure (report : Report) : Prop :=
  report.ending.exitStatus = 1 ∨ report.ending.exitStatus = 2

/-- The run ended with an error of its output, which escapes it. -/
def Report.EscapesOutput (report : Report) : Prop :=
  ∃ cause, report.ending = .escaped (.output cause)

/-- Arguments that stop a program touch no file and print nothing. -/
theorem Report.ofStop_console (tree : FileTree) (stop : Arguments.Stop) :
    (Report.ofStop tree stop).console = { tree } := by
  cases stop <;> rfl

/-- Arguments that stop a program do not end it with status one. -/
theorem Report.ofStop_exitStatus (tree : FileTree) (stop : Arguments.Stop) :
    (Report.ofStop tree stop).ending.exitStatus ≠ 1 := by
  cases stop <;> simp [Report.ofStop, Ending.exitStatus]

/-- A run that finishes has not failed. -/
theorem Report.not_isFailure_of_finished {report : Report} (h : report.ending = .finished) :
    ¬ report.IsFailure := by
  simp [Report.IsFailure, h, Ending.exitStatus]

/-- A run that reports its error has status one, and this is no error of its output. -/
theorem Report.fails_of_failed {report : Report} {error : RunError}
    (h : report.ending = .failed error) :
    report.ending.exitStatus = 1 ∧ ¬ report.EscapesOutput := by
  refine ⟨congrArg Ending.exitStatus h, ?_⟩
  rintro ⟨cause, hcause⟩
  exact Ending.noConfusion (h.symm.trans hcause)

/-- What a program says about a fatal error. -/
theorem RunError.complaint_ending {error : RunError} (h : error.isFatal) (program : Text) :
    error.ending.complaint program =
      Text.ofString "FATAL: " ++ error.message ++ Text.ofString "\n" := by
  rw [RunError.ending, if_pos h]
  rfl

namespace ExpandProgram

/-- The run stopped at the first file that is not loaded. It printed nothing and changed nothing,
and it complained about this file if its error is a load failure. -/
structure StoppedAtLoad (requests : List Text) (tree : FileTree) (error : LoadError)
    (report : Report) : Prop where
  first : ∃ before path after, requests = before ++ path :: after ∧
    (∀ earlier ∈ before, ∃ file, File.load tree earlier = .ok file) ∧
    File.load tree path = .error error ∧
    ∀ failure, error = .failure failure → failure.path = path
  console : report.console = { tree }
  ending : report.ending = (RunError.ofLoad error).ending
  complaint : ∀ failure, error = .failure failure →
    report.ending.complaint name =
      Text.ofString "FATAL: " ++ failure.message ++ Text.ofString "\n"

/-- The run stopped where the messages of its files are expanded. It printed one line for each file
and changed nothing, and it complained about the messages unless a number was too long for that. -/
structure StoppedAtExpansion (requests : List Text) (tree : FileTree) (files : List File)
    (error : MixinError) (report : Report) : Prop where
  loaded : File.loadAll tree requests = .ok files
  paths : files.map File.path = requests
  failed : expand (File.allEntries files) = .error error
  tree : report.console.tree = tree
  printed : report.console.printed = Text.ofLines (files.map parsedLine)
  ending : report.ending = (RunError.mixin error).ending
  complaint : error ≠ .numberTooLong → report.ending.complaint name =
    Text.ofString "FATAL: " ++ error.message ++ Text.ofString "\n"

/-- The run stopped where its expansions are written, with the error that ended the writing, and
left what was written before. It printed one line for each file and the number of its expansions. -/
structure StoppedAtOutput (settings : Settings) (tree : FileTree) (files : List File)
    (expanded : Dictionary Message) (cause : OutputError) (report : Report) : Prop where
  loaded : File.loadAll tree settings.files = .ok files
  expands : expand (File.allEntries files) = .ok expanded
  written : NotWritten expanded (File.allEntries files) tree cause report.console.tree settings.out
  printed : report.console.printed =
    Text.ofLines (files.map parsedLine ++ [expandedLine expanded])
  ending : report.ending = .escaped (.output cause)

/-- The place where a run stopped before its end. -/
def Stopped (settings : Settings) (tree : FileTree) (report : Report) : Prop :=
  (∃ error, StoppedAtLoad settings.files tree error report) ∨
  (∃ files error, StoppedAtExpansion settings.files tree files error report) ∨
  ∃ files expanded cause, StoppedAtOutput settings tree files expanded cause report

/-- A run fails at the first file that is not loaded. -/
theorem stoppedAtLoad {settings : Settings} {error : LoadError}
    (h : File.loadAll tree settings.files = .error error) :
    StoppedAtLoad settings.files tree error (Report.ofCommand (command settings) tree) := by
  obtain ⟨before, path, after, hfiles, hbefore, hpath⟩ := File.loadAll_eq_error_iff.mp h
  rw [Command.ofCommand_of_error (run_command_of_load_error h)]
  refine ⟨⟨before, path, after, hfiles, hbefore, hpath, ?_⟩, rfl, rfl, ?_⟩
  · intro failure herror
    exact File.path_of_load_eq_failure (herror ▸ hpath)
  · intro failure herror
    rw [herror]
    have hfatal : (RunError.load failure).isFatal := rfl
    exact RunError.complaint_ending hfatal name

/-- A run fails after the announcements where the messages are not expanded. -/
theorem stoppedAtExpansion {settings : Settings} {files : List File} {error : MixinError}
    (hload : File.loadAll tree settings.files = .ok files)
    (hexpand : expand (File.allEntries files) = .error error) :
    StoppedAtExpansion settings.files tree files error
      (Report.ofCommand (command settings) tree) := by
  rw [Command.ofCommand_of_error (run_command_of_expand_error hload hexpand)]
  refine ⟨hload, File.map_path_of_loadAll hload, hexpand, Console.printLines_tree _ _, rfl, rfl, ?_⟩
  intro hshort
  have hfatal : (RunError.mixin error).isFatal := by
    cases error with
    | numberTooLong => exact absurd rfl hshort
    | _ => rfl
  exact RunError.complaint_ending hfatal name

/-- A run finishes, or it stopped where its files are loaded or expanded or where the expansions are
written. -/
theorem report_cases (settings : Settings) (tree : FileTree) :
    (Report.ofCommand (command settings) tree).ending = .finished ∨
      Stopped settings tree (Report.ofCommand (command settings) tree) := by
  cases hload : File.loadAll tree settings.files with
  | error error => exact .inr (.inl ⟨error, stoppedAtLoad hload⟩)
  | ok files =>
      cases hexpand : expand (File.allEntries files) with
      | error error => exact .inr (.inr (.inl ⟨files, error, stoppedAtExpansion hload hexpand⟩))
      | ok expanded =>
          have hrun := run_command_of_expand_ok hload hexpand
          rcases run_finish_cases settings (File.allEntries files) expanded
            (Console.printLines { tree } (files.map parsedLine)) with
            ⟨after, hafter⟩ | ⟨cause, after, hwritten, hafter⟩
          · rw [Command.ofCommand_of_ok (hrun.trans hafter)]
            exact .inl rfl
          · rw [Command.ofCommand_of_error (hrun.trans hafter)]
            refine .inr (.inr (.inr ⟨files, expanded, cause, hload, hexpand, hwritten, ?_, rfl⟩))
            exact (Text.ofLines_append ..).symm

/-- A run that stopped before its output leaves the file tree as it was. -/
theorem Stopped.tree_eq {settings : Settings} {report : Report} (h : Stopped settings tree report)
    (houtput : ¬ report.EscapesOutput) : report.console.tree = tree := by
  rcases h with ⟨error, h⟩ | ⟨files, error, h⟩ | ⟨files, expanded, cause, h⟩
  · rw [h.console]
  · exact h.tree
  · exact absurd ⟨cause, h.ending⟩ houtput

/-- A run that fails stopped at its arguments, or after it had settings. -/
theorem stopped_of_isFailure {arguments : List Text} (h : (run arguments tree).IsFailure) :
    (∃ stop, run arguments tree = .ofStop tree stop) ∨
      ∃ settings, ExpandProgram.settings arguments = .ok settings ∧
        Stopped settings tree (run arguments tree) := by
  revert h
  unfold run
  cases settings arguments with
  | error stop => exact fun _ => .inl ⟨stop, rfl⟩
  | ok settings =>
      intro hfailure
      refine .inr ⟨settings, rfl, (report_cases settings tree).resolve_left fun hfinished => ?_⟩
      exact Report.not_isFailure_of_finished hfinished hfailure

end ExpandProgram

namespace OutlineProgram

variable {settings : Settings} {directory : Text} {files : List FileDescriptor}
  {console after : Console}

/-- The line about a written outline. -/
def generatedLine (directory : Text) (file : FileDescriptor) : Text :=
  Text.ofString "  Generated: " ++ Outline.outputPath file.name directory

/-- Write the outline of a compiled file into a directory. -/
def write (naming : NamingOptions) (directory : Text) (file : FileDescriptor) : FileAction Unit :=
  writeOutline directory (Outline.outputPath file.name directory) (outlineOf naming file)

/-- The run stopped where its files are found. It printed nothing and changed nothing, and it
complained if its error is a load failure. -/
structure StoppedAtFiles (settings : Settings) (compiler : Compiler)
    (reader : DescriptorSet.Reader) (tree : FileTree) (error : LoadError) (report : Report) :
    Prop where
  missing : settings.find compiler reader tree = .error error
  console : report.console = { tree }
  ending : report.ending = (RunError.ofLoad error).ending
  complaint : ∀ failure, error = .failure failure →
    report.ending.complaint name =
      Text.ofString "FATAL: " ++ failure.message ++ Text.ofString "\n"

/-- The first of these files are written into the directory and announced, and writing the next one
fails. -/
def WritesUpTo (naming : NamingOptions) (directory : Text) (files : List FileDescriptor)
    (before : Console) (cause : OutputError) (after : Console) : Prop :=
  ∃ written file rest middle, files = written ++ file :: rest ∧
    (written.forM (write naming directory)).run.run before.tree = (.ok (), middle) ∧
    (write naming directory file).run.run middle = (.error cause, after.tree) ∧
    after.printed = before.printed ++ Text.ofLines (written.map (generatedLine directory))

/-- The run stopped where an outline is written, and left the outlines written before. It announced
these and printed nothing else. -/
structure StoppedAtOutput (settings : Settings) (compiler : Compiler)
    (reader : DescriptorSet.Reader) (tree : FileTree) (files : List FileDescriptor)
    (directory : Text) (cause : OutputError) (report : Report) : Prop where
  found : settings.find compiler reader tree = .ok files
  target : settings.out = some directory
  written : WritesUpTo settings.naming directory files { tree } cause report.console
  ending : report.ending = .escaped (.output cause)

/-- The place where a run stopped before its end. -/
def Stopped (settings : Settings) (compiler : Compiler) (reader : DescriptorSet.Reader)
    (tree : FileTree) (report : Report) : Prop :=
  (∃ error, StoppedAtFiles settings compiler reader tree error report) ∨
  ∃ files directory cause,
    StoppedAtOutput settings compiler reader tree files directory cause report

/-- Outlines that are printed are all printed. -/
theorem run_forM_emit (hout : settings.out = none) (files : List FileDescriptor)
    (console : Console) :
    (files.forM (emit settings)).run.run console =
      (.ok (), console.printLines (files.map (outlineOf settings.naming))) := by
  have hemit : emit settings = fun file => Command.printLine (outlineOf settings.naming file) := by
    funext file
    rw [emit, hout]
  rw [hemit]
  exact Command.run_forM_printLine (outlineOf settings.naming) files console

/-- A written outline is announced. -/
theorem emit_of_out (hout : settings.out = some directory) (file : FileDescriptor) :
    emit settings file = Command.onFiles (write settings.naming directory file) >>= fun _ =>
      Command.printLine (generatedLine directory file) := by
  rw [emit, hout]
  rfl

/-- Outlines that are written are all written, or one of them is not. -/
theorem run_forM_emit_cases (hout : settings.out = some directory) (files : List FileDescriptor)
    (console : Console) :
    (∃ after, (files.forM (emit settings)).run.run console = (.ok (), after)) ∨
    ∃ cause after, (files.forM (emit settings)).run.run console = (.error (.output cause), after) ∧
      WritesUpTo settings.naming directory files console cause after := by
  induction files generalizing console with
  | nil => exact .inl ⟨console, rfl⟩
  | cons file files ih =>
      rw [List.forM, emit_of_out hout]
      cases hwrite : (write settings.naming directory file).run.run console.tree with
      | mk outcome middle =>
          cases outcome with
          | error cause =>
              have hfailed := Command.run_onFiles_of_error hwrite
              refine .inr ⟨cause, _, run_bind_of_error (run_bind_of_error hfailed), ?_⟩
              refine ⟨[], file, files, console.tree, rfl, rfl, hwrite, ?_⟩
              exact (List.append_nil _).symm
          | ok value =>
              have hdone : (Command.onFiles (write settings.naming directory file) >>= fun _ =>
                  Command.printLine (generatedLine directory file)).run.run console = _ :=
                (run_bind_of_ok (Command.run_onFiles_of_ok hwrite)).trans
                  (Command.run_printLine _ _)
              rw [run_bind_of_ok hdone]
              refine (ih _).imp_right ?_
              rintro ⟨cause, after, hafter, written, failed, rest, last, rfl, hwritten, hfailed,
                hprinted⟩
              refine ⟨cause, after, hafter, file :: written, failed, rest, last, rfl, ?_, hfailed,
                ?_⟩
              · rw [List.forM]
                exact (run_bind_of_ok hwrite).trans hwritten
              · have hlines : Text.ofLines ((file :: written).map (generatedLine directory)) =
                    Text.ofLines [generatedLine directory file] ++
                      Text.ofLines (written.map (generatedLine directory)) :=
                  Text.ofLines_append [_] _
                rw [hprinted, hlines, ← List.append_assoc]
                rfl

/-- A run finishes, or it stopped where its files are found or where an outline is written. -/
theorem report_cases (settings : Settings) (compiler : Compiler) (reader : DescriptorSet.Reader)
    (tree : FileTree) :
    (Report.ofCommand (command settings compiler reader) tree).ending = .finished ∨
      Stopped settings compiler reader tree
        (Report.ofCommand (command settings compiler reader) tree) := by
  have hcommand : (command settings compiler reader).run.run { tree } =
      (Command.orFail RunError.ofLoad (settings.find compiler reader tree) >>= fun files =>
        files.forM (emit settings)).run.run { tree } := rfl
  cases hfind : settings.find compiler reader tree with
  | error error =>
      rw [hfind, run_bind_of_error (Command.run_orFail_error ..)] at hcommand
      rw [Command.ofCommand_of_error hcommand]
      refine .inr (.inl ⟨error, hfind, rfl, rfl, ?_⟩)
      intro failure hfailure
      rw [hfailure]
      have hfatal : (RunError.load failure).isFatal := rfl
      exact RunError.complaint_ending hfatal name
  | ok files =>
      rw [hfind, run_bind_of_ok (Command.run_orFail_ok ..)] at hcommand
      cases hout : settings.out with
      | none =>
          rw [Command.ofCommand_of_ok (hcommand.trans (run_forM_emit hout files _))]
          exact .inl rfl
      | some directory =>
          rcases run_forM_emit_cases hout files { tree } with
            ⟨after, hafter⟩ | ⟨cause, after, hafter, hwritten⟩
          · rw [Command.ofCommand_of_ok (hcommand.trans hafter)]
            exact .inl rfl
          · rw [Command.ofCommand_of_error (hcommand.trans hafter)]
            exact .inr (.inr ⟨files, directory, cause, hfind, hout, hwritten, rfl⟩)

/-- A run that stopped before its output leaves the file tree as it was and has printed nothing. -/
theorem Stopped.console_eq {compiler : Compiler} {reader : DescriptorSet.Reader} {report : Report}
    (h : Stopped settings compiler reader tree report) (houtput : ¬ report.EscapesOutput) :
    report.console = { tree } := by
  rcases h with ⟨error, h⟩ | ⟨files, directory, cause, h⟩
  · exact h.console
  · exact absurd ⟨cause, h.ending⟩ houtput

/-- A run that fails stopped at its arguments, or after it had settings. -/
theorem stopped_of_isFailure {arguments : List Text} {compiler : Compiler}
    {reader : DescriptorSet.Reader} (h : (run arguments compiler reader tree).IsFailure) :
    (∃ stop, run arguments compiler reader tree = .ofStop tree stop) ∨
      ∃ settings, OutlineProgram.settings arguments = .ok settings ∧
        Stopped settings compiler reader tree (run arguments compiler reader tree) := by
  revert h
  unfold run
  cases OutlineProgram.settings arguments with
  | error stop => exact fun _ => .inl ⟨stop, rfl⟩
  | ok settings =>
      intro hfailure
      refine .inr ⟨settings, rfl, ?_⟩
      refine (report_cases settings compiler reader tree).resolve_left fun hfinished => ?_
      exact Report.not_isFailure_of_finished hfinished hfailure

end OutlineProgram

/-- A run of either program that ends with status one or two has changed nothing in the file tree,
unless an error of its output ended it, and then a run of the outline program has not printed
anything either. A run that ends with status one stopped at its inputs or in its output: the
expansion program at the first file that is not loaded, where the messages are expanded or where the
expansions are written, and the outline program where its files are found or where an outline is
written. -/
theorem failed_runs_change_nothing (arguments : List Text) (compiler : OutlineProgram.Compiler)
    (reader : DescriptorSet.Reader) (tree : FileTree) :
    ((ExpandProgram.run arguments tree).IsFailure →
      ¬ (ExpandProgram.run arguments tree).EscapesOutput →
      (ExpandProgram.run arguments tree).console.tree = tree) ∧
    ((OutlineProgram.run arguments compiler reader tree).IsFailure →
      ¬ (OutlineProgram.run arguments compiler reader tree).EscapesOutput →
      (OutlineProgram.run arguments compiler reader tree).console = { tree }) ∧
    ((ExpandProgram.run arguments tree).ending.exitStatus = 1 →
      ∃ settings, ExpandProgram.settings arguments = .ok settings ∧
        ExpandProgram.Stopped settings tree (ExpandProgram.run arguments tree)) ∧
    ((OutlineProgram.run arguments compiler reader tree).ending.exitStatus = 1 →
      ∃ settings, OutlineProgram.settings arguments = .ok settings ∧
        OutlineProgram.Stopped settings compiler reader tree
          (OutlineProgram.run arguments compiler reader tree)) := by
  refine ⟨?_, ?_, ?_, ?_⟩
  · intro hfailure hsilent
    rcases ExpandProgram.stopped_of_isFailure hfailure with ⟨stop, hstop⟩ | ⟨settings, -, hstopped⟩
    · rw [hstop, Report.ofStop_console]
    · exact hstopped.tree_eq hsilent
  · intro hfailure hsilent
    rcases OutlineProgram.stopped_of_isFailure hfailure with ⟨stop, hstop⟩ | ⟨settings, -, hstopped⟩
    · rw [hstop, Report.ofStop_console]
    · exact hstopped.console_eq hsilent
  · intro hstatus
    rcases ExpandProgram.stopped_of_isFailure (.inl hstatus) with ⟨stop, hstop⟩ | hstopped
    · exact absurd (hstop ▸ hstatus) (Report.ofStop_exitStatus tree stop)
    · exact hstopped
  · intro hstatus
    rcases OutlineProgram.stopped_of_isFailure (.inl hstatus) with ⟨stop, hstop⟩ | hstopped
    · exact absurd (hstop ▸ hstatus) (Report.ofStop_exitStatus tree stop)
    · exact hstopped

/-- A tree with one file, in which a message takes a mixin that is declared nowhere. -/
def lostMixin : FileTree :=
  { nodes := [(["a.proto"], .file (Utf8.encode
      "message A \x7b option (ts_proto_options.mixins) = \"M\"; \x7d"))] }

/-- A compiler that is not there. -/
def noCompiler : OutlineProgram.Compiler where
  run _ := .missing
  working := []
  target := []

/-- A set of two files as bytes: each file is a record that holds its name. -/
def twoNames : List UInt8 :=
  Utf8.encode "\n\t\n\x07a.proto\n\t\n\x07b.proto"

/-- A reader of sets that knows this one. -/
def twoNamesReader : DescriptorSet.Reader := fun bytes =>
  if bytes = twoNames then .ok [{ name := "a.proto" }, { name := "b.proto" }]
  else .error "Error parsing message"

/-- The arguments that name this file. -/
def lostMixinArguments : List Text :=
  ["a.proto", "--out", "gen"]

/-- Both programs fail on this tree and leave it as it was. -/
theorem failed_runs_lostMixin :
    (((ExpandProgram.run lostMixinArguments lostMixin).ending.exitStatus = 1 ∧
        ¬ (ExpandProgram.run lostMixinArguments lostMixin).EscapesOutput) ∧
      (OutlineProgram.run lostMixinArguments noCompiler twoNamesReader
        lostMixin).ending.exitStatus = 1 ∧
      ¬ (OutlineProgram.run lostMixinArguments noCompiler twoNamesReader lostMixin).EscapesOutput) ∧
    (ExpandProgram.run lostMixinArguments lostMixin).console.tree = lostMixin ∧
    (OutlineProgram.run lostMixinArguments noCompiler twoNamesReader lostMixin).console =
      { tree := lostMixin } := by
  have hexpand : (ExpandProgram.run lostMixinArguments lostMixin).ending =
      .failed (.mixin (.notFound "M" "A")) := by
    decide +kernel
  have houtline : (OutlineProgram.run lostMixinArguments noCompiler twoNamesReader
      lostMixin).ending = .failed (.load ⟨"a.proto", .compilerMissing "protoc"⟩) := by
    decide +kernel
  have hfirst := Report.fails_of_failed hexpand
  have hsecond := Report.fails_of_failed houtline
  obtain ⟨htree, hconsole, -, -⟩ :=
    failed_runs_change_nothing lostMixinArguments noCompiler twoNamesReader lostMixin
  exact ⟨⟨hfirst, hsecond⟩, htree (.inl hfirst.1) hfirst.2, hconsole (.inl hsecond.1) hsecond.2⟩

/-- A tree with a stored set of two files, and a directory where the outline of the second one goes.
-/
def blockedOutline : FileTree :=
  { nodes := [(["set"], .file twoNames), (["out"], .directory),
      (["out", "b.outline.txt"], .directory)] }

/-- Both programs end with status one and leave the output for their first file behind: the
expansion program where the second file has a number that is too long to be written, and the outline
program, which has announced it too, where the second outline cannot be written. -/
theorem failed_runs_leave_output :
    let expansion := ExpandProgram.run ["a.proto", "b.proto", "--out", "out"]
      (ExpandProgram.withSecond ExpandProgram.longInput)
    let outline := OutlineProgram.run ["--descriptor-set", "set", "--out", "out"] noCompiler
      twoNamesReader blockedOutline
    (expansion.ending.exitStatus = 1 ∧
      (ExpandProgram.withSecond ExpandProgram.longInput).find? ["out", "a.proto"] = none ∧
      expansion.console.tree.find? ["out", "a.proto"] =
        some (.file (Utf8.encode ExpandProgram.mixinOutput))) ∧
    outline.ending.exitStatus = 1 ∧
    outline.console.printed = "  Generated: out/a.outline.txt\n" ∧
    blockedOutline.find? ["out", "a.outline.txt"] = none ∧
    outline.console.tree.find? ["out", "a.outline.txt"] =
      some (.file (Utf8.encode "# a.proto\n\n")) := by
  decide +kernel

end ProtoSchema
