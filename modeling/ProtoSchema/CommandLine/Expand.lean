import ProtoSchema.CommandLine.Report

/-!
# The expansion program

Loads schema files, expands the messages that declare mixins and writes the expansions into an
output directory. All files are loaded before anything is printed, and everything is expanded before
anything is written.
-/

namespace ProtoSchema.ExpandProgram

/-- The name of the program. -/
def name : Text := Text.ofString "protoc-expand"

/-- The option for the output directory. -/
def outRule : Arguments.OptionRule :=
  ⟨[Text.ofString "--out"], .value, true⟩

/-- The command line of the program. -/
def rules : Arguments.Rules where
  options := [Arguments.helpRule, outRule]
  positionals := Text.ofString "files"
  required := true

/-- What the program is asked to do. The output directory is missing if its option is given without
a value. -/
structure Settings where
  files : List Text
  out : Option Text

/-- The settings of a command line. -/
def settings (arguments : List Text) : Except Arguments.Stop Settings := do
  let parsed ← Arguments.parse rules arguments
  return ⟨parsed.positionals.getD [], parsed.value? outRule⟩

/-- A count as a text. -/
def countText (count : Nat) : Text :=
  Text.ofString (toString count)

/-- The entries of the loaded files, each file announced with the number of its entries. -/
def announce (files : List File) : Command (List Entry) := do
  let perFile ← files.mapM fun file => do
    let entries := file.entries
    Command.printLine (Text.ofString "  Parsed " ++ file.path ++ Text.ofString ": " ++
      countText entries.length ++ Text.ofString " message(s)")
    return entries
  return perFile.flatten

/-- Write the expansions and announce the written files. -/
def writeOut (expanded : Dictionary Message) (entries : List Entry) (out : Option Text) :
    Command Unit := do
  Command.printLine
    (Text.ofString "Expanded " ++ countText expanded.length ++ Text.ofString " message(s)")
  match out with
  | none => throw (.output .noDirectory)
  | some directory =>
      let paths ← Command.onFiles (Expansion.writeAll expanded entries directory)
      paths.forM fun path => Command.printLine (Text.ofString "  Generated: " ++ path)

/-- Load, expand and write. -/
def command (settings : Settings) : Command Unit := do
  let files ← Command.orFail RunError.ofLoad (File.loadAll (← Command.tree) settings.files)
  let entries ← announce files
  let expanded ← Command.orFail RunError.mixin (expand entries)
  if expanded.isEmpty then
    Command.printLine (Text.ofString "No messages declare mixins; nothing to write.")
  else writeOut expanded entries settings.out
  Command.printLine (Text.ofString "Expansion complete")

/-- Run the program. -/
def run (arguments : List Text) (tree : FileTree) : Report :=
  match settings arguments with
  | .error stop => .ofStop tree stop
  | .ok settings => .ofCommand (command settings) tree

end ProtoSchema.ExpandProgram
