import ProtoSchema.CommandLine.Report
import ProtoSchema.Load.DescriptorSet
import ProtoSchema.Outline.Basic

/-!
# The outline program

Prints or writes the outlines of compiled files. The files come from a stored descriptor set or from
a run of the compiler, which are both read by a library that is not part of the program. All files
are found before anything is printed or written.
-/

namespace ProtoSchema.OutlineProgram

/-- The name of the program. -/
def name : Text := Text.ofString "protoc-outline"

/-- The option for a directory to search for imports. -/
def includeRule : Arguments.OptionRule :=
  ⟨[Text.ofString "-I", Text.ofString "--proto-path"], .value, false⟩

/-- The option for a stored descriptor set. -/
def descriptorSetRule : Arguments.OptionRule :=
  ⟨[Text.ofString "--descriptor-set"], .value, false⟩

/-- The option for camel case. -/
def snakeToCamelRule : Arguments.OptionRule :=
  ⟨[Text.ofString "--snake-to-camel"], .flag, false⟩

/-- The option for underscores between nested names. -/
def snakeTypeNamesRule : Arguments.OptionRule :=
  ⟨[Text.ofString "--snake-type-names"], .flag, false⟩

/-- The option for the text before every type name. -/
def beforeRule : Arguments.OptionRule :=
  ⟨[Text.ofString "--type-prefix"], .value, false⟩

/-- The option for the text after every type name. -/
def behindRule : Arguments.OptionRule :=
  ⟨[Text.ofString "--type-suffix"], .value, false⟩

/-- The option for the output directory. -/
def outRule : Arguments.OptionRule :=
  ⟨[Text.ofString "--out"], .value, false⟩

/-- The command line of the program. -/
def rules : Arguments.Rules where
  options :=
    [Arguments.helpRule, includeRule, descriptorSetRule, snakeToCamelRule, snakeTypeNamesRule,
      beforeRule, behindRule, outRule]
  positionals := Text.ofString "files"
  required := false

/-- What the program is asked to do. A descriptor set or an output directory with an empty name
counts as none. -/
structure Settings where
  files : List Text
  includes : List Text
  descriptorSet : Option Text
  naming : NamingOptions
  out : Option Text

/-- A text that is not empty. -/
def nonempty (text : Option Text) : Option Text :=
  text.filter fun value => !value.isEmpty

/-- The settings of a command line. -/
def settings (arguments : List Text) : Except Arguments.Stop Settings := do
  let parsed ← Arguments.parse rules arguments
  let files := parsed.positionals.getD []
  let descriptorSet := nonempty (parsed.value? descriptorSetRule)
  if files.isEmpty && descriptorSet.isNone then .error (.refused .noInput)
  else
    return {
      files
      includes := parsed.values includeRule
      descriptorSet
      naming :=
        { snakeToCamel := parsed.has snakeToCamelRule
          snakeTypeNames := parsed.has snakeTypeNamesRule
          before := parsed.valueText beforeRule
          behind := parsed.valueText behindRule }
      out := nonempty (parsed.value? outRule) }

/-- The compilation that the settings ask for, where they name no stored set. -/
def Settings.compilation (settings : Settings) : Compilation :=
  { includes := settings.includes, paths := settings.files }

/-- How the compiler behaves: the run that a command line causes, and the file that it is told to
write. -/
structure Compiler where
  run : List Text → CompilerRun
  working : Text
  target : Text

/-- The files that the requests pick from a set. -/
def selectFiles (files : DescriptorSet) (requests : List Text) :
    Except LoadError (List FileDescriptor) :=
  match files.select requests with
  | .ok found => .ok (found.map Prod.fst)
  | .error failure => .error (.failure failure)

/-- The set that the settings ask for: a stored one, or one that the compiler writes. -/
def Settings.findSet (settings : Settings) (compiler : Compiler) (reader : DescriptorSet.Reader)
    (tree : FileTree) : Except LoadError DescriptorSet :=
  match settings.descriptorSet with
  | some path => DescriptorSet.load reader tree path
  | none =>
      settings.compilation.result reader compiler.target
        (compiler.run (settings.compilation.arguments compiler.working compiler.target))

/-- The compiled files that the settings ask for. A stored set without requests counts in full. -/
def Settings.find (settings : Settings) (compiler : Compiler) (reader : DescriptorSet.Reader)
    (tree : FileTree) : Except LoadError (List FileDescriptor) := do
  let files ← settings.findSet compiler reader tree
  if settings.descriptorSet.isSome && settings.files.isEmpty then return files
  else selectFiles files settings.files

/-- The outline of a compiled file. -/
def outlineOf (naming : NamingOptions) (file : FileDescriptor) : Text :=
  Outline.render file.name file.package (Outline.build file naming)

/-- Write an outline into a directory. -/
def writeOutline (directory path text : Text) : FileAction Unit := do
  FileAction.makeDirectories directory
  FileAction.writeText path text

/-- Print or write the outline of a compiled file. -/
def emit (settings : Settings) (file : FileDescriptor) : Command Unit := do
  let text := outlineOf settings.naming file
  match settings.out with
  | none => Command.printLine text
  | some directory =>
      let path := Outline.outputPath file.name directory
      Command.onFiles (writeOutline directory path text)
      Command.printLine (Text.ofString "  Generated: " ++ path)

/-- Find the files, then print or write their outlines. -/
def command (settings : Settings) (compiler : Compiler) (reader : DescriptorSet.Reader) :
    Command Unit := do
  let files ← Command.orFail RunError.ofLoad (settings.find compiler reader (← Command.tree))
  files.forM (emit settings)

/-- Run the program. -/
def run (arguments : List Text) (compiler : Compiler) (reader : DescriptorSet.Reader)
    (tree : FileTree) : Report :=
  match settings arguments with
  | .error stop => .ofStop tree stop
  | .ok settings => .ofCommand (command settings compiler reader) tree

end ProtoSchema.OutlineProgram
