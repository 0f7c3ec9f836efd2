import ProtoSchema.CommandLine.Arguments
import ProtoSchema.Load.SchemaFile
import ProtoSchema.Mixin.Output

/-!
# Running commands

A command reads and writes a file tree and prints lines. It ends in one of five ways: it finishes,
it shows its help, it refuses its arguments, it reports a fatal error of its inputs, or another
error escapes it. A fatal error and one that escapes give the same exit status. What the command
printed and wrote before an error stays.
-/

namespace ProtoSchema

/-- An error that ends a command. -/
inductive RunError where
  | load (failure : LoadFailure)
  | literal (error : ParseError)
  | path (error : PathError)
  | compiler (message : Text)
  | mixin (error : MixinError)
  | output (error : OutputError)
  deriving DecidableEq

namespace RunError

/-- The message of an error. -/
def message : RunError → Text
  | load failure => failure.message
  | literal error => error.message
  | path error => error.message
  | compiler message => message
  | mixin error => error.message
  | output (.file error) => error.message
  | output .numberTooLong => numberTooLongMessage
  | output .noDirectory => Text.ofString "expected str, bytes or os.PathLike object, not list"

/-- The command reports the error itself: an input does not load or does not expand. -/
def isFatal : RunError → Bool
  | load _ => true
  | mixin .numberTooLong => false
  | mixin _ => true
  | literal _ => false
  | path _ => false
  | compiler _ => false
  | output _ => false

/-- The error of an input that cannot be loaded. -/
def ofLoad : LoadError → RunError
  | .failure failure => load failure
  | .literal error => literal error
  | .path error => path error
  | .compiler message => compiler message

end RunError

/-- What a running command has done so far: the file tree and the text it printed. -/
structure Console where
  tree : FileTree
  printed : Text := []

/-- A command that is run for its effects on the console. -/
abbrev Command := ExceptT RunError (StateM Console)

namespace Command

/-- Print a line. The console shows every text. -/
def printLine (line : Text) : Command Unit := fun console =>
  (.ok (), { console with printed := console.printed ++ line ++ Text.ofString "\n" })

/-- The file tree as it is. -/
def tree : Command FileTree := fun console =>
  (.ok console.tree, console)

/-- Act on the file tree. -/
def onFiles {α : Type} (action : FileAction α) : Command α := fun console =>
  match action.run.run console.tree with
  | (.ok value, changed) => (.ok value, { console with tree := changed })
  | (.error error, changed) => (.error (.output error), { console with tree := changed })

/-- The value of a result, whose error ends the command. -/
def orFail {ε α : Type} (toError : ε → RunError) : Except ε α → Command α
  | .ok value => pure value
  | .error error => throw (toError error)

end Command

/-- How a command ends. -/
inductive Ending where
  | finished
  | helped
  | misused (error : Arguments.UsageError)
  | failed (error : RunError)
  | escaped (error : RunError)
  deriving DecidableEq

/-- The exit status of an ending. -/
def Ending.exitStatus : Ending → Nat
  | finished => 0
  | helped => 0
  | misused _ => 2
  | failed _ => 1
  | escaped _ => 1

/-- What a program of this name writes to its error stream at its end. An error that escapes is not
shown by the program itself. -/
def Ending.complaint (program : Text) : Ending → Text
  | misused error => program ++ Text.ofString ": error: " ++ error.message
  | failed error => Text.ofString "FATAL: " ++ error.message ++ Text.ofString "\n"
  | _ => []

/-- The outcome of a program: how it ended and what it left on the console. -/
structure Report where
  ending : Ending
  console : Console

namespace Report

/-- The report of a program that stopped at its arguments. -/
def ofStop (tree : FileTree) : Arguments.Stop → Report
  | .help => ⟨.helped, { tree }⟩
  | .refused error => ⟨.misused error, { tree }⟩

/-- The report of a command run on a file tree. -/
def ofCommand (command : Command Unit) (tree : FileTree) : Report :=
  match command.run.run { tree } with
  | (.ok (), console) => ⟨.finished, console⟩
  | (.error error, console) => ⟨if error.isFatal then .failed error else .escaped error, console⟩

end Report

end ProtoSchema
