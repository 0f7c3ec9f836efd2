import ProtoSchema.CommandLine.Report
import ProtoSchema.Proofs.Outcome

/-!
# Running the steps of a command

What the steps of a command do to the console. Printing lines adds them to what is printed and
touches no file. An action on files changes the tree only, and fails with an error of the output.
-/

namespace ProtoSchema

/-- Lines as a text, each with a line feed. -/
def Text.ofLines (lines : List Text) : Text :=
  lines.flatMap fun line => line ++ Text.ofString "\n"

/-- The text of more lines. -/
@[simp] theorem Text.ofLines_append (first rest : List Text) :
    Text.ofLines (first ++ rest) = Text.ofLines first ++ Text.ofLines rest :=
  List.flatMap_append

/-- How a command ends with an error. -/
def RunError.ending (error : RunError) : Ending :=
  if error.isFatal then .failed error else .escaped error

namespace Console

/-- The console after these lines are printed. -/
def printLines (console : Console) (lines : List Text) : Console :=
  { console with printed := console.printed ++ Text.ofLines lines }

/-- Printing lines touches no file. -/
@[simp] theorem printLines_tree (console : Console) (lines : List Text) :
    (console.printLines lines).tree = console.tree := rfl

/-- Printing no lines changes nothing. -/
@[simp] theorem printLines_nil (console : Console) : console.printLines [] = console := by
  rw [printLines, Text.ofLines, List.flatMap_nil, List.append_nil]

/-- Lines printed one after the other. -/
@[simp] theorem printLines_printLines (console : Console) (first rest : List Text) :
    (console.printLines first).printLines rest = console.printLines (first ++ rest) := by
  rw [printLines, printLines, printLines, Text.ofLines_append, List.append_assoc]

end Console

namespace Command

variable {α β ε : Type} {console after : Console}

/-- Printing a line adds it. -/
theorem run_printLine (line : Text) (console : Console) :
    (printLine line).run.run console = (.ok (), console.printLines [line]) := by
  rw [Console.printLines, Text.ofLines, List.flatMap_cons, List.flatMap_nil, List.append_nil,
    ← List.append_assoc]
  rfl

/-- Printing a line for every item adds these lines in order. -/
theorem run_forM_printLine (line : α → Text) (items : List α) (console : Console) :
    (items.forM fun item => printLine (line item)).run.run console =
      (.ok (), console.printLines (items.map line)) := by
  induction items generalizing console with
  | nil => rw [List.map_nil, Console.printLines_nil]; rfl
  | cons item items ih =>
      rw [List.forM, run_bind_of_ok (run_printLine _ console), ih, Console.printLines_printLines]
      rfl

/-- The value of a result that is there. -/
theorem run_orFail_ok (toError : ε → RunError) (value : α) (console : Console) :
    (orFail toError (.ok value)).run.run console = (.ok value, console) := rfl

/-- The error of a result ends the command and leaves the console as it is. -/
theorem run_orFail_error (toError : ε → RunError) (error : ε) (console : Console) :
    (orFail toError (.error error) : Command α).run.run console =
      (.error (toError error), console) := rfl

/-- An action on files that succeeds changes the tree only. -/
theorem run_onFiles_of_ok {action : FileAction α} {value : α} {tree : FileTree}
    (h : action.run.run console.tree = (.ok value, tree)) :
    (onFiles action).run.run console = (.ok value, { console with tree }) := by
  show onFiles action console = _
  rw [onFiles, h]

/-- An action on files that fails ends the command and changes the tree only. -/
theorem run_onFiles_of_error {action : FileAction α} {cause : OutputError} {tree : FileTree}
    (h : action.run.run console.tree = (.error cause, tree)) :
    (onFiles action).run.run console = (.error (.output cause), { console with tree }) := by
  show onFiles action console = _
  rw [onFiles, h]

/-- The report of a command that succeeds. -/
theorem ofCommand_of_ok {command : Command Unit} {tree : FileTree}
    (h : command.run.run { tree } = (.ok (), after)) :
    Report.ofCommand command tree = ⟨.finished, after⟩ := by
  rw [Report.ofCommand, h]

/-- The report of a command that fails. -/
theorem ofCommand_of_error {command : Command Unit} {tree : FileTree} {error : RunError}
    (h : command.run.run { tree } = (.error error, after)) :
    Report.ofCommand command tree = ⟨error.ending, after⟩ := by
  rw [Report.ofCommand, h]
  rfl

end Command

end ProtoSchema
