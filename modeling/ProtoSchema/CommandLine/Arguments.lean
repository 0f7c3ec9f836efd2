import ProtoSchema.Text.Letter
import ProtoSchema.Text.Lines
import ProtoSchema.Text.Quoted

/-!
# Command-line arguments

The reading of a command line by a description of its options. Every argument is classified first:
an option may be abbreviated, may carry its value after an equals sign, and a short option also
right after its letter; after a lone double dash nothing is an option any more. Then the options
take their values in order, and the positional arguments are the first run of arguments that belongs
to no option. A lone double dash is never a value: an option that carries it is given without one.
-/

namespace ProtoSchema.Arguments

/-- What an option does: it asks for help, it is set, or it takes a value. -/
inductive OptionKind where
  | help
  | flag
  | value
  deriving DecidableEq

/-- An option: its spellings and what it does. -/
structure OptionRule where
  names : List Text
  kind : OptionKind
  required : Bool := false
  deriving DecidableEq

/-- A command line: its options, the name of its positional arguments, and whether one is needed. -/
structure Rules where
  options : List OptionRule
  positionals : Text
  required : Bool

/-- Why a command line is refused. -/
inductive UsageError where
  | ambiguous (given : Text) (names : List Text)
  | valueExpected (names : List Text)
  | valueIgnored (names : List Text) (value : Text)
  | missing (names : List Text)
  | unrecognized (arguments : List Text)
  | noInput
  deriving DecidableEq

/-- The spellings of an option as one name. -/
def optionLabel (names : List Text) : Text :=
  Text.join (Text.ofString "/") names

/-- The message of an error. -/
def UsageError.message : UsageError → Text
  | ambiguous given names =>
      Text.ofString "ambiguous option: " ++ given ++ Text.ofString " could match " ++
        Text.join (Text.ofString ", ") names
  | valueExpected names =>
      Text.ofString "argument " ++ optionLabel names ++ Text.ofString ": expected one argument"
  | valueIgnored names value =>
      Text.ofString "argument " ++ optionLabel names ++
        Text.ofString ": ignored explicit argument " ++ Text.quoted value
  | missing names =>
      Text.ofString "the following arguments are required: " ++
        Text.join (Text.ofString ", ") names
  | unrecognized arguments =>
      Text.ofString "unrecognized arguments: " ++ Text.join (Text.ofString " ") arguments
  | noInput => Text.ofString "either input files or --descriptor-set is required"

/-- Why reading the arguments stops: help is asked for, or they are refused. -/
inductive Stop where
  | help
  | refused (error : UsageError)
  deriving DecidableEq

/-- An argument that is an option, by the spelling that it matches. `attached` is the value that
stands in the same argument. -/
structure OptionMatch where
  rule : OptionRule
  name : Text
  attached : Option Text
  deriving DecidableEq

/-- A classified argument. -/
inductive Piece where
  | plain (argument : Text)
  | separator
  | option (found : OptionMatch)
  | unknown (argument : Text)
  deriving DecidableEq

/-- The code point that starts options. -/
def dash : CodePoint := '-'

/-- The lone double dash. -/
def separatorText : Text := [dash, dash]

namespace Rules

/-- Every spelling of an option, with the option. -/
def spellings (rules : Rules) : List (Text × OptionRule) :=
  rules.options.flatMap fun rule => rule.names.map fun name => (name, rule)

/-- The option with exactly this spelling. -/
def named? (rules : Rules) (name : Text) : Option OptionRule :=
  (rules.spellings.find? fun spelling => spelling.1 = name).map Prod.snd

end Rules

/-- The part before the first equals sign and, if there is one, the part after it. -/
def splitEquals (argument : Text) : Text × Option Text :=
  let name := argument.takeWhile fun c => c ≠ CodePoint.ofChar '='
  match argument.drop name.length with
  | [] => (name, none)
  | _ :: value => (name, some value)

/-- The argument is a negative number. -/
def isNegativeNumber (argument : Text) : Bool :=
  let isDecimal (c : CodePoint) := c.decimalValue?.isSome
  match argument with
  | [] => false
  | c :: rest =>
      let body := if rest.getLast? = some (CodePoint.ofChar '\n') then rest.dropLast else rest
      let fraction := body.dropWhile isDecimal
      c = dash &&
        (match fraction with
        | [] => !body.isEmpty
        | point :: digits =>
            point = CodePoint.ofChar '.' && !digits.isEmpty && digits.all isDecimal)

/-- The options that an argument with two leading dashes abbreviates. -/
def longMatches (rules : Rules) (argument : Text) : List OptionMatch :=
  let (name, value) := splitEquals argument
  (rules.spellings.filter fun spelling => Text.startsWith spelling.1 name).map fun spelling =>
    ⟨spelling.2, spelling.1, value⟩

/-- The options that an argument with one leading dash starts with or abbreviates. -/
def shortMatches (rules : Rules) (argument : Text) : List OptionMatch :=
  rules.spellings.filterMap fun spelling =>
    if spelling.1 = argument.take 2 then
      some ⟨spelling.2, spelling.1, some (argument.drop 2)⟩
    else if Text.startsWith spelling.1 argument then some ⟨spelling.2, spelling.1, none⟩
    else none

/-- The options that an argument may stand for. -/
def possibleMatches (rules : Rules) (argument : Text) : List OptionMatch :=
  if Text.startsWith argument separatorText then longMatches rules argument
  else shortMatches rules argument

/-- The option that an argument spells out, with its value after an equals sign. -/
def exactMatch? (rules : Rules) (argument : Text) : Option OptionMatch :=
  match rules.named? argument with
  | some rule => some ⟨rule, argument, none⟩
  | none =>
      match splitEquals argument with
      | (name, some value) => (rules.named? name).map fun rule => ⟨rule, name, some value⟩
      | (_, none) => none

/-- What an argument is that is no option of the rules. -/
def classifyOther (argument : Text) : Piece :=
  if isNegativeNumber argument || argument.contains (CodePoint.ofChar ' ') then .plain argument
  else .unknown argument

/-- What an argument before any separator is. -/
def classify (rules : Rules) (argument : Text) : Except UsageError Piece :=
  if argument.head? ≠ some dash || argument = [dash] then .ok (.plain argument)
  else
    match exactMatch? rules argument with
    | some found => .ok (.option found)
    | none =>
        match possibleMatches rules argument with
        | [] => .ok (classifyOther argument)
        | [found] => .ok (.option found)
        | several => .error (.ambiguous argument (several.map OptionMatch.name))

/-- Classify all arguments. -/
def classifyAll (rules : Rules) : List Text → Except UsageError (List Piece)
  | [] => .ok []
  | argument :: rest =>
      if argument = separatorText then .ok (.separator :: rest.map .plain)
      else do
        let piece ← classify rules argument
        let pieces ← classifyAll rules rest
        return piece :: pieces

/-- What has been read: the options in order, each with its value if it is given one, the positional
arguments once they are read, and what fits nowhere. -/
structure Parsed where
  options : List (OptionRule × Option Text) := []
  positionals : Option (List Text) := none
  extras : List Text := []

namespace Parsed

/-- The option is among those read. -/
def has (parsed : Parsed) (rule : OptionRule) : Bool :=
  parsed.options.any fun read => read.1 = rule

/-- The values given to an option, in order. -/
def values (parsed : Parsed) (rule : OptionRule) : List Text :=
  parsed.options.filterMap fun read => if read.1 = rule then read.2 else none

/-- How an option is given last: not at all, or with or without a value. -/
def last? (parsed : Parsed) (rule : OptionRule) : Option (Option Text) :=
  (parsed.options.filter fun read => read.1 = rule).getLast?.map Prod.snd

/-- The value that an option is given last. -/
def value? (parsed : Parsed) (rule : OptionRule) : Option Text :=
  (parsed.last? rule).join

/-- The value that an option is given last, as a text: nothing if the option is not given, and a
pair of brackets if it is given without a value. -/
def valueText (parsed : Parsed) (rule : OptionRule) : Text :=
  match parsed.last? rule with
  | none => []
  | some none => Text.ofString "[]"
  | some (some value) => value

end Parsed

/-- The text of an argument that belongs to no option. -/
def Piece.text : Piece → Text
  | plain argument => argument
  | separator => separatorText
  | option found => found.name
  | unknown argument => argument

/-- The piece belongs to no option. -/
def Piece.isFree : Piece → Bool
  | plain _ => true
  | separator => true
  | _ => false

/-- Take a run of arguments between options. They are the positional arguments, if those are not
read yet and the run is enough for them. -/
def takeRun (rules : Rules) (parsed : Parsed) (run : List Piece) : Parsed :=
  let named := run.filter fun piece => piece ≠ .separator
  if parsed.positionals.isNone && (!rules.required || !named.isEmpty) then
    { parsed with positionals := some (named.map Piece.text) }
  else { parsed with extras := parsed.extras ++ run.map Piece.text }

/-- Record an option without a value. Asking for help stops the reading. -/
def takeFlag (parsed : Parsed) (rule : OptionRule) : Except Stop Parsed :=
  if rule.kind = .help then .error .help
  else .ok { parsed with options := parsed.options ++ [(rule, none)] }

/-- The further short option that an attached value starts with, whose own value is the rest. -/
def nextInCluster (rules : Rules) (c : CodePoint) (rest : Text) : Option OptionMatch :=
  (rules.named? [dash, c]).map fun rule =>
    ⟨rule, [dash, c], if rest.isEmpty then none else some rest⟩

/-- The value that a text attached to an option gives it. A lone double dash gives none. -/
def attachedValue? (text : Text) : Option Text :=
  if text = separatorText then none else some text

/-- Record an option with or without a value, after flags. -/
def record (parsed : Parsed) (flags : List OptionRule) (rule : OptionRule) (value : Option Text) :
    Except Stop Parsed := do
  let before ← flags.foldlM takeFlag parsed
  return { before with options := before.options ++ [(rule, value)] }

/-- Read an option with the pieces after it. A short option that takes no value hands a value
attached to it on to further short options, at most `fuel` of them. Flags count once the whole
argument is read. -/
def takeOption (rules : Rules) (parsed : Parsed) (flags : List OptionRule) (found : OptionMatch)
    (rest : List Piece) : Nat → Except Stop (Parsed × List Piece)
  | 0 => .ok (parsed, rest)
  | fuel + 1 =>
      match found.rule.kind, found.attached with
      | .value, some text => do
          return (← record parsed flags found.rule (attachedValue? text), rest)
      | .value, none =>
          match rest with
          | .plain argument :: following => do
              return (← record parsed flags found.rule (some argument), following)
          | _ => .error (.refused (.valueExpected found.rule.names))
      | _, none => do
          return (← (flags ++ [found.rule]).foldlM takeFlag parsed, rest)
      | _, some [] => .error (.refused (.valueIgnored found.rule.names []))
      | _, some (c :: after) =>
          let next :=
            if Text.startsWith found.name separatorText then none else nextInCluster rules c after
          match next with
          | some next => takeOption rules parsed (flags ++ [found.rule]) next rest fuel
          | none => .error (.refused (.valueIgnored found.rule.names (c :: after)))

/-- Read the pieces in order, at most `fuel` options. -/
def takeAll (rules : Rules) (parsed : Parsed) (pieces : List Piece) : Nat → Except Stop Parsed
  | 0 => .ok (takeRun rules parsed pieces)
  | fuel + 1 =>
      let run := pieces.takeWhile Piece.isFree
      match pieces.drop run.length with
      | [] => .ok (takeRun rules parsed run)
      | piece :: rest =>
          let before := if run.isEmpty then parsed else takeRun rules parsed run
          match piece with
          | .option found => do
              let (after, rest) ← takeOption rules before [] found rest
                ((found.attached.map List.length).getD 0 + 1)
              takeAll rules after rest fuel
          | other =>
              takeAll rules { before with extras := before.extras ++ [other.text] } rest fuel

/-- The names of what is required and was not given. -/
def missingNames (rules : Rules) (parsed : Parsed) : List Text :=
  (if rules.required && parsed.positionals.isNone then [rules.positionals] else []) ++
    (rules.options.filter fun rule => rule.required && !parsed.has rule).map fun rule =>
      optionLabel rule.names

/-- Read a command line. What is missing is reported before what fits nowhere. -/
def parse (rules : Rules) (arguments : List Text) : Except Stop Parsed := do
  match classifyAll rules arguments with
  | .error error => .error (.refused error)
  | .ok pieces => do
      let parsed ← takeAll rules {} pieces pieces.length
      let missing := missingNames rules parsed
      if !missing.isEmpty then .error (.refused (.missing missing))
      else if !parsed.extras.isEmpty then .error (.refused (.unrecognized parsed.extras))
      else return parsed

/-- The option that asks for help. -/
def helpRule : OptionRule :=
  ⟨[Text.ofString "-h", Text.ofString "--help"], .help, false⟩

end ProtoSchema.Arguments
