import ProgramGraphs.CommandLine.Option

/-!
# Parsing command lines

Words are taken one at a time.  An option may have its value attached or in the next word,
unless that word starts with a dash.  An option may be given once in each part; its value
is looked at when the next option is met, or at the end of the part.  The word for the
command ends the first part.
-/

namespace ProgramGraphs.CommandLine

/-- Why a command line cannot be carried out. -/
inductive UsageProblem where
  /-- Nothing is given at all. -/
  | nothingGiven
  /-- There is no command. -/
  | missingCommand
  /-- A word stands where the command must stand. -/
  | unknownCommand
  /-- A required option is missing. -/
  | missingOption
  /-- An option has no value, or one that it does not accept. -/
  | badValue
  /-- There is no such option, or no place for a word. -/
  | unknownArgument
  /-- An option is given twice, or together with one that excludes it. -/
  | conflict
  /-- An option that takes no value has one. -/
  | unwantedValue
  /-- Help is asked for. -/
  | help
  /-- The version is asked for. -/
  | version
  deriving DecidableEq, Repr, Inhabited

/-- The exit code of a command line that is not carried out.  Asking for help or for the
version is no mistake. -/
def UsageProblem.exitCode : UsageProblem → UInt8
  | .help | .version => 0
  | _ => 2

/-- Options with their values; one that takes no value has the empty text. -/
abbrev Given := List (Choice × String)

/-- What was found in a part so far. -/
structure Progress where
  given : Given := []
  /-- An option whose value is still to come, or was not looked at yet. -/
  pending : Option (Choice × Option String) := none
  deriving Repr, Inhabited

namespace Progress

/-- Takes an option with its value. -/
def accept (progress : Progress) (choice : Choice) (value : String) :
    Except UsageProblem Progress :=
  if progress.given.any (·.1 == choice) then .error .conflict
  else if choice.accepts value then
    .ok { progress with given := progress.given ++ [(choice, value)] }
  else .error .badValue

/-- Looks at the pending option. -/
def settle (progress : Progress) : Except UsageProblem Progress :=
  match progress.pending with
  | none => .ok progress
  | some (_, none) => .error .badValue
  | some (choice, some value) => { progress with pending := none }.accept choice value

/-- Takes an option that takes no value. -/
def flag (progress : Progress) (choice : Choice) : Except UsageProblem Progress := do
  let progress ← progress.settle
  match choice with
  | .help => throw .help
  | .version => throw .version
  | _ => progress.accept choice ""

/-- Takes an option that takes a value, with the value when it is attached. -/
def valued (progress : Progress) (choice : Choice) (attached : Option String) :
    Except UsageProblem Progress := do
  let progress ← progress.settle
  match attached with
  | some value => progress.accept choice value
  | none => return { progress with pending := some (choice, none) }

/-- Whether the next word may be the value of an option. -/
def expectsValue (progress : Progress) : Bool :=
  match progress.pending with
  | some (_, none) => true
  | _ => false

/-- Takes a word as the value of the pending option. -/
def supply (progress : Progress) (value : String) : Progress :=
  { progress with pending := progress.pending.map fun pending => (pending.1, some value) }

/-- The value of an option. -/
def value? (progress : Progress) (choice : Choice) : Option String := progress.given.lookup choice

/-- Whether an option is given. -/
def has (progress : Progress) (choice : Choice) : Bool := progress.given.any (·.1 == choice)

end Progress

/-- Takes the letters after a dash.  What follows the letter of an option with a value is the
value, with or without an equals sign. -/
def letters (part : Part) (progress : Progress) : List Char → Except UsageProblem Progress
  | [] => .ok progress
  | letter :: rest =>
    match part.ofLetter? letter with
    | none => .error .unknownArgument
    | some choice =>
      if choice.takesValue then
        progress.valued choice (match rest with
          | [] => none
          | '=' :: value => some (String.ofList value)
          | value => some (String.ofList value))
      else do
        let progress ← progress.flag choice
        letters part progress rest

/-- Takes what stands after two dashes. -/
def longOption (part : Part) (progress : Progress) (text : List Char) :
    Except UsageProblem Progress :=
  let attached := match text.dropWhile (· ≠ '=') with
    | [] => none
    | _ :: value => some (String.ofList value)
  match part.ofName? (String.ofList (text.takeWhile (· ≠ '='))), attached with
  | none, _ => .error .unknownArgument
  | some choice, attached =>
    if choice.takesValue then progress.valued choice attached
    else if attached.isSome then .error .unwantedValue
    else progress.flag choice

/-- Where a part ends. -/
inductive Ending where
  /-- At the end of the command line. -/
  | lineEnd
  /-- At a word for a command. -/
  | command (command : Command)
  /-- At the word that asks for help. -/
  | help
  deriving DecidableEq, Repr

/-- The end that a word puts to the first part. -/
def endingOf (word : String) : Option Ending :=
  if word = "help" then some .help else (Command.ofWord word).map .command

/-- The problem with a word that has no place.  `dashes` says that two dashes alone stood
before it. -/
def misplaced (part : Part) (dashes : Bool) (word : String) : UsageProblem :=
  match part with
  | .general => if dashes && (endingOf word).isSome then .unknownArgument else .unknownCommand
  | .specific _ => .unknownArgument

/-- Takes the words of a part, and gives where it ends and the words after it. -/
def takePart (part : Part) (progress : Progress) :
    List String → Except UsageProblem (Progress × Ending × List String)
  | [] => .ok (progress, .lineEnd, [])
  | word :: rest =>
    let ending := if part = .general ∧ !progress.expectsValue then endingOf word else none
    match ending, word.toList with
    | some ending, _ => .ok (progress, ending, rest)
    | none, ['-', '-'] =>
      match rest with
      | [] => .ok (progress, .lineEnd, [])
      | next :: _ => .error (misplaced part true next)
    | none, '-' :: '-' :: text => do
      let progress ← longOption part progress text
      takePart part progress rest
    | none, '-' :: first :: more => do
      let progress ← letters part progress (first :: more)
      takePart part progress rest
    | none, _ =>
      if progress.expectsValue then takePart part (progress.supply word) rest
      else .error (misplaced part false word)

/-- Checks a complete part. -/
def check (part : Part) (progress : Progress) : Except UsageProblem Unit :=
  if progress.has .verbose && progress.has .quiet then .error .conflict
  else if part.required.all progress.has then .ok ()
  else .error .missingOption

/-- How much is logged. -/
inductive LogLevel where
  | debug
  | info
  | warn
  deriving DecidableEq, Repr, Inhabited

/-- The name of a log level. -/
def LogLevel.name : LogLevel → String
  | .debug => "DEBUG"
  | .info => "INFO"
  | .warn => "WARN"

/-- What a command line asks for. -/
structure Invocation where
  command : Command
  /-- The options after the command. -/
  options : Progress
  /-- The path of the configuration file, when one is named. -/
  config : Option String
  logLevel : LogLevel
  deriving Repr

/-- Puts both parts together.  The option after the command wins over the one before it, and
more logging wins over less. -/
def combine (general specific : Progress) (command : Command) : Invocation :=
  { command
    options := specific
    config := (specific.value? .config).or (general.value? .config)
    logLevel :=
      if specific.has .verbose || general.has .verbose then .debug
      else if specific.has .quiet || general.has .quiet then .warn
      else .info }

/-- The answer to the word that asks for help, given the words after it: they may name one
command. -/
def helpOn : List String → UsageProblem
  | [] => .help
  | [word] => if (endingOf word).isSome then .help else .unknownCommand
  | _ => .unknownCommand

/-- Parses the words of a command line. -/
def parse (words : List String) : Except UsageProblem Invocation := do
  let (general, ending, rest) ← takePart .general {} words
  match ending with
  | .help => throw (helpOn rest)
  | .lineEnd =>
    let general ← general.settle
    throw (if general.given.isEmpty then .nothingGiven else .missingCommand)
  | .command command =>
    let part := Part.specific command
    let (specific, _, _) ← takePart part {} rest
    let specific ← specific.settle
    check part specific
    let general ← general.settle
    check .general general
    return combine general specific command

end ProgramGraphs.CommandLine
