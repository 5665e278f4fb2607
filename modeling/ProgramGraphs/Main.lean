import ProgramGraphs.CommandLine.Run

/-!
# The program

The command line is parsed and carried out on the file system of the machine.  A command
line that cannot be parsed and a command that fails are reported on the error stream.
-/

namespace ProgramGraphs

/-- An error of the machine's file system. -/
def SystemError.ofMachine (error : IO.Error) : SystemError :=
  match error with
  | .noFileOrDirectory _ _ _ => .notFound
  | .alreadyExists _ _ _ => .exists
  | .inappropriateType _ 20 _ => .notADirectory
  | .inappropriateType _ 21 _ => .isADirectory
  | .resourceExhausted _ 21 _ => .isADirectory
  | .invalidArgument _ 36 _ => .nameTooLong
  | _ => .other (toString error)

/-- Carries out an operation of the machine's file system. -/
def attemptOnMachine {α : Type} (action : IO α) : IO (Except SystemError α) := do
  try
    return .ok (← action)
  catch error =>
    return .error (.ofMachine error)

/-- Whether the machine can follow a path to its end. -/
def leadsSomewhere (path : String) : IO Bool := do
  return (← attemptOnMachine (IO.FS.realPath path)).isOk

instance : Files IO where
  openPath path := do
    match ← attemptOnMachine (IO.FS.readBinFile path) with
    | .ok content => return .ok (.file content)
    | .error .isADirectory => return .ok .directory
    | .error error => return .error error
  write path text := attemptOnMachine (IO.FS.writeFile path text)
  makeDirectory path := attemptOnMachine (IO.FS.createDir path)
  isThere := leadsSomewhere
  isDirectory path := leadsSomewhere (path ++ "/.")
  workingDirectory := do return toString (← IO.currentDir)

namespace CommandLine

/-- The words after the name of the program, as a line of help shows them. -/
def usage : String :=
  "code2graph [OPTIONS] <" ++ "|".intercalate (Command.all.map Command.word) ++ ">"

/-- What is said about a command line that is not carried out. -/
def UsageProblem.message : UsageProblem → String
  | .nothingGiven | .help => "Usage: " ++ usage
  | .version => "code2graph 0.1.0"
  | .missingCommand => "error: a command is missing\n\nUsage: " ++ usage
  | .unknownCommand => "error: there is no such command\n\nUsage: " ++ usage
  | .missingOption => "error: a required option is missing\n\nUsage: " ++ usage
  | .badValue => "error: an option has no value, or a wrong one\n\nUsage: " ++ usage
  | .unknownArgument => "error: an argument is not expected\n\nUsage: " ++ usage
  | .conflict => "error: an option cannot be used here\n\nUsage: " ++ usage
  | .unwantedValue => "error: an option takes no value\n\nUsage: " ++ usage

end CommandLine

end ProgramGraphs

open ProgramGraphs in
/-- Carries out a command line; the result is the exit code. -/
def main (arguments : List String) : IO UInt32 := do
  match CommandLine.parse arguments with
  | .error problem =>
    if problem.exitCode = 0 then IO.println problem.message else IO.eprintln problem.message
    return problem.exitCode.toUInt32
  | .ok invocation =>
    match ← (invocation.run : ExceptT Failure IO Unit).run with
    | .ok () => return 0
    | .error failure =>
      IO.eprintln ("Error: " ++ failure.message)
      return 1
