import ProgramGraphs.Config.Basic
import ProgramGraphs.Export.Request

/-!
# Options of the command line

A command line has a part before the command and a part after it, and each part has its
own options.  An option has a long name, most have a letter, and some take a value.
-/

namespace ProgramGraphs.CommandLine

/-- What the program is told to do. -/
inductive Command where
  /-- Export some graphs. -/
  | exportGraphs (selection : Export.Selection)
  /-- Write a configuration file with the defaults. -/
  | setUp
  deriving DecidableEq, Repr, Inhabited

/-- The word for a command. -/
def Command.word : Command → String
  | .exportGraphs .both => "run"
  | .exportGraphs .callGraph => "call-graph"
  | .exportGraphs .dependencyGraph => "sdg"
  | .setUp => "init"

/-- All commands. -/
def Command.all : List Command :=
  [.exportGraphs .both, .exportGraphs .callGraph, .exportGraphs .dependencyGraph, .setUp]

/-- The command that a word stands for. -/
def Command.ofWord (word : String) : Option Command := Command.all.find? (·.word == word)

/-- A part of a command line. -/
inductive Part where
  /-- The part before the command. -/
  | general
  /-- The part after a command. -/
  | specific (command : Command)
  deriving DecidableEq, Repr, Inhabited

/-- The options. -/
inductive Choice where
  | help
  | version
  | config
  | verbose
  | quiet
  | input
  | outputDirectory
  | fileName
  | format
  | backEdges
  | edgeLabels
  | directory
  | force
  deriving DecidableEq, Repr, Inhabited

namespace Choice

/-- The long name of an option. -/
def name : Choice → String
  | .help => "help"
  | .version => "version"
  | .config => "config"
  | .verbose => "verbose"
  | .quiet => "quiet"
  | .input => "input"
  | .outputDirectory => "outdir"
  | .fileName => "outfile"
  | .format => "format"
  | .backEdges => "back-edges"
  | .edgeLabels => "edge-labels"
  | .directory => "path"
  | .force => "force"

/-- The letter of an option. -/
def letter? : Choice → Option Char
  | .help => some 'h'
  | .version => some 'V'
  | .config => some 'c'
  | .verbose => some 'v'
  | .quiet => some 'q'
  | .input => some 'i'
  | .outputDirectory => some 'd'
  | .fileName => some 'o'
  | .directory => some 'p'
  | .format | .backEdges | .edgeLabels | .force => none

/-- Whether an option takes a value. -/
def takesValue : Choice → Bool
  | .help | .version | .verbose | .quiet | .force => false
  | _ => true

/-- Whether a value may be given to an option.  A path may not be empty, and a choice must
be one of its names. -/
def accepts (choice : Choice) (value : String) : Bool :=
  match choice with
  | .config | .input | .outputDirectory | .directory => !value.isEmpty
  | .format => Format.all.any (·.extension == value)
  | .backEdges => BackEdgePolicy.all.any (·.name == value)
  | .edgeLabels => LabelStrategy.all.any (·.name == value)
  | _ => true

end Choice

namespace Part

/-- The options of a part. -/
def choices : Part → List Choice
  | .general => [.config, .verbose, .quiet, .help, .version]
  | .specific (.exportGraphs _) =>
    [.input, .outputDirectory, .fileName, .format, .backEdges, .edgeLabels, .config, .verbose,
      .quiet, .help]
  | .specific .setUp => [.directory, .force, .config, .verbose, .quiet, .help]

/-- The options that a part must have. -/
def required : Part → List Choice
  | .specific (.exportGraphs _) => [.input, .outputDirectory]
  | _ => []

/-- The option of a part with a given long name. -/
def ofName? (part : Part) (name : String) : Option Choice := part.choices.find? (·.name == name)

/-- The option of a part with a given letter. -/
def ofLetter? (part : Part) (letter : Char) : Option Choice :=
  part.choices.find? (·.letter? == some letter)

end Part

end ProgramGraphs.CommandLine
