/-!
# Command-line options

Arguments are read from left to right. A `Settings` collects what they say, and
`Options.ofArguments` turns it into `Options` once all are read; only then is a
file named together with an expression refused.
-/

namespace ArithTree.CommandLine

/-- Where the source text comes from. -/
inductive Input where
  | file (path : String)
  | inline (text : String)
deriving DecidableEq

/-- What a run is asked to do. -/
structure Options where
  input : Input
  output : String
  showTokens : Bool
  verbose : Bool
  showHelp : Bool
deriving DecidableEq

/-- The source text when none is given. -/
def defaultSource : String := "(1 + 5 / 2)"

/-- The file that trees are saved to when none is named. -/
def defaultOutput : String := "ast.json"

/-- Why a list of arguments was refused. -/
inductive UsageError where
  | missingValue (argument : String)
  | unknownFlag (argument : String)
  | unexpectedArgument (argument : String)
  | twoInputs
deriving DecidableEq

/-- The refusal in words. -/
def UsageError.message : UsageError → String
  | .missingValue argument => "Missing value for " ++ argument
  | .unknownFlag argument => "Unknown flag: " ++ argument
  | .unexpectedArgument argument => "Unexpected argument: " ++ argument
  | .twoInputs => "Pass either a file or --expr, not both"

/-- What an argument is by itself. -/
inductive Word where
  /-- A switch: asks for the tokens instead of the tree. -/
  | tokens
  /-- A switch: asks for the log. -/
  | verbose
  /-- A switch: asks for help. -/
  | help
  /-- Takes the next argument as the source text. -/
  | expr
  /-- Takes the next argument as the file to save to. -/
  | output
  /-- Any other argument that starts with a dash. -/
  | unknown
  /-- Any argument that does not start with a dash, the empty one included. -/
  | positional
deriving DecidableEq

/-- Sorts an argument. -/
def Word.ofArgument (argument : String) : Word :=
  match argument with
  | "--tokens" | "-t" => .tokens
  | "--verbose" | "-v" => .verbose
  | "--help" | "-h" => .help
  | "--expr" | "-e" => .expr
  | "--output" | "-o" => .output
  | argument => if argument.toList.head? = some '-' then .unknown else .positional

/-- What the arguments have said so far. -/
structure Settings where
  file : Option String
  expr : Option String
  output : Option String
  showTokens : Bool
  verbose : Bool
  showHelp : Bool
deriving DecidableEq

namespace Settings

/-- Nothing said yet. -/
def initial : Settings := ⟨none, none, none, false, false, false⟩

/-- Reads the arguments that are left. An option's value may look like anything,
even like an option; a repeated option keeps its last value. -/
def read (settings : Settings) : List String → Except UsageError Settings
  | [] => .ok settings
  | argument :: rest =>
    match Word.ofArgument argument with
    | .tokens => read { settings with showTokens := true } rest
    | .verbose => read { settings with verbose := true } rest
    | .help => read { settings with showHelp := true } rest
    | .expr =>
      match rest with
      | [] => .error (.missingValue argument)
      | value :: rest => read { settings with expr := some value } rest
    | .output =>
      match rest with
      | [] => .error (.missingValue argument)
      | value :: rest => read { settings with output := some value } rest
    | .unknown => .error (.unknownFlag argument)
    | .positional =>
      if settings.file.isSome then .error (.unexpectedArgument argument)
      else read { settings with file := some argument } rest

/-- Where the source text comes from: a file or an expression, but not both. -/
def input (settings : Settings) : Except UsageError Input :=
  match settings.file, settings.expr with
  | some _, some _ => .error .twoInputs
  | some path, none => .ok (.file path)
  | none, some text => .ok (.inline text)
  | none, none => .ok (.inline defaultSource)

end Settings

/-- The options that a list of arguments asks for. -/
def Options.ofArguments (arguments : List String) : Except UsageError Options := do
  let settings ← Settings.initial.read arguments
  let input ← settings.input
  return ⟨input, settings.output.getD defaultOutput, settings.showTokens, settings.verbose,
    settings.showHelp⟩

end ArithTree.CommandLine
