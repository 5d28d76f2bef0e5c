import ArithTree.CommandLine.Options
import ArithTree.CommandLine.Script
import ArithTree.Log
import ArithTree.Report
import ArithTree.Token.Shown
import ArithTree.Tree.Shown

/-!
# The program

`program` turns a list of arguments into the `Script` of a run. A run reads its
source text from a file or from its arguments, and then either lists the tokens
or shows the tree and saves it as JSON. A fault in the source is reported
against the text itself. Every failure ends the run with exit code 1.
-/

namespace ArithTree.CommandLine

/-- The version of the program. -/
def version : String := "0.1.0"

/-- The short reminder of how the program is called. -/
def usage : String :=
  "Usage: exprtree [OPTIONS] [file]\n" ++
  "       exprtree --help\n"

/-- The long answer to a call for help. -/
def help : String :=
  "exprtree v" ++ version ++ " - arithmetic expression parser\n" ++
  "\n" ++
  "USAGE:\n" ++
  "    exprtree [OPTIONS] [file]\n" ++
  "\n" ++
  "OPTIONS:\n" ++
  "    -e, --expr <TEXT>      Parse TEXT instead of a file\n" ++
  "    -o, --output <PATH>    Where to write the JSON tree (default: " ++ defaultOutput ++ ")\n" ++
  "    -t, --tokens           Show tokenization output (lexer only)\n" ++
  "    -v, --verbose          Enable debug logging\n" ++
  "    -h, --help             Show this help message\n" ++
  "\n" ++
  "Without a file or --expr the source is " ++ Text.quote defaultSource ++ ".\n"

/-- Are reports coloured? The variable `CLICOLOR_FORCE` turns colours on wherever
the output goes, unless it is `0`; then `NO_COLOR` turns them off, whatever its
value; and else they are for a terminal only, unless `CLICOLOR` is `0`. -/
def wantsColour (lookup : String → Option String) (terminal : Bool) : Bool :=
  if (lookup "CLICOLOR_FORCE").any (· != "0") then true
  else if (lookup "NO_COLOR").isSome then false
  else (lookup "CLICOLOR").all (· != "0") && terminal

/-! ### The list of tokens -/

/-- The line that closes off the list above and below. -/
def rule : String :=
  String.ofList (List.replicate 60 '=') ++ "\n"

/-- One token: its place in the list, its kind, its position and its value. -/
def tokenRow (index : Nat) (t : Token) : String :=
  Text.alignRight 4 (toString index) ++ ": " ++ Text.alignLeft 12 t.kind.label ++ " | " ++
    Text.alignLeft 8 t.position.label ++ " | " ++ (t.value.map Token.Value.label).getD "" ++ "\n"

/-- The list of the tokens found in the source `name`. -/
def tokenTable (name : String) (tokens : List Token) : String :=
  "Tokens for '" ++ name ++ "':\n" ++ rule ++
    String.join (tokens.mapIdx tokenRow) ++
    rule ++ "Total tokens: " ++ toString tokens.length ++ "\n"

/-! ### The run -/

/-- Ends a run that has failed. -/
def fail (message : String) : Script :=
  .complain (message ++ "\n") (.exit 1)

/-- Ends a run over a fault in the source. -/
def failOver (colour : Bool) (name source : String) (fault : Fault) : Script :=
  fail (Report.render ⟨fault, some source, some name⟩ colour)

/-- Shows a tree and saves it. -/
def save (threshold : Option Level) (output : String) (block : Block) : Script :=
  .print ("AST:\n" ++ block.toDump.indented ++ "\n") <|
  .write output block.json fun
    | .ok () => .complain (Log.write threshold [.wrote output]) (.exit 0)
    | .error message => fail ("Failed to write '" ++ output ++ "': " ++ message)

/-- Goes on from the source text, which is called `name` in reports. -/
def process (options : Options) (colour : Bool) (name source : String) : Script :=
  let threshold := Log.threshold [some (if options.verbose then .debug else .warn)]
  let scan := Scan.ofSource source
  .complain (Log.write threshold (Event.ofScan scan source.length)) <|
    match scan.result with
    | .error fault => failOver colour name source fault
    | .ok tokens =>
      if options.showTokens then .print (tokenTable name tokens) (.exit 0)
      else
        .complain (Log.write threshold (Event.ofTokens tokens)) <|
          match Block.ofTokens tokens with
          | .error fault => failOver colour name source fault
          | .ok block => save threshold options.output block

/-- Carries out options that ask for more than help. -/
def execute (options : Options) (colour : Bool) : Script :=
  match options.input with
  | .inline text => process options colour "<expr>" text
  | .file path => .read path fun
    | .ok text => process options colour path text
    | .error message => fail ("Failed to read file '" ++ path ++ "': " ++ message)

/-- The run that a list of arguments asks for. -/
def program (arguments : List String) (colour : Bool) : Script :=
  match Options.ofArguments arguments with
  | .error error => .complain (error.message ++ "\n" ++ usage) (.exit 1)
  | .ok options => if options.showHelp then .print help (.exit 0) else execute options colour

end ArithTree.CommandLine
