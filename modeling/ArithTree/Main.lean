import ArithTree.CommandLine.Program

/-!
# The command line

Plays the program's script against real files and the real terminal.
-/

namespace ArithTree.CommandLine

/-- The wording of a failure to reach a file: the system's own words, and the
number that it knows the error by. -/
def wording : IO.Error → String
  | .alreadyExists _ code details | .otherError code details | .resourceBusy code details
  | .resourceVanished code details | .unsupportedOperation code details
  | .hardwareFault code details | .unsatisfiedConstraints code details
  | .illegalOperation code details | .protocolError code details | .timeExpired code details
  | .interrupted _ code details | .noFileOrDirectory _ code details
  | .invalidArgument _ code details | .permissionDenied _ code details
  | .resourceExhausted _ code details | .inappropriateType _ code details
  | .noSuchThing _ code details => details ++ " (os error " ++ toString code ++ ")"
  | .unexpectedEof => "unexpected end of file"
  | .userError message => message

/-- The text of a real file. -/
def readText (path : String) : IO (Except String String) := do
  try
    let handle ← IO.FS.Handle.mk path .read
    let content ← handle.readBinToEnd
    return match String.fromUTF8? content with
      | some text => .ok text
      | none => .error FileError.invalidText.message
  catch error => return .error (wording error)

/-- Gives a real file a new content. -/
def writeText (path content : String) : IO (Except String Unit) := do
  try
    IO.FS.writeFile path content
    return .ok ()
  catch error => return .error (wording error)

/-- Plays a script against the real world, and answers with its exit code. -/
def Script.perform : Script → IO UInt32
  | .exit code => return code
  | .print text next => do
    IO.print text
    next.perform
  | .complain text next => do
    IO.eprint text
    next.perform
  | .read path next => do
    (next (← readText path)).perform
  | .write path content next => do
    (next (← writeText path content)).perform

end ArithTree.CommandLine

open ArithTree.CommandLine in
/-- The program, on the arguments it was called with. -/
def main (arguments : List String) : IO UInt32 := do
  let settings ← ["CLICOLOR_FORCE", "NO_COLOR", "CLICOLOR"].filterMapM fun name => do
    return (← IO.getEnv name).map fun value => (name, value)
  let terminal ← (← IO.getStdout).isTty
  (program arguments (wantsColour (settings.lookup ·) terminal)).perform
