import ArithTree.Directory

/-!
# Scripts

A `Script` is a run of the program, written down before it happens: what it
prints, which files it reads and writes, and how it goes on from there. It can
be played against a `Directory` (`Script.play`) or against real files, and does
the same in both.
-/

namespace ArithTree.CommandLine

/-- A run of the program. A failure to read or write a file comes back as its
wording. -/
inductive Script where
  | exit (code : UInt32)
  /-- Writes to the standard output. -/
  | print (text : String) (next : Script)
  /-- Writes to the standard error output. -/
  | complain (text : String) (next : Script)
  /-- Reads a file as text. -/
  | read (path : String) (next : Except String String → Script)
  /-- Writes a text to a file. -/
  | write (path content : String) (next : Except String Unit → Script)

/-- What a run leaves behind. -/
structure Outcome where
  exit : UInt32
  stdout : String
  stderr : String
  directory : Directory

namespace Outcome

/-- The outcome with more in front of its standard output. -/
def afterPrint (text : String) (outcome : Outcome) : Outcome :=
  { outcome with stdout := text ++ outcome.stdout }

/-- The outcome with more in front of its standard error output. -/
def afterComplain (text : String) (outcome : Outcome) : Outcome :=
  { outcome with stderr := text ++ outcome.stderr }

end Outcome

/-- Plays a script against a directory. -/
def Script.play : Script → Directory → Outcome
  | .exit code, directory => ⟨code, "", "", directory⟩
  | .print text next, directory => (next.play directory).afterPrint text
  | .complain text next, directory => (next.play directory).afterComplain text
  | .read path next, directory =>
    (next ((directory.read path).mapError FileError.message)).play directory
  | .write path content next, directory =>
    match directory.write path content with
    | .ok directory => (next (.ok ())).play directory
    | .error error => (next (.error error.message)).play directory

end ArithTree.CommandLine
