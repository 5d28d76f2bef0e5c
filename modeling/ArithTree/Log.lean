import ArithTree.Text.Padding
import ArithTree.Tree.Descent

/-!
# The log

Reading a source text leaves a trail of `Event`s: one for each token as it is
found, one when the whole text has become tokens, and one when the tokens have
become a tree. `Event.ofSource` is that trail. A fault ends it, but does not take
back what was found before.

Which events are written is settled by a threshold (`Log.threshold`), and
`Log.write` puts the ones that pass it into lines.
-/

namespace ArithTree

/-- How much an event matters, the least first. -/
inductive Level where
  | trace
  | debug
  | info
  | warn
  | error
deriving DecidableEq

namespace Level

/-- The level in capitals, as it stands at the start of a line. -/
def name : Level → String
  | .trace => "TRACE"
  | .debug => "DEBUG"
  | .info => "INFO"
  | .warn => "WARN"
  | .error => "ERROR"

/-- The place of a level in the order of severity. -/
def severity : Level → Nat
  | .trace => 0
  | .debug => 1
  | .info => 2
  | .warn => 3
  | .error => 4

end Level

/-- Something worth telling. -/
structure Event where
  level : Level
  message : String
  /-- What the message is about, in the order it is written. -/
  fields : List (String × String)
deriving DecidableEq

namespace Event

/-- A token was found. -/
def found (t : Token) : Event :=
  ⟨.trace, "token", [("kind", t.kind.label), ("position", t.position.label)]⟩

/-- A source text of `chars` characters has become `tokens` tokens. -/
def lexed (tokens chars : Nat) : Event :=
  ⟨.debug, "lexed source", [("tokens", toString tokens), ("chars", toString chars)]⟩

/-- A list of `tokens` tokens has become a tree with `children` children. -/
def parsed (tokens children : Nat) : Event :=
  ⟨.debug, "parsed tokens", [("tokens", toString tokens), ("children", toString children)]⟩

/-- A tree was saved. -/
def wrote (path : String) : Event :=
  ⟨.info, "wrote AST", [("path", path)]⟩

/-- The event as a line of its own. -/
def line (event : Event) : String :=
  Text.alignRight 5 event.level.name ++ " " ++ event.message ++
    String.join (event.fields.map fun (key, value) => " " ++ key ++ "=" ++ value) ++ "\n"

/-- The trail of a walk over a source text of `chars` characters. -/
def ofScan (scan : Scan) (chars : Nat) : List Event :=
  scan.tokens.map found ++ if scan.fault.isNone then [lexed scan.tokens.length chars] else []

/-- The trail of reading a tree from tokens. -/
def ofTokens (tokens : List Token) : List Event :=
  match Block.ofTokens tokens with
  | .ok block => [parsed tokens.length block.children.length]
  | .error _ => []

/-- The trail of reading a tree from a source text. -/
def ofSource (source : String) : List Event :=
  let scan := Scan.ofSource source
  ofScan scan source.length ++ if scan.fault.isNone then ofTokens scan.tokens else []

end Event

namespace Log

/-- The level that is asked for when none is named. -/
def defaultLevel : Level := .warn

/-- The threshold after some requests for one. The first request settles it, and
without a request there is no log at all. -/
def threshold : List (Option Level) → Option Level
  | [] => none
  | request :: _ => some (request.getD defaultLevel)

/-- Does an event matter enough for a threshold? -/
def admits (threshold : Option Level) (event : Event) : Bool :=
  match threshold with
  | none => false
  | some level => level.severity ≤ event.level.severity

/-- The lines of the events that pass a threshold. -/
def write (threshold : Option Level) (events : List Event) : String :=
  String.join ((events.filter (admits threshold)).map Event.line)

/-- What is written while a source text is read, after some requests for a
threshold. -/
def ofSource (requests : List (Option Level)) (source : String) : String :=
  write (threshold requests) (Event.ofSource source)

end Log

end ArithTree
