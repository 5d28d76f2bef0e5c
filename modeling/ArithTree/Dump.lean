/-!
# Dumps

A dump shows a value by its construction: the name of each constructor and what
it holds. `Dump` is the shape of such a text, and `Dump.write` puts it in front of
a text that follows, set out in one of two ways.

* `Layout.inline` — all on one line.
* `Layout.indented` — each part on a line of its own, four blanks deeper than what
  holds it, and with a comma after it.

Brackets that hold nothing stand side by side in either layout.
-/

namespace ArithTree

/-- The construction of a value. -/
inductive Dump where
  /-- A number, a quoted text or a bare name. -/
  | atom (text : String)
  | list (items : List Dump)
  /-- A constructor whose parts have no names. -/
  | tuple (name : String) (parts : List Dump)
  /-- A constructor whose parts have names. -/
  | record (name : String) (fields : List (String × Dump))

namespace Dump

/-- The two ways to set out a dump. -/
inductive Layout where
  | inline
  | indented
deriving DecidableEq

/-- A new line at a depth of nesting. -/
def newLine (depth : Nat) : List Char :=
  '\n' :: List.replicate (4 * depth) ' '

namespace Layout

/-- What stands between an opening bracket and the first part. On one line that is
`edge`, which keeps some kinds of brackets apart from what they hold. -/
def first (layout : Layout) (edge : List Char) (depth : Nat) : List Char :=
  match layout with
  | .inline => edge
  | .indented => newLine depth

/-- What stands between a part and the next one. -/
def between (layout : Layout) (depth : Nat) : List Char :=
  match layout with
  | .inline => [',', ' ']
  | .indented => ',' :: newLine depth

/-- What stands between the last part and the closing bracket. -/
def last (layout : Layout) (edge : List Char) (depth : Nat) : List Char :=
  match layout with
  | .inline => edge
  | .indented => ',' :: newLine depth

end Layout

mutual

/-- The text of a dump that stands at a depth of nesting, in front of `rest`. -/
def write (layout : Layout) (depth : Nat) : Dump → List Char → List Char
  | .atom text, rest => text.toList ++ rest
  | .list items, rest => '[' :: writeParts layout depth items (']' :: rest)
  | .tuple name parts, rest =>
    name.toList ++ '(' :: writeParts layout depth parts (')' :: rest)
  | .record name fields, rest =>
    name.toList ++ ' ' :: '\x7b' :: writeFields layout depth fields ('\x7d' :: rest)

/-- The parts between two brackets that stand at a depth of nesting. -/
def writeParts (layout : Layout) (depth : Nat) : List Dump → List Char → List Char
  | [], rest => rest
  | part :: parts, rest =>
    layout.first [] (depth + 1) ++
      part.write layout (depth + 1)
        (writeMoreParts layout (depth + 1) parts (layout.last [] depth ++ rest))

/-- The parts after the first. -/
def writeMoreParts (layout : Layout) (depth : Nat) : List Dump → List Char → List Char
  | [], rest => rest
  | part :: parts, rest =>
    layout.between depth ++ part.write layout depth (writeMoreParts layout depth parts rest)

/-- The named parts between two brackets that stand at a depth of nesting. -/
def writeFields (layout : Layout) (depth : Nat) : List (String × Dump) → List Char → List Char
  | [], rest => rest
  | (name, part) :: fields, rest =>
    layout.first [' '] (depth + 1) ++ name.toList ++ ':' :: ' ' ::
      part.write layout (depth + 1)
        (writeMoreFields layout (depth + 1) fields (layout.last [' '] depth ++ rest))

/-- The named parts after the first. -/
def writeMoreFields (layout : Layout) (depth : Nat) :
    List (String × Dump) → List Char → List Char
  | [], rest => rest
  | (name, part) :: fields, rest =>
    layout.between depth ++ name.toList ++ ':' :: ' ' ::
      part.write layout depth (writeMoreFields layout depth fields rest)

end

/-- The dump on one line. -/
def inline (dump : Dump) : String := String.ofList (dump.write .inline 0 [])

/-- The dump with one part a line. -/
def indented (dump : Dump) : String := String.ofList (dump.write .indented 0 [])

end Dump

end ArithTree
