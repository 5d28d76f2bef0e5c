/-!
# JSON text

Trees and tokens are written down as JSON. `Json` holds the four kinds of value
that they need, with the fields of an object in the order they are written in.

One function writes them all: `Json.write` puts the text of a value in front of
a text that follows, so that nothing is copied twice however deep the value is.
It keeps to a `Layout`, which says what stands before each item and after each
colon.

* `Layout.compact` — nothing at all.
* `Layout.indented` — every item on a line of its own, four blanks deeper than
  what holds it, and one blank after a colon.

An empty list or object is written without a break in either layout.
-/

namespace ArithTree

/-- A JSON value. -/
inductive Json where
  | number (n : Int)
  | text (s : String)
  | array (items : List Json)
  | object (fields : List (String × Json))

namespace Json

/-- Where JSON text may have blanks, and which. -/
structure Layout where
  /-- What stands before an item, or a closing bracket, at a depth of nesting. -/
  gap : Nat → List Char
  /-- What stands between a colon and the value after it. -/
  afterColon : List Char

namespace Layout

/-- No blanks. -/
def compact : Layout := ⟨fun _ => [], []⟩

/-- One item a line, four blanks for each level. -/
def indented : Layout := ⟨fun depth => '\n' :: List.replicate (4 * depth) ' ', [' ']⟩

end Layout

/-- The spelling of one character of a string. A quote and a backslash take a
backslash; control characters take their short escape where there is one and
their code otherwise; all else stands for itself. -/
def escape (c : Char) : List Char :=
  if c = '"' then ['\\', '"']
  else if c = '\\' then ['\\', '\\']
  else if c = '\x08' then ['\\', 'b']
  else if c = '\x0c' then ['\\', 'f']
  else if c = '\n' then ['\\', 'n']
  else if c = '\r' then ['\\', 'r']
  else if c = '\t' then ['\\', 't']
  else if c.toNat < 0x20 then
    ['\\', 'u', '0', '0', Nat.digitChar (c.toNat / 16), Nat.digitChar (c.toNat % 16)]
  else [c]

/-- A string of JSON with its quotes. -/
def quote (s : String) : List Char :=
  '"' :: s.toList.flatMap escape ++ ['"']

mutual

/-- The text of a value that stands at a depth of nesting, in front of `rest`. -/
def write (layout : Layout) (depth : Nat) : Json → List Char → List Char
  | .number n, rest => (toString n).toList ++ rest
  | .text s, rest => quote s ++ rest
  | .array [], rest => '[' :: ']' :: rest
  | .array (item :: items), rest =>
    '[' :: layout.gap (depth + 1) ++
      item.write layout (depth + 1)
        (writeItems layout (depth + 1) items (layout.gap depth ++ ']' :: rest))
  | .object [], rest => '\x7b' :: '\x7d' :: rest
  | .object ((key, value) :: fields), rest =>
    '\x7b' :: layout.gap (depth + 1) ++ quote key ++ ':' :: layout.afterColon ++
      value.write layout (depth + 1)
        (writeFields layout (depth + 1) fields (layout.gap depth ++ '\x7d' :: rest))

/-- The items after the first, each after a comma, in front of `rest`. -/
def writeItems (layout : Layout) (depth : Nat) : List Json → List Char → List Char
  | [], rest => rest
  | item :: items, rest =>
    ',' :: layout.gap depth ++ item.write layout depth (writeItems layout depth items rest)

/-- The fields after the first, each after a comma, in front of `rest`. -/
def writeFields (layout : Layout) (depth : Nat) :
    List (String × Json) → List Char → List Char
  | [], rest => rest
  | (key, value) :: fields, rest =>
    ',' :: layout.gap depth ++ quote key ++ ':' :: layout.afterColon ++
      value.write layout depth (writeFields layout depth fields rest)

end

/-- The text of a value without blanks. -/
def compact (value : Json) : String :=
  String.ofList (value.write .compact 0 [])

/-- The text of a value with one item a line. -/
def pretty (value : Json) : String :=
  String.ofList (value.write .indented 0 [])

end Json

end ArithTree
