import ArithTree.Dump
import ArithTree.Json.Basic
import ArithTree.Text.Quoted
import ArithTree.Token.Basic

/-!
# Tokens as text

The written forms of positions and tokens: `toJson` for data, `toDump` for their
construction, and `Token.Value.label` for tables and messages.
-/

namespace ArithTree

namespace Position

/-- The three counts, as data. -/
def toJson (p : Position) : Json :=
  .object [("cursor", .number p.cursor), ("row", .number p.row), ("col", .number p.col)]

/-- The construction of a position. -/
def toDump (p : Position) : Dump :=
  .record "Position"
    [("cursor", .atom (toString p.cursor)), ("row", .atom (toString p.row)),
      ("col", .atom (toString p.col))]

end Position

namespace Token

namespace Value

/-- A value for a person to read: only a text is quoted. -/
def label : Value → String
  | .integer n => toString n.toInt
  | .symbol c => c.toString
  | .text s => Text.quote s

/-- A value as data. A symbol is a text of one character. -/
def toJson : Value → Json
  | .integer n => .number n.toInt
  | .symbol c => .text c.toString
  | .text s => .text s

/-- The construction of a value. -/
def toDump : Value → Dump
  | .integer n => .tuple "Integer" [.atom (toString n.toInt)]
  | .symbol c => .tuple "Symbol" [.atom (Text.quoteChar c)]
  | .text s => .tuple "Text" [.atom (Text.quote s)]

end Value

/-- A token as data; without a value there is no field for it. -/
def toJson (t : Token) : Json :=
  .object ([("kind", .text t.kind.tag), ("position", t.position.toJson)] ++
    match t.value with
    | none => []
    | some value => [("value", value.toJson)])

/-- The construction of a token. -/
def toDump (t : Token) : Dump :=
  .record "Token"
    [("kind", .atom t.kind.name), ("position", t.position.toDump),
      ("value", match t.value with
        | none => .atom "None"
        | some value => .tuple "Some" [value.toDump])]

end Token

end ArithTree
