import ArithTree.Dump
import ArithTree.Json.Basic
import ArithTree.Text.Quoted
import ArithTree.Tree.Basic

/-!
# Trees as text

The written forms of a tree.

* `Block.toJson` — the tree as data. Every node says in its first field, `type`,
  what it is; a literal holds a number or a text, and a group holds a block.
* `Block.toDump` — the construction of the tree.
* `Block.json` — the text that is saved to files: the data, indented.
-/

namespace ArithTree

namespace Literal

/-- A literal's value as data. -/
def toJson : Literal → Json
  | .integer n => .number n.toInt
  | .text s => .text s

/-- The construction of a literal's value. -/
def toDump : Literal → Dump
  | .integer n => .tuple "Integer" [.atom (toString n.toInt)]
  | .text s => .tuple "String" [.atom (Text.quote s)]

end Literal

namespace Block

/-- A block of nodes that are data already. -/
def objectOf (children : List Json) : Json :=
  .object [("type", .text "block_node"), ("children", .array children)]

/-- A block of nodes that are dumps already. -/
def recordOf (children : List Dump) : Dump :=
  .record "Block" [("children", .list children)]

end Block

namespace Node

mutual

/-- A node as data. -/
def toJson : Node → Json
  | .literal value => .object [("type", .text "literal_node"), ("value", value.toJson)]
  | .binary left operator right =>
    .object [("type", .text "binary_node"), ("left", left.toJson),
      ("operator", .text operator.symbol.toString), ("right", right.toJson)]
  | .block children => Block.objectOf (allToJson children)
  | .group children =>
    .object [("type", .text "grouped_expression_node"),
      ("inner", Block.objectOf (allToJson children))]

/-- A list of nodes as data. -/
def allToJson : List Node → List Json
  | [] => []
  | node :: nodes => node.toJson :: allToJson nodes

end

mutual

/-- The construction of a node. -/
def toDump : Node → Dump
  | .literal value => .record "Literal" [("value", value.toDump)]
  | .binary left operator right =>
    .record "Binary"
      [("left", left.toDump), ("operator", .atom operator.name), ("right", right.toDump)]
  | .block children => .tuple "Block" [Block.recordOf (allToDump children)]
  | .group children => .record "GroupedExpression" [("inner", Block.recordOf (allToDump children))]

/-- The constructions of a list of nodes. -/
def allToDump : List Node → List Dump
  | [] => []
  | node :: nodes => node.toDump :: allToDump nodes

end

end Node

namespace Block

/-- A tree as data. -/
def toJson (block : Block) : Json := objectOf (Node.allToJson block.children)

/-- The construction of a tree. -/
def toDump (block : Block) : Dump := recordOf (Node.allToDump block.children)

/-- The text that stands for a tree in a file. -/
def json (block : Block) : String := block.toJson.pretty

end Block

end ArithTree
