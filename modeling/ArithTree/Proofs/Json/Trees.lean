import ArithTree.Proofs.Json.Written
import ArithTree.Tree.Shown

/-!
# The JSON of a tree

The text that is saved for a tree is JSON and loses nothing of the tree.

* `Block.ofJson?` — the tree that data stands for. What a node is stands in its
  first field, `type`, and decides what its other fields have to be.
* `Block.ofJson?_toJson` — what a tree is written as stands for the tree.
* `Block.ofJsonText?` — the tree that a text stands for.
* `Block.json_lossless` — the text of a tree is well-formed, stands for the tree, and
  is the text of no other tree.

The value of a literal has no field that says what it is: a number is an integer and
a string is a text, and `1` and `"1"` are different texts because of the quotes. The
block of a group is told from a block by itself by the field that it stands in.
-/

namespace ArithTree

/-! ### Operators and literals -/

namespace Operator

/-- The operator that a text of one character spells. -/
def ofText? (s : String) : Option Operator :=
  match s.toList with
  | [c] => ofSymbol? c
  | _ => none

@[simp] theorem ofText?_symbol (o : Operator) : ofText? o.symbol.toString = some o := by
  cases o <;> rfl

end Operator

namespace Literal

/-- The literal that data stands for. A number has to fit an integer. -/
def ofJson? : Json → Option Literal
  | .number n => if (Int64.ofInt n).toInt = n then some (.integer (Int64.ofInt n)) else none
  | .text s => some (.text s)
  | _ => none

@[simp] theorem ofJson?_toJson (v : Literal) : ofJson? v.toJson = some v := by
  cases v with
  | integer n => simp [toJson, ofJson?]
  | text s => rfl

end Literal

/-! ### Nodes -/

namespace Node

mutual

/-- The node that data stands for. -/
def ofJson? : Json → Option Node
  | .object (("type", .text kind) :: fields) =>
    match kind, fields with
    | "literal_node", [("value", value)] => do
      let value ← Literal.ofJson? value
      return .literal value
    | "binary_node", [("left", left), ("operator", .text symbol), ("right", right)] => do
      let left ← ofJson? left
      let operator ← Operator.ofText? symbol
      let right ← ofJson? right
      return .binary left operator right
    | "block_node", [("children", .array children)] => do
      let children ← allOfJson? children
      return .block children
    | "grouped_expression_node",
        [("inner", .object [("type", .text "block_node"), ("children", .array children)])] => do
      let children ← allOfJson? children
      return .group children
    | _, _ => none
  | _ => none

/-- The nodes that a list of data stands for. -/
def allOfJson? : List Json → Option (List Node)
  | [] => some []
  | item :: items => do
    let node ← ofJson? item
    let nodes ← allOfJson? items
    return node :: nodes

end

mutual

@[simp] theorem ofJson?_toJson (node : Node) : ofJson? node.toJson = some node := by
  match node with
  | .literal value =>
    rw [toJson, ofJson?, Literal.ofJson?_toJson]
    rfl
  | .binary left operator right =>
    rw [toJson, ofJson?, ofJson?_toJson left, Operator.ofText?_symbol, ofJson?_toJson right]
    rfl
  | .block children =>
    rw [toJson, Block.objectOf, ofJson?, allOfJson?_allToJson children]
    rfl
  | .group children =>
    rw [toJson, Block.objectOf, ofJson?, allOfJson?_allToJson children]
    rfl

@[simp] theorem allOfJson?_allToJson (nodes : List Node) :
    allOfJson? (allToJson nodes) = some nodes := by
  match nodes with
  | [] => rw [allToJson, allOfJson?]
  | node :: nodes =>
    rw [allToJson, allOfJson?, ofJson?_toJson node, allOfJson?_allToJson nodes]
    rfl

end

end Node

/-! ### Trees -/

namespace Block

/-- The tree that data stands for. -/
def ofJson? : Json → Option Block
  | .object [("type", .text "block_node"), ("children", .array children)] => do
    let children ← Node.allOfJson? children
    return ⟨children⟩
  | _ => none

@[simp] theorem ofJson?_toJson (block : Block) : ofJson? block.toJson = some block := by
  rw [toJson, objectOf, ofJson?, Node.allOfJson?_allToJson]
  rfl

/-- The tree that a text stands for: its value is read and then what the value stands
for. -/
def ofJsonText? (text : String) : Option Block := do
  let data ← Json.ofText? text
  ofJson? data

theorem ofJsonText?_json (block : Block) : ofJsonText? block.json = some block := by
  have hdata : Json.ofText? block.json = some block.toJson := Json.ofText?_pretty block.toJson
  rw [ofJsonText?, hdata]
  exact ofJson?_toJson block

/-- **The JSON of a tree loses nothing.** For every tree, whatever its nodes, integers
and texts, the text that is saved is well-formed JSON and is read back as the tree; and
no other tree has the same text. -/
theorem json_lossless (block : Block) :
    Json.WellFormed block.json ∧ ofJsonText? block.json = some block ∧
      ∀ other : Block, other.json = block.json ↔ other = block := by
  refine ⟨Json.wellFormed_of_ofText? (Json.ofText?_pretty block.toJson),
    ofJsonText?_json block, fun other => ⟨fun h => ?_, fun h => h ▸ rfl⟩⟩
  have hread := ofJsonText?_json other
  rw [h, ofJsonText?_json block] at hread
  exact (Option.some.inj hread).symm

end Block

end ArithTree
