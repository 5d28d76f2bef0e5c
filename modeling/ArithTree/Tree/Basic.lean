import ArithTree.Operator

/-!
# Trees

A `Block` is a list of sibling expressions, and a `Node` is one expression: a
literal, a binary operation, a nested block, or a group, which is what a pair of
parentheses and the block between them become. Readers of source text never
make a nested `Node.block`; it is there for trees that are put together by hand.

Equality of trees is decided by `Node.beq`, which compares node by node, and
`Node.beq_iff_eq` says that it decides equality.
-/

namespace ArithTree

/-- The value of a literal. -/
inductive Literal where
  | integer (n : Int64)
  | text (s : String)
deriving DecidableEq

/-- An expression. -/
inductive Node where
  | literal (value : Literal)
  | binary (left : Node) (operator : Operator) (right : Node)
  /-- A block as an expression of its own. -/
  | block (children : List Node)
  /-- The block between two parentheses. -/
  | group (children : List Node)

/-- A list of sibling expressions; the root of every tree is one. -/
structure Block where
  children : List Node

namespace Node

mutual

/-- Are the two nodes the same tree? -/
def beq : Node → Node → Bool
  | .literal v, .literal w => v == w
  | .binary l o r, .binary l' o' r' => l.beq l' && o == o' && r.beq r'
  | .block cs, .block ds => beqAll cs ds
  | .group cs, .group ds => beqAll cs ds
  | _, _ => false

/-- Are the two lists of nodes the same, node by node? -/
def beqAll : List Node → List Node → Bool
  | [], [] => true
  | a :: as, b :: bs => a.beq b && beqAll as bs
  | _, _ => false

end

mutual

theorem beq_iff_eq (a b : Node) : a.beq b = true ↔ a = b := by
  match a, b with
  | .literal v, .literal w => simp [beq]
  | .binary l o r, .binary l' o' r' =>
    simp [beq, beq_iff_eq l l', beq_iff_eq r r', and_assoc]
  | .block cs, .block ds => simp [beq, beqAll_iff_eq cs ds]
  | .group cs, .group ds => simp [beq, beqAll_iff_eq cs ds]
  | .literal _, .binary .. | .literal _, .block _ | .literal _, .group _
  | .binary .., .literal _ | .binary .., .block _ | .binary .., .group _
  | .block _, .literal _ | .block _, .binary .. | .block _, .group _
  | .group _, .literal _ | .group _, .binary .. | .group _, .block _ => simp [beq]

theorem beqAll_iff_eq (as bs : List Node) : beqAll as bs = true ↔ as = bs := by
  match as, bs with
  | [], [] => simp [beqAll]
  | a :: as, b :: bs => simp [beqAll, beq_iff_eq a b, beqAll_iff_eq as bs]
  | [], _ :: _ | _ :: _, [] => simp [beqAll]

end

instance : DecidableEq Node := fun a b => decidable_of_iff _ (beq_iff_eq a b)

/-- The literal for an integer. -/
def integer (n : Int64) : Node := .literal (.integer n)

end Node

deriving instance DecidableEq for Block

/-- The block without expressions. -/
def Block.empty : Block := ⟨[]⟩

end ArithTree
