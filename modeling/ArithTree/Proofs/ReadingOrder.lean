import ArithTree.Proofs.Spelling
import Mathlib.Data.List.Chain
import Mathlib.Tactic.TFAE

/-!
# Reading order

`Node.inorder` flattens a tree as it would be written by hand: left operand, operator, right
operand, and a group between its parentheses. This is not how trees are spelled. An operator
behind an operator takes one more of the operands before it, and in `1 2 + % 3` the `2` comes
out in front of the `1`. Among tokens that are read as a tree, the following are the same
(`Block.ofTokens_reading_order`):

* no operator stands right behind an operator;
* every binary operation of the tree has a literal or a group on its right;
* the tokens are the tree in order.

So a chain of literals and groups with operators between them nests to the left, whatever its
operators are.

Three lemmas go around in a circle. `Node.isOperand_of_isChain` finds two operators side by side
in the spelling of a tree that nests to the right, `Node.pieces_eq_inorder` is the equation of
the two flattenings for all other trees, and `Node.spaced_inorder` says that a tree in order
never has two operators side by side.
-/

namespace ArithTree

/-! ### Trees in order -/

namespace Node

mutual

/-- **A tree in order**: left operand, operator, right operand. -/
def inorder : Node → List Piece
  | .literal value => [.literal value]
  | .binary left operator right => left.inorder ++ .operator operator :: right.inorder
  | .block children | .group children => .opening :: (allInorder children ++ [.closing])

/-- Siblings in order, one after the other. -/
def allInorder : List Node → List Piece
  | [] => []
  | node :: nodes => node.inorder ++ allInorder nodes

end

mutual

/-- All nodes of a tree, the tree itself included. -/
def nodes : Node → List Node
  | .literal value => [.literal value]
  | .binary left operator right => .binary left operator right :: (left.nodes ++ right.nodes)
  | .block children => .block children :: allNodes children
  | .group children => .group children :: allNodes children

/-- All nodes of siblings. -/
def allNodes : List Node → List Node
  | [] => []
  | node :: nodes => node.nodes ++ allNodes nodes

end

/-- A literal or a group. -/
def IsOperand : Node → Prop
  | .literal _ | .group _ => True
  | .binary .. | .block _ => False

/-- **Nesting to the left.** Every binary operation among `nodes` has a literal or a group on
its right. -/
def NestLeft (nodes : List Node) : Prop :=
  ∀ left operator right, .binary left operator right ∈ nodes → right.IsOperand

variable {left right node : Node} {operator : Operator} {as bs : List Node}

theorem nestLeft_append : NestLeft (as ++ bs) ↔ NestLeft as ∧ NestLeft bs := by
  simp only [NestLeft, List.mem_append]
  constructor
  · intro h
    exact ⟨fun l o r hmem => h l o r (.inl hmem), fun l o r hmem => h l o r (.inr hmem)⟩
  · rintro ⟨has, hbs⟩ l o r (hmem | hmem)
    · exact has l o r hmem
    · exact hbs l o r hmem

theorem nestLeft_nodes_binary : NestLeft (binary left operator right).nodes ↔
    right.IsOperand ∧ NestLeft left.nodes ∧ NestLeft right.nodes := by
  rw [nodes, ← nestLeft_append]
  constructor
  · intro h
    have hright : right.IsOperand := h left operator right List.mem_cons_self
    exact ⟨hright, fun l o r hmem => h l o r (List.mem_cons_of_mem _ hmem)⟩
  · rintro ⟨hright, h⟩ l o r hmem
    obtain heq | hmem := List.mem_cons.mp hmem
    · cases heq
      exact hright
    · exact h l o r hmem

theorem nestLeft_nodes_group {children : List Node} :
    NestLeft (group children).nodes ↔ NestLeft (allNodes children) := by
  simp [nodes, NestLeft]

/-- Of an operation with an operand on its right the spelling keeps the order: only along a
spine of several operators do operands trade places. -/
theorem pieces_binary_of_isOperand (hright : right.IsOperand) :
    (binary left operator right).pieces = left.pieces ++ .operator operator :: right.pieces := by
  cases right with
  | binary | block => exact hright.elim
  | literal value => simp [pieces, operands, operators, ending]
  | group children => simp [pieces, operands, operators, ending]

end Node

namespace Block

/-- A tree in order. -/
def inorder (block : Block) : List Piece := Node.allInorder block.children

/-- All nodes of a tree. -/
def nodes (block : Block) : List Node := Node.allNodes block.children

end Block

/-! ### Operators side by side -/

namespace Piece

def IsOperator : Piece → Prop
  | .operator _ => True
  | _ => False

/-- Two pieces that may stand side by side in ordinary input. -/
def NotBoth (x y : Piece) : Prop := ¬ (x.IsOperator ∧ y.IsOperator)

/-- **Operators only between other pieces**: none stands at an end or next to another. -/
structure Spaced (xs : List Piece) : Prop where
  first : ∀ x ∈ xs.head?, ¬ x.IsOperator
  last : ∀ x ∈ xs.getLast?, ¬ x.IsOperator
  apart : xs.IsChain NotBoth

variable {x : Piece} {xs ys : List Piece}

theorem Spaced.nil : Spaced [] where
  first := by simp
  last := by simp
  apart := .nil

theorem Spaced.single (hx : ¬ x.IsOperator) : Spaced [x] where
  first := by simpa using hx
  last := by simpa using hx
  apart := .singleton x

theorem Spaced.append (hxs : Spaced xs) (hys : Spaced ys) : Spaced (xs ++ ys) where
  first := by
    intro x hx
    rw [List.head?_append] at hx
    cases hhead : xs.head? with
    | none =>
      rw [hhead, Option.none_or] at hx
      exact hys.first x hx
    | some y =>
      rw [hhead, Option.some_or] at hx
      exact hxs.first x (hhead ▸ hx)
  last := by
    intro x hx
    rw [List.getLast?_append] at hx
    cases hlast : ys.getLast? with
    | none =>
      rw [hlast, Option.none_or] at hx
      exact hxs.last x hx
    | some y =>
      rw [hlast, Option.some_or] at hx
      exact hys.last x (hlast ▸ hx)
  apart := by
    refine List.isChain_append.mpr ⟨hxs.apart, hys.apart, fun x hx y _ hboth => ?_⟩
    exact hxs.last x hx hboth.1

/-- An operator may stand between two runs of pieces, if there are pieces on both sides. -/
theorem Spaced.operator (hxs : Spaced xs) (hys : Spaced ys) (hnex : xs ≠ []) (hney : ys ≠ [])
    (o : Operator) : Spaced (xs ++ .operator o :: ys) where
  first := by
    intro x hx
    rw [List.head?_append_of_ne_nil _ hnex] at hx
    exact hxs.first x hx
  last := by
    intro x hx
    rw [List.getLast?_append_of_ne_nil _ (List.cons_ne_nil _ _),
      List.getLast?_cons_of_ne_nil hney] at hx
    exact hys.last x hx
  apart := by
    have hback : (.operator o :: ys).IsChain NotBoth :=
      List.isChain_cons.mpr ⟨fun y hy hboth => hys.first y hy hboth.2, hys.apart⟩
    refine List.isChain_append.mpr ⟨hxs.apart, hback, fun x hx y _ hboth => ?_⟩
    exact hxs.last x hx hboth.1

end Piece

open Piece (IsOperator NotBoth Spaced)

namespace Token

/-- **Ordinary input**: no operator stands right behind an operator. -/
def OperatorsApart (tokens : List Token) : Prop :=
  tokens.IsChain fun t u => ¬ (t.kind = .operator ∧ u.kind = .operator)

theorem kind_eq_operator_iff {t : Token} {x : Piece} (h : t.piece? = some x) :
    t.kind = .operator ↔ x.IsOperator := by
  obtain ⟨kind, position, value⟩ := t
  cases kind with
  | leftParen | rightParen =>
    cases h
    simp [IsOperator]
  | identifier => cases h
  | integer | string =>
    simp only [piece?] at h
    split at h <;> simp_all
    subst h
    simp [IsOperator]
  | operator =>
    simp only [piece?] at h
    split at h <;> simp_all
    obtain ⟨o, -, rfl⟩ := h
    trivial

/-- Tokens have two operators side by side where their pieces have. -/
theorem operatorsApart_iff {tokens : List Token} {xs : List Piece}
    (h : erase tokens = some xs) : OperatorsApart tokens ↔ xs.IsChain NotBoth := by
  unfold OperatorsApart
  induction tokens generalizing xs with
  | nil =>
    cases h
    simp
  | cons t tokens ih =>
    obtain ⟨x, xs, hx, hxs, rfl⟩ := erase_cons_eq_some.mp h
    rw [List.isChain_cons, List.isChain_cons, ih hxs]
    -- it remains to compare the first of what follows
    refine and_congr_left fun _ => ?_
    cases tokens with
    | nil =>
      cases hxs
      simp
    | cons u tokens =>
      obtain ⟨y, ys, hy, -, rfl⟩ := erase_cons_eq_some.mp hxs
      simp [NotBoth, kind_eq_operator_iff hx, kind_eq_operator_iff hy]

theorem erase_append {front back : List Token} {xs ys : List Piece}
    (hfront : erase front = some xs) (hback : erase back = some ys) :
    erase (front ++ back) = some (xs ++ ys) := by
  unfold erase at *
  rw [List.mapM_append, hfront, hback]
  rfl

end Token

/-! ### The circle -/

namespace Node

/-- A block-free operation with an operation on its right has both operators side by side. -/
theorem isOperand_of_isChain_binary {left right : Node} {operator : Operator}
    (hfree : right.BlockFree) (h : (binary left operator right).pieces.IsChain NotBoth) :
    right.IsOperand := by
  cases right with
  | literal | group => trivial
  | block => exact hfree
  | binary left' operator' right =>
    rw [pieces, operators_binary, operators_binary, List.append_assoc] at h
    have hspine := h.right_of_append
    have hnot : NotBoth (.operator operator) (.operator operator') :=
      (List.isChain_cons_cons.mp hspine).1
    exact absurd ⟨trivial, trivial⟩ hnot

mutual

/-- **Two operators side by side** are in the spelling of every block-free tree that nests to
the right somewhere. -/
theorem nestLeft_of_isChain : (node : Node) → node.BlockFree → node.pieces.IsChain NotBoth →
    NestLeft node.nodes
  | .literal _, _, _ => by simp [nodes, NestLeft]
  | .group children, hfree, h => by
    rw [pieces_group] at h
    have hinside : (allPieces children).IsChain NotBoth := h.tail.left_of_append
    exact nestLeft_nodes_group.mpr (nestLeft_of_isChain_all children hfree hinside)
  | .binary left operator right, hfree, h => by
    have hright : right.IsOperand := isOperand_of_isChain_binary hfree.2 h
    -- so the spelling keeps the order, and the two sides are stretches of it
    rw [pieces_binary_of_isOperand hright] at h
    have hleft := nestLeft_of_isChain left hfree.1 h.left_of_append
    have hinside := nestLeft_of_isChain right hfree.2 h.right_of_append.tail
    exact nestLeft_nodes_binary.mpr ⟨hright, hleft, hinside⟩

theorem nestLeft_of_isChain_all : (nodes : List Node) → AllOver (fun _ => True) nodes →
    (allPieces nodes).IsChain NotBoth → NestLeft (allNodes nodes)
  | [], _, _ => by simp [allNodes, NestLeft]
  | node :: nodes, hfree, h => by
    rw [allPieces_cons] at h
    have hnode := nestLeft_of_isChain node hfree.1 h.left_of_append
    have hnodes := nestLeft_of_isChain_all nodes hfree.2 h.right_of_append
    exact nestLeft_append.mpr ⟨hnode, hnodes⟩

end

mutual

/-- **The two flattenings agree** on a tree that nests to the left. -/
theorem pieces_eq_inorder : (node : Node) → NestLeft node.nodes → node.pieces = node.inorder
  | .literal _, _ => rfl
  | .block children, h => by
    have hchildren : NestLeft (allNodes children) :=
      fun l o r hmem => h l o r (List.mem_cons_of_mem _ hmem)
    have hinside := allPieces_eq_allInorder children hchildren
    rw [inorder, ← hinside]
    rfl
  | .group children, h => by
    have hinside := allPieces_eq_allInorder children (nestLeft_nodes_group.mp h)
    rw [inorder, ← hinside, pieces_group]
  | .binary left operator right, h => by
    obtain ⟨hright, hleft, hinside⟩ := nestLeft_nodes_binary.mp h
    rw [pieces_binary_of_isOperand hright, pieces_eq_inorder left hleft,
      pieces_eq_inorder right hinside, inorder]

theorem allPieces_eq_allInorder : (nodes : List Node) → NestLeft (allNodes nodes) →
    allPieces nodes = allInorder nodes
  | [], _ => rfl
  | node :: nodes, h => by
    obtain ⟨hnode, hnodes⟩ := nestLeft_append.mp h
    rw [allPieces_cons, pieces_eq_inorder node hnode, allPieces_eq_allInorder nodes hnodes,
      allInorder]

end

theorem inorder_ne_nil (node : Node) : node.inorder ≠ [] := by
  cases node with
  | literal | block | group => exact List.cons_ne_nil _ _
  | binary => simp [inorder]

mutual

/-- **A tree in order** has its operators between other pieces only. -/
theorem spaced_inorder : (node : Node) → Spaced node.inorder
  | .literal _ => .single id
  | .block children | .group children => by
    have hopening : Spaced [.opening] := .single id
    have hclosing : Spaced [.closing] := .single id
    exact hopening.append ((spaced_allInorder children).append hclosing)
  | .binary left operator right => by
    have hleft := spaced_inorder left
    have hright := spaced_inorder right
    exact hleft.operator hright left.inorder_ne_nil right.inorder_ne_nil operator

theorem spaced_allInorder : (nodes : List Node) → Spaced (allInorder nodes)
  | [] => .nil
  | node :: nodes => (spaced_inorder node).append (spaced_allInorder nodes)

end

end Node

/-! ### Chains -/

/-- **A link of a chain**: the token of an operator and the tokens of a literal or a group
behind it. -/
structure Link where
  sign : Token
  operator : Operator
  span : List Token
  operand : Node
  sign_eq : sign.piece? = some (.operator operator)
  span_eq : Block.ofTokens span = .ok ⟨[operand]⟩
  isOperand : operand.IsOperand

namespace Link

def tokens (link : Link) : List Token := link.sign :: link.span

/-- The link takes all that stands before it as its left operand. -/
def attach (left : Node) (link : Link) : Node := .binary left link.operator link.operand

theorem blockFree_operand (link : Link) : link.operand.BlockFree := by
  have hfree := (Block.spelled_of_ofTokens link.span_eq).1
  exact hfree.1

theorem erase_tokens (link : Link) :
    Token.erase link.tokens = some (.operator link.operator :: link.operand.pieces) := by
  have hspan := (Block.spelled_of_ofTokens link.span_eq).2
  have hpieces : Block.pieces ⟨[link.operand]⟩ = link.operand.pieces :=
    List.append_nil _
  rw [hpieces] at hspan
  exact Token.erase_cons_eq_some.mpr ⟨_, _, link.sign_eq, hspan, rfl⟩

/-- **A chain of links** behind the tokens of one node, as a left fold over the links. The
induction is on the links and moves the node along: each link makes the next one's left
operand. -/
theorem ofTokens_chain {front : List Token} {node : Node} (links : List Link)
    (hfront : Block.ofTokens front = .ok ⟨[node]⟩) :
    Block.ofTokens (front ++ links.flatMap tokens) = .ok ⟨[links.foldl attach node]⟩ := by
  induction links generalizing front node with
  | nil => rwa [List.flatMap_nil, List.append_nil]
  | cons link links ih =>
    obtain ⟨hfree, herase⟩ := Block.ofTokens_eq_ok_iff.mp hfront
    have hnode : Block.pieces ⟨[node]⟩ = node.pieces := List.append_nil _
    have hattach : Block.pieces ⟨[attach node link]⟩
        = node.pieces ++ .operator link.operator :: link.operand.pieces :=
      (List.append_nil _).trans (Node.pieces_binary_of_isOperand link.isOperand)
    have hlink : Block.ofTokens (front ++ link.tokens) = .ok ⟨[attach node link]⟩ := by
      refine Block.ofTokens_eq_ok_iff.mpr ⟨⟨⟨hfree.1, link.blockFree_operand⟩, trivial⟩, ?_⟩
      rw [hnode] at herase
      rw [hattach]
      exact Token.erase_append herase link.erase_tokens
    have hrest := ih hlink
    rwa [List.append_assoc, ← List.flatMap_cons] at hrest

end Link

namespace Block

/-- **Ordinary input keeps its order and nests to the left**, and only ordinary input does.
For tokens that are read as a tree it is the same that no operator stands right behind an
operator, that every binary operation of the tree has a literal or a group on its right, and
that the tokens are the tree in order. In particular, a literal or a group, or any other tokens
of one node, and behind it operators with a literal or a group each are read as a left fold over
the operators, whichever these are. -/
theorem ofTokens_reading_order :
    (∀ tokens block, ofTokens tokens = .ok block →
      [Token.OperatorsApart tokens, Node.NestLeft block.nodes,
        Token.erase tokens = some block.inorder].TFAE) ∧
    ∀ (first : List Token) (node : Node) (links : List Link), ofTokens first = .ok ⟨[node]⟩ →
      ofTokens (first ++ links.flatMap Link.tokens)
        = .ok ⟨[links.foldl (fun left link => .binary left link.operator link.operand) node]⟩ := by
  refine ⟨fun tokens block h => ?_, fun first node links hfirst => ?_⟩
  · obtain ⟨hfree, herase⟩ := spelled_of_ofTokens h
    have hapart := Token.operatorsApart_iff herase
    tfae_have 1 → 2 := by
      intro htokens
      exact Node.nestLeft_of_isChain_all block.children hfree (hapart.mp htokens)
    tfae_have 2 → 3 := by
      intro hleft
      rw [herase, pieces, Node.allPieces_eq_allInorder block.children hleft, inorder]
    tfae_have 3 → 1 := by
      intro hinorder
      rw [Token.operatorsApart_iff hinorder]
      exact (Node.spaced_allInorder block.children).apart
    tfae_finish
  · exact Link.ofTokens_chain links hfirst

/-- Two operators side by side put the `2` in front of the `1`. Apart from each other they keep
the order, and the product takes the whole sum before it as its left operand. -/
theorem ofTokens_reading_order_of_product :
    (¬ Token.OperatorsApart (Scan.ofSource "1 2 + % 3").tokens ∧
      Token.erase (Scan.ofSource "1 2 + % 3").tokens
        ≠ some (Block.inorder
          ⟨[.binary (.integer 2) .add (.binary (.integer 1) .modulo (.integer 3))]⟩)) ∧
    ofTokens (Scan.ofSource "1 + (2 3) * 4").tokens
      = .ok ⟨[.binary (.binary (.integer 1) .add (.group [.integer 2, .integer 3])) .multiply
          (.integer 4)]⟩ := by
  have hswapped : ofTokens (Scan.ofSource "1 2 + % 3").tokens = .ok
      ⟨[.binary (.integer 2) .add (.binary (.integer 1) .modulo (.integer 3))]⟩ :=
    ofTokens_eq_ok_iff_run.mpr rfl
  have hright : ¬ Node.NestLeft (Block.nodes
      ⟨[.binary (.integer 2) .add (.binary (.integer 1) .modulo (.integer 3))]⟩) := by
    intro h
    exact h (.integer 2) .add _ List.mem_cons_self
  have hcircle := ofTokens_reading_order.1 _ _ hswapped
  refine ⟨⟨fun h => hright ((hcircle.out 0 1).mp h), fun h => hright ((hcircle.out 1 2).mpr h)⟩, ?_⟩
  have hfirst : ofTokens (Scan.ofSource "1").tokens = .ok ⟨[.integer 1]⟩ :=
    ofTokens_eq_ok_iff_run.mpr rfl
  let sum : Link := ⟨⟨.operator, ⟨2, 0, 2⟩, some (.symbol '+')⟩, .add,
    [⟨.leftParen, ⟨4, 0, 4⟩, none⟩, ⟨.integer, ⟨6, 0, 6⟩, some (.integer 2)⟩,
      ⟨.integer, ⟨8, 0, 8⟩, some (.integer 3)⟩, ⟨.rightParen, ⟨8, 0, 8⟩, none⟩],
    .group [.integer 2, .integer 3], rfl, ofTokens_eq_ok_iff_run.mpr rfl, trivial⟩
  let product : Link := ⟨⟨.operator, ⟨10, 0, 10⟩, some (.symbol '*')⟩, .multiply,
    [⟨.integer, ⟨13, 0, 13⟩, some (.integer 4)⟩], .integer 4, rfl,
    ofTokens_eq_ok_iff_run.mpr rfl, trivial⟩
  exact ofTokens_reading_order.2 _ _ [sum, product] hfirst

end Block

end ArithTree
