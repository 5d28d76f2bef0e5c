import ArithTree.Tree.Descent

/-!
# Pieces

A `Piece` is what remains of a token without its place: a parenthesis, a literal
or an operator. `Token.erase` reduces tokens to pieces and is undefined as soon
as one token has a value that does not go with its kind, and `Node.pieces` spells
a tree in pieces.

Trees are not spelled in reading order. Along its right spine a tree is

  `binary l₁ o₁ (binary l₂ o₂ (… (binary lₖ oₖ a)))`

with an end `a` that is no binary operation, and the operators of the spine stand
next to each other in front of `a`, behind all left operands. An operator takes
the operand that stands closest before it, so the operands stand in reverse:

  `lₖ … l₂ l₁ o₁ o₂ … oₖ a`.

`Node.operands`, `Node.operators` and `Node.ending` are the three stretches.
`Node.nest` puts a spine together from its left operands and its end, and
`Node.pieces_nest` is the equation above.

A nested block is spelled like the group of its children, so that every tree has
a spelling; `Block.BlockFree` is the condition under which a spelling determines
its tree.
-/

namespace ArithTree

/-- A token without its place, and without the value that a parenthesis may
carry. -/
inductive Piece where
  | opening
  | closing
  | literal (value : Literal)
  | operator (operator : Operator)
deriving DecidableEq

/-! ### From tokens to pieces -/

namespace Token

/-- The piece that a token is, if its value goes with its kind. The value of a
parenthesis is of no account. -/
def piece? (t : Token) : Option Piece :=
  match t.kind, t.value with
  | .leftParen, _ => some .opening
  | .rightParen, _ => some .closing
  | .integer, some (.integer n) => some (.literal (.integer n))
  | .string, some (.text s) => some (.literal (.text s))
  | .operator, some (.symbol c) => (Operator.ofSymbol? c).map .operator
  | _, _ => none

/-- The fault of a token that is no piece. -/
def refusal (t : Token) : Fault :=
  if t.kind = .identifier then .unimplemented .identifier t.position
  else .malformed (.unexpectedToken t.kind) t.position

theorem location_refusal (t : Token) : t.refusal.location = some t.position := by
  unfold refusal
  split <;> rfl

theorem piece?_eq_closing_iff {t : Token} :
    t.piece? = some .closing ↔ t.kind = .rightParen := by
  obtain ⟨kind, position, value⟩ := t
  cases kind with
  | leftParen | rightParen | identifier => simp [piece?]
  | integer | string | operator => simp only [piece?]; split <;> simp_all

/-- The pieces that tokens are, if every one of them is a piece. -/
def erase (tokens : List Token) : Option (List Piece) :=
  tokens.mapM piece?

@[simp] theorem erase_nil : erase [] = some [] := rfl

theorem erase_cons_eq_some {t : Token} {tokens : List Token} {ys : List Piece} :
    erase (t :: tokens) = some ys ↔
      ∃ x xs, t.piece? = some x ∧ erase tokens = some xs ∧ ys = x :: xs := by
  unfold erase
  rw [List.mapM_cons]
  cases t.piece? <;> cases List.mapM piece? tokens <;> simp [eq_comm]

/-- Tokens that erase to two runs of pieces are two runs of tokens. -/
theorem erase_eq_append {tokens : List Token} {xs ys : List Piece}
    (h : erase tokens = some (xs ++ ys)) :
    ∃ front back, tokens = front ++ back ∧ erase front = some xs ∧ erase back = some ys := by
  induction xs generalizing tokens with
  | nil => exact ⟨[], tokens, rfl, rfl, h⟩
  | cons x xs ih =>
    cases tokens with
    | nil => simp at h
    | cons t tokens =>
      obtain ⟨x, xys, ht, h, heq⟩ := erase_cons_eq_some.mp h
      cases heq
      obtain ⟨front, back, rfl, hf, hb⟩ := ih h
      exact ⟨t :: front, back, rfl, erase_cons_eq_some.mpr ⟨x, xs, ht, hf, rfl⟩, hb⟩

end Token

/-! ### From trees to pieces -/

namespace Node

/-- The operators along the right spine, outermost first. -/
def operators : Node → List Piece
  | .binary _ operator right => .operator operator :: right.operators
  | _ => []

mutual

/-- The left operands along the right spine, innermost first. -/
def operands : Node → List Piece
  | .binary left _ right =>
    right.operands ++ (left.operands ++ left.operators ++ left.ending)
  | _ => []

/-- The end of the right spine. -/
def ending : Node → List Piece
  | .literal value => [.literal value]
  | .binary _ _ right => right.ending
  | .block children | .group children => .opening :: (allPieces children ++ [.closing])

/-- The spellings of nodes, one after the other. -/
def allPieces : List Node → List Piece
  | [] => []
  | node :: nodes => (node.operands ++ node.operators ++ node.ending) ++ allPieces nodes

end

/-- The spelling of a node: left operands, operators, end. -/
def pieces (node : Node) : List Piece :=
  node.operands ++ node.operators ++ node.ending

@[simp] theorem operands_binary (left right : Node) (operator : Operator) :
    (binary left operator right).operands = right.operands ++ left.pieces := rfl

@[simp] theorem operators_binary (left right : Node) (operator : Operator) :
    (binary left operator right).operators = .operator operator :: right.operators := rfl

@[simp] theorem ending_binary (left right : Node) (operator : Operator) :
    (binary left operator right).ending = right.ending := rfl

@[simp] theorem allPieces_nil : allPieces [] = [] := rfl

@[simp] theorem allPieces_cons (node : Node) (nodes : List Node) :
    allPieces (node :: nodes) = node.pieces ++ allPieces nodes := rfl

@[simp] theorem pieces_literal (value : Literal) :
    (literal value).pieces = [.literal value] := rfl

@[simp] theorem pieces_group (children : List Node) :
    (group children).pieces = .opening :: (allPieces children ++ [.closing]) := rfl

@[simp] theorem allPieces_append (as bs : List Node) :
    allPieces (as ++ bs) = allPieces as ++ allPieces bs := by
  induction as with
  | nil => rfl
  | cons a as ih => rw [List.cons_append, allPieces_cons, ih, allPieces_cons, List.append_assoc]

/-! ### Putting a right spine together -/

/-- **A right spine.** The node with the left operands and operators of
`pending` and with `atom` at its end. The newest pending operator stands closest
to `atom`, the oldest is the outermost. -/
def nest (pending : List (Node × Operator)) (atom : Node) : Node :=
  pending.foldl (fun right p => .binary p.1 p.2 right) atom

@[simp] theorem nest_nil (atom : Node) : nest [] atom = atom := rfl

@[simp] theorem nest_cons (left : Node) (operator : Operator) (pending : List (Node × Operator))
    (atom : Node) :
    nest ((left, operator) :: pending) atom = nest pending (.binary left operator atom) := rfl

/-- The spelling of pending operators: their left operands, newest first, and
then the operators themselves, oldest first. -/
def pendingPieces (pending : List (Node × Operator)) : List Piece :=
  pending.flatMap (·.1.pieces) ++ pending.reverse.map (.operator ·.2)

theorem operands_nest (pending : List (Node × Operator)) (atom : Node) :
    (nest pending atom).operands = atom.operands ++ pending.flatMap (·.1.pieces) := by
  induction pending generalizing atom with
  | nil => simp
  | cons p pending ih =>
    obtain ⟨left, operator⟩ := p
    rw [nest_cons, ih, operands_binary, List.flatMap_cons, List.append_assoc]

theorem operators_nest (pending : List (Node × Operator)) (atom : Node) :
    (nest pending atom).operators
      = pending.reverse.map (.operator ·.2) ++ atom.operators := by
  induction pending generalizing atom with
  | nil => simp
  | cons p pending ih =>
    obtain ⟨left, operator⟩ := p
    rw [nest_cons, ih, operators_binary, List.reverse_cons, List.map_append, List.append_assoc]
    rfl

theorem ending_nest (pending : List (Node × Operator)) (atom : Node) :
    (nest pending atom).ending = atom.ending := by
  induction pending generalizing atom with
  | nil => rfl
  | cons p pending ih => rw [nest_cons, ih, ending_binary]

/-- A node that is no binary operation, which is what a right spine ends with. -/
def IsAtom : Node → Prop
  | .binary .. => False
  | _ => True

/-- **The spelling of a right spine**: its left operands, innermost first, its
operators, outermost first, and its end. -/
theorem pieces_nest (pending : List (Node × Operator)) {atom : Node} (h : atom.IsAtom) :
    (nest pending atom).pieces = pendingPieces pending ++ atom.pieces := by
  -- of the three stretches of an atom only the end is there
  obtain ⟨hl, ho⟩ : atom.operands = [] ∧ atom.operators = [] := by
    cases atom with
    | binary => exact h.elim
    | literal | block | group => exact ⟨rfl, rfl⟩
  unfold pieces pendingPieces
  rw [operands_nest, operators_nest, ending_nest, hl, ho]
  simp

-- `+` takes the 2, `%` takes the 1, and the 3 ends the spine
example : pieces (.binary (.integer 2) .add (.binary (.integer 1) .modulo (.integer 3)))
    = [.literal (.integer 1), .literal (.integer 2), .operator .add, .operator .modulo,
      .literal (.integer 3)] := rfl

/-! ### Trees over a set of literals -/

mutual

/-- A tree without nested blocks, all of whose literals satisfy `p`. -/
def Over (p : Literal → Prop) : Node → Prop
  | .literal value => p value
  | .binary left _ right => left.Over p ∧ right.Over p
  | .block _ => False
  | .group children => AllOver p children

def AllOver (p : Literal → Prop) : List Node → Prop
  | [] => True
  | node :: nodes => node.Over p ∧ AllOver p nodes

end

theorem allOver_iff {p : Literal → Prop} {nodes : List Node} :
    AllOver p nodes ↔ ∀ node ∈ nodes, node.Over p := by
  induction nodes with
  | nil => simp [AllOver]
  | cons node nodes ih => simp [AllOver, ih]

theorem over_nest {p : Literal → Prop} {pending : List (Node × Operator)} {atom : Node}
    (hp : ∀ q ∈ pending, q.1.Over p) (ha : atom.Over p) : (nest pending atom).Over p := by
  induction pending generalizing atom with
  | nil => exact ha
  | cons q pending ih =>
    rw [List.forall_mem_cons] at hp
    exact ih hp.2 ⟨hp.1, ha⟩

/-- A tree without nested blocks. -/
def BlockFree (node : Node) : Prop := node.Over fun _ => True

theorem mem_pieces_binary {left right : Node} {operator : Operator} {x : Piece} :
    x ∈ (binary left operator right).pieces
      ↔ x = .operator operator ∨ x ∈ left.pieces ∨ x ∈ right.pieces := by
  simp only [pieces, operands_binary, operators_binary, ending_binary, List.mem_append,
    List.mem_cons]
  grind

mutual

/-- The literals of a tree are those of its spelling. -/
theorem over_iff {p : Literal → Prop} : (node : Node) →
    (node.Over p ↔ node.BlockFree ∧ ∀ value, .literal value ∈ node.pieces → p value)
  | .literal _ => by simp [Over, BlockFree]
  | .block _ => by simp [Over, BlockFree]
  | .group children => by
    have h := allOver_iff_pieces (p := p) children
    simpa [Over, BlockFree] using h
  | .binary left _ right => by
    have hl := over_iff (p := p) left
    have hr := over_iff (p := p) right
    -- an operator is no literal
    simp only [Over, BlockFree, mem_pieces_binary] at hl hr ⊢
    rw [hl, hr]
    grind

theorem allOver_iff_pieces {p : Literal → Prop} : (nodes : List Node) →
    (AllOver p nodes ↔ AllOver (fun _ => True) nodes ∧
      ∀ value, .literal value ∈ allPieces nodes → p value)
  | [] => by simp [AllOver]
  | node :: nodes => by
    have hnode := over_iff (p := p) node
    have hnodes := allOver_iff_pieces (p := p) nodes
    simp only [AllOver, BlockFree, allPieces_cons, List.mem_append] at hnode ⊢
    rw [hnode, hnodes]
    grind

end

end Node

namespace Block

def pieces (block : Block) : List Piece := Node.allPieces block.children

/-- A tree without nested blocks, all of whose literals satisfy `p`. -/
def Over (p : Literal → Prop) (block : Block) : Prop := Node.AllOver p block.children

/-- A tree without nested blocks. -/
def BlockFree (block : Block) : Prop := block.Over fun _ => True

end Block

end ArithTree
