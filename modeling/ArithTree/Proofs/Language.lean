import ArithTree.Proofs.Bodies
import ArithTree.Proofs.Spelling

/-!
# The language of trees

Which tokens are read as a tree can be said without reading them
(`Block.exists_ofTokens_iff`): every token is a piece, parentheses are balanced,
and every body keeps the rule `Piece.WellOrdered`, that an operator has more
atoms than operators before it and that no body ends in one.

`Piece.Tally` turns the rule into a count. Atoms are added to it, every operator
takes one away, and a count that would fall below zero is refused. So a tally is
what a reader who forgets all trees remembers of an open block: the number of its
children, and whether an operator waits (`Frame.tally`).

* `Stack.reads_of_tally` — wherever the tally of a body can go on, the one pass
  can go on, and the block it builds has the children that the tally counts.
* `Node.tally_operands`, `Node.tally_spine` and `Node.tally_all` — the tally of a
  tree's spelling, which counts one child for every node.
* `Node.mem_innerBodies` — the bodies in a tree's spelling are the spellings of
  its blocks.
-/

namespace ArithTree

namespace Piece

/-! ### The rule for one body -/

/-- Every operator of a body has more atoms than operators before it, and the
last item is no operator. -/
structure WellOrdered (is : List Item) : Prop where
  atoms_before : ∀ front back, is = front ++ .operator :: back →
    front.count .operator < front.count .atom
  last : is.getLast? ≠ some .operator

/-- A count of items: the atoms that no operator has taken, and whether the last
item was an operator. -/
structure Tally where
  spare : Nat
  waiting : Bool

namespace Tally

def start : Tally := ⟨0, false⟩

/-- Counts one item. An operator without an atom to take is not counted. -/
def add : Tally → Item → Option Tally
  | ⟨spare, _⟩, .atom => some ⟨spare + 1, false⟩
  | ⟨0, _⟩, .operator => none
  | ⟨spare + 1, _⟩, .operator => some ⟨spare, true⟩

def after (τ : Tally) (is : List Item) : Option Tally := is.foldlM add τ

variable {spare : Nat} {waiting : Bool} {τ : Tally} {is : List Item}

@[simp] theorem after_nil : τ.after [] = some τ := rfl

@[simp] theorem after_atom :
    after ⟨spare, waiting⟩ (.atom :: is) = after ⟨spare + 1, false⟩ is := rfl

@[simp] theorem after_operator_zero : after ⟨0, waiting⟩ (.operator :: is) = none := rfl

@[simp] theorem after_operator_succ :
    after ⟨spare + 1, waiting⟩ (.operator :: is) = after ⟨spare, true⟩ is := rfl

theorem after_append {js : List Item} : τ.after (is ++ js) = (τ.after is).bind (·.after js) :=
  List.foldlM_append

/-- A count that comes to an end is the number of atoms less the number of
operators. -/
theorem spare_after {σ : Tally} (h : τ.after is = some σ) :
    σ.spare + is.count .operator = τ.spare + is.count .atom := by
  induction is generalizing τ with
  | nil =>
    cases h
    rfl
  | cons i is ih =>
    obtain ⟨spare, waiting⟩ := τ
    cases i with
    | atom =>
      have hcount := ih h
      simp only [List.count_cons, reduceCtorEq, beq_iff_eq, ↓reduceIte] at hcount ⊢
      omega
    | operator =>
      cases spare with
      | zero => cases h
      | succ spare =>
        have hcount := ih h
        simp only [List.count_cons, reduceCtorEq, beq_iff_eq, ↓reduceIte] at hcount ⊢
        omega

/-- The fronts before the operators of a run, one item further on. -/
theorem forall_front_cons {i : Item} {P : List Item → Prop} :
    (∀ front back, i :: is = front ++ .operator :: back → P front) ↔
      (i = .operator → P []) ∧
        ∀ front back, is = front ++ .operator :: back → P (i :: front) := by
  constructor
  · intro h
    refine ⟨fun hi => h [] is (by rw [hi]; rfl), fun front back heq => ?_⟩
    exact h (i :: front) back (by rw [heq]; rfl)
  · rintro ⟨hnil, hcons⟩ front back heq
    cases front with
    | nil => exact hnil (List.cons.inj heq).1
    | cons j front =>
      obtain ⟨rfl, htail⟩ := List.cons.inj heq
      exact hcons front back htail

theorem getLast?_atom_cons :
    (.atom :: is).getLast? ≠ some Item.operator ↔ is.getLast? ≠ some .operator := by
  rw [List.getLast?_cons]
  cases is.getLast? <;> simp

theorem getLast?_operator_cons :
    (.operator :: is).getLast? ≠ some Item.operator ↔ is.getLast? ≠ some .operator ∧ is ≠ [] := by
  rw [List.getLast?_cons]
  cases hlast : is.getLast? with
  | none => simp [List.getLast?_eq_none_iff.mp hlast]
  | some last =>
    have hne : is ≠ [] := by
      rintro rfl
      cases hlast
    simp [hne]

/-- **The rule as a count**, from any tally on. -/
theorem exists_after_iff :
    (∃ n, after ⟨spare, waiting⟩ is = some ⟨n, false⟩) ↔
      (∀ front back, is = front ++ .operator :: back →
        front.count .operator < spare + front.count .atom) ∧
      is.getLast? ≠ some .operator ∧ (is = [] → waiting = false) := by
  induction is generalizing spare waiting with
  | nil => simp
  | cons i is ih =>
    rw [forall_front_cons]
    cases i with
    | atom =>
      -- one more atom stands before every operator
      rw [after_atom, ih, getLast?_atom_cons]
      simp [Nat.add_right_comm, Nat.add_assoc]
    | operator =>
      rw [getLast?_operator_cons]
      cases spare with
      | zero => simp
      | succ spare =>
        -- the atom that it takes is one that no later operator has
        rw [after_operator_succ, ih]
        simp [Nat.add_right_comm]

/-- A body keeps the rule when its count comes to an end and no operator waits
there. -/
theorem wellOrdered_iff : WellOrdered is ↔ ∃ n, start.after is = some ⟨n, false⟩ := by
  unfold start
  rw [exists_after_iff]
  simp only [Nat.zero_add]
  exact ⟨fun h => ⟨h.atoms_before, h.last, by simp⟩, fun h => ⟨h.1, h.2.1⟩⟩

end Tally

end Piece

open Piece

/-! ### The count and the one pass -/

/-- The count of an open block: its children, and whether an operator waits. -/
def Frame.tally (f : Frame) : Tally := ⟨f.children.length, !f.pending.isEmpty⟩

/-- **The one pass goes on where the count does.** Read from the open block `f`, a
nested run whose bodies keep the rule ends in a block with the count of its own
items, whatever stands around the two. -/
theorem Stack.reads_of_tally {xs : List Piece} (hxs : Nested xs) {f : Frame} {τ : Tally}
    (hbodies : ∀ body ∈ innerBodies xs, WellOrdered (items 0 body))
    (hτ : f.tally.after (items 0 xs) = some τ) :
    ∃ g : Frame, g.tally = τ ∧ ∀ outer, Reads ⟨f, outer⟩ xs ⟨g, outer⟩ := by
  induction hxs generalizing f τ with
  | nil =>
    cases hτ
    exact ⟨f, rfl, fun outer => .nil⟩
  | @literal value xs _ ih =>
    -- an operand: the count grows, and nothing waits any more
    obtain ⟨g, hg, hreads⟩ := ih (f := f.push (.literal value)) hbodies hτ
    refine ⟨g, hg, fun outer => ?_⟩
    exact Reads.append (.single fun _ ht => .literal ht) (hreads outer)
  | @operator o xs _ ih =>
    obtain ⟨children, pending⟩ := f
    cases children with
    | nil => cases hτ
    | cons left children =>
      -- the count did not refuse, so there is a child to take
      obtain ⟨g, hg, hreads⟩ := ih (f := ⟨children, (left, o) :: pending⟩) hbodies hτ
      refine ⟨g, hg, fun outer => ?_⟩
      exact Reads.append (.single fun _ ht => .operator ht) (hreads outer)
  | @group body xs hbody _ ihbody ihxs =>
    rw [hbody.innerBodies_group] at hbodies
    rw [hbody.items_group] at hτ
    rw [List.forall_mem_cons, List.forall_mem_append] at hbodies
    obtain ⟨hwell, hinside, hbehind⟩ := hbodies
    -- the body is read from an empty block, and no operator waits at its end
    obtain ⟨n, hn⟩ := Tally.wellOrdered_iff.mp hwell
    obtain ⟨⟨children, pending⟩, hinner, hreads⟩ := ihbody (f := .empty) hinside hn
    obtain rfl : pending = [] := by
      simpa [Frame.tally] using congrArg Tally.waiting hinner
    obtain ⟨g, hg, hreads'⟩ := ihxs (f := f.push (.group children.reverse)) hbehind hτ
    refine ⟨g, hg, fun outer => ?_⟩
    have hgroup := (Reads.group fun place => hreads ((place, f) :: outer)).append (hreads' outer)
    rwa [List.cons_append, List.append_assoc] at hgroup

namespace Node

/-! ### The count of a spelling -/

theorem nested_operators : (node : Node) → Nested node.operators
  | .binary _ _ right => .operator right.nested_operators
  | .literal _ | .block _ | .group _ => .nil

mutual

theorem nested_operands : (node : Node) → Nested node.operands
  | .binary left _ right =>
    right.nested_operands.append
      ((left.nested_operands.append left.nested_operators).append left.nested_ending)
  | .literal _ | .block _ | .group _ => .nil

theorem nested_ending : (node : Node) → Nested node.ending
  | .literal _ => .literal .nil
  | .binary _ _ right => right.nested_ending
  | .block children | .group children => .group (nested_all children) .nil

theorem nested_all : (nodes : List Node) → Nested (allPieces nodes)
  | [] => .nil
  | node :: nodes =>
    ((node.nested_operands.append node.nested_operators).append node.nested_ending).append
      (nested_all nodes)

end

theorem nested_pieces (node : Node) : Nested node.pieces :=
  (node.nested_operands.append node.nested_operators).append node.nested_ending

/-- The operators of a spine take one atom each, and its end gives one back. -/
theorem tally_spine : (node : Node) → (spare : Nat) → (waiting : Bool) →
    Tally.after ⟨spare + node.lefts.length, waiting⟩ (items 0 (node.operators ++ node.ending))
      = some ⟨spare + 1, false⟩
  | .literal _, _, _ => rfl
  | .block children, _, _ | .group children, _, _ => by
    have hitems := (nested_all children).items_group []
    exact congrArg _ hitems
  | .binary _ _ right, spare, _ => right.tally_spine spare true

theorem tally_operands : (node : Node) → (spare : Nat) →
    Tally.after ⟨spare, false⟩ (items 0 node.operands)
      = some ⟨spare + node.lefts.length, false⟩
  | .literal _, _ | .block _, _ | .group _, _ => rfl
  | .binary left _ right, spare => by
    have hright := right.tally_operands spare
    have hleft := left.tally_operands (spare + right.lefts.length)
    have hspine := left.tally_spine (spare + right.lefts.length) false
    -- the operands of `right` come first, and then all of `left`
    rw [operands_binary, pieces, List.append_assoc, right.nested_operands.items_append,
      left.nested_operands.items_append, Tally.after_append, hright, Option.bind_some,
      Tally.after_append, hleft, Option.bind_some, hspine]
    rfl

theorem tally_pieces (node : Node) (spare : Nat) :
    Tally.after ⟨spare, false⟩ (items 0 node.pieces) = some ⟨spare + 1, false⟩ := by
  rw [pieces, List.append_assoc, node.nested_operands.items_append, Tally.after_append,
    node.tally_operands, Option.bind_some, node.tally_spine]

theorem tally_all (nodes : List Node) (spare : Nat) :
    Tally.after ⟨spare, false⟩ (items 0 (allPieces nodes))
      = some ⟨spare + nodes.length, false⟩ := by
  induction nodes generalizing spare with
  | nil => rfl
  | cons node nodes ih =>
    rw [allPieces_cons, node.nested_pieces.items_append, Tally.after_append, tally_pieces,
      Option.bind_some, ih, List.length_cons, Nat.add_assoc, Nat.add_comm 1]

/-! ### The blocks of a tree -/

mutual

/-- The blocks inside a node: those of its groups. -/
def blocks : Node → List Block
  | .literal _ => []
  | .binary left _ right => left.blocks ++ right.blocks
  | .block children | .group children => ⟨children⟩ :: allBlocks children

def allBlocks : List Node → List Block
  | [] => []
  | node :: nodes => node.blocks ++ allBlocks nodes

end

theorem innerBodies_operators (node : Node) (ys : List Piece) :
    innerBodies (node.operators ++ ys) = innerBodies ys := by
  match node with
  | .binary _ _ right => exact right.innerBodies_operators ys
  | .literal _ | .block _ | .group _ => rfl

/-- The bodies in a spelling are those in its left operands and those in its
end. -/
theorem innerBodies_pieces (node : Node) :
    innerBodies node.pieces = innerBodies node.operands ++ innerBodies node.ending := by
  rw [pieces, List.append_assoc, node.nested_operands.innerBodies_append,
    innerBodies_operators]

mutual

/-- **The bodies in the spelling of a node** are the spellings of the blocks
inside it. -/
theorem mem_innerBodies (body : List Piece) : (node : Node) →
    (body ∈ innerBodies node.pieces ↔ ∃ block ∈ node.blocks, body = block.pieces)
  | .literal _ => by simp [innerBodies, blocks]
  | .block children | .group children => by
    show body ∈ innerBodies (.opening :: (allPieces children ++ .closing :: [])) ↔ _
    rw [(nested_all children).innerBodies_group, List.mem_cons, innerBodies, List.append_nil,
      mem_innerBodies_all]
    simp [blocks, Block.pieces]
  | .binary left o right => by
    have hleft := left.mem_innerBodies body
    have hright := right.mem_innerBodies body
    rw [innerBodies_pieces, List.mem_append] at hright
    rw [innerBodies_pieces, operands_binary, ending_binary,
      right.nested_operands.innerBodies_append]
    simp only [List.mem_append, blocks, or_and_right, exists_or, ← hleft, ← hright]
    -- the left operands of `right` are spelled before `left`
    rw [or_assoc, or_left_comm]

theorem mem_innerBodies_all (body : List Piece) : (nodes : List Node) →
    (body ∈ innerBodies (allPieces nodes) ↔ ∃ block ∈ allBlocks nodes, body = block.pieces)
  | [] => by simp [innerBodies, allBlocks]
  | node :: nodes => by
    rw [allPieces_cons, node.nested_pieces.innerBodies_append, List.mem_append,
      node.mem_innerBodies, mem_innerBodies_all]
    simp only [allBlocks, List.mem_append, or_and_right, exists_or]

end

end Node

namespace Block

/-- The blocks of a tree: the root and those inside it. -/
def blocks (block : Block) : List Block := block :: Node.allBlocks block.children

/-- **The bodies of a tree's spelling** are the spellings of its blocks. -/
theorem isBody_pieces_iff {block : Block} {body : List Piece} :
    IsBody block.pieces body ↔ ∃ inner ∈ block.blocks, body = inner.pieces := by
  have hnested : Nested block.pieces := Node.nested_all block.children
  rw [hnested.isBody_iff, Block.pieces, Node.mem_innerBodies_all]
  simp [blocks, Block.pieces]

/-- **The count of a block's spelling** is the number of its children. -/
theorem tally_pieces (block : Block) :
    Tally.start.after (items 0 block.pieces) = some ⟨block.children.length, false⟩ := by
  have hcount := Node.tally_all block.children 0
  rwa [Nat.zero_add] at hcount

theorem wellOrdered_pieces (block : Block) : WellOrdered (items 0 block.pieces) :=
  Tally.wellOrdered_iff.mpr ⟨_, block.tally_pieces⟩

theorem exists_ofTokens_of_wellOrdered {tokens : List Token} {xs : List Piece}
    (herase : Token.erase tokens = some xs) (hxs : Nested xs)
    (hbodies : ∀ body, IsBody xs body → WellOrdered (items 0 body)) :
    ∃ block, ofTokens tokens = .ok block := by
  have hroot : WellOrdered (items 0 xs) := hbodies xs (.inl rfl)
  have hinner : ∀ body ∈ innerBodies xs, WellOrdered (items 0 body) :=
    fun body hbody => hbodies body (hxs.isBody_iff.mpr (.inr hbody))
  obtain ⟨n, hn⟩ := Tally.wellOrdered_iff.mp hroot
  obtain ⟨⟨children, pending⟩, hcount, hreads⟩ :=
    Stack.reads_of_tally hxs (f := .empty) hinner hn
  obtain rfl : pending = [] := by
    simpa [Frame.tally] using congrArg Tally.waiting hcount
  refine ⟨⟨children.reverse⟩, ofTokens_eq_ok_iff_run.mpr ?_⟩
  rw [List.reverse_reverse]
  exact hreads [] tokens herase

/-- **The language of trees.** Tokens are read as a tree exactly when each of them
is a piece, parentheses are balanced, and in every body each operator has more
atoms than operators before it and is not the last item. The bodies are then the
spellings of the blocks of the tree, and a block has one child for each atom of
its body that no operator of the body took. -/
theorem exists_ofTokens_iff (tokens : List Token) :
    ((∃ block, ofTokens tokens = .ok block) ↔
      ∃ xs, Token.erase tokens = some xs ∧ Balanced xs ∧
        ∀ body, IsBody xs body → WellOrdered (items 0 body)) ∧
    ∀ block, ofTokens tokens = .ok block →
      Token.erase tokens = some block.pieces ∧
      (∀ body, IsBody block.pieces body ↔ ∃ inner ∈ block.blocks, body = inner.pieces) ∧
      ∀ inner ∈ block.blocks,
        inner.children.length + (items 0 inner.pieces).count .operator
          = (items 0 inner.pieces).count .atom := by
  refine ⟨⟨?_, ?_⟩, ?_⟩
  · rintro ⟨block, h⟩
    refine ⟨block.pieces, (spelled_of_ofTokens h).2, (Node.nested_all _).balanced, ?_⟩
    intro body hbody
    obtain ⟨inner, -, rfl⟩ := isBody_pieces_iff.mp hbody
    exact inner.wellOrdered_pieces
  · -- back, the count of the root is all that the one pass has to remember
    rintro ⟨xs, herase, hbalanced, hbodies⟩
    exact exists_ofTokens_of_wellOrdered herase (balanced_iff_nested.mp hbalanced) hbodies
  · intro block h
    refine ⟨(spelled_of_ofTokens h).2, fun body => isBody_pieces_iff, ?_⟩
    intro inner _
    have hspare := Tally.spare_after inner.tally_pieces
    rwa [Tally.start, Nat.zero_add] at hspare

/-- Two operators in a row take two of three atoms. -/
theorem exists_ofTokens_iff_operators_in_a_row :
    ∃ block, ofTokens (Scan.ofSource "1 2 + % (3)").tokens = .ok block ∧
      Token.erase (Scan.ofSource "1 2 + % (3)").tokens = some block.pieces ∧
      ∀ inner ∈ block.blocks,
        inner.children.length + (items 0 inner.pieces).count .operator
          = (items 0 inner.pieces).count .atom := by
  have h : ofTokens (Scan.ofSource "1 2 + % (3)").tokens = .ok
      ⟨[.binary (.integer 2) .add (.binary (.integer 1) .modulo (.group [.integer 3]))]⟩ :=
    ofTokens_eq_ok_iff_run.mpr rfl
  obtain ⟨herase, -, hcount⟩ := (exists_ofTokens_iff _).2 _ h
  exact ⟨_, h, herase, hcount⟩

end Block

end ArithTree
