import ArithTree.Proofs.OnePass

/-!
# Trees and their spellings

`Block.ofTokens` accepts exactly the spellings of block-free trees, and it reads
each of them as the tree that it spells (`Block.ofTokens_eq_ok_iff`). So no token
is lost, read twice or given to the wrong parent, and no two trees share a
spelling.

Both halves are about the one pass.

* `Stack.Reading` is the invariant of the first half. Every state spells
  something, open blocks and waiting operators included, and what it spells is
  what was read. `Reading.step` is preservation by one token, `Reading.run` by a
  run.
* `Stack.Reads` is the statement of the second half: whatever tokens stand for a
  run of pieces, they take one state to another. `Stack.reads_operands`,
  `Stack.reads_spine` and `Stack.reads_all` read the three stretches of a
  spelling by recursion on the tree.
-/

namespace ArithTree

/-! ### What a state spells -/

/-- The spelling of an open block: its children and the operators that wait. -/
def Frame.pieces (f : Frame) : List Piece :=
  Node.allPieces f.children.reverse ++ Node.pendingPieces f.pending

/-- No node of an open block has a nested block. -/
structure Frame.BlockFree (f : Frame) : Prop where
  children : ∀ node ∈ f.children, node.BlockFree
  pending : ∀ q ∈ f.pending, q.1.BlockFree

namespace Frame

variable {f : Frame} {atom : Node}

@[simp] theorem pieces_empty : empty.pieces = [] := rfl

theorem pieces_push (f : Frame) (atom : Node) (h : atom.IsAtom) :
    (f.push atom).pieces = f.pieces ++ atom.pieces := by
  unfold push pieces
  rw [List.reverse_cons, Node.allPieces_append, Node.allPieces_cons, Node.pieces_nest _ h]
  simp [Node.pendingPieces]

/-- An operator takes its left operand out of the children; behind the operands
that waiting operators took before, it is spelled where it was. -/
theorem pieces_operator {left : Node} {children : List Node} {pending : List (Node × Operator)}
    {operator : Operator} :
    pieces ⟨children, (left, operator) :: pending⟩
      = pieces ⟨left :: children, pending⟩ ++ [.operator operator] := by
  simp [pieces, Node.pendingPieces]

theorem BlockFree.empty : Frame.empty.BlockFree where
  children := by simp [Frame.empty]
  pending := by simp [Frame.empty]

theorem BlockFree.push (h : f.BlockFree) (ha : atom.BlockFree) : (f.push atom).BlockFree where
  children := List.forall_mem_cons.mpr ⟨Node.over_nest h.pending ha, h.children⟩
  pending := by simp [Frame.push]

end Frame

namespace Stack

/-- The spelling of the blocks around the innermost one. -/
def outerPieces : List (Position × Frame) → List Piece
  | [] => []
  | (_, around) :: outer => outerPieces outer ++ around.pieces ++ [.opening]

def pieces (s : Stack) : List Piece := outerPieces s.outer ++ s.top.pieces

/-- **The invariant of a run.** The state spells the pieces that were read, and
none of its nodes has a nested block. -/
structure Reading (xs : List Piece) (s : Stack) : Prop where
  pieces_eq : s.pieces = xs
  top : s.top.BlockFree
  outer : ∀ q ∈ s.outer, q.2.BlockFree

variable {xs ys : List Piece} {s s' : Stack} {t : Token}

theorem Reading.start : Reading [] start where
  pieces_eq := rfl
  top := .empty
  outer := by simp [Stack.start]

/-- **Preservation by one token.** -/
theorem Reading.step {x : Piece} (hI : Reading xs s) (hstep : Step t s s')
    (hx : t.piece? = some x) : Reading (xs ++ [x]) s' := by
  obtain ⟨rfl, htop, houter⟩ := hI
  cases hstep with
  | literal h =>
    obtain rfl := Option.some.inj (h.symm.trans hx)
    refine ⟨?_, htop.push ?_, houter⟩
    · unfold pieces
      rw [Frame.pieces_push _ (.literal _) trivial, Node.pieces_literal, List.append_assoc]
    · exact trivial
  | operator h =>
    obtain rfl := Option.some.inj (h.symm.trans hx)
    refine ⟨?_, ⟨?_, ?_⟩, houter⟩
    · simp [pieces, Frame.pieces_operator]
    · exact fun node hnode => htop.children node (List.mem_cons_of_mem _ hnode)
    · exact List.forall_mem_cons.mpr ⟨htop.children _ List.mem_cons_self, htop.pending⟩
  | opening h =>
    -- the open block is spelled around the new one from here on
    obtain rfl := Option.some.inj (h.symm.trans hx)
    refine ⟨?_, .empty, List.forall_mem_cons.mpr ⟨htop, houter⟩⟩
    simp [pieces, outerPieces]
  | @closing children place around outer h =>
    obtain rfl := Option.some.inj (h.symm.trans hx)
    rw [List.forall_mem_cons] at houter
    have hgroup : (Node.group children.reverse).BlockFree :=
      Node.allOver_iff.mpr fun node hnode => htop.children node (List.mem_reverse.mp hnode)
    refine ⟨?_, houter.1.push hgroup, houter.2⟩
    -- no operator waits, so the block is spelled by its children alone
    have hblock : Frame.pieces ⟨children, []⟩ = Node.allPieces children.reverse := by
      simp [Frame.pieces, Node.pendingPieces]
    unfold pieces
    rw [Frame.pieces_push _ (.group _) trivial, Node.pieces_group, hblock]
    simp [outerPieces]

theorem erase_of_run {tokens : List Token} (hrun : s.run tokens = .ok s') :
    ∃ ys, Token.erase tokens = some ys := by
  induction tokens generalizing s with
  | nil => exact ⟨[], rfl⟩
  | cons t tokens ih =>
    obtain ⟨m, hstep, hrun⟩ := run_cons_eq_ok_iff.mp hrun
    obtain ⟨x, hx⟩ : ∃ x, t.piece? = some x := by
      cases hstep with
      | literal h | operator h | opening h | closing h => exact ⟨_, h⟩
    obtain ⟨ys, hys⟩ := ih hrun
    exact ⟨x :: ys, Token.erase_cons_eq_some.mpr ⟨x, ys, hx, hys, rfl⟩⟩

/-- **Preservation by a run.** -/
theorem Reading.run {tokens : List Token} (hI : Reading xs s) (hrun : s.run tokens = .ok s')
    (hys : Token.erase tokens = some ys) : Reading (xs ++ ys) s' := by
  induction tokens generalizing s xs ys with
  | nil =>
    cases hrun
    obtain rfl := Option.some.inj (Token.erase_nil.symm.trans hys)
    rwa [List.append_nil]
  | cons t tokens ih =>
    obtain ⟨m, hstep, hrun⟩ := run_cons_eq_ok_iff.mp hrun
    obtain ⟨x, xs', hx, hxs', rfl⟩ := Token.erase_cons_eq_some.mp hys
    have hm : Reading (xs ++ [x]) m := hI.step hstep hx
    have h := ih hm hrun hxs'
    rwa [List.append_assoc] at h

/-! ### Reading a spelling -/

/-- Whatever tokens are the pieces `xs`, they take `s` to `s'`. -/
def Reads (s : Stack) (xs : List Piece) (s' : Stack) : Prop :=
  ∀ tokens, Token.erase tokens = some xs → s.run tokens = .ok s'

theorem Reads.nil : Reads s [] s := by
  intro tokens h
  cases tokens with
  | nil => rfl
  | cons t tokens => simp [Token.erase_cons_eq_some] at h

theorem Reads.append {m : Stack} (h₁ : Reads s xs m) (h₂ : Reads m ys s') :
    Reads s (xs ++ ys) s' := by
  intro tokens h
  obtain ⟨front, back, rfl, hf, hb⟩ := Token.erase_eq_append h
  rw [run_append, h₁ front hf]
  exact h₂ back hb

/-- One piece, if every token that is this piece takes a step. -/
theorem Reads.single {x : Piece} (h : ∀ t : Token, t.piece? = some x → Step t s s') :
    Reads s [x] s' := by
  intro tokens htokens
  cases tokens with
  | nil => simp at htokens
  | cons t tokens =>
    obtain ⟨x, xs, ht, htokens, heq⟩ := Token.erase_cons_eq_some.mp htokens
    cases heq
    exact run_cons_eq_ok_iff.mpr ⟨s', h t ht, Reads.nil tokens htokens⟩

/-- A group, if its inside can be read wherever its parenthesis stands. -/
theorem Reads.group {top : Frame} {outer : List (Position × Frame)} {children : List Node}
    (h : ∀ place, Reads ⟨.empty, (place, top) :: outer⟩ xs
      ⟨⟨children, []⟩, (place, top) :: outer⟩) :
    Reads ⟨top, outer⟩ (.opening :: (xs ++ [.closing]))
      ⟨top.push (.group children.reverse), outer⟩ := by
  intro tokens htokens
  cases tokens with
  | nil => simp at htokens
  | cons t tokens =>
    obtain ⟨x, xs, ht, htokens, heq⟩ := Token.erase_cons_eq_some.mp htokens
    cases heq
    refine run_cons_eq_ok_iff.mpr ⟨_, .opening ht, ?_⟩
    exact ((h t.position).append (.single fun t ht => .closing ht)) tokens htokens

end Stack

/-- The left operands along the right spine, outermost first. -/
def Node.lefts : Node → List Node
  | .binary left _ right => left :: right.lefts
  | _ => []

namespace Stack

variable {outer : List (Position × Frame)}

/-- A node, once its left operands and its right spine can be read. -/
theorem Reads.node {node : Node} {children : List Node}
    (hlefts : Reads ⟨⟨children, []⟩, outer⟩ node.operands ⟨⟨node.lefts ++ children, []⟩, outer⟩)
    (hspine : Reads ⟨⟨node.lefts ++ children, []⟩, outer⟩ (node.operators ++ node.ending)
      ⟨⟨node :: children, []⟩, outer⟩) :
    Reads ⟨⟨children, []⟩, outer⟩ node.pieces ⟨⟨node :: children, []⟩, outer⟩ := by
  unfold Node.pieces
  rw [List.append_assoc]
  exact hlefts.append hspine

mutual

/-- **The left operands of a spine** become children, the outermost one the
newest. -/
theorem reads_operands : (node : Node) → node.BlockFree → (children : List Node) →
    (outer : List (Position × Frame)) →
    Reads ⟨⟨children, []⟩, outer⟩ node.operands ⟨⟨node.lefts ++ children, []⟩, outer⟩
  | .literal _, _, _, _ | .group _, _, _, _ => .nil
  | .binary left _ right, h, children, outer => by
    -- the left operands of `right` come first, `left` lies on top of them
    have hright := reads_operands right h.2 children outer
    have hleft : Reads ⟨⟨right.lefts ++ children, []⟩, outer⟩ left.pieces
        ⟨⟨left :: (right.lefts ++ children), []⟩, outer⟩ :=
      .node (reads_operands left h.1 _ outer) (reads_spine left h.1 [] _ outer)
    exact hright.append hleft

/-- **The operators and the end of a spine** take back the children that its left
operands became, outermost first. -/
theorem reads_spine : (node : Node) → node.BlockFree → (pending : List (Node × Operator)) →
    (children : List Node) → (outer : List (Position × Frame)) →
    Reads ⟨⟨node.lefts ++ children, pending⟩, outer⟩ (node.operators ++ node.ending)
      ⟨⟨Node.nest pending node :: children, []⟩, outer⟩
  | .literal _, _, _, _, _ => .single fun _ ht => .literal ht
  | .group nodes, h, pending, children, outer => by
    have hinside := fun place => reads_all nodes h [] ((place, ⟨children, pending⟩) :: outer)
    have hgroup := Reads.group hinside
    rwa [List.append_nil, List.reverse_reverse] at hgroup
  | .binary left operator right, h, pending, children, outer => by
    -- the operator takes `left` back and waits for `right`
    have hoperator : Reads ⟨⟨left :: (right.lefts ++ children), pending⟩, outer⟩
        [.operator operator] ⟨⟨right.lefts ++ children, (left, operator) :: pending⟩, outer⟩ :=
      .single fun _ ht => .operator ht
    exact hoperator.append (reads_spine right h.2 ((left, operator) :: pending) children outer)

/-- **Siblings** become children in their order. -/
theorem reads_all : (nodes : List Node) → Node.AllOver (fun _ => True) nodes →
    (children : List Node) → (outer : List (Position × Frame)) →
    Reads ⟨⟨children, []⟩, outer⟩ (Node.allPieces nodes)
      ⟨⟨nodes.reverse ++ children, []⟩, outer⟩
  | [], _, _, _ => .nil
  | node :: nodes, h, children, outer => by
    have hnode : Reads ⟨⟨children, []⟩, outer⟩ node.pieces ⟨⟨node :: children, []⟩, outer⟩ :=
      .node (reads_operands node h.1 _ outer) (reads_spine node h.1 [] _ outer)
    have hnodes := reads_all nodes h.2 (node :: children) outer
    rw [List.reverse_cons, List.append_assoc]
    exact hnode.append hnodes

end

end Stack

/-! ### The trees that tokens spell -/

namespace Block

variable {tokens : List Token} {block : Block}

/-- **Soundness.** Tokens that are read as a tree spell it, and it has no nested
block. -/
theorem spelled_of_ofTokens (h : ofTokens tokens = .ok block) :
    block.BlockFree ∧ Token.erase tokens = some block.pieces := by
  rw [ofTokens_eq_ok_iff_run] at h
  obtain ⟨xs, hxs⟩ := Stack.erase_of_run h
  have hread : Stack.Reading ([] ++ xs) _ := Stack.Reading.start.run h hxs
  have hpieces : xs = block.pieces := by
    rw [← List.nil_append xs, ← hread.pieces_eq]
    simp [Stack.pieces, Stack.outerPieces, Frame.pieces, Node.pendingPieces, Block.pieces]
  refine ⟨Node.allOver_iff.mpr fun node hnode => ?_, hpieces ▸ hxs⟩
  exact hread.top.children node (List.mem_reverse.mpr hnode)

/-- **Completeness.** A block-free tree is read from every spelling of it. -/
theorem ofTokens_of_spelled (hfree : block.BlockFree)
    (h : Token.erase tokens = some block.pieces) : ofTokens tokens = .ok block := by
  rw [ofTokens_eq_ok_iff_run]
  have hreads := Stack.reads_all block.children hfree [] []
  rw [List.append_nil] at hreads
  exact hreads tokens h

/-- **Accepted tokens and block-free trees correspond one to one**: the tokens
that are read as a tree are those that spell it. -/
theorem ofTokens_eq_ok_iff :
    ofTokens tokens = .ok block ↔
      block.BlockFree ∧ Token.erase tokens = some block.pieces := by
  constructor
  · exact spelled_of_ofTokens
  · rintro ⟨hfree, herase⟩
    exact ofTokens_of_spelled hfree herase

end Block

end ArithTree
