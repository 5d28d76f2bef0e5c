import ArithTree.Proofs.Cursor
import ArithTree.Proofs.Language

/-!
# How far an expression extends

An expression starts at the token under the cursor. This module says which tokens it consists of
and what it takes out of its scope, from every place and with every scope:

* some operators stand in front and an *atom* behind them, which is a literal or two parentheses
  that answer each other (`AtomExtent`);
* every operator takes one operand, the first operator the newest, and all other operands stay in
  the scope (`Extent`);
* the cursor lands on the last of these tokens, and no token behind it was looked at.

`readExpression_extent` is all of it, with what `Cursor` has on where reading ends.

The last point is `Walk.of_take`: a walk that lands on a token is a walk over all tokens that are
the same up to there. So what stands between two parentheses is a text of its own. In
`Walk.exists_inside` the tokens are cut off in front of the closing parenthesis, and the walk over
the siblings of the group becomes a walk over the siblings of the whole, which reads a tree.
-/

namespace ArithTree

open Cursor

/-! ### Extents -/

/-- The tokens of an atom: a literal, or two parentheses that answer each other, which are the
group of the tree that stands between them. -/
inductive AtomExtent : List Token → Node → Prop
  | literal {t : Token} {value : Literal} (h : t.piece? = some (.literal value)) :
      AtomExtent [t] (.literal value)
  | group {opening closing : Token} {inside : List Token} {xs : List Piece} {block : Block}
      (hopening : opening.piece? = some .opening) (hclosing : closing.piece? = some .closing)
      (herase : Token.erase inside = some xs) (hbalanced : Piece.Balanced xs)
      (hblock : Block.ofTokens inside = .ok block) :
      AtomExtent (opening :: (inside ++ [closing])) (.group block.children)

/-- **The extent of an expression**: the scope it starts from, its tokens, its node, and the scope
that it leaves. The tokens are as many operators as there are operands in `taken`, and an atom. The
operands are the newest of the scope. Each belongs to the operator in its place, and the first of
them, which is the newest, is the outermost. -/
inductive Extent : List Node → List Token → Node → List Node → Prop
  | intro {signs atom : List Token} {taken : List (Node × Operator)} {last : Node}
      {left : List Node}
      (hsigns : signs.map Token.piece? = taken.map fun p => some (.operator p.2))
      (hatom : AtomExtent atom last) :
      Extent (taken.map (·.1) ++ left) (signs ++ atom) (Node.nest taken.reverse last) left

variable {front : List Token} {scope left : List Node} {node right : Node} {operator : Operator}

theorem AtomExtent.extent (h : AtomExtent front node) (scope : List Node) :
    Extent scope front node scope := by
  have hextent : Extent (([] : List (Node × Operator)).map (·.1) ++ scope) ([] ++ front)
      (Node.nest [].reverse node) scope := .intro rfl h
  exact hextent

/-- An operator in front of an expression takes the newest operand of its scope, and its node is
around that of the expression. -/
theorem Extent.behind_operator {t : Token} (ht : t.piece? = some (.operator operator))
    (h : Extent scope front right left) :
    Extent (node :: scope) (t :: front) (.binary node operator right) left := by
  cases h with
  | @intro signs atom taken last _ hsigns hatom =>
    have hsigns' : (t :: signs).map Token.piece? =
        ((node, operator) :: taken).map fun p => some (.operator p.2) := by
      rw [List.map_cons, List.map_cons, ht, hsigns]
    have hnest : Node.nest ((node, operator) :: taken).reverse last =
        .binary node operator (Node.nest taken.reverse last) := by
      rw [List.reverse_cons, Node.nest, List.foldl_append]
      rfl
    rw [← hnest]
    exact .intro hsigns' hatom

namespace Cursor

variable {tokens other : List Token} {call : Call} {loop : Loop} {children : List Node}
  {n i j : Nat} {t : Token} {e : Landing} {r : Except Fault Landing}

/-! ### Tokens that are the same up to a place -/

theorem getElem?_of_take (h : other.take (j + 1) = tokens.take (j + 1)) (hi : i ≤ j) :
    other[i]? = tokens[i]? := by
  have hlt : i < j + 1 := Nat.lt_succ_of_le hi
  rw [← List.getElem?_take_of_lt hlt, h, List.getElem?_take_of_lt hlt]

theorem take_of_take (h : other.take (j + 1) = tokens.take (j + 1)) (hi : i ≤ j + 1) :
    other.take i = tokens.take i := by
  have htake := congrArg (List.take i) h
  rwa [List.take_take, List.take_take, Nat.min_eq_left hi] at htake

/-- **What follows is not looked at.** A walk that lands on a token is a walk over all tokens that
are the same up to that one. -/
theorem Walk.of_take (h : Walk tokens call n r) :
    ∀ e, r = .ok e → e.cursor < tokens.length →
      other.take (e.cursor + 1) = tokens.take (e.cursor + 1) → Walk other call n r := by
  -- every rule looks at the token under its cursor, which is no further than the landing
  induction h with
  | atEnd | refused | noOperand | closing | unanswered | fault => exact nofun
  | literal h hpiece =>
    rintro _ ⟨⟩ - hsame
    rw [← getElem?_of_take hsame (Nat.le_refl _)] at h
    exact .literal h hpiece
  | @operator i left scope t operator n r h hpiece hright ih =>
    intro e he hlt hsame
    cases r with
    | error fault => cases he
    | ok right =>
      cases he
      have hle : i + 1 ≤ right.cursor := hright.landsOn.cursor_le
      rw [← getElem?_of_take hsame (Nat.le_of_succ_le hle)] at h
      exact .operator h hpiece (ih right rfl hlt hsame)
  | @opening i scope t n r h hpiece hinside ih =>
    rintro e rfl hlt hsame
    have hle : i + 1 ≤ e.cursor := hinside.landsOn.cursor_le
    rw [← getElem?_of_take hsame (Nat.le_of_succ_le hle)] at h
    exact .opening h hpiece (ih e rfl hlt hsame)
  | whole h =>
    -- the siblings of the whole land behind all tokens
    rintro _ ⟨⟩ hlt
    exact absurd hlt (Nat.not_lt.mpr (List.getElem?_eq_none_iff.mp h))
  | answered h hkind =>
    rintro _ ⟨⟩ - hsame
    rw [← getElem?_of_take hsame (Nat.le_refl _)] at h
    exact .answered h hkind
  | @next i children loop t n m first r h hloop hfirst hothers ihfirst ihothers =>
    rintro e rfl hlt hsame
    have hle : i ≤ first.cursor := hfirst.landsOn.cursor_le
    have hle' : first.cursor + 1 ≤ e.cursor := hothers.landsOn.cursor_le
    -- the first sibling ends in front of the others, so the tokens are the same for it, too
    have hsame' : other.take (first.cursor + 1) = tokens.take (first.cursor + 1) :=
      take_of_take hsame (Nat.le_succ_of_le hle')
    rw [← getElem?_of_take hsame' hle] at h
    exact .next h hloop (ihfirst first rfl hfirst.landsOn.reaches hsame')
      (ihothers e rfl hlt hsame)

/-! ### Between parentheses -/

/-- **The inside of a group is a text of its own.** The siblings of a group end on a closing
parenthesis, and they are the siblings of the whole once the tokens are cut off in front of it. -/
theorem Walk.exists_inside (h : Walk tokens call n r) :
    ∀ opening around i children e,
      call = .siblings (.group opening around) i children → r = .ok e →
      e.scope = around ∧ (∃ t, tokens[e.cursor]? = some t ∧ t.piece? = some .closing) ∧
        ∃ nodes, e.node = .group nodes ∧
          Walk (tokens.take e.cursor) (.siblings .root i children) n
            (.ok ⟨.block nodes, [], e.cursor⟩) := by
  induction h with
  | atEnd | refused | literal | noOperand | operator | opening | closing => exact nofun
  | whole | unanswered | fault => exact nofun
  | @answered i children opening around t h hkind =>
    rintro _ _ _ _ _ ⟨⟩ ⟨⟩
    have hclosing : t.piece? = some .closing := Token.piece?_eq_closing_iff.mpr hkind
    have hend : (tokens.take i)[i]? = none := List.getElem?_take_eq_none (Nat.le_refl i)
    exact ⟨rfl, ⟨t, h, hclosing⟩, children.reverse, rfl, .whole hend⟩
  | @next i children loop t n m first r h hloop hfirst hothers _ ih =>
    rintro opening around _ _ e ⟨⟩ rfl
    obtain ⟨hscope, hclosing, nodes, hnode, hwalk⟩ := ih _ _ _ _ e rfl rfl
    refine ⟨hscope, hclosing, nodes, hnode, ?_⟩
    have hle : i ≤ first.cursor := hfirst.landsOn.cursor_le
    have hle' : first.cursor + 1 ≤ e.cursor := hothers.landsOn.cursor_le
    -- the first sibling stands in front of the cut
    have hsame : (tokens.take e.cursor).take (first.cursor + 1)
        = tokens.take (first.cursor + 1) := by
      rw [List.take_take, Nat.min_eq_left hle']
    have hfirst' : Walk (tokens.take e.cursor) (.expression i children) _ (.ok first) :=
      hfirst.of_take first rfl hfirst.landsOn.reaches hsame
    rw [← getElem?_of_take hsame hle] at h
    exact .next h trivial hfirst' hwalk

/-- What stands between the parentheses of a group is read as a tree by itself. -/
theorem Walk.ofTokens_inside {opening : Position}
    (h : Walk tokens (.siblings (.group opening scope) i []) n (.ok e)) :
    ∃ block, Block.ofTokens ((tokens.take e.cursor).drop i) = .ok block ∧
      e.node = .group block.children := by
  obtain ⟨-, -, nodes, hnode, hwalk⟩ := h.exists_inside _ _ _ _ e rfl rfl
  have hread := hwalk.read_eq
  rw [Call.read, Loop.read_root] at hread
  obtain ⟨block, hblock, heq⟩ := map_eq_ok_iff.mp hread
  obtain rfl : block.children = nodes := Node.block.inj (congrArg (·.1) heq)
  exact ⟨block, hblock, hnode⟩

/-! ### The extent of a walk -/

theorem drop_take_of_getElem? (h : tokens[i]? = some t) (hij : i < j) :
    (tokens.take j).drop i = t :: (tokens.take j).drop (i + 1) :=
  drop_of_getElem? ((List.getElem?_take_of_lt hij).trans h)

theorem drop_take_succ_of_getElem? (h : tokens[j]? = some t) (hij : i ≤ j) :
    (tokens.take (j + 1)).drop i = (tokens.take j).drop i ++ [t] := by
  obtain ⟨hj, -⟩ := List.getElem?_eq_some_iff.mp h
  have hlength : i ≤ (tokens.take j).length := by rw [List.length_take]; omega
  rw [List.take_add_one, h, List.drop_append_of_le_length hlength]
  rfl

/-- **What a walk reads.** The tokens from the cursor to the one that it lands on are the extent of
the expression. -/
theorem Walk.extent (h : Walk tokens call n r) :
    ∀ i scope e, call = .expression i scope → r = .ok e →
      Extent scope ((tokens.take (e.cursor + 1)).drop i) e.node e.scope := by
  induction h with
  | atEnd | refused | noOperand | closing => exact nofun
  | whole | unanswered | answered | fault | next => exact nofun
  | @literal i scope t value h hpiece =>
    rintro _ _ _ ⟨⟩ ⟨⟩
    rw [drop_take_succ_of_getElem? h (Nat.le_refl i), List.drop_take, Nat.sub_self]
    exact AtomExtent.extent (.literal hpiece) scope
  | @operator i left scope t operator n r h hpiece hright ih =>
    rintro _ _ e ⟨⟩ he
    cases r with
    | error fault => cases he
    | ok right =>
      cases he
      have hle : i + 1 ≤ right.cursor := hright.landsOn.cursor_le
      have hfront := drop_take_of_getElem? (j := right.cursor + 1) h (by omega)
      show Extent _ ((tokens.take (right.cursor + 1)).drop i) _ _
      rw [hfront]
      exact (ih _ _ right rfl rfl).behind_operator hpiece
  | @opening i scope t n r h hpiece hinside _ =>
    rintro _ _ e ⟨⟩ rfl
    have hle : i + 1 ≤ e.cursor := hinside.landsOn.cursor_le
    obtain ⟨hscope, ⟨closing, hthere, hclosing⟩, -⟩ := hinside.exists_inside _ _ _ _ e rfl rfl
    obtain ⟨block, hblock, hnode⟩ := hinside.ofTokens_inside
    -- the parentheses in between answer each other, since they spell a tree
    obtain ⟨-, herase⟩ := Block.spelled_of_ofTokens hblock
    have hbalanced : Piece.Balanced block.pieces := (Node.nested_all block.children).balanced
    rw [drop_take_of_getElem? h (by omega), drop_take_succ_of_getElem? hthere hle, hnode, hscope]
    exact AtomExtent.extent (.group hpiece hclosing herase hbalanced hblock) scope

end Cursor

/-! ### The two ends of recursive descent -/

/-- The cursor that recursive descent does without: it is on the token before those that are
left. -/
def Expression.landing {rest : List Token} (tokens : List Token) (e : Expression rest) : Landing :=
  ⟨e.node, e.scope, tokens.length - (e.rest.length + 1)⟩

namespace Cursor

variable {tokens : List Token} {n i : Nat} {e : Landing} {r : Except Fault Landing}

/-- A walk over an expression ends as recursive descent does. -/
theorem Walk.eq_landing (h : Walk tokens (.expression i scope) n r) :
    r = (readExpression scope (tokens.drop i)).map (·.landing tokens) := by
  have hread := h.read_eq
  cases r with
  | error fault => exact (map_eq_error_iff.mpr (map_eq_error_iff.mp hread)).symm
  | ok e =>
    obtain ⟨_, hexpression⟩ := Call.read_expression_eq_ok_iff.mp hread
    have hcursor : e.cursor < tokens.length := h.landsOn.reaches
    have hlanding : tokens.length - ((tokens.drop (e.cursor + 1)).length + 1) = e.cursor := by
      rw [List.length_drop]
      omega
    rw [hexpression, Except.map, Expression.landing, hlanding]

/-- The whole ends behind the last token, after one step on every token and one on the end. -/
theorem Walk.root_lands (h : Walk tokens (.siblings .root 0 []) n (.ok e)) :
    e.cursor = tokens.length ∧ n = tokens.length + 1 := by
  obtain ⟨hn, -⟩ := h.lands
  obtain ⟨-, hsteps, hreaches⟩ := h.landsOn
  simp only [Call.cursor, Call.Reaches] at hn hsteps hreaches
  omega

/-- A walk over the whole ends in the tree of the tokens. -/
theorem Walk.eq_root (h : Walk tokens (.siblings .root 0 []) n r) :
    r = (Block.ofTokens tokens).map
      fun block => ⟨.block block.children, [], tokens.length⟩ := by
  have hread := h.read_eq
  rw [Call.read, List.drop_zero, Loop.read_root] at hread
  cases r with
  | error fault => exact (map_eq_error_iff.mpr (map_eq_error_iff.mp hread)).symm
  | ok e =>
    obtain ⟨block, hblock, heq⟩ := map_eq_ok_iff.mp hread
    obtain ⟨node, scope, cursor⟩ := e
    obtain ⟨rfl, -⟩ := h.root_lands
    simp only [Landing.behind, Prod.mk.injEq] at heq
    obtain ⟨rfl, rfl, -⟩ := heq
    rw [hblock]
    rfl

end Cursor

/-- **The extent of an expression.** Every call comes to an end, after no more steps than there
are tokens from its cursor on and one for the end of them. An expression ends as it does in
recursive descent. The siblings of the whole, where the cursor steps from the token that each of
them ended on to the next, end in the tree of the tokens, after one step on every token and one on
the end.

An expression that is read from `i` on and ends on `j` took one step on every token from `i` to
`j`. These tokens are its extent. Whatever tokens follow `j`, it is the same expression, and who
asked for it goes on at `j + 1`. -/
theorem readExpression_extent (tokens : List Token) :
    (∀ call, (∃ n r, Walk tokens call n r) ∧
      ∀ n r, Walk tokens call n r → n ≤ tokens.length - call.cursor + 1) ∧
    (∀ i scope r, (∃ n, Walk tokens (.expression i scope) n r) ↔
      r = (readExpression scope (tokens.drop i)).map (·.landing tokens)) ∧
    (∀ r, (∃ n, Walk tokens (.siblings .root 0 []) n r) ↔
      r = (Block.ofTokens tokens).map
        fun block => ⟨.block block.children, [], tokens.length⟩) ∧
    (∀ n e, Walk tokens (.siblings .root 0 []) n (.ok e) → n = tokens.length + 1) ∧
    ∀ i scope n node left j, Walk tokens (.expression i scope) n (.ok ⟨node, left, j⟩) →
      i ≤ j ∧ j < tokens.length ∧ n = j + 1 - i ∧
      Extent scope ((tokens.take (j + 1)).drop i) node left ∧
      ∀ other : List Token, other.take (j + 1) = tokens.take (j + 1) →
        ∃ h, readExpression scope (other.drop i) = .ok ⟨node, left, other.drop (j + 1), h⟩ := by
  refine ⟨fun call => ⟨exists_walk tokens call, fun n r h => h.lands.1⟩, ?_, ?_, ?_, ?_⟩
  · intro i scope r
    exact exists_walk_iff fun n r h => h.eq_landing
  · intro r
    exact exists_walk_iff fun n r h => h.eq_root
  · intro n e h
    exact h.root_lands.2
  · intro i scope n node left j h
    obtain ⟨hle, hsteps, hlt⟩ := h.landsOn
    simp only [Call.cursor, Call.Reaches] at hle hsteps hlt
    refine ⟨hle, hlt, by omega, h.extent i scope _ rfl rfl, fun other hsame => ?_⟩
    have hother : Walk other (.expression i scope) n (.ok ⟨node, left, j⟩) :=
      h.of_take _ rfl hlt hsame
    exact Call.read_expression_eq_ok_iff.mp hother.read_eq

/-- Both operators take an operand, the first one the 2, and the 0 is left. The expression is the
same where the tokens end with it. -/
theorem readExpression_extent_of_two_operators :
    Walk (Scan.ofSource "0 1 2 + % (3 4) 5").tokens
      (.expression 3 [.integer 2, .integer 1, .integer 0]) 6
      (.ok ⟨.binary (.integer 2) .add (.binary (.integer 1) .modulo
        (.group [.integer 3, .integer 4])), [.integer 0], 8⟩) ∧
    Extent [.integer 2, .integer 1, .integer 0]
      (((Scan.ofSource "0 1 2 + % (3 4) 5").tokens.take 9).drop 3)
      (.binary (.integer 2) .add (.binary (.integer 1) .modulo
        (.group [.integer 3, .integer 4]))) [.integer 0] ∧
    (∃ h, readExpression [.integer 2, .integer 1, .integer 0]
      ((Scan.ofSource "0 1 2 + % (3 4)").tokens.drop 3)
        = .ok ⟨.binary (.integer 2) .add (.binary (.integer 1) .modulo
            (.group [.integer 3, .integer 4])), [.integer 0], [], h⟩) ∧
    ∃ e, Walk (Scan.ofSource "0 1 2 + % (3 4) 5").tokens (.siblings .root 0 []) 11 (.ok e) := by
  have hgroup : Walk (Scan.ofSource "0 1 2 + % (3 4) 5").tokens
      (.siblings (.group ⟨10, 0, 10⟩ [.integer 0]) 6 []) 3
      (.ok ⟨.group [.integer 3, .integer 4], [.integer 0], 8⟩) :=
    .next rfl (by decide) (.literal rfl rfl)
      (.next rfl (by decide) (.literal rfl rfl) (.answered rfl rfl))
  have hoperators : Walk (Scan.ofSource "0 1 2 + % (3 4) 5").tokens
      (.expression 3 [.integer 2, .integer 1, .integer 0]) 6 _ :=
    .operator rfl rfl (.operator rfl rfl (.opening rfl rfl hgroup))
  obtain ⟨-, -, hroot, hsteps, hextent⟩ :=
    readExpression_extent (Scan.ofSource "0 1 2 + % (3 4) 5").tokens
  obtain ⟨-, -, -, htokens, hsame⟩ := hextent 3 _ 6 _ _ 8 hoperators
  refine ⟨hoperators, htokens, hsame (Scan.ofSource "0 1 2 + % (3 4)").tokens rfl, ?_⟩
  have htree : Block.ofTokens (Scan.ofSource "0 1 2 + % (3 4) 5").tokens
      = .ok ⟨[.integer 0, .binary (.integer 2) .add (.binary (.integer 1) .modulo
          (.group [.integer 3, .integer 4])), .integer 5]⟩ :=
    Block.ofTokens_eq_ok_iff_run.mpr rfl
  obtain ⟨n, hwhole⟩ := (hroot _).mpr rfl
  rw [htree] at hwhole
  obtain rfl : n = 11 := hsteps _ _ hwhole
  exact ⟨_, hwhole⟩

end ArithTree
