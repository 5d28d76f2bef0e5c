import ArithTree.Proofs.OnePass

/-!
# Reading with a cursor

Recursive descent hands on what is left of the tokens. This module has the same descent over
tokens that stay as they are and a *cursor*, the index of the token that is next. The cursor is
not moved over all that was read: a literal leaves it on its own token and a group on its closing
parenthesis, so that whoever asked for the expression steps over one token more.

* `Call` is what can be asked for: an expression, or the siblings of a `Loop`, which are those of
  the whole or those between two parentheses.
* `Walk tokens call n r` says that `call` comes to an end after `n` steps with the outcome `r`. A
  step is what happens on one token or at the end of the tokens. Nothing in the rules of `Walk`
  says that every call comes to an end.
* `Walk.lands` is what every rule keeps: the cursor never goes back, and it lands on the last of as
  many tokens as there were steps.
* `exists_walk` — every call comes to an end. What a call asks for has fewer tokens from its cursor
  on, or as many and is an expression in place of siblings.
* `Walk.read_eq` — every call ends as it does in recursive descent, which goes on behind the token
  that the cursor landed on.
-/

namespace ArithTree

namespace Cursor

/-- Where a call ends. -/
structure Landing where
  node : Node
  /-- The scope, less the expressions that became operands. -/
  scope : List Node
  /-- The index of the token that the call ended on. -/
  cursor : Nat

/-- The expression becomes the right operand of the operator before it. -/
def Landing.rightOf (left : Node) (operator : Operator) (e : Landing) : Landing :=
  { e with node := .binary left operator e.node }

/-- What is read sibling by sibling. -/
inductive Loop where
  /-- The whole. -/
  | root
  /-- What stands between the parenthesis at `opening` and the one that answers it. The scope
  around the group is kept for the time after it. -/
  | group (opening : Position) (around : List Node)

/-- Does one more sibling start at the token? The whole ends at no token, a group at a closing
parenthesis. -/
def Loop.GoesOnAt (t : Token) : Loop → Prop
  | .root => True
  | .group _ _ => t.kind ≠ .rightParen

instance (t : Token) : (loop : Loop) → Decidable (loop.GoesOnAt t)
  | .root => inferInstanceAs (Decidable True)
  | .group _ _ => inferInstanceAs (Decidable (t.kind ≠ .rightParen))

/-- What is asked for, from the token under the cursor on. -/
inductive Call where
  | expression (cursor : Nat) (scope : List Node)
  /-- The siblings of a loop that has `children` already, the newest first. -/
  | siblings (loop : Loop) (cursor : Nat) (children : List Node)

def Call.cursor : Call → Nat
  | .expression cursor _ | .siblings _ cursor _ => cursor

/-- **The descent with a cursor.** The cursor moves on by one in three places: behind an operator,
behind an opening parenthesis, and from the token that a sibling ended on to the next. -/
inductive Walk (tokens : List Token) : Call → Nat → Except Fault Landing → Prop
  -- an expression, by the piece that its first token is
  | atEnd {i scope} (h : tokens[i]? = none) :
      Walk tokens (.expression i scope) 1 (.error (.atEnd .unexpectedEndOfInput))
  | refused {i scope t} (h : tokens[i]? = some t) (hpiece : t.piece? = none) :
      Walk tokens (.expression i scope) 1 (.error t.refusal)
  | literal {i scope t value} (h : tokens[i]? = some t)
      (hpiece : t.piece? = some (.literal value)) :
      Walk tokens (.expression i scope) 1 (.ok ⟨.literal value, scope, i⟩)
  | noOperand {i t operator} (h : tokens[i]? = some t)
      (hpiece : t.piece? = some (.operator operator)) :
      Walk tokens (.expression i []) 1 (.error (.malformed .missingLeftOperand t.position))
  | operator {i left scope t operator n r} (h : tokens[i]? = some t)
      (hpiece : t.piece? = some (.operator operator))
      (hright : Walk tokens (.expression (i + 1) scope) n r) :
      Walk tokens (.expression i (left :: scope)) (n + 1) (r.map (.rightOf left operator))
  | opening {i scope t n r} (h : tokens[i]? = some t) (hpiece : t.piece? = some .opening)
      (hinside : Walk tokens (.siblings (.group t.position scope) (i + 1) []) n r) :
      Walk tokens (.expression i scope) (n + 1) r
  | closing {i scope t} (h : tokens[i]? = some t) (hpiece : t.piece? = some .closing) :
      Walk tokens (.expression i scope) 1 (.error (.malformed .unexpectedRightParen t.position))
  -- siblings, by whether one more of them starts
  | whole {i children} (h : tokens[i]? = none) :
      Walk tokens (.siblings .root i children) 1 (.ok ⟨.block children.reverse, [], i⟩)
  | unanswered {i children opening around} (h : tokens[i]? = none) :
      Walk tokens (.siblings (.group opening around) i children) 1
        (.error (.malformed .missingClosingParen opening))
  | answered {i children opening around t} (h : tokens[i]? = some t)
      (hkind : t.kind = .rightParen) :
      Walk tokens (.siblings (.group opening around) i children) 1
        (.ok ⟨.group children.reverse, around, i⟩)
  | fault {i children loop t n fault} (h : tokens[i]? = some t) (hloop : loop.GoesOnAt t)
      (hfirst : Walk tokens (.expression i children) n (.error fault)) :
      Walk tokens (.siblings loop i children) n (.error fault)
  | next {i children loop t n m e r} (h : tokens[i]? = some t) (hloop : loop.GoesOnAt t)
      (hfirst : Walk tokens (.expression i children) n (.ok e))
      (hothers : Walk tokens (.siblings loop (e.cursor + 1) (e.node :: e.scope)) m r) :
      Walk tokens (.siblings loop i children) (n + m) r

variable {tokens rest : List Token} {call : Call} {loop : Loop} {children scope left : List Node}
  {n m i j k : Nat} {t : Token} {node : Node} {e : Landing} {r : Except Fault Landing}
  {fault : Fault}

/-- A loop goes on at every token but the one that answers its parenthesis. -/
theorem Loop.goesOnAt_or (loop : Loop) (t : Token) :
    loop.GoesOnAt t ∨ ∃ opening around, loop = .group opening around ∧ t.kind = .rightParen := by
  cases loop with
  | root => exact .inl trivial
  | group opening around =>
    by_cases h : t.kind = .rightParen
    · exact .inr ⟨opening, around, rfl, h⟩
    · exact .inl h

/-! ### Where the cursor lands -/

/-- The siblings of the whole end behind the last token, and every other call on a token. -/
def Call.Reaches (tokens : List Token) (j : Nat) : Call → Prop
  | .siblings .root _ _ => tokens.length ≤ j
  | .siblings (.group _ _) _ _ | .expression _ _ => j < tokens.length

/-- The call moves the cursor to `j` in `n` steps, one for each token on the way, the first and the
last counted. -/
structure Call.LandsOn (tokens : List Token) (call : Call) (n j : Nat) : Prop where
  cursor_le : call.cursor ≤ j
  steps : call.cursor + n = j + 1
  reaches : call.Reaches tokens j

/-- One step on the token at `i`, and the rest of the expression from the next one on. -/
theorem Call.LandsOn.behind (h : call.LandsOn tokens n j) (hcursor : call.cursor = i + 1)
    (hj : j < tokens.length) : (Call.expression i scope).LandsOn tokens (n + 1) j := by
  obtain ⟨hle, hsteps, -⟩ := h
  rw [hcursor] at hle hsteps
  have hi : i ≤ j := Nat.le_of_succ_le hle
  have hn : i + (n + 1) = j + 1 := by omega
  exact ⟨hi, hn, hj⟩

/-- One sibling, and the rest of the loop from behind the token that the sibling ended on. -/
theorem Call.LandsOn.next {others : List Node}
    (hfirst : (Call.expression i children).LandsOn tokens n j)
    (hothers : (Call.siblings loop (j + 1) others).LandsOn tokens m k) :
    (Call.siblings loop i children).LandsOn tokens (n + m) k := by
  obtain ⟨hle, hsteps, -⟩ := hfirst
  obtain ⟨hle', hsteps', hreaches⟩ := hothers
  simp only [Call.cursor] at hle hsteps hle' hsteps'
  have hi : i ≤ k := by omega
  have hn : i + (n + m) = k + 1 := by omega
  refine ⟨hi, hn, ?_⟩
  cases loop with
  | root | group => exact hreaches

/-- **Progress.** A call takes no more steps than there are tokens from its cursor on, and one
for the end of them. Where it succeeds there was one step for each token from its cursor to the
one that it ends on. -/
theorem Walk.lands (h : Walk tokens call n r) :
    n ≤ tokens.length - call.cursor + 1 ∧
      ∀ e, r = .ok e → call.LandsOn tokens n e.cursor := by
  -- by induction on the walk: every rule adds one step to those of what it asks for, but for the
  -- loops, which leave the step on a sibling's token to the sibling
  induction h with
  | atEnd | refused | noOperand | closing | unanswered => exact ⟨by omega, nofun⟩
  | @literal i scope t value h =>
    obtain ⟨hi, -⟩ := List.getElem?_eq_some_iff.mp h
    refine ⟨by omega, ?_⟩
    rintro _ ⟨⟩
    exact ⟨Nat.le_refl i, rfl, hi⟩
  | @operator i left scope t operator n r h _ _ ih =>
    obtain ⟨hi, -⟩ := List.getElem?_eq_some_iff.mp h
    obtain ⟨hn, hland⟩ := ih
    simp only [Call.cursor] at hn ⊢
    refine ⟨by omega, fun e he => ?_⟩
    cases r with
    | error fault => cases he
    | ok right =>
      cases he
      have hright := hland right rfl
      exact hright.behind rfl hright.reaches
  | @opening i scope t n r h _ _ ih =>
    obtain ⟨hi, -⟩ := List.getElem?_eq_some_iff.mp h
    obtain ⟨hn, hland⟩ := ih
    simp only [Call.cursor] at hn ⊢
    refine ⟨by omega, fun e he => ?_⟩
    have hinside := hland e he
    exact hinside.behind rfl hinside.reaches
  | @whole i children h =>
    refine ⟨by omega, ?_⟩
    rintro _ ⟨⟩
    exact ⟨Nat.le_refl i, rfl, List.getElem?_eq_none_iff.mp h⟩
  | @answered i children opening around t h =>
    obtain ⟨hi, -⟩ := List.getElem?_eq_some_iff.mp h
    refine ⟨by omega, ?_⟩
    rintro _ ⟨⟩
    exact ⟨Nat.le_refl i, rfl, hi⟩
  | fault _ _ _ ih => exact ⟨ih.1, nofun⟩
  | @next i children loop t n m e r _ _ _ _ ihfirst ihothers =>
    have hfirst := ihfirst.2 e rfl
    obtain ⟨hm, hothers⟩ := ihothers
    refine ⟨?_, fun e' he' => hfirst.next (hothers e' he')⟩
    -- the sibling ended on a token, so that the loop goes on behind no more than the last one
    obtain ⟨hle, hsteps, hlt⟩ := hfirst
    simp only [Call.cursor, Call.Reaches] at hle hsteps hlt hm ⊢
    omega

/-- Where a walk that succeeds lands. -/
theorem Walk.landsOn (h : Walk tokens call n (.ok e)) : call.LandsOn tokens n e.cursor :=
  h.lands.2 e rfl

/-! ### Every call comes to an end -/

/-- With as many tokens from the cursor on, an expression is less to ask for than siblings. -/
def Call.weight : Call → Nat
  | .expression _ _ => 0
  | .siblings _ _ _ => 1

/-- **Every call comes to an end.** -/
theorem exists_walk (tokens : List Token) (call : Call) : ∃ n r, Walk tokens call n r := by
  cases call with
  | expression i scope =>
    cases h : tokens[i]? with
    | none => exact ⟨1, _, .atEnd h⟩
    | some t =>
      obtain ⟨hi, -⟩ := List.getElem?_eq_some_iff.mp h
      cases hpiece : t.piece? with
      | none => exact ⟨1, _, .refused h hpiece⟩
      | some piece =>
        cases piece with
        | literal value => exact ⟨1, _, .literal h hpiece⟩
        | closing => exact ⟨1, _, .closing h hpiece⟩
        | operator operator =>
          cases scope with
          | nil => exact ⟨1, _, .noOperand h hpiece⟩
          | cons left scope =>
            obtain ⟨n, r, hright⟩ := exists_walk tokens (.expression (i + 1) scope)
            exact ⟨n + 1, _, .operator h hpiece hright⟩
        | opening =>
          -- the loop of the group starts one token further on, with no children
          obtain ⟨n, r, hinside⟩ :=
            exists_walk tokens (.siblings (.group t.position scope) (i + 1) [])
          exact ⟨n + 1, r, .opening h hpiece hinside⟩
  | siblings loop i children =>
    cases h : tokens[i]? with
    | none =>
      cases loop with
      | root => exact ⟨1, _, .whole h⟩
      | group opening around => exact ⟨1, _, .unanswered h⟩
    | some t =>
      obtain ⟨hi, -⟩ := List.getElem?_eq_some_iff.mp h
      obtain hloop | ⟨opening, around, rfl, hkind⟩ := loop.goesOnAt_or t
      · obtain ⟨n, r, hfirst⟩ := exists_walk tokens (.expression i children)
        cases r with
        | error fault => exact ⟨n, _, .fault h hloop hfirst⟩
        | ok e =>
          -- the cursor did not go back, so that fewer tokens are left for the siblings
          have hle : i ≤ e.cursor := hfirst.landsOn.cursor_le
          obtain ⟨m, r, hothers⟩ :=
            exists_walk tokens (.siblings loop (e.cursor + 1) (e.node :: e.scope))
          exact ⟨n + m, r, .next h hloop hfirst hothers⟩
      · exact ⟨1, _, .answered h hkind⟩
termination_by (tokens.length - call.cursor, call.weight)
decreasing_by
  · exact Prod.Lex.left _ _ (by simp only [Call.cursor]; omega)
  · exact Prod.Lex.left _ _ (by simp only [Call.cursor]; omega)
  · exact Prod.Lex.right _ Nat.zero_lt_one
  · exact Prod.Lex.left _ _ (by simp only [Call.cursor]; omega)

/-- Where all walks of a call end in one outcome, that is where the call ends. -/
theorem exists_walk_iff {outcome : Except Fault Landing}
    (h : ∀ n r, Walk tokens call n r → r = outcome) :
    (∃ n, Walk tokens call n r) ↔ r = outcome := by
  constructor
  · rintro ⟨n, hwalk⟩
    exact h n r hwalk
  · rintro rfl
    obtain ⟨n, r', hwalk⟩ := exists_walk tokens call
    exact ⟨n, h n r' hwalk ▸ hwalk⟩

/-! ### The descent with and without a cursor -/

/-- A landing without its cursor, but with the tokens behind the one that the cursor is on. -/
def Landing.behind (tokens : List Token) (e : Landing) : Node × List Node × List Token :=
  ⟨e.node, e.scope, tokens.drop (e.cursor + 1)⟩

/-- What recursive descent hands back for a loop: a node, what is left of the scope, and what is
left of the tokens. -/
def Loop.read (children : List Node) (rest : List Token) :
    Loop → Except Fault (Node × List Node × List Token)
  | .root => (readBlock children rest).map fun nodes => ⟨.block nodes, [], []⟩
  | .group opening around =>
    (readGroup opening children rest).map fun g => ⟨.group g.children, around, g.rest⟩

/-- What recursive descent hands back for a call. -/
def Call.read (tokens : List Token) : Call → Except Fault (Node × List Node × List Token)
  | .expression i scope =>
    (readExpression scope (tokens.drop i)).map fun e => ⟨e.node, e.scope, e.rest⟩
  | .siblings loop i children => loop.read children (tokens.drop i)

theorem map_eq_ok_iff {α β : Type} {x : Except Fault α} {f : α → β} {b : β} :
    x.map f = .ok b ↔ ∃ a, x = .ok a ∧ f a = b := by
  cases x with
  | error fault => simp [Except.map]
  | ok a => simp [Except.map]

theorem map_eq_error_iff {α β : Type} {x : Except Fault α} {f : α → β} :
    x.map f = .error fault ↔ x = .error fault := by
  cases x with
  | error fault' => simp [Except.map]
  | ok a => simp [Except.map]

theorem Call.read_expression_eq_ok_iff :
    (Call.expression i scope).read tokens = .ok ⟨node, left, rest⟩ ↔
      ∃ h, readExpression scope (tokens.drop i) = .ok ⟨node, left, rest, h⟩ := by
  rw [read, map_eq_ok_iff]
  constructor
  · rintro ⟨e, h, heq⟩
    cases heq
    exact ⟨e.shorter, h⟩
  · rintro ⟨_, h⟩
    exact ⟨_, h, rfl⟩

/-- The loop over the whole reads a tree. -/
theorem Loop.read_root (rest : List Token) :
    Loop.root.read [] rest = (Block.ofTokens rest).map fun b => ⟨.block b.children, [], []⟩ := by
  rw [read, Block.ofTokens]
  cases readBlock [] rest with
  | error fault | ok nodes => rfl

theorem drop_of_getElem? (h : tokens[i]? = some t) :
    tokens.drop i = t :: tokens.drop (i + 1) := by
  rw [List.drop_eq_getElem?_toList_append, h]
  rfl

theorem drop_of_getElem?_eq_none (h : tokens[i]? = none) : tokens.drop i = [] :=
  List.drop_of_length_le (List.getElem?_eq_none_iff.mp h)

/-- One round of a loop that goes on: a sibling, and the loop behind it. -/
theorem Loop.read_cons (hloop : loop.GoesOnAt t) :
    loop.read children (t :: rest) =
      readExpression children (t :: rest) >>= fun e =>
        loop.read (e.node :: e.scope) e.rest := by
  cases loop with
  | root =>
    rw [read, readBlock]
    cases readExpression children (t :: rest) with
    | error fault | ok first => rfl
  | group opening around =>
    rw [read, readGroup, if_neg hloop]
    cases readExpression children (t :: rest) with
    | error fault => rfl
    | ok first =>
      change Except.map _ (readGroup opening (first.node :: first.scope) first.rest >>= _) =
        Except.map _ (readGroup opening (first.node :: first.scope) first.rest)
      cases readGroup opening (first.node :: first.scope) first.rest with
      | error fault | ok others => rfl

/-- **The two descents agree.** A call ends in the fault of recursive descent, or with its node and
the scope that it leaves, on the token before those that it leaves. -/
theorem Walk.read_eq (h : Walk tokens call n r) : call.read tokens = r.map (·.behind tokens) := by
  induction h with
  | atEnd h =>
    rw [Call.read, drop_of_getElem?_eq_none h, readExpression]
    rfl
  | refused h hpiece | literal h hpiece | noOperand h hpiece | closing h hpiece =>
    rw [Call.read, drop_of_getElem? h, readExpression_cons, hpiece]
    rfl
  | @operator i left scope t operator n r h hpiece _ ih =>
    rw [Call.read, drop_of_getElem? h, readExpression_cons, hpiece]
    show Except.map _ (readExpression scope (tokens.drop (i + 1)) >>= _) = _
    -- a fault on the right is the fault of the operator, and a landing on the right is its own
    cases r with
    | error fault =>
      have hright : readExpression scope (tokens.drop (i + 1)) = .error fault :=
        map_eq_error_iff.mp ih
      rw [hright]
      rfl
    | ok e =>
      obtain ⟨_, hright⟩ := Call.read_expression_eq_ok_iff.mp ih
      rw [hright]
      rfl
  | @opening i scope t n r h hpiece _ ih =>
    rw [Call.read, drop_of_getElem? h, readExpression_cons, hpiece, ← ih]
    -- the group leaves the scope as it was, in both descents
    show Except.map _ (readGroup t.position [] (tokens.drop (i + 1)) >>= _) =
      Except.map _ (readGroup t.position [] (tokens.drop (i + 1)))
    cases readGroup t.position [] (tokens.drop (i + 1)) with
    | error fault | ok group => rfl
  | @whole i children h =>
    -- the root ends where no token is, and nothing is left behind it either
    have hbehind : tokens.drop (i + 1) = [] :=
      List.drop_of_length_le (Nat.le_succ_of_le (List.getElem?_eq_none_iff.mp h))
    rw [Call.read, drop_of_getElem?_eq_none h, Loop.read, readBlock]
    rw [Except.map, Except.map, Landing.behind, hbehind]
  | unanswered h =>
    rw [Call.read, drop_of_getElem?_eq_none h, Loop.read, readGroup]
    rfl
  | answered h hkind =>
    rw [Call.read, drop_of_getElem? h, Loop.read, readGroup, if_pos hkind]
    rfl
  | @fault i children loop t n fault h hloop _ ih =>
    have hfirst : readExpression children (tokens.drop i) = .error fault := map_eq_error_iff.mp ih
    rw [Call.read, drop_of_getElem? h, Loop.read_cons hloop, ← drop_of_getElem? h, hfirst]
    rfl
  | next h hloop _ _ ihfirst ihothers =>
    obtain ⟨_, hfirst⟩ := Call.read_expression_eq_ok_iff.mp ihfirst
    rw [Call.read, drop_of_getElem? h, Loop.read_cons hloop, ← drop_of_getElem? h, hfirst]
    exact ihothers

end Cursor

end ArithTree
