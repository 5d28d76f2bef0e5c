import ArithTree.Proofs.Pieces

/-!
# Reading in one pass

Trees are read by recursive descent. This module has a second reader, which
walks over the tokens once, from left to right, and keeps what the recursion
keeps on the call stack in a `Stack` of its own: for every block that is still
open its children and the operators that wait for a right operand.

* `Stack.step` — one token. It alone decides between the faults that a token can
  cause: a token that is no piece, an operator without a left operand, a closing
  parenthesis that answers nothing.
* `Stack.finish` — the end of the tokens. A waiting operator of the innermost
  block comes before an open parenthesis, and of several open parentheses the
  innermost is the one that is missed.
* `Stack.Step`, `Stack.Refuses` — what a step can do, and what it can refuse. Of the
  steps of a run the first that fails gives the fault (`Stack.run_eq_error_iff`).
* `Block.ofTokens_eq_onePass` — the two readers agree on all tokens, with the
  same tree or the same fault at the same place.

The proof follows the recursion. `Stack.read_expression`, `Stack.read_group` and
`Stack.read_block` say of each recursive reader that calling it and going on with
the one pass from what it hands back is the one pass from the start. The state
that a reader of the recursion does not see, the operators that wait for its
result and the blocks around it, is quantified over.
-/

namespace ArithTree

/-- A block that is still open. -/
structure Frame where
  /-- The children so far, the newest first. -/
  children : List Node
  /-- The operators that wait for a right operand, each with the left operand it
  took, the newest first. -/
  pending : List (Node × Operator)

namespace Frame

def empty : Frame := ⟨[], []⟩

/-- An operand was read: it ends the spine of the operators that waited for it,
and what comes of it is a child. -/
def push (f : Frame) (atom : Node) : Frame :=
  ⟨Node.nest f.pending atom :: f.children, []⟩

end Frame

/-- The blocks that are still open. -/
structure Stack where
  top : Frame
  /-- The blocks around it, from the inside out, each with the place of the
  parenthesis that opened the block next to it on the inside. -/
  outer : List (Position × Frame)

namespace Stack

def start : Stack := ⟨.empty, []⟩

def step (s : Stack) (t : Token) : Except Fault Stack :=
  match t.piece? with
  | none => .error t.refusal
  | some (.literal value) => .ok { s with top := s.top.push (.literal value) }
  | some (.operator operator) =>
    match s.top.children with
    | [] => .error (.malformed .missingLeftOperand t.position)
    | left :: children => .ok { s with top := ⟨children, (left, operator) :: s.top.pending⟩ }
  | some .opening => .ok ⟨.empty, (t.position, s.top) :: s.outer⟩
  | some .closing =>
    match s.top.pending, s.outer with
    | [], (_, around) :: outer => .ok ⟨around.push (.group s.top.children.reverse), outer⟩
    | _, _ => .error (.malformed .unexpectedRightParen t.position)

/-- The tree, once all tokens are read. -/
def finish (s : Stack) : Except Fault Block :=
  match s.top.pending, s.outer with
  | _ :: _, _ => .error (.atEnd .unexpectedEndOfInput)
  | [], (opening, _) :: _ => .error (.malformed .missingClosingParen opening)
  | [], [] => .ok ⟨s.top.children.reverse⟩

def run (s : Stack) (tokens : List Token) : Except Fault Stack :=
  tokens.foldlM step s

/-- Reads tokens to the end. -/
def read (s : Stack) (tokens : List Token) : Except Fault Block :=
  s.run tokens >>= finish

theorem run_cons (s : Stack) (t : Token) (tokens : List Token) :
    s.run (t :: tokens) = s.step t >>= fun s => s.run tokens :=
  List.foldlM_cons

theorem run_append (s : Stack) (front back : List Token) :
    s.run (front ++ back) = s.run front >>= fun s => s.run back :=
  List.foldlM_append

theorem read_cons (s : Stack) (t : Token) (tokens : List Token) :
    s.read (t :: tokens) = s.step t >>= fun s => s.read tokens := by
  unfold read
  rw [run_cons, bind_assoc]

/-! ### The steps that succeed -/

/-- **What a step can do.** One rule for every kind of piece; the shape of the
state on the left is the condition under which the step succeeds. -/
inductive Step (t : Token) : Stack → Stack → Prop
  | literal {top outer value} (h : t.piece? = some (.literal value)) :
      Step t ⟨top, outer⟩ ⟨top.push (.literal value), outer⟩
  | operator {left children pending outer operator} (h : t.piece? = some (.operator operator)) :
      Step t ⟨⟨left :: children, pending⟩, outer⟩
        ⟨⟨children, (left, operator) :: pending⟩, outer⟩
  | opening {top outer} (h : t.piece? = some .opening) :
      Step t ⟨top, outer⟩ ⟨.empty, (t.position, top) :: outer⟩
  | closing {children place around outer} (h : t.piece? = some .closing) :
      Step t ⟨⟨children, []⟩, (place, around) :: outer⟩
        ⟨around.push (.group children.reverse), outer⟩

theorem step_eq_ok_iff {s s' : Stack} {t : Token} : s.step t = .ok s' ↔ Step t s s' := by
  constructor
  · intro h
    obtain ⟨⟨children, pending⟩, outer⟩ := s
    unfold step at h
    match hpiece : t.piece? with
    | none => rw [hpiece] at h; cases h
    | some (.literal value) =>
      rw [hpiece] at h
      cases h
      exact .literal hpiece
    | some (.operator operator) =>
      rw [hpiece] at h
      cases children with
      | nil => cases h
      | cons left children => cases h; exact .operator hpiece
    | some .opening =>
      rw [hpiece] at h
      cases h
      exact .opening hpiece
    | some .closing =>
      rw [hpiece] at h
      match pending, outer with
      | _ :: _, _ | [], [] => cases h
      | [], (place, around) :: outer => cases h; exact .closing hpiece
  · intro h
    cases h with
    | literal h | operator h | opening h | closing h => unfold step; rw [h]

theorem run_cons_eq_ok_iff {s s' : Stack} {t : Token} {tokens : List Token} :
    s.run (t :: tokens) = .ok s' ↔ ∃ m, Step t s m ∧ m.run tokens = .ok s' := by
  rw [run_cons]
  cases h : s.step t with
  | error fault =>
    refine ⟨nofun, ?_⟩
    rintro ⟨m, hm, -⟩
    rw [step_eq_ok_iff.mpr hm] at h
    cases h
  | ok m =>
    constructor
    · exact fun hrun => ⟨m, step_eq_ok_iff.mp h, hrun⟩
    · rintro ⟨m', hm', hrun⟩
      rw [step_eq_ok_iff.mpr hm'] at h
      cases h
      exact hrun

/-! ### The steps that fail -/

/-- **What a step can refuse**, and for which cause: a token that is no piece, an
operator that finds no child, a closing parenthesis that answers nothing. -/
inductive Refuses (t : Token) : Stack → Cause → Prop
  | token {s} (h : t.piece? = none) : Refuses t s t.refusal.cause
  | operator {pending outer operator} (h : t.piece? = some (.operator operator)) :
      Refuses t ⟨⟨[], pending⟩, outer⟩ (.malformed .missingLeftOperand)
  | closing {top outer} (h : t.piece? = some .closing) (hopen : top.pending = [] → outer = []) :
      Refuses t ⟨top, outer⟩ (.malformed .unexpectedRightParen)

/-- A step that fails points at its token. -/
theorem step_eq_error_iff {s : Stack} {t : Token} {fault : Fault} :
    s.step t = .error fault ↔ Refuses t s fault.cause ∧ fault.location = some t.position := by
  obtain ⟨⟨children, pending⟩, outer⟩ := s
  constructor
  · intro h
    unfold step at h
    match hpiece : t.piece? with
    | none =>
      rw [hpiece] at h
      -- what is no piece is refused wherever it stands, and a refusal has its place
      obtain rfl := Except.error.inj h
      exact ⟨.token hpiece, t.location_refusal⟩
    | some (.literal value) => rw [hpiece] at h; cases h
    | some (.operator operator) =>
      rw [hpiece] at h
      cases children with
      | nil => cases h; exact ⟨.operator hpiece, rfl⟩
      | cons left children => cases h
    | some .opening => rw [hpiece] at h; cases h
    | some .closing =>
      rw [hpiece] at h
      -- an operator may still wait, or there is no block to leave
      match pending, outer with
      | _ :: _, _ => cases h; exact ⟨.closing hpiece nofun, rfl⟩
      | [], [] => cases h; exact ⟨.closing hpiece fun _ => rfl, rfl⟩
      | [], _ :: _ => cases h
  · obtain ⟨cause, location⟩ := fault
    rintro ⟨h, rfl⟩
    cases h with
    | token hpiece =>
      unfold step
      rw [hpiece, ← t.location_refusal]
    | operator hpiece => unfold step; rw [hpiece]; rfl
    | closing hpiece hopen =>
      unfold step
      rw [hpiece]
      -- `hopen` rules out the one case in which the step leaves a block
      match pending, outer, hopen with
      | _ :: _, _, _ | [], [], _ => rfl
      | [], _ :: _, hopen => cases hopen rfl

/-- **A run fails at one of its tokens**, after all tokens before it were read. -/
theorem run_eq_error_iff {s : Stack} {tokens : List Token} {fault : Fault} :
    s.run tokens = .error fault ↔
      ∃ front t back m, tokens = front ++ t :: back ∧ s.run front = .ok m ∧
        m.step t = .error fault := by
  constructor
  · intro h
    induction tokens generalizing s with
    | nil => cases h
    | cons t tokens ih =>
      rw [run_cons] at h
      cases hstep : s.step t with
      | error fault' =>
        rw [hstep] at h
        cases h
        exact ⟨[], t, tokens, s, rfl, rfl, hstep⟩
      | ok m =>
        rw [hstep] at h
        obtain ⟨front, t', back, m', rfl, hrun, hfail⟩ := ih h
        refine ⟨t :: front, t', back, m', rfl, ?_, hfail⟩
        exact run_cons_eq_ok_iff.mpr ⟨m, step_eq_ok_iff.mp hstep, hrun⟩
  · rintro ⟨front, t, back, m, rfl, hrun, hfail⟩
    rw [run_append, hrun]
    change m.run (t :: back) = _
    rw [run_cons, hfail]
    rfl

/-! ### The end of the tokens -/

/-- The end of the tokens gives a tree only at the root, with no operator left
waiting. -/
theorem finish_eq_ok_iff {s : Stack} {block : Block} :
    s.finish = .ok block ↔ s = ⟨⟨block.children.reverse, []⟩, []⟩ := by
  obtain ⟨⟨children, pending⟩, outer⟩ := s
  constructor
  · intro h
    match pending, outer with
    | _ :: _, _ | [], _ :: _ => cases h
    | [], [] => cases h; rw [List.reverse_reverse]
  · intro h
    cases h
    obtain ⟨children⟩ := block
    simp [finish]

/-- An operator that waits in vain comes before a parenthesis that stays open. -/
theorem finish_eq_error_iff {s : Stack} {fault : Fault} :
    s.finish = .error fault ↔
      s.top.pending ≠ [] ∧ fault = .atEnd .unexpectedEndOfInput ∨
      s.top.pending = [] ∧ ∃ opening around outer, s.outer = (opening, around) :: outer ∧
        fault = .malformed .missingClosingParen opening := by
  obtain ⟨⟨children, pending⟩, outer⟩ := s
  cases pending with
  | cons waiting pending => simp [finish, eq_comm]
  | nil =>
    cases outer with
    | nil => simp [finish]
    | cons block outer =>
      obtain ⟨opening, around⟩ := block
      simp [finish, eq_comm]

/-- Reading fails at one of the tokens or at the end of them. -/
theorem read_eq_error_iff {s : Stack} {tokens : List Token} {fault : Fault} :
    s.read tokens = .error fault ↔
      s.run tokens = .error fault ∨ ∃ m, s.run tokens = .ok m ∧ m.finish = .error fault := by
  unfold read
  cases s.run tokens <;> simp [bind, Except.bind]

end Stack

/-! ### The recursion on one token -/

/-- **One token of an expression**, by the piece that the token is. -/
theorem readExpression_cons (scope : List Node) (t : Token) (rest : List Token) :
    readExpression scope (t :: rest) =
      match t.piece? with
      | none => .error t.refusal
      | some (.literal value) => .ok ⟨.literal value, scope, rest, Nat.lt_succ_self _⟩
      | some (.operator operator) =>
        match scope with
        | [] => .error (.malformed .missingLeftOperand t.position)
        | left :: scope => do
          let right ← readExpression scope rest
          return ⟨.binary left operator right.node, right.scope, right.rest,
            Nat.lt_succ_of_lt right.shorter⟩
      | some .opening => do
        let group ← readGroup t.position [] rest
        return ⟨.group group.children, scope, group.rest, Nat.lt_succ_of_lt group.shorter⟩
      | some .closing => .error (.malformed .unexpectedRightParen t.position) := by
  obtain ⟨kind, position, value⟩ := t
  rw [readExpression]
  -- the reader goes by the kind, and a piece is known by the kind and the value
  cases kind with
  | identifier | leftParen | rightParen => rfl
  | integer | string =>
    -- the value may be missing, or be that of another kind of token
    cases value with
    | none => rfl
    | some value => cases value <;> rfl
  | operator =>
    -- an operator token may carry no symbol, or one that is not an operator's
    cases value with
    | none => rfl
    | some value =>
      cases value with
      | integer | text => rfl
      | symbol c =>
        simp only [Token.toOperator, Token.piece?]
        cases Operator.ofSymbol? c <;> rfl

/-! ### The recursion and the one pass -/

namespace Stack

mutual

/-- **An expression in one pass.** Of the operators in `pending` the expression
is the right operand. Without one the reader is only called where an expression
can start, that is neither at the end nor at a closing parenthesis: there the one
pass may end or leave the block. -/
theorem read_expression (scope : List Node) (pending : List (Node × Operator))
    (outer : List (Position × Frame)) (tokens : List Token)
    (h : pending = [] → ∃ t rest, tokens = t :: rest ∧ t.kind ≠ .rightParen) :
    (do
        let e ← readExpression scope tokens
        read ⟨Frame.push ⟨e.scope, pending⟩ e.node, outer⟩ e.rest)
      = read ⟨⟨scope, pending⟩, outer⟩ tokens := by
  match tokens with
  | [] =>
    cases pending with
    | nil =>
      obtain ⟨t, rest, heq, -⟩ := h rfl
      cases heq
    | cons p pending =>
      -- an operator waits in vain
      rw [readExpression]
      rfl
  | t :: rest =>
    rw [readExpression_cons, read_cons, step]
    match hpiece : t.piece? with
    | none => rfl
    | some (.literal value) => rfl
    | some (.operator operator) =>
      cases scope with
      | nil => rfl
      | cons left scope =>
        -- the operator joins those that wait, and all of them wait for what follows
        have ih := read_expression scope ((left, operator) :: pending) outer rest nofun
        rw [bind_assoc]
        exact ih
    | some .opening =>
      -- what waits here waits for the whole group
      have ih := read_group t.position [] ⟨scope, pending⟩ outer rest
      rw [bind_assoc]
      exact ih
    | some .closing =>
      cases pending with
      | nil =>
        -- excluded: the one pass would leave the block
        obtain ⟨t, rest, heq, hne⟩ := h rfl
        cases heq
        exact absurd (Token.piece?_eq_closing_iff.mp hpiece) hne
      | cons p pending => rfl
termination_by (tokens.length, 0)

/-- **A group in one pass.** The group that `opening` opened is an operand of the
block around it. -/
theorem read_group (opening : Position) (scope : List Node) (around : Frame)
    (outer : List (Position × Frame)) (tokens : List Token) :
    (do
        let group ← readGroup opening scope tokens
        read ⟨around.push (.group group.children), outer⟩ group.rest)
      = read ⟨⟨scope, []⟩, (opening, around) :: outer⟩ tokens := by
  match tokens with
  | [] => rw [readGroup]; rfl
  | t :: rest =>
    rw [readGroup]
    by_cases h : t.kind = .rightParen
    · -- the group ends, and is an operand of the block around it
      rw [if_pos h, read_cons, step, Token.piece?_eq_closing_iff.mpr h]
      rfl
    · -- one more child, and then the rest of the group
      rw [if_neg h, ← read_expression scope [] _ (t :: rest) (fun _ => ⟨t, rest, rfl, h⟩),
        bind_assoc]
      refine bind_congr fun first => ?_
      have ih := read_group opening (first.node :: first.scope) around outer first.rest
      rw [bind_assoc]
      exact ih
termination_by (tokens.length, 1)
decreasing_by
  · exact Prod.Lex.right _ Nat.zero_lt_one
  · exact Prod.Lex.left _ _ first.shorter

end

/-- **The root in one pass.** -/
theorem read_block (scope : List Node) (tokens : List Token) :
    (do
        let children ← readBlock scope tokens
        return (⟨children⟩ : Block))
      = read ⟨⟨scope, []⟩, []⟩ tokens := by
  match tokens with
  | [] => rw [readBlock]; rfl
  | t :: rest =>
    rw [readBlock]
    by_cases h : t.kind = .rightParen
    · -- at the root a closing parenthesis answers nothing
      rw [readExpression_cons, read_cons, step, Token.piece?_eq_closing_iff.mpr h]
      rfl
    · rw [← read_expression scope [] [] (t :: rest) (fun _ => ⟨t, rest, rfl, h⟩), bind_assoc]
      exact bind_congr fun first => read_block (first.node :: first.scope) first.rest
termination_by tokens.length
decreasing_by exact first.shorter

end Stack

namespace Block

/-- **Recursive descent and the one pass agree**: on all tokens they end in the
same tree, or in the same fault at the same place. -/
theorem ofTokens_eq_onePass (tokens : List Token) :
    ofTokens tokens = Stack.start.read tokens :=
  Stack.read_block [] tokens

/-- A tree is what the one pass holds at the root when no operator waits. -/
theorem ofTokens_eq_ok_iff_run {tokens : List Token} {block : Block} :
    ofTokens tokens = .ok block ↔
      Stack.start.run tokens = .ok ⟨⟨block.children.reverse, []⟩, []⟩ := by
  have h : ofTokens tokens = Stack.start.read tokens := Stack.read_block [] tokens
  rw [h, Stack.read]
  cases Stack.start.run tokens with
  | error fault => exact ⟨nofun, nofun⟩
  | ok s =>
    rw [Except.ok.injEq]
    exact Stack.finish_eq_ok_iff

/-- A fault is what the one pass meets at a token, or what it is left with. -/
theorem ofTokens_eq_error_iff_run {tokens : List Token} {fault : Fault} :
    ofTokens tokens = .error fault ↔
      Stack.start.run tokens = .error fault ∨
        ∃ s, Stack.start.run tokens = .ok s ∧ s.finish = .error fault := by
  have h : ofTokens tokens = Stack.start.read tokens := Stack.read_block [] tokens
  rw [h, Stack.read_eq_error_iff]

end Block

end ArithTree
