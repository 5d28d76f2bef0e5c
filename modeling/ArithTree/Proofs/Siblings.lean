import ArithTree.Proofs.Prefixes

/-!
# Reading in a context

Operators reach back into siblings that are finished, so how tokens are read could depend on
all that stands before them. It does not, as long as no operator runs out of siblings
(`Block.ofTokens_in_context`):

* behind tokens that are read as a tree, the children of both come one after the other, and
  every fault but a missing left operand stays what it is;
* between two parentheses, tokens are read as the group of their tree, and every fault stays
  that neither comes from the end of the tokens nor from a closing parenthesis.

Both are one frame property of the one pass. `Stack.Inside below around` relates a state to the
same state in a context, which has the nodes `below` under the children of the root and the
blocks `around` around the root. In a context a state takes the same steps (`Inside.step`), and
what is refused is refused in the context, too (`Inside.refuses`), but for two exceptions:
`below` may have an operand where there was none, and `around` a parenthesis to close.
-/

namespace ArithTree

namespace Stack

variable {below : List Node} {around : List (Position × Frame)} {s s' m : Stack} {t : Token}
  {tokens : List Token} {cause : Cause} {fault : Fault}

/-- **A state in a context**: the state on the right is the one on the left, with `below` under
the children of its root and `around` around its root. The blocks inside the root are the
same. -/
inductive Inside (below : List Node) (around : List (Position × Frame)) : Stack → Stack → Prop
  | root (children : List Node) (pending : List (Node × Operator)) :
      Inside below around ⟨⟨children, pending⟩, []⟩ ⟨⟨children ++ below, pending⟩, around⟩
  | block {f f' : Frame} {outer outer' : List (Position × Frame)} (top : Frame)
      (opening : Position) (h : Inside below around ⟨f, outer⟩ ⟨f', outer'⟩) :
      Inside below around ⟨top, (opening, f) :: outer⟩ ⟨top, (opening, f') :: outer'⟩

/-- An operand ends the same spine on both sides. -/
theorem Inside.push {f f' : Frame} {outer outer' : List (Position × Frame)}
    (h : Inside below around ⟨f, outer⟩ ⟨f', outer'⟩) (atom : Node) :
    Inside below around ⟨f.push atom, outer⟩ ⟨f'.push atom, outer'⟩ := by
  cases h with
  | root children pending => exact .root (Node.nest pending atom :: children) []
  | block top opening h => exact .block (f.push atom) opening h

/-- **The same steps.** A step that succeeds finds what it needs in the state itself, and does
not look at the context. -/
theorem Inside.step (hs : Inside below around s s') (hstep : Step t s m) :
    ∃ m', Step t s' m' ∧ Inside below around m m' := by
  obtain ⟨top', outer'⟩ := s'
  cases hstep with
  | literal h => exact ⟨_, .literal h, hs.push _⟩
  | operator h =>
    -- the operand that it takes lies on top of `below`
    cases hs with
    | root => exact ⟨_, .operator h, .root _ _⟩
    | block _ opening hs => exact ⟨_, .operator h, .block _ opening hs⟩
  | opening h => exact ⟨_, .opening h, .block _ _ hs⟩
  | closing h =>
    -- a block is open inside the root, so none of `around` is closed
    cases hs with
    | block _ _ hs => exact ⟨_, .closing h, hs.push _⟩

/-- **The same refusals**, unless the context has the operand that was missing or the
parenthesis that was not open. -/
theorem Inside.refuses (hs : Inside below around s s') (h : Refuses t s cause)
    (hoperand : cause = .malformed .missingLeftOperand → below = [])
    (hclosing : cause = .malformed .unexpectedRightParen → around = []) : Refuses t s' cause := by
  cases h with
  | token h => exact .token h
  | operator h =>
    cases hs with
    | root _ pending =>
      have hbelow : below = [] := hoperand rfl
      subst hbelow
      exact .operator h
    | block => exact .operator h
  | closing h hopen =>
    cases hs with
    | root children pending =>
      have haround : around = [] := hclosing rfl
      exact .closing h fun _ => haround
    | block top opening hs =>
      -- a block is open, so an operator waits in it, and it waits on the other side, too
      refine .closing h fun hpending => ?_
      have hnone := hopen hpending
      cases hnone

/-- **A run in a context.** -/
theorem Inside.run (hs : Inside below around s s') (hrun : s.run tokens = .ok m) :
    ∃ m', s'.run tokens = .ok m' ∧ Inside below around m m' := by
  induction tokens generalizing s s' with
  | nil =>
    cases hrun
    exact ⟨s', rfl, hs⟩
  | cons t tokens ih =>
    obtain ⟨n, hstep, hrun⟩ := run_cons_eq_ok_iff.mp hrun
    obtain ⟨n', hstep', hn⟩ := hs.step hstep
    obtain ⟨m', hrun', hm⟩ := ih hn hrun
    exact ⟨m', run_cons_eq_ok_iff.mpr ⟨n', hstep', hrun'⟩, hm⟩

/-- A run that comes back to its root with no operator waiting has put its children on top of
those in the context. -/
theorem Inside.run_root {root : List Node} (hs : Inside below around s s')
    (hrun : s.run tokens = .ok ⟨⟨root, []⟩, []⟩) :
    s'.run tokens = .ok ⟨⟨root ++ below, []⟩, around⟩ := by
  obtain ⟨m', hrun', hm⟩ := hs.run hrun
  cases hm with
  | root => exact hrun'

/-- **A run that fails** fails in the context for the same reason, with the same two
exceptions. -/
theorem Inside.run_eq_error (hs : Inside below around s s') (hrun : s.run tokens = .error fault)
    (hoperand : fault.cause = .malformed .missingLeftOperand → below = [])
    (hclosing : fault.cause = .malformed .unexpectedRightParen → around = []) :
    s'.run tokens = .error fault := by
  obtain ⟨front, t, back, m, rfl, hfront, hstep⟩ := run_eq_error_iff.mp hrun
  obtain ⟨hrefuses, hlocation⟩ := step_eq_error_iff.mp hstep
  obtain ⟨m', hfront', hm⟩ := hs.run hfront
  have hrefuses' : Refuses t m' fault.cause := hm.refuses hrefuses hoperand hclosing
  have hstep' : m'.step t = .error fault := step_eq_error_iff.mpr ⟨hrefuses', hlocation⟩
  exact run_eq_error_iff.mpr ⟨front, t, back, m', rfl, hfront', hstep'⟩

/-- The end of the tokens looks at the blocks that are open and at the operators that wait in
the innermost one, and at no child. -/
theorem Inside.finish_eq_error (hs : Inside below [] s s') (h : s.finish = .error fault) :
    s'.finish = .error fault := by
  cases hs with
  | root children pending =>
    cases pending with
    | nil => cases h
    | cons waiting pending => exact h
  | block top opening hs =>
    obtain ⟨children, pending⟩ := top
    cases pending with
    | nil | cons => exact h

end Stack

namespace Block

open Stack (Inside)

variable {a b : List Token} {A B : Block} {fault : Fault}

/-! ### Behind other tokens -/

/-- What stands behind tokens that are read as a tree is read from the root that they leave. -/
theorem inside_of_ofTokens (ha : ofTokens a = .ok A) :
    ∃ s, Stack.start.run a = .ok s ∧ Inside A.children.reverse [] Stack.start s := by
  have hrun := ofTokens_eq_ok_iff_run.mp ha
  exact ⟨_, hrun, .root [] []⟩

theorem ofTokens_append_eq_ok (ha : ofTokens a = .ok A) (hb : ofTokens b = .ok B) :
    ofTokens (a ++ b) = .ok ⟨A.children ++ B.children⟩ := by
  obtain ⟨s, hs, hinside⟩ := inside_of_ofTokens ha
  have hrun := hinside.run_root (ofTokens_eq_ok_iff_run.mp hb)
  rw [ofTokens_eq_ok_iff_run, Stack.run_append, hs, List.reverse_append]
  exact hrun

theorem ofTokens_behind_eq_error (ha : ofTokens a = .ok A) (hb : ofTokens b = .error fault)
    (hfault : fault.cause ≠ .malformed .missingLeftOperand) :
    ofTokens (a ++ b) = .error fault := by
  obtain ⟨s, hs, hinside⟩ := inside_of_ofTokens ha
  have hbehind : Stack.start.run (a ++ b) = s.run b := by
    rw [Stack.run_append, hs]
    rfl
  rw [ofTokens_eq_error_iff_run, hbehind]
  obtain hrun | ⟨m, hrun, hfinish⟩ := ofTokens_eq_error_iff_run.mp hb
  · exact .inl (hinside.run_eq_error hrun (fun h => absurd h hfault) fun _ => rfl)
  · obtain ⟨m', hrun', hm⟩ := hinside.run hrun
    exact .inr ⟨m', hrun', hm.finish_eq_error hfinish⟩

/-! ### Between parentheses -/

variable {opening closing : Token}

/-- What stands behind a parenthesis is read from a root with this one parenthesis around
it. -/
theorem inside_of_opening (hopening : opening.kind = .leftParen) :
    ∃ s, Stack.start.step opening = .ok s ∧
      Inside [] [(opening.position, .empty)] Stack.start s := by
  have hpiece : opening.piece? = some .opening := by
    obtain ⟨kind, position, value⟩ := opening
    obtain rfl : kind = .leftParen := hopening
    rfl
  have hstep : Stack.Step opening Stack.start ⟨.empty, [(opening.position, .empty)]⟩ :=
    .opening hpiece
  exact ⟨_, Stack.step_eq_ok_iff.mpr hstep, .root [] []⟩

theorem ofTokens_group_eq_ok (hopening : opening.kind = .leftParen)
    (hclosing : closing.kind = .rightParen) (ha : ofTokens a = .ok A) :
    ofTokens (opening :: (a ++ [closing])) = .ok ⟨[.group A.children]⟩ := by
  obtain ⟨s, hs, hinside⟩ := inside_of_opening hopening
  have hrun := hinside.run_root (ofTokens_eq_ok_iff_run.mp ha)
  rw [List.append_nil] at hrun
  -- the last parenthesis closes the only block that is open
  have hclose : Stack.Step closing ⟨⟨A.children.reverse, []⟩, [(opening.position, .empty)]⟩
      ⟨Frame.empty.push (.group A.children.reverse.reverse), []⟩ :=
    .closing (Token.piece?_eq_closing_iff.mpr hclosing)
  rw [List.reverse_reverse] at hclose
  rw [ofTokens_eq_ok_iff_run]
  refine Stack.run_cons_eq_ok_iff.mpr ⟨s, Stack.step_eq_ok_iff.mp hs, ?_⟩
  rw [Stack.run_append, hrun]
  exact Stack.run_cons_eq_ok_iff.mpr ⟨_, hclose, rfl⟩

theorem ofTokens_group_eq_error (hopening : opening.kind = .leftParen)
    (hb : ofTokens b = .error fault) (hend : ¬ fault.cause.Unfinished)
    (hfault : fault.cause ≠ .malformed .unexpectedRightParen) :
    ofTokens (opening :: (b ++ [closing])) = .error fault := by
  obtain ⟨s, hs, hinside⟩ := inside_of_opening hopening
  obtain hrun | ⟨m, -, hfinish⟩ := ofTokens_eq_error_iff_run.mp hb
  · have hrun' : s.run b = .error fault :=
      hinside.run_eq_error hrun (fun _ => rfl) fun h => absurd h hfault
    refine ofTokens_eq_error_iff_run.mpr (.inl ?_)
    rw [Stack.run_cons, hs]
    exact Stack.run_append_eq_error hrun' [closing]
  · exact absurd (Stack.unfinished_of_finish hfinish) hend

/-! ### In a context -/

/-- **Tokens are read by themselves.** Behind tokens with the tree `A`, tokens with the tree `B`
add the children of `B` to those of `A`, and tokens with a fault have the same fault at the
same place, unless an operator missed its left operand. Between parentheses, tokens with the
tree `A` are the group of `A`, and tokens with a fault have the same fault at the same place,
unless they ended too early or had a closing parenthesis too many. -/
theorem ofTokens_in_context :
    (∀ a b A, ofTokens a = .ok A →
      (∀ B, ofTokens b = .ok B → ofTokens (a ++ b) = .ok ⟨A.children ++ B.children⟩) ∧
      ∀ fault, ofTokens b = .error fault → fault.cause ≠ .malformed .missingLeftOperand →
        ofTokens (a ++ b) = .error fault) ∧
    ∀ opening closing : Token, opening.kind = .leftParen → closing.kind = .rightParen →
      (∀ a A, ofTokens a = .ok A →
        ofTokens (opening :: (a ++ [closing])) = .ok ⟨[.group A.children]⟩) ∧
      ∀ b fault, ofTokens b = .error fault →
        fault.cause ≠ .malformed .unexpectedEndOfInput →
        fault.cause ≠ .malformed .unexpectedRightParen →
        fault.cause ≠ .malformed .missingClosingParen →
        ofTokens (opening :: (b ++ [closing])) = .error fault := by
  refine ⟨fun a b A ha => ⟨fun B hb => ?_, fun fault hb hfault => ?_⟩, ?_⟩
  · exact ofTokens_append_eq_ok ha hb
  · exact ofTokens_behind_eq_error ha hb hfault
  intro opening closing hopening hclosing
  refine ⟨fun a A ha => ?_, fun b fault hb hend hright hmissing => ?_⟩
  · exact ofTokens_group_eq_ok hopening hclosing ha
  · have hfinished : ¬ fault.cause.Unfinished := not_or.mpr ⟨hend, hmissing⟩
    exact ofTokens_group_eq_error hopening hb hfinished hright

/-- Two operators take both operands of their own tokens and none before them; where they miss
one inside parentheses, nothing around these helps. -/
theorem ofTokens_in_context_two_operators :
    ofTokens ((Scan.ofSource "1 2").tokens ++ (Scan.ofSource "3 4 + % 5").tokens)
      = .ok ⟨[.integer 1, .integer 2,
          .binary (.integer 4) .add (.binary (.integer 3) .modulo (.integer 5))]⟩ ∧
    ofTokens ((Scan.ofSource "1 2").tokens ++ (Scan.ofSource "3 + )").tokens)
      = .error (.malformed .unexpectedRightParen ⟨4, 0, 4⟩) ∧
    ofTokens (⟨.leftParen, .start, none⟩ ::
        ((Scan.ofSource "1 2").tokens ++ [⟨.rightParen, .start, none⟩]))
      = .ok ⟨[.group [.integer 1, .integer 2]]⟩ ∧
    ofTokens (⟨.leftParen, .start, none⟩ ::
        ((Scan.ofSource "1 + + 2").tokens ++ [⟨.rightParen, .start, none⟩]))
      = .error (.malformed .missingLeftOperand ⟨4, 0, 4⟩) := by
  have hfront : ofTokens (Scan.ofSource "1 2").tokens = .ok ⟨[.integer 1, .integer 2]⟩ :=
    ofTokens_eq_ok_iff_run.mpr rfl
  have hback : ofTokens (Scan.ofSource "3 4 + % 5").tokens = .ok
      ⟨[.binary (.integer 4) .add (.binary (.integer 3) .modulo (.integer 5))]⟩ :=
    ofTokens_eq_ok_iff_run.mpr rfl
  have hclosed : ofTokens (Scan.ofSource "3 + )").tokens
      = .error (.malformed .unexpectedRightParen ⟨4, 0, 4⟩) :=
    ofTokens_eq_error_iff_run.mpr (.inl rfl)
  have hmissing : ofTokens (Scan.ofSource "1 + + 2").tokens
      = .error (.malformed .missingLeftOperand ⟨4, 0, 4⟩) :=
    ofTokens_eq_error_iff_run.mpr (.inl rfl)
  obtain ⟨hbehind, hbetween⟩ := ofTokens_in_context
  refine ⟨(hbehind _ _ _ hfront).1 _ hback, ?_, ?_, ?_⟩
  · exact (hbehind _ _ _ hfront).2 _ hclosed (by decide)
  · exact (hbetween _ _ rfl rfl).1 _ _ hfront
  · exact (hbetween _ _ rfl rfl).2 _ _ hmissing (by decide) (by decide) (by decide)

end Block

end ArithTree
