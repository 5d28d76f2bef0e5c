import ArithTree.Proofs.OnePass
import ArithTree.Token.Scan

/-!
# Prefixes of readable tokens

Reading stops at the first fault, and there are two kinds of faults. Either the
tokens ended too early (`Cause.Unfinished`), or one of them can not stand where it
stands. `Block.ofTokens_prefix_viable` says that the kind tells what the tokens can
still become:

* tokens that only ended too early can be completed to tokens that are read as a
  tree;
* every other fault stays what it is, at its place, whatever tokens follow.

So every prefix of readable tokens is readable or ends too early.

Both halves come from the one pass. A fault at a token is met before anything
behind it was looked at (`Stack.run_append_eq_error`). At the end of the tokens the
one pass is left with a state, and every state can be completed
(`Stack.run_completion`): one operand serves all operators that wait in the
innermost block, and then each open block takes a closing parenthesis.
-/

namespace ArithTree

/-- The input ended where something was still to come. -/
def Cause.Unfinished (cause : Cause) : Prop :=
  cause = .malformed .unexpectedEndOfInput ∨ cause = .malformed .missingClosingParen

theorem Token.refusal_not_unfinished (t : Token) : ¬ t.refusal.cause.Unfinished := by
  unfold Token.refusal
  split <;> simp [Cause.Unfinished, Fault.unimplemented, Fault.malformed]

namespace Stack

variable {s : Stack} {t : Token} {tokens : List Token} {fault : Fault}

/-! ### Faults at a token -/

/-- No token is refused because the input ended. -/
theorem Refuses.not_unfinished {cause : Cause} (h : Refuses t s cause) : ¬ cause.Unfinished := by
  cases h with
  | token h => exact t.refusal_not_unfinished
  | operator h | closing h => simp [Cause.Unfinished]

theorem not_unfinished_of_run (h : s.run tokens = .error fault) : ¬ fault.cause.Unfinished := by
  obtain ⟨front, t, back, m, -, -, hstep⟩ := run_eq_error_iff.mp h
  exact (step_eq_error_iff.mp hstep).1.not_unfinished

/-- What follows a fault is not looked at. -/
theorem run_append_eq_error (h : s.run tokens = .error fault) (more : List Token) :
    s.run (tokens ++ more) = .error fault := by
  rw [run_append, h]
  rfl

/-! ### Faults at the end -/

theorem unfinished_of_finish (h : s.finish = .error fault) : fault.cause.Unfinished := by
  obtain ⟨-, rfl⟩ | ⟨-, opening, around, outer, -, rfl⟩ := finish_eq_error_iff.mp h
  · exact .inl rfl
  · exact .inr rfl

/-- Tokens that close `depth` blocks. -/
def closings (depth : Nat) : List Token :=
  List.replicate depth ⟨.rightParen, .start, none⟩

/-- **What completes a state**: an operand for the operators that wait, and a
closing parenthesis for every block that is open. -/
def completion (s : Stack) : List Token :=
  ⟨.integer, .start, some (.integer 0)⟩ :: closings s.outer.length

/-- Blocks without waiting operators close one after the other. A block that was
closed is an operand of the block around it, so there no operator waits either. -/
theorem run_closings (children : List Node) (outer : List (Position × Frame)) :
    ∃ root, run ⟨⟨children, []⟩, outer⟩ (closings outer.length) = .ok ⟨⟨root, []⟩, []⟩ := by
  induction outer generalizing children with
  | nil => exact ⟨children, rfl⟩
  | cons block outer ih =>
    obtain ⟨opening, around⟩ := block
    obtain ⟨root, hroot⟩ :=
      ih (Node.nest around.pending (.group children.reverse) :: around.children)
    exact ⟨root, run_cons_eq_ok_iff.mpr ⟨_, .closing rfl, hroot⟩⟩

/-- **Every state can be completed.** -/
theorem run_completion (s : Stack) :
    ∃ root, s.run s.completion = .ok ⟨⟨root, []⟩, []⟩ := by
  obtain ⟨top, outer⟩ := s
  have hoperand : Step ⟨.integer, .start, some (.integer 0)⟩ ⟨top, outer⟩
      ⟨top.push (.literal (.integer 0)), outer⟩ := .literal rfl
  obtain ⟨root, hroot⟩ := run_closings (top.push (.literal (.integer 0))).children outer
  exact ⟨root, run_cons_eq_ok_iff.mpr ⟨_, hoperand, hroot⟩⟩

end Stack

namespace Block

variable {tokens more : List Token} {fault : Fault}

theorem ofTokens_append_eq_error (h : ofTokens tokens = .error fault)
    (hfault : ¬ fault.cause.Unfinished) : ofTokens (tokens ++ more) = .error fault := by
  obtain hrun | ⟨s, -, hfinish⟩ := ofTokens_eq_error_iff_run.mp h
  · exact ofTokens_eq_error_iff_run.mpr (.inl (Stack.run_append_eq_error hrun more))
  · exact absurd (Stack.unfinished_of_finish hfinish) hfault

theorem exists_ofTokens_append (h : ofTokens tokens = .error fault)
    (hfault : fault.cause.Unfinished) :
    ∃ more block, ofTokens (tokens ++ more) = .ok block := by
  obtain hrun | ⟨s, hrun, -⟩ := ofTokens_eq_error_iff_run.mp h
  · exact absurd hfault (Stack.not_unfinished_of_run hrun)
  · -- all tokens were read, so the state after them is completed
    obtain ⟨root, hroot⟩ := s.run_completion
    refine ⟨s.completion, ⟨root.reverse⟩, ofTokens_eq_ok_iff_run.mpr ?_⟩
    rw [Stack.run_append, hrun, List.reverse_reverse]
    exact hroot

/-- **The viable prefix property.** Tokens that ended too early can be completed
to tokens that are read as a tree, and every other fault stays the same at the
same place whatever follows. Hence a prefix of readable tokens is readable or ended
too early. -/
theorem ofTokens_prefix_viable :
    (∀ tokens fault, ofTokens tokens = .error fault →
      (fault.cause.Unfinished → ∃ more block, ofTokens (tokens ++ more) = .ok block) ∧
      (¬ fault.cause.Unfinished → ∀ more, ofTokens (tokens ++ more) = .error fault)) ∧
    ∀ front back block, ofTokens (front ++ back) = .ok block →
      (∃ block, ofTokens front = .ok block) ∨
        ∃ fault, ofTokens front = .error fault ∧ fault.cause.Unfinished := by
  refine ⟨fun tokens fault h => ⟨exists_ofTokens_append h, ?_⟩, ?_⟩
  · exact fun hfault more => ofTokens_append_eq_error h hfault
  · intro front back block h
    cases hfront : ofTokens front with
    | ok block => exact .inl ⟨block, rfl⟩
    | error fault =>
      by_cases hfault : fault.cause.Unfinished
      · exact .inr ⟨fault, rfl, hfault⟩
      · -- the fault would stay when the rest of the tokens follows
        rw [ofTokens_append_eq_error hfront hfault] at h
        cases h

/-- Inside a group an operator waits: the tokens can be completed. With a closing
parenthesis in its place they can not. -/
theorem ofTokens_prefix_viable_waiting_operator :
    (∃ more block, ofTokens ((Scan.ofSource "(1 2 + %").tokens ++ more) = .ok block) ∧
    (∀ more, ofTokens ((Scan.ofSource "(1 2 + )").tokens ++ more)
      = .error (.malformed .unexpectedRightParen ⟨7, 0, 7⟩)) ∧
    ((∃ block, ofTokens (Scan.ofSource "(1 2 + %").tokens = .ok block) ∨
      ∃ fault, ofTokens (Scan.ofSource "(1 2 + %").tokens = .error fault ∧
        fault.cause.Unfinished) := by
  have hwaiting : ofTokens (Scan.ofSource "(1 2 + %").tokens
      = .error (.atEnd .unexpectedEndOfInput) :=
    ofTokens_eq_error_iff_run.mpr (.inr ⟨_, rfl, rfl⟩)
  have hclosed : ofTokens (Scan.ofSource "(1 2 + )").tokens
      = .error (.malformed .unexpectedRightParen ⟨7, 0, 7⟩) :=
    ofTokens_eq_error_iff_run.mpr (.inl rfl)
  obtain ⟨more, block, hmore⟩ :=
    (ofTokens_prefix_viable.1 _ _ hwaiting).1 (.inl rfl)
  refine ⟨⟨more, block, hmore⟩, ?_, ofTokens_prefix_viable.2 _ _ _ hmore⟩
  exact (ofTokens_prefix_viable.1 _ _ hclosed).2 (by simp [Cause.Unfinished, Fault.malformed])

end Block

end ArithTree
