import ArithTree.Proofs.Blame

/-!
# Readings in lockstep

Reading tokens looks at their pieces only. A place is kept for the time when a fault needs
one, and nothing is decided by it. So two lists of tokens that are the same pieces, one by
one, are read in the same way (`Block.ofTokens_lockstep`): both as the same tree, or both with
a fault of the same cause, and if the fault has a place, then a token of the one list and its
partner in the other are to blame.

The proof is a lockstep simulation. Two states of the one pass that differ in places only
(`Stack.Alike`) take the same steps and refuse the same tokens, and what they differ in stays
a pair of partners: an open parenthesis is remembered by the place of the token that opened
it.
-/

namespace ArithTree

/-- **Two readings agree**: both give the same tree, or both fail for the same cause, and the
places of the two faults are related by `P`, unless there are none. -/
inductive Block.Agree (P : Cause → Position → Position → Prop) :
    Except Fault Block → Except Fault Block → Prop
  | ok (block : Block) : Agree P (.ok block) (.ok block)
  | atEnd (cause : Cause) : Agree P (.error ⟨cause, none⟩) (.error ⟨cause, none⟩)
  | located {cause : Cause} {place place' : Position} (h : P cause place place') :
      Agree P (.error ⟨cause, some place⟩) (.error ⟨cause, some place'⟩)

theorem Block.Agree.mono {P Q : Cause → Position → Position → Prop}
    {r r' : Except Fault Block} (h : Agree P r r')
    (himp : ∀ cause place place', P cause place place' → Q cause place place') :
    Agree Q r r' := by
  cases h with
  | ok block => exact .ok block
  | atEnd cause => exact .atEnd cause
  | located h => exact .located (himp _ _ _ h)

/-- **Partners** are the same piece. -/
def Token.Partners (R : Token → Token → Prop) : Prop :=
  ∀ t t', R t t' → ∃ x, t.piece? = some x ∧ t'.piece? = some x

/-- The places of two partners that are to blame for the same fault. -/
def Token.BothBlamed (R : Token → Token → Prop) (cause : Cause) (place place' : Position) :
    Prop :=
  ∃ t t', R t t' ∧ t.Blamed cause ∧ place = t.position ∧ place' = t'.position

namespace Stack

variable {R : Token → Token → Prop} {s s' m : Stack} {t t' : Token} {ts ts' : List Token}
  {cause : Cause}

/-- Two open blocks with the same content, opened by partners. -/
def SameBlock (R : Token → Token → Prop) (q q' : Position × Frame) : Prop :=
  q.2 = q'.2 ∧ Token.BothBlamed R (.malformed .missingClosingParen) q.1 q'.1

/-- **Two states that differ in places only**, and in these as partners do. -/
structure Alike (R : Token → Token → Prop) (s s' : Stack) : Prop where
  top : s.top = s'.top
  outer : List.Forall₂ (SameBlock R) s.outer s'.outer

theorem Alike.start : Alike R start start := ⟨rfl, .nil⟩

/-- **The same steps**, and the states stay alike. -/
theorem Alike.step (hR : Token.Partners R) (hs : Alike R s s') (ht : R t t')
    (hstep : Step t s m) : ∃ m', Step t' s' m' ∧ Alike R m m' := by
  obtain ⟨x, hx, hx'⟩ := hR t t' ht
  obtain ⟨top', outer'⟩ := s'
  obtain ⟨htop, houter⟩ := hs
  cases hstep with
  | literal h =>
    obtain rfl := Option.some.inj (h.symm.trans hx)
    cases htop
    exact ⟨_, .literal hx', rfl, houter⟩
  | operator h =>
    obtain rfl := Option.some.inj (h.symm.trans hx)
    cases htop
    exact ⟨_, .operator hx', rfl, houter⟩
  | opening h =>
    -- the partners are remembered by their places
    obtain rfl := Option.some.inj (h.symm.trans hx)
    cases htop
    exact ⟨_, .opening hx', rfl, .cons ⟨rfl, t, t', ht, .opening hx, rfl, rfl⟩ houter⟩
  | closing h =>
    obtain rfl := Option.some.inj (h.symm.trans hx)
    cases htop
    -- a parenthesis is open on the one side, so one is on the other
    cases houter with
    | @cons _ block' _ outer' hblock houter =>
      obtain ⟨place', around'⟩ := block'
      obtain ⟨rfl, -⟩ := hblock
      exact ⟨_, .closing hx', rfl, houter⟩

/-- **The same refusals**, for a fault that both tokens are to blame for. -/
theorem Alike.refuses (hR : Token.Partners R) (hs : Alike R s s') (ht : R t t')
    (h : Refuses t s cause) : Refuses t' s' cause ∧ t.Blamed cause := by
  obtain ⟨x, hx, hx'⟩ := hR t t' ht
  obtain ⟨top', outer'⟩ := s'
  obtain ⟨htop, houter⟩ := hs
  cases h with
  | token h =>
    -- partners are pieces, and a piece is not refused for its own sake
    rw [hx] at h
    cases h
  | operator h =>
    obtain rfl := Option.some.inj (h.symm.trans hx)
    cases htop
    exact ⟨.operator hx', .operator hx⟩
  | closing h hopen =>
    obtain rfl := Option.some.inj (h.symm.trans hx)
    cases htop
    refine ⟨.closing hx' fun hpending => ?_, .closing hx⟩
    -- where the one side has nothing open, the other has nothing, either
    have hnil := hopen hpending
    subst hnil
    cases houter
    rfl

/-- **The same end.** -/
theorem Alike.finish (hs : Alike R s s') :
    Block.Agree (Token.BothBlamed R) s.finish s'.finish := by
  obtain ⟨⟨children, pending⟩, outer⟩ := s
  obtain ⟨top', outer'⟩ := s'
  obtain ⟨htop, houter⟩ := hs
  cases htop
  -- an operator that waits comes first, and then the innermost open parenthesis
  cases pending with
  | cons waiting pending => exact .atEnd _
  | nil =>
    cases houter with
    | nil => exact .ok _
    | cons hblock houter => exact .located hblock.2

/-- **The same outcome.** A token that the one state refuses is where the other one fails,
too. -/
theorem Alike.read (hR : Token.Partners R) (hs : Alike R s s') (hts : List.Forall₂ R ts ts') :
    Block.Agree (Token.BothBlamed R) (s.read ts) (s'.read ts') := by
  induction hts generalizing s s' with
  | nil => exact hs.finish
  | @cons t t' ts ts' ht _ ih =>
    rw [read_cons, read_cons]
    cases hstep : s.step t with
    | ok m =>
      obtain ⟨m', hstep', hm⟩ := hs.step hR ht (step_eq_ok_iff.mp hstep)
      rw [step_eq_ok_iff.mpr hstep']
      exact ih hm
    | error fault =>
      obtain ⟨cause, location⟩ := fault
      obtain ⟨hrefuses, hlocation⟩ := step_eq_error_iff.mp hstep
      obtain ⟨hrefuses', hblamed⟩ := hs.refuses hR ht hrefuses
      have hstep' : s'.step t' = .error ⟨cause, some t'.position⟩ :=
        step_eq_error_iff.mpr ⟨hrefuses', rfl⟩
      cases hlocation
      rw [hstep']
      exact .located ⟨t, t', ht, hblamed, rfl, rfl⟩

end Stack

/-- **Tokens that are the same pieces are read in lockstep.** -/
theorem Block.ofTokens_lockstep {R : Token → Token → Prop} (hR : Token.Partners R)
    {ts ts' : List Token} (hts : List.Forall₂ R ts ts') :
    Agree (Token.BothBlamed R) (ofTokens ts) (ofTokens ts') := by
  rw [ofTokens_eq_onePass, ofTokens_eq_onePass]
  exact Stack.Alike.start.read hR hts

end ArithTree
