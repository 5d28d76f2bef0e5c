import ArithTree.Proofs.Munch

/-!
# What a fault points at

A fault of a source text that has a place points at a lexeme of the text
(`Block.exists_lexeme_of_fault`): an integer out of range at its run of digits, and
every other fault at a character that ends no line.

Faults of the spelling belong to the lexeme that is refused. Faults of the structure
belong to a token: an operator without a left operand, a closing parenthesis that
answers nothing, or an opening parenthesis that stays open (`Token.Blamed`). The
last one was met long before the tokens ended, so the one pass has to remember it:
`Stack.openings` are the places that it holds, and `Stack.exists_opening_of_run` says
that each of them is the place of an opening parenthesis that was read.
-/

namespace ArithTree

/-! ### Faults of the structure -/

/-- **The token that is to blame** for a fault in the structure of a text. -/
inductive Token.Blamed (t : Token) : Cause → Prop
  | operator {o : Operator} (h : t.piece? = some (.operator o)) :
      Blamed t (.malformed .missingLeftOperand)
  | closing (h : t.piece? = some .closing) : Blamed t (.malformed .unexpectedRightParen)
  | opening (h : t.piece? = some .opening) : Blamed t (.malformed .missingClosingParen)

namespace Stack

variable {s s' : Stack} {t : Token} {tokens : List Token} {place : Position} {cause : Cause}

/-- The places of the parentheses that are open, the innermost first. -/
def openings (s : Stack) : List Position := s.outer.map Prod.fst

/-- **What a step does to the open parentheses.** -/
theorem Step.openings_cases (h : Step t s s') :
    s'.openings = s.openings ∨
    (t.piece? = some .opening ∧ s'.openings = t.position :: s.openings) ∨
    (t.piece? = some .closing ∧ ∃ place, s.openings = place :: s'.openings) := by
  cases h with
  | literal h | operator h => exact .inl rfl
  | opening h => exact .inr (.inl ⟨h, rfl⟩)
  | closing h => exact .inr (.inr ⟨h, _, rfl⟩)

/-- A parenthesis that is open after a run was open before or is among its
tokens. -/
theorem exists_opening_of_run (hrun : s.run tokens = .ok s') (hplace : place ∈ s'.openings) :
    place ∈ s.openings ∨ ∃ t ∈ tokens, t.position = place ∧ t.piece? = some .opening := by
  induction tokens generalizing s with
  | nil =>
    cases hrun
    exact .inl hplace
  | cons t tokens ih =>
    obtain ⟨m, hstep, hrun⟩ := run_cons_eq_ok_iff.mp hrun
    obtain hm | ⟨t', ht', hposition, hpiece⟩ := ih hrun
    · obtain heq | ⟨hpiece, heq⟩ | ⟨-, place', heq⟩ := hstep.openings_cases
      · exact .inl (heq ▸ hm)
      · rw [heq, List.mem_cons] at hm
        obtain rfl | hm := hm
        · exact .inr ⟨t, List.mem_cons_self, rfl, hpiece⟩
        · exact .inl hm
      · exact .inl (heq ▸ List.mem_cons_of_mem place' hm)
    · exact .inr ⟨t', List.mem_cons_of_mem t ht', hposition, hpiece⟩

end Stack

namespace Block

variable {tokens : List Token} {place : Position} {cause : Cause} {source : String}

/-- **Among tokens that all are pieces** a fault with a place points at the one that is
to blame. -/
theorem exists_blamed (hpieces : ∀ t ∈ tokens, ∃ x, t.piece? = some x)
    (h : ofTokens tokens = .error ⟨cause, some place⟩) :
    ∃ t ∈ tokens, t.position = place ∧ t.Blamed cause := by
  obtain hrun | ⟨s, hrun, hfinish⟩ := ofTokens_eq_error_iff_run.mp h
  · obtain ⟨front, t, back, m, rfl, -, hstep⟩ := Stack.run_eq_error_iff.mp hrun
    obtain ⟨hrefuses, hlocation⟩ := Stack.step_eq_error_iff.mp hstep
    have hmem : t ∈ front ++ t :: back := by simp
    refine ⟨t, hmem, (Option.some.inj hlocation).symm, ?_⟩
    change Stack.Refuses t m cause at hrefuses
    cases hrefuses with
    | token hpiece =>
      obtain ⟨x, hx⟩ := hpieces t hmem
      rw [hpiece] at hx
      cases hx
    | operator hpiece => exact .operator hpiece
    | closing hpiece => exact .closing hpiece
  · obtain ⟨-, hfault⟩ | ⟨-, opening, around, outer, houter, hfault⟩ :=
      Stack.finish_eq_error_iff.mp hfinish
    · cases hfault
    · cases hfault
      -- the innermost open parenthesis was read at some time
      have hopen : place ∈ s.openings := by simp [Stack.openings, houter]
      obtain hstart | ⟨t, ht, hposition, hpiece⟩ := Stack.exists_opening_of_run hrun hopen
      · cases hstart
      · exact ⟨t, ht, hposition, .opening hpiece⟩

end Block

/-! ### Faults of a source text -/

namespace Lexeme

variable {x : Lexeme} {cs : List Char} {i : Nat} {t : Token} {cause : Cause}

/-- **The lexemes that faults point at.** -/
inductive PointedAt : Lexeme → Cause → Prop
  | run {ds : List Char} :
      PointedAt (.number ds) (.malformed (.integerOutOfRange (String.ofList ds)))
  | mark {c : Char} {cause : Cause} (hc : ¬ Text.isLineBreak c)
      (hcause : ∀ digits, cause ≠ .malformed (.integerOutOfRange digits)) :
      PointedAt (.mark c) cause

theorem isBlank_of_isLineBreak {c : Char} (hc : Text.isLineBreak c) : isBlank c := by
  simp only [Text.isLineBreak, Bool.or_eq_true, beq_iff_eq] at hc
  exact isBlank_iff.mpr (.inr hc)

theorem not_isLineBreak_of_not_isMark {c : Char} (hc : ¬ IsMark c) : ¬ Text.isLineBreak c :=
  fun hbreak => hc (.inl (isBlank_of_isLineBreak hbreak))

theorem Faulty.pointedAt (h : x.Faulty cause) : x.PointedAt cause := by
  cases x with
  | number ds =>
    cases h with
    | outOfRange h => exact .run
  | mark c =>
    refine .mark (not_isLineBreak_of_not_isMark h.not_isMark) ?_
    cases h with
    | identifier | stringLiteral | bracket | unrecognized => exact nofun

/-- The token of a lexeme is a piece. -/
theorem Denotes.exists_piece (h : x.Denotes t.kind t.value) : ∃ y, t.piece? = some y := by
  obtain ⟨kind, position, value⟩ := t
  cases h with
  | integer h => exact ⟨_, rfl⟩
  | operator o => exact ⟨.operator o, by simp [Token.piece?]⟩
  | opening | closing => exact ⟨_, rfl⟩

/-- A token that is to blame is no integer, and none of the others is a line
break. -/
theorem Denotes.pointedAt (h : x.Denotes t.kind t.value) (ht : t.Blamed cause) :
    x.PointedAt cause := by
  obtain ⟨kind, position, value⟩ := t
  have hcause : ∀ digits, cause ≠ .malformed (.integerOutOfRange digits) := by
    cases ht with
    | operator | closing | opening => exact nofun
  cases h with
  | integer h => cases ht with | operator hp | closing hp | opening hp => cases hp
  | operator o => exact .mark (by cases o <;> decide) hcause
  | opening | closing => exact .mark (by decide) hcause

end Lexeme

open Lexeme (At anchorAt)

/-- A fault of a source text is one of its spelling, or one of its structure. -/
theorem Block.ofSource_eq_error_iff {source : String} {fault : Fault} :
    ofSource source = .error fault ↔ tokenize source = .error fault ∨
      ∃ tokens, tokenize source = .ok tokens ∧ ofTokens tokens = .error fault := by
  unfold ofSource
  cases tokenize source <;> simp [bind, Except.bind]

/-- **A fault with a place points at a lexeme**, and its place is the one that the
lexeme is known by. -/
theorem Block.exists_lexeme_of_fault {source : String} {cause : Cause} {place : Position}
    (h : ofSource source = .error ⟨cause, some place⟩) :
    ∃ i x, At source.toList i x ∧ x.PointedAt cause ∧
      place = anchorAt .start source.toList i x := by
  obtain htokens | ⟨tokens, htokens, h⟩ := ofSource_eq_error_iff.mp h
  · obtain ⟨i, x, hx, hreading, hlocation, -⟩ :=
      Scan.exists_of_fault (Scan.result_eq_error_iff.mp htokens)
    have hfaulty : x.Faulty cause := hx.reading_eq_refused_iff.mp hreading
    exact ⟨i, x, hx, hfaulty.pointedAt, Option.some.inj hlocation⟩
  · have hpieces : ∀ t ∈ tokens, ∃ y, t.piece? = some y := by
      intro t ht
      obtain ⟨i, x, -, hdenotes, -⟩ := exists_denotes_of_mem htokens ht
      exact hdenotes.exists_piece
    obtain ⟨t, ht, rfl, hblamed⟩ := exists_blamed hpieces h
    obtain ⟨i, x, hx, hdenotes, hposition⟩ := exists_denotes_of_mem htokens ht
    exact ⟨i, x, hx, hdenotes.pointedAt hblamed, hposition⟩

end ArithTree
