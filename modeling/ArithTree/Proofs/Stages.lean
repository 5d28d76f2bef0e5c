import ArithTree.Proofs.Blame
import ArithTree.Proofs.Bodies

/-!
# The two stages and their faults

A text is first scanned and then read as a tree. If the scan fails, its fault is the fault of
the text. If it does not, the fault is one in the structure of the text, and
`Block.ofSource_fault_stages` says which faults there are and where in the text they point
(`Misplaced`).

What stands in the text is followed along the one pass, one lexeme after the other
(`Stack.Follows`). The parentheses that the pass holds open are those of the text that stay
open so far, in their order (`OpenIn`), and if an operator waits, then the text ends in one so
far (`EndsInOperator`). A step of the pass keeps both (`Stack.Follows.step`), so they hold at
the end of the text, which is where the faults without a token of their own are found.
-/

namespace ArithTree

open Piece (Nested Balanced)

/-! ### The parentheses of a text -/

/-- The parenthesis that a character is, if it is one. -/
def parenthesis? (c : Char) : Option Piece :=
  if c = '(' then some .opening else if c = ')' then some .closing else none

/-- The parentheses of a text. -/
def parentheses (cs : List Char) : List Piece := cs.filterMap parenthesis?

/-- **An opening parenthesis in front of `back` is answered**: there is a closing one with a
text in between that opens and closes parentheses evenly. -/
def Answered (back : List Char) : Prop :=
  ∃ inside rest, back = inside ++ ')' :: rest ∧ Balanced (parentheses inside)

variable {cs ds front back : List Char} {place : Position} {places : List Position}

theorem parenthesis?_eq_closing_iff {c : Char} : parenthesis? c = some .closing ↔ c = ')' := by
  unfold parenthesis?
  split
  · next h => simp [h]
  · simp

theorem parenthesis?_of_isDigit {c : Char} (hc : c.isDigit) : parenthesis? c = none := by
  unfold parenthesis?
  split
  · next h => subst h; cases hc
  split
  · next h => subst h; cases hc
  · rfl

theorem parenthesis?_of_isBlank {c : Char} (hc : isBlank c) : parenthesis? c = none := by
  obtain rfl | rfl | rfl := isBlank_iff.mp hc
  all_goals rfl

theorem parenthesis?_symbol (o : Operator) : parenthesis? o.symbol = none := by
  cases o <;> rfl

theorem parentheses_append (cs ds : List Char) :
    parentheses (cs ++ ds) = parentheses cs ++ parentheses ds :=
  List.filterMap_append

theorem parentheses_cons_opening (cs : List Char) :
    parentheses ('(' :: cs) = .opening :: parentheses cs := rfl

theorem parentheses_cons_closing (cs : List Char) :
    parentheses (')' :: cs) = .closing :: parentheses cs := rfl

theorem parentheses_eq_nil (h : ∀ c ∈ cs, parenthesis? c = none) : parentheses cs = [] :=
  List.filterMap_eq_nil_iff.mpr h

/-- In a nested run every opening parenthesis is answered. -/
theorem Piece.Nested.exists_answer {front back : List Piece}
    (h : Nested (front ++ .opening :: back)) :
    ∃ body rest, Nested body ∧ back = body ++ .closing :: rest := by
  obtain ⟨hle, heq⟩ := h.balanced
  have hfront : front.count .closing ≤ front.count .opening :=
    hle front (List.prefix_append _ _)
  -- what follows the parenthesis closes it and whatever is still open in front of it
  have hback : ∀ start, start <+: back → start.count .closing
      ≤ start.count .opening + (front.count .opening + 1 - front.count .closing) := by
    intro start hstart
    have hprefix : front ++ .opening :: start <+: front ++ .opening :: back :=
      (List.prefix_append_right_inj _).mpr (List.cons_prefix_cons.mpr ⟨rfl, hstart⟩)
    have hcount := hle _ hprefix
    simp at hcount
    omega
  have hclosed : back.count .closing
      = back.count .opening + (front.count .opening + 1 - front.count .closing) := by
    simp at heq
    omega
  obtain ⟨body, others, hlength, hbody, -, rfl⟩ := Piece.exists_nested _ hback hclosed
  cases others with
  | nil =>
    simp at hlength
    omega
  | cons other others => exact ⟨body, _, hbody, rfl⟩

theorem not_answered_of_nested (h : Nested (parentheses back)) : ¬ Answered back := by
  rintro ⟨inside, rest, rfl, hinside⟩
  have heq := hinside.closings_eq
  have hprefix : parentheses inside ++ [.closing] <+: parentheses (inside ++ ')' :: rest) := by
    rw [parentheses_append, parentheses_cons_closing]
    exact ⟨parentheses rest, by simp⟩
  -- up to the answer more parentheses are closed than opened
  have hle := h.balanced.closings_le _ hprefix
  simp at hle
  omega

theorem answered_of_nested (h : Nested (parentheses (front ++ '(' :: back))) : Answered back := by
  rw [parentheses_append, parentheses_cons_opening] at h
  obtain ⟨body, others, hbody, heq⟩ := h.exists_answer
  -- the text falls apart where its parentheses do
  obtain ⟨inside, tail, rfl, rfl, htail⟩ := List.filterMap_eq_append_iff.mp heq
  obtain ⟨more, c, rest, rfl, hmore, hc, -⟩ := List.filterMap_eq_cons_iff.mp htail
  obtain rfl := parenthesis?_eq_closing_iff.mp hc
  refine ⟨inside ++ more, rest, (List.append_assoc _ _ _).symm, ?_⟩
  rw [parentheses_append, parentheses_eq_nil hmore, List.append_nil]
  exact hbody.balanced

/-- **The parentheses of a text that stay open**, by their places, the last one first. -/
inductive OpenIn : List Char → List Position → Prop
  | nil {cs : List Char} (h : Nested (parentheses cs)) : OpenIn cs []
  | cons {front back : List Char} {places : List Position} (hfront : OpenIn front places)
      (hback : Nested (parentheses back)) :
      OpenIn (front ++ '(' :: back) (Position.start.advance front :: places)

namespace OpenIn

/-- A text with all its parentheses answered opens none. -/
theorem append (h : OpenIn cs places) (hds : Nested (parentheses ds)) :
    OpenIn (cs ++ ds) places := by
  cases h with
  | nil h =>
    refine .nil ?_
    rw [parentheses_append]
    exact h.append hds
  | cons hfront hback =>
    -- what is added goes behind the last open parenthesis, and nests there
    rw [List.append_assoc, List.cons_append]
    refine .cons hfront ?_
    rw [parentheses_append]
    exact hback.append hds

theorem append_plain (h : OpenIn cs places) (hds : ∀ c ∈ ds, parenthesis? c = none) :
    OpenIn (cs ++ ds) places := by
  refine h.append ?_
  rw [parentheses_eq_nil hds]
  exact .nil

theorem opening (h : OpenIn cs places) :
    OpenIn (cs ++ ['(']) (Position.start.advance cs :: places) :=
  .cons h .nil

/-- A closing parenthesis answers the last one that is open. -/
theorem closing (h : OpenIn cs (place :: places)) : OpenIn (cs ++ [')']) places := by
  cases h with
  | @cons front back _ hfront hback =>
    -- together with what it closes it is one group, behind the parentheses that stay open
    have hgroup : Nested (parentheses ('(' :: (back ++ [')']))) := by
      rw [parentheses_cons_opening, parentheses_append]
      exact .group hback .nil
    rw [List.append_assoc, List.cons_append]
    exact hfront.append hgroup

end OpenIn

/-! ### What a state says about the text -/

/-- **The last character of a text that is no blank is an operator.** -/
def EndsInOperator (cs : List Char) : Prop :=
  ∃ front, ∃ o : Operator, ∃ back, cs = front ++ o.symbol :: back ∧ ∀ c ∈ back, isBlank c

theorem EndsInOperator.blank {c : Char} (h : EndsInOperator cs) (hc : isBlank c) :
    EndsInOperator (cs ++ [c]) := by
  obtain ⟨front, o, back, rfl, hback⟩ := h
  refine ⟨front, o, back ++ [c], by simp, fun d hd => ?_⟩
  obtain hd | hd := List.mem_append.mp hd
  · exact hback d hd
  · exact List.mem_singleton.mp hd ▸ hc

/-- **The lexemes that tokens with a piece belong to.** -/
inductive Lexeme.Shows : Lexeme → Piece → Prop
  | number {ds : List Char} {value : Literal} : Shows (.number ds) (.literal value)
  | operator (o : Operator) : Shows (.mark o.symbol) (.operator o)
  | opening : Shows (.mark '(') .opening
  | closing : Shows (.mark ')') .closing

theorem Lexeme.Denotes.shows {x : Lexeme} {t : Token} {y : Piece}
    (h : x.Denotes t.kind t.value) (ht : t.piece? = some y) : x.Shows y := by
  obtain ⟨kind, position, value⟩ := t
  cases h with
  | integer h => cases ht; exact .number
  | operator o =>
    have hpiece : Token.piece? ⟨.operator, position, some (.symbol o.symbol)⟩
        = some (.operator o) := by simp [Token.piece?]
    cases hpiece.symm.trans ht
    exact .operator o
  | opening => cases ht; exact .opening
  | closing => cases ht; exact .closing

/-- What is read as nothing is a blank. -/
theorem Lexeme.exists_of_reading_blank {x : Lexeme} (h : x.reading = .blank) :
    ∃ c, x = .mark c ∧ isBlank c := by
  cases x with
  | number ds =>
    rw [reading, readNumber] at h
    split at h <;> cases h
  | mark c =>
    have hr : readMark c = .blank := h
    obtain ⟨hblank, -⟩ | ⟨o, -, hr'⟩ | ⟨-, hr'⟩ | ⟨-, hr'⟩ | ⟨cause, hr'⟩ := readMark_cases c
    · exact ⟨c, rfl, hblank⟩
    all_goals cases hr.symm.trans hr'

namespace Stack

variable {s s' : Stack} {t : Token} {x : Lexeme}

/-- **The state follows the text** that was read. -/
structure Follows (cs : List Char) (s : Stack) : Prop where
  /-- The open parentheses are those of the text. -/
  opened : OpenIn cs s.openings
  /-- An operator waits only at the end of the text. -/
  waiting : s.top.pending ≠ [] → EndsInOperator cs

theorem Follows.start : Follows [] start where
  opened := .nil .nil
  waiting h := absurd rfl h

/-- **Preservation by a blank**, which is read as nothing. -/
theorem Follows.blank {c : Char} (h : Follows cs s) (hc : isBlank c) : Follows (cs ++ [c]) s where
  opened := h.opened.append_plain (by simpa using parenthesis?_of_isBlank hc)
  waiting hpending := (h.waiting hpending).blank hc

/-- **Preservation by a token** at the lexeme that it is the token of. -/
theorem Follows.step (h : Follows cs s) (hx : Lexeme.Between front x back)
    (hdenotes : x.Denotes t.kind t.value)
    (hposition : t.position = x.anchor (Position.start.advance cs)
      (Position.start.advance (cs ++ x.chars)))
    (hstep : Step t s s') : Follows (cs ++ x.chars) s' := by
  cases hstep with
  | literal hpiece =>
    -- an operand ends the waiting, and no digit is a parenthesis
    cases hdenotes.shows hpiece with
    | number =>
      cases hx with
      | number hrun =>
        have hplain := fun d hd => parenthesis?_of_isDigit (hrun.digits d hd)
        exact ⟨h.opened.append_plain hplain, fun hpending => absurd rfl hpending⟩
  | operator hpiece =>
    cases hdenotes.shows hpiece with
    | operator =>
      -- the operator waits from here on, and the text ends in it
      refine ⟨h.opened.append_plain ?_, fun _ => ⟨cs, _, [], rfl, nofun⟩⟩
      exact fun d hd => List.mem_singleton.mp hd ▸ parenthesis?_symbol _
  | opening hpiece =>
    cases hdenotes.shows hpiece with
    | opening =>
      refine ⟨?_, fun hpending => absurd rfl hpending⟩
      have hopened := h.opened.opening
      rwa [openings, List.map_cons, hposition]
  | closing hpiece =>
    cases hdenotes.shows hpiece with
    | closing => exact ⟨h.opened.closing, fun hpending => absurd rfl hpending⟩

/-- **Preservation by a run** over the tokens of a text without a fault. -/
theorem Follows.run {rest : List Char} {tokens : List Token} (h : Follows cs s)
    (hscan : Scan.ofLexemes (Position.start.advance cs) (Lexeme.ofChars rest) = ⟨tokens, none⟩)
    (hrun : s.run tokens = .ok s') : Follows (cs ++ rest) s' := by
  induction rest using Lexeme.cut_induction generalizing cs s tokens with
  | nil =>
    cases hscan
    cases hrun
    rwa [List.append_nil]
  | cut x rest hx ih =>
    rw [← List.append_assoc]
    rw [Lexeme.ofChars_cut hx, Scan.ofLexemes, ← Position.advance_append] at hscan
    cases hreading : x.reading with
    | refused cause =>
      rw [hreading] at hscan
      cases hscan
    | blank =>
      -- the state stays, and the text gets longer
      rw [hreading] at hscan
      obtain ⟨c, rfl, hc⟩ := Lexeme.exists_of_reading_blank hreading
      exact ih (h.blank hc) hscan hrun
    | token kind value =>
      rw [hreading] at hscan
      obtain ⟨rfl, hfault⟩ := Scan.mk.inj hscan
      -- one step for the token, and the run behind it
      obtain ⟨m, hstep, hrun⟩ := run_cons_eq_ok_iff.mp hrun
      have hm : Follows (cs ++ x.chars) m :=
        h.step hx (Lexeme.reading_eq_token_iff.mp hreading) rfl hstep
      exact ih hm (congrArg (Scan.mk _) hfault) hrun

end Stack

/-! ### Where faults point -/

/-- **The faults in the structure of a text**, each with the place that it points at: the one
behind the part of the text in front of the character that is to blame. -/
inductive Misplaced (cs : List Char) : Fault → Prop
  /-- An operator. -/
  | operator {front back : List Char} {o : Operator} (h : cs = front ++ o.symbol :: back) :
      Misplaced cs (.malformed .missingLeftOperand (Position.start.advance front))
  /-- A closing parenthesis. -/
  | closing {front back : List Char} (h : cs = front ++ ')' :: back) :
      Misplaced cs (.malformed .unexpectedRightParen (Position.start.advance front))
  /-- The last opening parenthesis that is not answered. -/
  | opening {front back : List Char} (h : cs = front ++ '(' :: back) (hopen : ¬ Answered back)
      (hlast : ∀ inside rest, back = inside ++ '(' :: rest → Answered rest) :
      Misplaced cs (.malformed .missingClosingParen (Position.start.advance front))
  /-- No character, for the text ends in an operator. -/
  | ending (h : EndsInOperator cs) : Misplaced cs (.atEnd .unexpectedEndOfInput)

namespace Misplaced

variable {fault : Fault}

/-- Only the end of the text is no place in it. -/
theorem location_eq_none_iff (h : Misplaced cs fault) :
    fault.location = none ↔ fault.cause = .malformed .unexpectedEndOfInput := by
  cases h with
  | operator | closing | opening => exact iff_of_false nofun nofun
  | ending => exact iff_of_true rfl rfl

/-- The causes of a scan, and the one that only hand-made tokens have, are not among them. -/
theorem cause_ne (h : Misplaced cs fault) :
    (∀ feature, fault.cause ≠ .unimplemented feature) ∧
    (∀ kind, fault.cause ≠ .malformed (.unexpectedToken kind)) ∧
    (∀ c, fault.cause ≠ .malformed (.unrecognizedCharacter c)) ∧
    ∀ digits, fault.cause ≠ .malformed (.integerOutOfRange digits) := by
  cases h with
  | operator | closing | opening | ending => exact ⟨nofun, nofun, nofun, nofun⟩

end Misplaced

/-- A character that is no digit, and the place that its lexeme is known by. -/
theorem Lexeme.At.exists_mark {c : Char} {i : Nat} (h : At cs i (.mark c)) :
    ∃ front back, cs = front ++ c :: back ∧
      anchorAt .start cs i (.mark c) = Position.start.advance front := by
  obtain ⟨front, back, rfl, rfl, -⟩ := h
  refine ⟨front, back, rfl, ?_⟩
  rw [anchorAt, anchor, List.take_left]

/-- The fault of a state at the end of a text that it follows. -/
theorem Stack.Follows.misplaced_of_finish {s : Stack} {fault : Fault} (h : Follows cs s)
    (hfinish : s.finish = .error fault) : Misplaced cs fault := by
  obtain ⟨hpending, rfl⟩ | ⟨-, opening, around, outer, houter, rfl⟩ :=
    finish_eq_error_iff.mp hfinish
  · exact .ending (h.waiting hpending)
  · have hopened := h.opened
    rw [openings, houter, List.map_cons] at hopened
    cases hopened with
    | cons hfront hback =>
      -- all parentheses behind the one that is blamed are nested
      refine .opening rfl (not_answered_of_nested hback) ?_
      rintro inside rest rfl
      exact answered_of_nested hback

namespace Block

variable {source : String} {fault : Fault} {tokens : List Token}

/-- A fault at a token of a text. -/
theorem misplaced_of_run (htokens : tokenize source = .ok tokens)
    (hrun : Stack.start.run tokens = .error fault) : Misplaced source.toList fault := by
  obtain ⟨front, t, back, m, rfl, -, hstep⟩ := Stack.run_eq_error_iff.mp hrun
  obtain ⟨hrefuses, hlocation⟩ := Stack.step_eq_error_iff.mp hstep
  have ht : t ∈ front ++ t :: back := by simp
  obtain ⟨i, x, hx, hdenotes, hposition⟩ := exists_denotes_of_mem htokens ht
  obtain ⟨cause, location⟩ := fault
  cases hlocation
  rw [hposition]
  change Stack.Refuses t m cause at hrefuses
  cases hrefuses with
  | token hpiece =>
    -- every token of a text is a piece
    obtain ⟨y, hy⟩ := hdenotes.exists_piece
    rw [hpiece] at hy
    cases hy
  | operator hpiece =>
    cases hdenotes.shows hpiece with
    | operator =>
      obtain ⟨front, back, hcs, hplace⟩ := hx.exists_mark
      exact hplace ▸ .operator hcs
  | closing hpiece hopen =>
    cases hdenotes.shows hpiece with
    | closing =>
      obtain ⟨front, back, hcs, hplace⟩ := hx.exists_mark
      exact hplace ▸ .closing hcs

/-- **A fault of the structure** points where faults of the structure point. -/
theorem misplaced_of_ofTokens (htokens : tokenize source = .ok tokens)
    (h : ofTokens tokens = .error fault) : Misplaced source.toList fault := by
  obtain hrun | ⟨s, hrun, hfinish⟩ := ofTokens_eq_error_iff_run.mp h
  · exact misplaced_of_run htokens hrun
  · obtain ⟨hfault, rfl⟩ := Scan.result_eq_ok_iff.mp htokens
    have hfollows : Stack.Follows ([] ++ source.toList) s :=
      Stack.Follows.start.run (congrArg (Scan.mk _) hfault) hrun
    exact hfollows.misplaced_of_finish hfinish

/-- **Faults come from the right stage and point at the right character.** If the text can not
be scanned, then its fault is the fault of the scan. If it can, then the fault is none of those
that a scan or hand-made tokens can have, it points at the character that is to blame, and it
has no place exactly if the text ends too early, in an operator. -/
theorem ofSource_fault_stages (source : String) (fault : Fault)
    (h : ofSource source = .error fault) :
    (∀ fault', tokenize source = .error fault' → fault = fault') ∧
    ∀ tokens, tokenize source = .ok tokens →
      (∀ feature, fault.cause ≠ .unimplemented feature) ∧
      (∀ kind, fault.cause ≠ .malformed (.unexpectedToken kind)) ∧
      (∀ c, fault.cause ≠ .malformed (.unrecognizedCharacter c)) ∧
      (∀ digits, fault.cause ≠ .malformed (.integerOutOfRange digits)) ∧
      Misplaced source.toList fault ∧
      (fault.location = none ↔ fault.cause = .malformed .unexpectedEndOfInput) := by
  obtain hscan | ⟨tokens, hscan, htree⟩ := ofSource_eq_error_iff.mp h
  · refine ⟨fun fault' h' => ?_, fun tokens h' => ?_⟩
    · exact Except.error.inj (hscan.symm.trans h')
    · cases hscan.symm.trans h'
  · refine ⟨fun fault' h' => ?_, fun tokens' h' => ?_⟩
    · cases hscan.symm.trans h'
    · have hmisplaced : Misplaced source.toList fault := misplaced_of_ofTokens hscan htree
      obtain ⟨hfeature, hkind, hchar, hdigits⟩ := hmisplaced.cause_ne
      exact ⟨hfeature, hkind, hchar, hdigits, hmisplaced, hmisplaced.location_eq_none_iff⟩

/-- A parenthesis that stays open in front of two that are answered, an operator in front of
blanks at the end, and a fault of the scan behind one of the structure. -/
theorem ofSource_fault_stages_one_of_each :
    (ofSource "1 ((2) (3)\n" = .error (.malformed .missingClosingParen ⟨2, 0, 2⟩) ∧
      Misplaced "1 ((2) (3)\n".toList (.malformed .missingClosingParen ⟨2, 0, 2⟩)) ∧
    (ofSource "(1 % \r" = .error (.atEnd .unexpectedEndOfInput) ∧
      Misplaced "(1 % \r".toList (.atEnd .unexpectedEndOfInput)) ∧
    ofSource ") [" = .error (.unimplemented .bracket ⟨2, 0, 2⟩) ∧
    ∀ fault, tokenize ") [" = .error fault → .unimplemented .bracket ⟨2, 0, 2⟩ = fault := by
  have hopen : ofSource "1 ((2) (3)\n" = .error (.malformed .missingClosingParen ⟨2, 0, 2⟩) :=
    ofSource_eq_error_iff.mpr (.inr ⟨_, rfl, ofTokens_eq_error_iff_run.mpr (.inr ⟨_, rfl, rfl⟩)⟩)
  have hending : ofSource "(1 % \r" = .error (.atEnd .unexpectedEndOfInput) :=
    ofSource_eq_error_iff.mpr (.inr ⟨_, rfl, ofTokens_eq_error_iff_run.mpr (.inr ⟨_, rfl, rfl⟩)⟩)
  have hscan : ofSource ") [" = .error (.unimplemented .bracket ⟨2, 0, 2⟩) :=
    ofSource_eq_error_iff.mpr (.inl rfl)
  obtain ⟨-, -, -, -, hmisplaced, -⟩ := (ofSource_fault_stages _ _ hopen).2 _ rfl
  obtain ⟨-, -, -, -, hmisplaced', -⟩ := (ofSource_fault_stages _ _ hending).2 _ rfl
  exact ⟨⟨hopen, hmisplaced⟩, ⟨hending, hmisplaced'⟩, hscan, (ofSource_fault_stages _ _ hscan).1⟩

end Block

end ArithTree
