import ArithTree.Proofs.Cuts
import ArithTree.Proofs.Places

/-!
# Texts behind other texts

Of the text behind it a scan remembers one thing, the place that it has come to. So two texts
side by side have the tokens of the first one and then those of the second one, moved to where
the second one starts, as long as no run of digits goes from the one into the other
(`tokenize_append`). A fault of the first text is the fault of both, and a fault of the second
one is moved as its tokens are.

* `Position.shift` — where a place of a text goes when another text is put in front of it.
  `Position.step_shift` and `Position.advance_shift` say that a walk which starts at a shifted
  place goes through shifted places.
* `Scan.ofLexemes_shift` — so does a scan, and nothing that it finds depends on where it
  started but the places.
* `Scan.ofLexemes_append` — a scan of two lists of lexemes is a scan of the first, and goes on
  in the second unless a fault has ended it.
-/

namespace ArithTree

open Text (isLineBreak lineStart)

variable {front : List Char}

/-! ### Places -/

namespace Position

/-- **A place, with `front` in front of its text.** The cursor moves by the length of `front`
and the row by its line breaks. The column moves only in the first row, which goes on the last
line of `front`: it moves by the characters of this line. -/
def shift (front : List Char) (p : Position) : Position where
  cursor := front.length + p.cursor
  row := front.countP isLineBreak + p.row
  col := if p.row = 0 then front.length - lineStart front + p.col else p.col

/-- The text starts where `front` ends. -/
theorem shift_start (front : List Char) : start.shift front = start.advance front := by
  rw [advance_start]
  rfl

/-- **One step from a shifted place.** A line break leaves the first row, so behind it the
column is the same on both sides. -/
theorem step_shift (front : List Char) (p : Position) (c : Char) :
    (p.shift front).step c = (p.step c).shift front := by
  unfold step
  by_cases hc : isLineBreak c
  · rw [if_pos hc, if_pos hc]
    rfl
  · rw [if_neg hc, if_neg hc]
    -- both places are in the row of `p`
    by_cases hrow : p.row = 0
    · simp only [shift, hrow, if_true]
      rfl
    · simp only [shift, hrow, if_false]
      rfl

/-- **A walk from a shifted place.** -/
theorem advance_shift (front : List Char) (p : Position) (cs : List Char) :
    (p.shift front).advance cs = (p.advance cs).shift front := by
  induction cs generalizing p with
  | nil => rfl
  | cons c cs ih => rw [advance_cons, advance_cons, step_shift, ih]

-- the first row goes on behind `12`, and the second row does not
example : shift "\n12".toList ⟨1, 0, 1⟩ = ⟨4, 1, 3⟩ ∧ shift "\n12".toList ⟨2, 1, 0⟩ = ⟨5, 2, 0⟩ :=
  ⟨rfl, rfl⟩

end Position

theorem Lexeme.anchor_shift (before after : Position) (x : Lexeme) :
    x.anchor (before.shift front) (after.shift front) = (x.anchor before after).shift front := by
  cases x with
  | number | mark => rfl

/-- A token, with `front` in front of its text. -/
def Token.shift (front : List Char) (t : Token) : Token :=
  { t with position := t.position.shift front }

/-- A fault, with `front` in front of its text. -/
def Fault.shift (front : List Char) (fault : Fault) : Fault :=
  { fault with location := fault.location.map (Position.shift front) }

/-! ### Scans -/

namespace Scan

/-- What a scan found, with `front` in front of its text. -/
def shift (front : List Char) (scan : Scan) : Scan where
  tokens := scan.tokens.map (Token.shift front)
  fault := scan.fault.map (Fault.shift front)

/-- **Two scans in a row.** The second one counts only if the first one met no fault. -/
def followedBy (scan next : Scan) : Scan :=
  match scan.fault with
  | none => ⟨scan.tokens ++ next.tokens, next.fault⟩
  | some _ => scan

/-- A token in front stays there, whether or not a fault follows in the first scan. -/
theorem followedBy_cons (t : Token) (scan next : Scan) :
    followedBy ⟨t :: scan.tokens, scan.fault⟩ next
      = ⟨t :: (scan.followedBy next).tokens, (scan.followedBy next).fault⟩ := by
  obtain ⟨tokens, fault⟩ := scan
  cases fault with
  | none | some => rfl

/-- A scan keeps nothing but its place: from a shifted place it finds the same, shifted. -/
theorem ofLexemes_shift (front : List Char) (place : Position) (lexemes : List Lexeme) :
    ofLexemes (place.shift front) lexemes = (ofLexemes place lexemes).shift front := by
  induction lexemes generalizing place with
  | nil => rfl
  | cons x lexemes ih =>
    -- the lexeme ends at the same place on both sides, and is known by the same edge
    have hnext : (place.shift front).advance x.chars = (place.advance x.chars).shift front :=
      Position.advance_shift front place x.chars
    have hrest := ih (place.advance x.chars)
    simp only [ofLexemes, hnext, hrest, Lexeme.anchor_shift]
    cases x.reading with
    | blank | token | refused => rfl

/-- **A scan goes on** in the second of two lists of lexemes, from the place at which the first
one ends. -/
theorem ofLexemes_append (place : Position) (xs ys : List Lexeme) :
    ofLexemes place (xs ++ ys)
      = (ofLexemes place xs).followedBy
          (ofLexemes (place.advance (xs.flatMap Lexeme.chars)) ys) := by
  induction xs generalizing place with
  | nil => rfl
  | cons x xs ih =>
    have hrest := ih (place.advance x.chars)
    rw [← Position.advance_append, ← List.flatMap_cons] at hrest
    rw [List.cons_append]
    simp only [ofLexemes, hrest]
    cases x.reading with
    | blank | refused => rfl
    | token kind value => exact (followedBy_cons _ _ _).symm

/-- **The scan of two texts side by side.** -/
theorem ofSource_append {a b : String}
    (hcut : Lexeme.EndsNoDigit a.toList ∨ Lexeme.StartsNoDigit b.toList) :
    ofSource (a ++ b) = (ofSource a).followedBy ((ofSource b).shift a.toList) := by
  unfold ofSource
  rw [String.toList_append, Lexeme.ofChars_append hcut, ofLexemes_append, Lexeme.flatten_ofChars,
    ← Position.shift_start, ofLexemes_shift]

end Scan

/-! ### Tokens -/

open Lexeme (EndsNoDigit StartsNoDigit)

/-- **Reading tokens is compositional.** Let no run of digits go from `a` into `b`. A fault of
`a` is the fault of both together. If `a` has tokens, then both together have these and then
the tokens of `b`, or else the fault of `b`, with their places moved behind `a` and all else
as it is in `b` alone. -/
theorem tokenize_append (a b : String)
    (hcut : EndsNoDigit a.toList ∨ StartsNoDigit b.toList) :
    (∀ fault, tokenize a = .error fault → tokenize (a ++ b) = .error fault) ∧
    ∀ tokens, tokenize a = .ok tokens →
      (∀ more, tokenize b = .ok more →
        tokenize (a ++ b) = .ok (tokens ++ more.map (Token.shift a.toList))) ∧
      ∀ fault, tokenize b = .error fault →
        tokenize (a ++ b) = .error (fault.shift a.toList) := by
  have hscan := Scan.ofSource_append hcut
  refine ⟨fun fault ha => ?_, fun tokens ha => ⟨fun more hb => ?_, fun fault hb => ?_⟩⟩
  · have hfault := Scan.result_eq_error_iff.mp ha
    apply Scan.result_eq_error_iff.mpr
    simp [hscan, Scan.followedBy, hfault]
  · obtain ⟨hfault, rfl⟩ := Scan.result_eq_ok_iff.mp ha
    obtain ⟨hfault', rfl⟩ := Scan.result_eq_ok_iff.mp hb
    apply Scan.result_eq_ok_iff.mpr
    simp [hscan, Scan.followedBy, hfault, Scan.shift, hfault']
  · obtain ⟨hfault, rfl⟩ := Scan.result_eq_ok_iff.mp ha
    have hfault' := Scan.result_eq_error_iff.mp hb
    apply Scan.result_eq_error_iff.mpr
    simp [hscan, Scan.followedBy, hfault, Scan.shift, hfault']

/-- The second text goes on the last line of the first one, and its fault is in a row of its
own. -/
theorem tokenize_append_across_rows :
    tokenize ("1\r\n20 " ++ "+ 3\n)") = .ok [⟨.integer, ⟨1, 0, 1⟩, some (.integer 1)⟩,
      ⟨.integer, ⟨5, 2, 2⟩, some (.integer 20)⟩, ⟨.operator, ⟨6, 2, 3⟩, some (.symbol '+')⟩,
      ⟨.integer, ⟨9, 2, 6⟩, some (.integer 3)⟩, ⟨.rightParen, ⟨10, 3, 0⟩, none⟩] ∧
    tokenize ("1\r\n20 " ++ "+\n3x") = .error (.unimplemented .identifier ⟨9, 3, 1⟩) ∧
    tokenize ("1\r\n2x" ++ "+\n3x") = .error (.unimplemented .identifier ⟨4, 2, 1⟩) := by
  have hfront : tokenize "1\r\n20 " = .ok [⟨.integer, ⟨1, 0, 1⟩, some (.integer 1)⟩,
      ⟨.integer, ⟨5, 2, 2⟩, some (.integer 20)⟩] := rfl
  have hcut : EndsNoDigit "1\r\n20 ".toList := by simp [EndsNoDigit]
  have hcut' : StartsNoDigit "+\n3x".toList := by simp [StartsNoDigit]
  refine ⟨?_, ?_, ?_⟩
  · exact ((tokenize_append _ "+ 3\n)" (.inl hcut)).2 _ hfront).1 _ rfl
  · exact ((tokenize_append _ "+\n3x" (.inl hcut)).2 _ hfront).2 _ rfl
  · exact (tokenize_append "1\r\n2x" _ (.inr hcut')).1 _ rfl

end ArithTree
