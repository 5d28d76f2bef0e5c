import ArithTree.Proofs.Lockstep
import ArithTree.Proofs.Places
import Mathlib.Data.List.Sort

/-!
# Blanks between two texts

Blanks that are put between two texts change nothing, as long as no run of digits goes from
the one into the other (`Block.ofSource_insert_gap`): the tree is the same, or the fault has
the same cause and points at the same lexeme.

* `pastGap` — where a lexeme goes when a gap is put in: the lexemes in front of the gap stay,
  those behind it move by its length. `Lexeme.at_insert` and
  `Lexeme.exists_at_of_insert` say that this is all that happens to lexemes, for the gap
  itself is read as nothing.
* `Token.Moved` — so the tokens of the two texts are the same, one by one, each at its lexeme
  (`exists_moved_of_tokenize`), and if there is a fault, then it is at the same lexeme
  (`exists_moved_of_fault`).

Tokens that differ in their places only are read in lockstep, which does the rest.
-/

namespace ArithTree

variable {a gap b : List Char} {i j : Nat}

/-- **Where the index `i` goes** when `gap` is put behind `a`. -/
def pastGap (a gap : List Char) (i : Nat) : Nat :=
  if i < a.length then i else i + gap.length

theorem pastGap_of_lt (hi : i < a.length) : pastGap a gap i = i := if_pos hi

theorem pastGap_add (a gap : List Char) (j : Nat) :
    pastGap a gap (a.length + j) = (a ++ gap).length + j := by
  rw [pastGap, if_neg (Nat.not_lt_of_le (Nat.le_add_right _ j)), List.length_append,
    Nat.add_right_comm]

theorem pastGap_lt_pastGap_iff : pastGap a gap i < pastGap a gap j ↔ i < j := by
  unfold pastGap
  split <;> split <;> omega

/-! ### What happens to lexemes -/

namespace Lexeme

variable {x y : Lexeme} {starts : List Nat} {p : Lexeme → Prop}

/-- A lexeme that consists of blanks is read as nothing. -/
theorem At.reading_of_blanks (hgap : ∀ c ∈ gap, isBlank c) (h : At gap i x) :
    x.reading = .blank := by
  obtain ⟨front, back, rfl, -, hx⟩ := h
  have hblank : ∀ c ∈ x.chars, isBlank c := by
    intro c hc
    exact hgap c (List.mem_append_right _ (List.mem_append_left _ hc))
  cases hx with
  | @number ds _ hrun =>
    -- a run has digits, and no blank is one
    obtain ⟨d, hd⟩ := List.exists_mem_of_ne_nil _ hrun.ne_nil
    exact absurd (hrun.digits d hd) (not_isDigit_of_isBlank (hblank d hd))
  | @mark c _ hc =>
    obtain rfl | rfl | rfl := isBlank_iff.mp (hblank c (List.mem_singleton_self c))
    all_goals rfl

/-- A gap may be cut off in front: it starts with a blank, if with anything. -/
theorem cut_before_gap (hgap : ∀ c ∈ gap, isBlank c) (hcut : EndsNoDigit a ∨ StartsNoDigit b) :
    EndsNoDigit a ∨ StartsNoDigit (gap ++ b) := by
  cases gap with
  | nil => exact hcut
  | cons c gap =>
    have hc : isBlank c := hgap c List.mem_cons_self
    exact .inr (startsNoDigit_cons.mpr (not_isDigit_of_isBlank hc))

/-- A gap may be cut off behind, for the same reason. -/
theorem cut_after_gap (hgap : ∀ c ∈ gap, isBlank c) (hcut : EndsNoDigit a ∨ StartsNoDigit b) :
    EndsNoDigit (a ++ gap) ∨ StartsNoDigit b := by
  refine hcut.imp_left fun ha => EndsNoDigit.append ?_ fun _ => ha
  intro c hc
  exact not_isDigit_of_isBlank (hgap c (List.mem_of_getLast? hc))

/-- **The lexemes of the two texts stay**, each at the index that its start goes to. -/
theorem at_insert (hgap : ∀ c ∈ gap, isBlank c) (hcut : EndsNoDigit a ∨ StartsNoDigit b)
    (h : At (a ++ b) i x) : At (a ++ gap ++ b) (pastGap a gap i) x := by
  obtain ha | ⟨j, rfl, hb⟩ := (at_append_iff hcut).mp h
  · rw [pastGap_of_lt ha.lt_length, List.append_assoc]
    exact (at_append_iff (cut_before_gap hgap hcut)).mpr (.inl ha)
  · rw [pastGap_add]
    exact (at_append_iff (cut_after_gap hgap hcut)).mpr (.inr ⟨j, rfl, hb⟩)

/-- **There are no others**, but for those in the gap, and these are read as nothing. -/
theorem exists_at_of_insert (hgap : ∀ c ∈ gap, isBlank c)
    (hcut : EndsNoDigit a ∨ StartsNoDigit b) (h : At (a ++ gap ++ b) j x)
    (hne : x.reading ≠ .blank) : ∃ i, j = pastGap a gap i ∧ At (a ++ b) i x := by
  obtain hfront | ⟨k, rfl, hb⟩ := (at_append_iff (cut_after_gap hgap hcut)).mp h
  · -- it stands in front of the second text: in the first one, or in the gap
    have hcut' : EndsNoDigit a ∨ StartsNoDigit gap := by
      simpa using cut_before_gap (b := []) hgap (.inr startsNoDigit_nil)
    obtain ha | ⟨k, -, hblank⟩ := (at_append_iff hcut').mp hfront
    · exact ⟨j, (pastGap_of_lt ha.lt_length).symm, (at_append_iff hcut).mpr (.inl ha)⟩
    · exact absurd (hblank.reading_of_blanks hgap) hne
  · refine ⟨a.length + k, (pastGap_add a gap k).symm, ?_⟩
    exact (at_append_iff hcut).mpr (.inr ⟨k, rfl, hb⟩)

/-- The lexemes of one sort start where they started, past the gap. -/
theorem Starts.insert (hgap : ∀ c ∈ gap, isBlank c) (hcut : EndsNoDigit a ∨ StartsNoDigit b)
    (hp : ∀ x, p x → x.reading ≠ .blank) (h : Starts p (a ++ b) starts) :
    Starts p (a ++ gap ++ b) (starts.map (pastGap a gap)) := by
  refine ⟨h.sorted.map _ fun i j => pastGap_lt_pastGap_iff.mpr, fun j => ?_⟩
  rw [List.mem_map]
  constructor
  · rintro ⟨i, hi, rfl⟩
    obtain ⟨x, hx, hpx⟩ := (h.mem_iff i).mp hi
    exact ⟨x, at_insert hgap hcut hx, hpx⟩
  · rintro ⟨x, hx, hpx⟩
    obtain ⟨i, rfl, hxi⟩ := exists_at_of_insert hgap hcut hx (hp x hpx)
    exact ⟨i, (h.mem_iff i).mpr ⟨x, hxi, hpx⟩, rfl⟩

/-- Where the lexemes of one sort start is determined by the text. -/
theorem Starts.unique {starts' : List Nat} (h : Starts p a starts) (h' : Starts p a starts') :
    starts = starts' :=
  h.sorted.eq_of_mem_iff h'.sorted fun i => (h.mem_iff i).trans (h'.mem_iff i).symm

end Lexeme

open Lexeme (At EndsNoDigit StartsNoDigit anchorAt)

/-! ### What happens to places -/

/-- **The same lexeme on both sides of an insertion.** The fault with the place `place` points
at a lexeme of `a ++ b`, and the one with `place'` at the same lexeme of `a ++ gap ++ b`. If it
starts in `a`, then the cursor is the same, and if it starts in `b`, then the cursor has moved
by the length of the gap. -/
def Moved (a gap b : List Char) (cause : Cause) (place place' : Position) : Prop :=
  ∃ i x, x.PointedAt cause ∧
    At (a ++ b) i x ∧ place = anchorAt .start (a ++ b) i x ∧
    At (a ++ gap ++ b) (pastGap a gap i) x ∧
    place' = anchorAt .start (a ++ gap ++ b) (pastGap a gap i) x ∧
    (i < a.length → place'.cursor = place.cursor) ∧
    (a.length ≤ i → place'.cursor = place.cursor + gap.length)

theorem Lexeme.At.moved {x : Lexeme} {cause : Cause} (hx : At (a ++ b) i x)
    (hx' : At (a ++ gap ++ b) (pastGap a gap i) x) (hcause : x.PointedAt cause) :
    Moved a gap b cause (anchorAt .start (a ++ b) i x)
      (anchorAt .start (a ++ gap ++ b) (pastGap a gap i) x) := by
  refine ⟨i, x, hcause, hx, rfl, hx', rfl, fun hi => ?_, fun hi => ?_⟩
  · rw [hx.anchorAt_eq, hx'.anchorAt_eq, pastGap_of_lt hi]
    rfl
  · rw [hx.anchorAt_eq, hx'.anchorAt_eq, pastGap, if_neg (Nat.not_lt_of_le hi)]
    -- an edge moves as the start does
    cases x with
    | number ds => exact Nat.add_right_comm i gap.length ds.length
    | mark c => rfl

/-- **The token of the same lexeme** on both sides of an insertion. -/
def Token.Moved (a gap b : List Char) (t t' : Token) : Prop :=
  t'.kind = t.kind ∧ t'.value = t.value ∧
    ∃ i x, x.Denotes t.kind t.value ∧
      At (a ++ b) i x ∧ t.position = anchorAt .start (a ++ b) i x ∧
      At (a ++ gap ++ b) (pastGap a gap i) x ∧
      t'.position = anchorAt .start (a ++ gap ++ b) (pastGap a gap i) x

theorem Token.FoundAt.moved {t t' : Token} (hgap : ∀ c ∈ gap, isBlank c)
    (hcut : EndsNoDigit a ∨ StartsNoDigit b) (h : t.FoundAt .start (a ++ b) i)
    (h' : t'.FoundAt .start (a ++ gap ++ b) (pastGap a gap i)) : Moved a gap b t t' := by
  obtain ⟨kind, position, value⟩ := t
  obtain ⟨kind', position', value'⟩ := t'
  obtain ⟨x, hx, hreading, hposition⟩ := h
  obtain ⟨x', hx', hreading', hposition'⟩ := h'
  -- only one lexeme starts there, and it has one reading
  obtain rfl := hx'.unique (Lexeme.at_insert hgap hcut hx)
  cases hreading.symm.trans hreading'
  exact ⟨rfl, rfl, i, x', Lexeme.reading_eq_token_iff.mp hreading, hx, hposition, hx', hposition'⟩

theorem Token.partners_moved : Partners (Moved a gap b) := by
  rintro t ⟨kind, position, value⟩ ⟨rfl, rfl, i, x, hdenotes, -⟩
  obtain ⟨y, hy⟩ := hdenotes.exists_piece
  exact ⟨y, hy, hy⟩

theorem Token.BothBlamed.moved {cause : Cause} {place place' : Position}
    (h : BothBlamed (Moved a gap b) cause place place') :
    ArithTree.Moved a gap b cause place place' := by
  obtain ⟨t, t', ⟨-, -, i, x, hdenotes, hx, hposition, hx', hposition'⟩, hblamed, rfl, rfl⟩ := h
  rw [hposition, hposition']
  exact hx.moved hx' (hdenotes.pointedAt hblamed)

/-! ### What happens to a scan -/

variable {source source' : String} {tokens tokens' : List Token} {fault : Fault}

/-- **The fault of a text** stays, at the lexeme that it was at. -/
theorem exists_moved_of_fault (hgap : ∀ c ∈ gap, isBlank c)
    (hcut : EndsNoDigit a ∨ StartsNoDigit b) (hsource : source.toList = a ++ b)
    (hsource' : source'.toList = a ++ gap ++ b) (h : tokenize source = .error fault) :
    ∃ place place', Moved a gap b fault.cause place place' ∧ fault.location = some place ∧
      tokenize source' = .error ⟨fault.cause, some place'⟩ := by
  obtain ⟨i, x, hx, hreading, hlocation, hleft⟩ :=
    Scan.exists_of_fault (Scan.result_eq_error_iff.mp h)
  rw [hsource] at hx hlocation hleft
  have hx' : At (a ++ gap ++ b) (pastGap a gap i) x := Lexeme.at_insert hgap hcut hx
  have hcause : x.PointedAt fault.cause := (hx.reading_eq_refused_iff.mp hreading).pointedAt
  -- what is refused in the longer text was refused, too, and in the same order
  have hfirst : ∀ j y cause, At (a ++ gap ++ b) j y → y.reading = .refused cause →
      pastGap a gap i ≤ j := by
    intro j y cause hy hreading'
    obtain ⟨k, rfl, hyk⟩ := Lexeme.exists_at_of_insert hgap hcut hy (by simp [hreading'])
    have hik : ¬ k < i := Nat.not_lt_of_le (hleft k y _ hyk hreading')
    exact Nat.le_of_not_lt fun hlt => hik (pastGap_lt_pastGap_iff.mp hlt)
  refine ⟨_, _, hx.moved hx' hcause, hlocation, Scan.result_eq_error_iff.mpr ?_⟩
  rw [Scan.ofSource, hsource']
  exact Scan.fault_eq_some_of_first hx' hreading hfirst

/-- **The tokens of a text** stay, one by one, each at the lexeme that it was at. -/
theorem exists_moved_of_tokenize (hgap : ∀ c ∈ gap, isBlank c)
    (hcut : EndsNoDigit a ∨ StartsNoDigit b) (hsource : source.toList = a ++ b)
    (hsource' : source'.toList = a ++ gap ++ b) (h : tokenize source = .ok tokens) :
    ∃ tokens', tokenize source' = .ok tokens' ∧
      List.Forall₂ (Token.Moved a gap b) tokens tokens' := by
  obtain ⟨hfault, rfl⟩ := Scan.result_eq_ok_iff.mp h
  have hfault' : (Scan.ofSource source').fault = none := by
    rw [Scan.ofSource, hsource, Scan.fault_eq_none_iff] at hfault
    rw [Scan.ofSource, hsource', Scan.fault_eq_none_iff]
    intro j x cause hx hreading
    obtain ⟨i, rfl, hxi⟩ := Lexeme.exists_at_of_insert hgap hcut hx (by simp [hreading])
    exact hfault i x cause hxi hreading
  refine ⟨_, Scan.result_eq_ok_iff.mpr ⟨hfault', rfl⟩, ?_⟩
  obtain ⟨starts, hstarts, hfound⟩ := Scan.exists_starts hfault
  obtain ⟨starts', hstarts', hfound'⟩ := Scan.exists_starts hfault'
  rw [hsource] at hstarts hfound
  rw [hsource'] at hstarts' hfound'
  -- the starts of the lexemes of the longer text are known
  have hpast : starts' = starts.map (pastGap a gap) := by
    refine hstarts'.unique (hstarts.insert hgap hcut ?_)
    rintro x ⟨kind, value, hreading⟩
    simp [hreading]
  rw [hpast, List.forall₂_map_left_iff] at hfound'
  rw [Scan.ofSource, hsource, Scan.ofSource, hsource']
  rw [List.forall₂_iff_get] at hfound hfound' ⊢
  obtain ⟨hlength, hget⟩ := hfound
  obtain ⟨hlength', hget'⟩ := hfound'
  refine ⟨hlength.symm.trans hlength', fun k hk hk' => ?_⟩
  have hstart : k < starts.length := hlength.symm ▸ hk
  exact (hget k hstart hk).moved hgap hcut (hget' k hstart hk')

/-! ### The result -/

namespace Block

/-- **Blanks do not matter.** If blanks are put between two texts, none of whose runs of digits
goes from the one into the other, then the tree stays the same, and so does the cause of a
fault. A fault without a place has none on either side. Any other fault points at the same
lexeme: its cursor is the same if this lexeme starts in front of the blanks, and moves by their
number if it starts behind them. -/
theorem ofSource_insert_gap (a gap b : String) (hgap : ∀ c ∈ gap.toList, isBlank c)
    (hcut : EndsNoDigit a.toList ∨ StartsNoDigit b.toList) :
    Agree (Moved a.toList gap.toList b.toList) (ofSource (a ++ b)) (ofSource (a ++ gap ++ b)) := by
  have hsource : (a ++ b).toList = a.toList ++ b.toList := String.toList_append
  have hsource' : (a ++ gap ++ b).toList = a.toList ++ gap.toList ++ b.toList := by
    rw [String.toList_append, String.toList_append]
  unfold ofSource
  cases h : tokenize (a ++ b) with
  | error fault =>
    obtain ⟨place, place', hmoved, hlocation, h'⟩ :=
      exists_moved_of_fault hgap hcut hsource hsource' h
    obtain ⟨cause, location⟩ := fault
    cases hlocation
    rw [h']
    exact .located hmoved
  | ok tokens =>
    obtain ⟨tokens', h', hmoved⟩ := exists_moved_of_tokenize hgap hcut hsource hsource' h
    rw [h']
    exact (ofTokens_lockstep Token.partners_moved hmoved).mono fun _ _ _ hblamed => hblamed.moved

/-- A parenthesis behind the gap that stays open, and a run out of range that touches it. -/
theorem ofSource_insert_gap_between_faults :
    (ofSource ("(1 2" ++ "+ (3") = .error (.malformed .missingClosingParen ⟨6, 0, 6⟩) ∧
      ofSource ("(1 2" ++ " \n" ++ "+ (3") = .error (.malformed .missingClosingParen ⟨8, 1, 2⟩) ∧
      Moved "(1 2".toList " \n".toList "+ (3".toList (.malformed .missingClosingParen)
        ⟨6, 0, 6⟩ ⟨8, 1, 2⟩) ∧
    ofSource ("9223372036854775808" ++ ")")
      = .error (.malformed (.integerOutOfRange "9223372036854775808") ⟨19, 0, 19⟩) ∧
    ofSource ("9223372036854775808" ++ "\r" ++ ")")
      = .error (.malformed (.integerOutOfRange "9223372036854775808") ⟨19, 0, 19⟩) ∧
    Moved "9223372036854775808".toList "\r".toList ")".toList
      (.malformed (.integerOutOfRange "9223372036854775808")) ⟨19, 0, 19⟩ ⟨19, 0, 19⟩ := by
  have hopen := ofSource_insert_gap "(1 2" " \n" "+ (3" (by simp [isBlank])
    (.inr (by simp [StartsNoDigit]))
  have hrange := ofSource_insert_gap "9223372036854775808" "\r" ")" (by simp [isBlank])
    (.inr (by simp [StartsNoDigit]))
  have h₁ : ofSource ("(1 2" ++ "+ (3") = .error (.malformed .missingClosingParen ⟨6, 0, 6⟩) :=
    ofSource_eq_error_iff.mpr (.inr ⟨_, rfl, ofTokens_eq_error_iff_run.mpr (.inr ⟨_, rfl, rfl⟩)⟩)
  have h₂ : ofSource ("(1 2" ++ " \n" ++ "+ (3")
      = .error (.malformed .missingClosingParen ⟨8, 1, 2⟩) :=
    ofSource_eq_error_iff.mpr (.inr ⟨_, rfl, ofTokens_eq_error_iff_run.mpr (.inr ⟨_, rfl, rfl⟩)⟩)
  have h₃ : ofSource ("9223372036854775808" ++ ")")
      = .error (.malformed (.integerOutOfRange "9223372036854775808") ⟨19, 0, 19⟩) :=
    ofSource_eq_error_iff.mpr (.inl rfl)
  have h₄ : ofSource ("9223372036854775808" ++ "\r" ++ ")")
      = .error (.malformed (.integerOutOfRange "9223372036854775808") ⟨19, 0, 19⟩) :=
    ofSource_eq_error_iff.mpr (.inl rfl)
  -- the runs fail, and the two faults of a pair are related by where the gap is
  rw [h₁, h₂] at hopen
  rw [h₃, h₄] at hrange
  cases hopen with
  | located hmoved =>
    cases hrange with
    | located hmoved' => exact ⟨⟨h₁, h₂, hmoved⟩, h₃, h₄, hmoved'⟩

end Block

end ArithTree
