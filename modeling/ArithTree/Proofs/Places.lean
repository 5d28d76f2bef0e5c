import ArithTree.Proofs.Munch
import Mathlib.Data.List.DropRight

/-!
# Places by their index

A scan finds a place by walking to it. The place at an index of a text can be said without
the walk (`Position.ofIndex`): its row is the number of line breaks before the index, and its
column is counted from the last of these. `Position.advance_take` says that the walk comes to
this place.

The order of the places of one text is the order of their indices, whether it is read off
the cursor or off row and column. It comes from one step (`Position.before_step`): a line
break goes to a later row, and every other character goes further in the row.

`tokenize_positions` puts the two to use. Every token has the place of an edge of its lexeme,
its right one if it is an integer and its left one otherwise, and so has the fault of a text.
Lexemes do not overlap (`Lexeme.At.add_length_le`), so that the cursors of tokens never
decrease, and two tokens share one only where an operator or a parenthesis touches an integer
on its left.
-/

namespace ArithTree

namespace Text

variable {cs : List Char} {c : Char}

/-- The index at which the last line of a text starts: just behind its last line break, or
zero if there is none. -/
def lineStart (cs : List Char) : Nat :=
  (cs.rdropWhile fun c => !isLineBreak c).length

theorem lineStart_le (cs : List Char) : lineStart cs ≤ cs.length :=
  (List.rdropWhile_prefix _ cs).length_le

theorem lineStart_concat_of_isLineBreak (hc : isLineBreak c) :
    lineStart (cs ++ [c]) = cs.length + 1 := by
  rw [lineStart, List.rdropWhile_concat_neg _ _ _ (by simp [hc])]
  simp

theorem lineStart_concat_of_not_isLineBreak (hc : ¬ isLineBreak c) :
    lineStart (cs ++ [c]) = lineStart cs := by
  rw [lineStart, List.rdropWhile_concat_pos _ _ _ (by simp [hc])]
  rfl

end Text

namespace Position

open Text (isLineBreak lineStart)

variable {p q r : Position} {c : Char} {cs ds : List Char} {i j k : Nat}

/-! ### The place at an index -/

/-- **The place at an index of a text**: after so many characters, so many line breaks, and so
many characters behind the last of these. -/
def ofIndex (cs : List Char) (k : Nat) : Position where
  cursor := k
  row := (cs.take k).countP isLineBreak
  col := k - lineStart (cs.take k)

/-- **The walk over a text in closed form.** -/
theorem advance_start (cs : List Char) :
    start.advance cs = ⟨cs.length, cs.countP isLineBreak, cs.length - lineStart cs⟩ := by
  induction cs using List.reverseRecOn with
  | nil => rfl
  | append_singleton cs c ih =>
    have hstep : start.advance (cs ++ [c]) = (start.advance cs).step c := by
      rw [advance_append]
      rfl
    rw [hstep, ih, step]
    by_cases hc : isLineBreak c
    · rw [if_pos hc, Text.lineStart_concat_of_isLineBreak hc]
      simp [hc]
    · -- the line goes on, and starts where it started
      have hle := Text.lineStart_le cs
      rw [if_neg hc, Text.lineStart_concat_of_not_isLineBreak hc]
      simp [hc]
      omega

/-- **The walk to an index** comes to the place at the index. -/
theorem advance_take (hk : k ≤ cs.length) : start.advance (cs.take k) = ofIndex cs k := by
  rw [advance_start, List.length_take, Nat.min_eq_left hk]
  rfl

-- the second break ends the line of the first, and the parenthesis starts the third row
example : ofIndex "1\r\n)".toList 3 = ⟨3, 2, 0⟩ := rfl

/-! ### The order of places -/

/-- **The order of rows and columns**: in an earlier row, or further left in the same
row. -/
def Before (p q : Position) : Prop :=
  p.row < q.row ∨ p.row = q.row ∧ p.col < q.col

theorem Before.trans (hpq : p.Before q) (hqr : q.Before r) : p.Before r := by
  unfold Before at *
  omega

theorem Before.irrefl : ¬ p.Before p := by
  unfold Before
  omega

/-- **One step** goes to a later row or further in the same row. -/
theorem before_step (p : Position) (c : Char) : p.Before (p.step c) := by
  unfold step
  split
  · exact .inl (Nat.lt_succ_self _)
  · exact .inr ⟨rfl, Nat.lt_succ_self _⟩

theorem before_advance (p : Position) (hne : cs ≠ []) : p.Before (p.advance cs) := by
  induction cs generalizing p with
  | nil => exact absurd rfl hne
  | cons c cs ih =>
    rw [advance_cons]
    by_cases hcs : cs = []
    · subst hcs
      exact p.before_step c
    · exact (p.before_step c).trans (ih (p.step c) hcs)

/-- Row and column together count no character twice. -/
theorem row_add_col_advance_le (h : p.row + p.col ≤ p.cursor) (cs : List Char) :
    (p.advance cs).row + (p.advance cs).col ≤ (p.advance cs).cursor := by
  induction cs generalizing p with
  | nil => exact h
  | cons c cs ih =>
    refine ih ?_
    unfold step
    split
    · change p.row + 1 + 0 ≤ p.cursor + 1
      omega
    · change p.row + (p.col + 1) ≤ p.cursor + 1
      omega

theorem row_add_col_ofIndex_le (hk : k ≤ cs.length) :
    (ofIndex cs k).row + (ofIndex cs k).col ≤ (ofIndex cs k).cursor := by
  rw [← advance_take hk]
  exact row_add_col_advance_le (p := start) (Nat.le_refl 0) (cs.take k)

theorem before_ofIndex (hij : i < j) (hj : j ≤ cs.length) :
    (ofIndex cs i).Before (ofIndex cs j) := by
  -- the walk to `j` goes on from `i`
  have hsplit : cs.take j = cs.take i ++ (cs.take j).drop i := by
    conv_lhs => rw [← List.take_append_drop i (cs.take j)]
    rw [List.take_take, Nat.min_eq_left (Nat.le_of_lt hij)]
  have hne : (cs.take j).drop i ≠ [] := by
    intro hnil
    have hlength := congrArg List.length hnil
    simp at hlength
    omega
  rw [← advance_take hj, ← advance_take (by omega : i ≤ cs.length), hsplit, advance_append]
  exact before_advance _ hne

/-- **The order of the places of a text** is the order of their indices. -/
theorem before_ofIndex_iff (hi : i ≤ cs.length) (hj : j ≤ cs.length) :
    (ofIndex cs i).Before (ofIndex cs j) ↔ i < j := by
  constructor
  · intro h
    by_contra hij
    obtain rfl | hji : i = j ∨ j < i := by omega
    · exact Before.irrefl h
    · exact Before.irrefl (h.trans (before_ofIndex hji hi))
  · exact fun hij => before_ofIndex hij hj

end Position

/-! ### The edges of lexemes -/

namespace Lexeme

variable {cs : List Char} {i j : Nat} {x y : Lexeme} {kind : Token.Kind}
  {value : Option Token.Value}

/-- The index of the edge that a lexeme is known by: behind a run, and in front of any other
character. -/
def edge (i : Nat) : Lexeme → Nat
  | .number ds => i + ds.length
  | .mark _ => i

theorem At.add_length_le_length (h : At cs i x) : i + x.chars.length ≤ cs.length := by
  obtain ⟨front, back, rfl, rfl, -⟩ := h
  simp only [List.length_append]
  omega

theorem At.lt_length (h : At cs i x) : i < cs.length := by
  have hle := h.add_length_le_length
  obtain ⟨front, back, -, -, hx⟩ := h
  have hpos : 0 < x.chars.length := List.length_pos_iff.mpr hx.chars_ne_nil
  omega

theorem At.edge_le_length (h : At cs i x) : x.edge i ≤ cs.length := by
  have hle := h.add_length_le_length
  cases x with
  | number ds => exact hle
  | mark c => exact Nat.le_of_add_right_le hle

/-- **The place of a lexeme** is the place at the index of its edge. -/
theorem At.anchorAt_eq (h : At cs i x) : anchorAt .start cs i x = .ofIndex cs (x.edge i) := by
  rw [← Position.advance_take h.edge_le_length]
  cases x with
  | number | mark => rfl

/-- **Lexemes do not overlap.** -/
theorem At.add_length_le (hx : At cs i x) (hy : At cs j y) (hij : i < j) :
    i + x.chars.length ≤ j := by
  induction cs using cut_induction generalizing i j with
  | nil => exact absurd hx not_at_nil
  | cut z cs hz ih =>
    obtain ⟨rfl, rfl⟩ | ⟨i', rfl, hxi⟩ := (at_cut hz).mp hx
    · -- the first lexeme, and one that stands behind it
      obtain ⟨rfl, -⟩ | ⟨j', rfl, -⟩ := (at_cut hz).mp hy
      · exact absurd hij (Nat.lt_irrefl 0)
      · omega
    · obtain ⟨rfl, -⟩ | ⟨j', rfl, hyj⟩ := (at_cut hz).mp hy
      · exact absurd hij (Nat.not_lt_zero _)
      · have hle := ih hxi hyj (by omega)
        omega

theorem Denotes.kind_number {ds : List Char} (h : (number ds).Denotes kind value) :
    kind = .integer := by
  cases h with
  | integer => rfl

theorem Denotes.kind_mark {c : Char} (h : (mark c).Denotes kind value) :
    kind ∈ [.operator, .leftParen, .rightParen] := by
  cases h with
  | operator | opening | closing => decide

end Lexeme

open Lexeme (At)

/-! ### Tokens in a text -/

/-- **The token of a lexeme in a text**: it stands for the lexeme that starts at the index
`i`, and its position is the place of an edge of this lexeme. -/
def Token.StandsAt (cs : List Char) (i : Nat) (t : Token) : Prop :=
  ∃ x, At cs i x ∧ x.Denotes t.kind t.value ∧ t.position = .ofIndex cs (x.edge i)

/-- **Two tokens in their order**, each with the index at which its lexeme starts. The second
one starts later, its cursor is no smaller, and it is the same exactly if an operator or a
parenthesis stands right behind the run of an integer. -/
structure Token.Spaced (cs : List Char) (p q : Nat × Token) : Prop where
  start_lt : p.1 < q.1
  cursor_le : p.2.position.cursor ≤ q.2.position.cursor
  cursor_eq_iff : p.2.position.cursor = q.2.position.cursor ↔
    p.2.kind = .integer ∧ q.2.kind ∈ [.operator, .leftParen, .rightParen] ∧
      ∃ ds, At cs p.1 (.number ds) ∧ q.1 = p.1 + ds.length

namespace Token

variable {cs : List Char} {i j : Nat} {t u : Token}

theorem StandsAt.exists_ofIndex (h : t.StandsAt cs i) :
    ∃ k ≤ cs.length, t.position = .ofIndex cs k := by
  obtain ⟨x, hx, -, hposition⟩ := h
  exact ⟨x.edge i, hx.edge_le_length, hposition⟩

/-- Tokens whose lexemes start one after the other are in their order. -/
theorem StandsAt.spaced (ht : t.StandsAt cs i) (hu : u.StandsAt cs j) (hij : i < j) :
    Spaced cs (i, t) (j, u) := by
  obtain ⟨x, hx, hdenotes, htpos⟩ := ht
  obtain ⟨y, hy, hdenotes', hupos⟩ := hu
  have hle : i + x.chars.length ≤ j := hx.add_length_le hy hij
  have htcursor : t.position.cursor = x.edge i := by rw [htpos]; rfl
  have hucursor : u.position.cursor = y.edge j := by rw [hupos]; rfl
  have hypos : 0 < y.chars.length := by
    obtain ⟨front, back, -, -, hbetween⟩ := hy
    exact List.length_pos_iff.mpr hbetween.chars_ne_nil
  refine ⟨hij, ?_, ?_⟩
  · rw [htcursor, hucursor]
    cases x <;> cases y <;> simp only [Lexeme.edge, Lexeme.chars] at * <;> omega
  dsimp only
  rw [htcursor, hucursor]
  cases x with
  | mark c =>
    -- both are known by their left edges, or the second one by its right edge
    have hne : (Lexeme.mark c).edge i ≠ y.edge j := by
      cases y <;> simp only [Lexeme.edge] <;> omega
    have hmark := hdenotes.kind_mark
    refine iff_of_false hne fun h => ?_
    rw [h.1] at hmark
    revert hmark
    decide
  | number ds =>
    cases y with
    | number es =>
      -- the second run ends behind the first one
      have hne : (Lexeme.number ds).edge i ≠ (Lexeme.number es).edge j := by
        simp only [Lexeme.edge, Lexeme.chars] at *
        omega
      have hnumber := hdenotes'.kind_number
      refine iff_of_false hne fun h => ?_
      rw [hnumber] at h
      exact absurd h.2.1 (by decide)
    | mark c =>
      refine ⟨fun h => ⟨hdenotes.kind_number, hdenotes'.kind_mark, ds, hx, h.symm⟩, ?_⟩
      rintro ⟨-, -, es, hes, rfl⟩
      obtain hsame := hx.unique hes
      cases hsame
      rfl

end Token

/-! ### The positions of a text -/

variable {source : String} {tokens : List Token} {fault : Fault}

/-- The tokens of a text, each with the index at which its lexeme starts. -/
theorem exists_standsAt (h : tokenize source = .ok tokens) :
    ∃ found : List (Nat × Token), found.map Prod.snd = tokens ∧
      (found.map Prod.fst).Pairwise (· < ·) ∧
      ∀ p ∈ found, p.2.StandsAt source.toList p.1 := by
  obtain ⟨hfault, rfl⟩ := Scan.result_eq_ok_iff.mp h
  obtain ⟨starts, hstarts, hfound⟩ := Scan.exists_starts hfault
  have hlength : starts.length = (Scan.ofSource source).tokens.length := hfound.length_eq
  refine ⟨starts.zip (Scan.ofSource source).tokens, ?_, ?_, ?_⟩
  · exact List.map_snd_zip (Nat.le_of_eq hlength.symm)
  · rw [List.map_fst_zip (Nat.le_of_eq hlength)]
    exact hstarts.sorted
  · intro p hp
    obtain ⟨x, hx, hreading, hposition⟩ := List.forall₂_zip hfound hp
    exact ⟨x, hx, Lexeme.reading_eq_token_iff.mp hreading, hposition.trans hx.anchorAt_eq⟩

/-- The fault of a text has the place of an edge of the lexeme that is refused. -/
theorem exists_faulty_of_tokenize (h : tokenize source = .error fault) :
    ∃ i x, At source.toList i x ∧ x.Faulty fault.cause ∧
      fault.location = some (.ofIndex source.toList (x.edge i)) := by
  obtain ⟨i, x, hx, hreading, hlocation, -⟩ :=
    Scan.exists_of_fault (Scan.result_eq_error_iff.mp h)
  refine ⟨i, x, hx, hx.reading_eq_refused_iff.mp hreading, ?_⟩
  rw [hlocation, hx.anchorAt_eq]

/-- **Positions are true.** The tokens of a text have the places of edges of their lexemes, in
closed form: an integer the place behind its run, any other token the place of its character.
A fault of the spelling has the place behind a run that is out of range, or that of the
character that is refused.

So the cursors of tokens never decrease, and two tokens share one exactly if an operator or a
parenthesis stands right behind the run of an integer. Rows and columns are ordered as cursors
are, and no position counts further than the text is long. -/
theorem tokenize_positions (source : String) :
    (∀ tokens, tokenize source = .ok tokens →
      (∃ found : List (Nat × Token), found.map Prod.snd = tokens ∧
        (∀ p ∈ found, p.2.StandsAt source.toList p.1) ∧
        found.Pairwise (Token.Spaced source.toList)) ∧
      (∀ t ∈ tokens, ∀ u ∈ tokens,
        t.position.Before u.position ↔ t.position.cursor < u.position.cursor) ∧
      ∀ t ∈ tokens, t.position.row + t.position.col ≤ t.position.cursor ∧
        t.position.cursor ≤ source.length) ∧
    ∀ fault, tokenize source = .error fault →
      ∃ i x, At source.toList i x ∧ x.Faulty fault.cause ∧
        ∃ place, fault.location = some place ∧ place = .ofIndex source.toList (x.edge i) ∧
          place.row + place.col ≤ place.cursor ∧ place.cursor ≤ source.length := by
  refine ⟨fun tokens h => ?_, fun fault h => ?_⟩
  · obtain ⟨found, hfound, hsorted, hstands⟩ := exists_standsAt h
    -- the position of a token is the closed form of an index of the text; all but the spacing
    -- is read off that
    have hplaces : ∀ t ∈ tokens, ∃ k ≤ source.toList.length,
        t.position = .ofIndex source.toList k := by
      intro t ht
      obtain ⟨p, hp, rfl⟩ := List.mem_map.mp (hfound ▸ ht)
      exact (hstands p hp).exists_ofIndex
    refine ⟨⟨found, hfound, hstands, ?_⟩, fun t ht u hu => ?_, fun t ht => ?_⟩
    · -- the spacing needs the lexemes: the right edge of one may be the left edge of the next
      refine (List.pairwise_map.mp hsorted).imp_of_mem fun hp hq hlt => ?_
      exact (hstands _ hp).spaced (hstands _ hq) hlt
    · -- the closed form is monotone, so cursors and places are ordered alike
      obtain ⟨i, hi, hti⟩ := hplaces t ht
      obtain ⟨j, hj, huj⟩ := hplaces u hu
      rw [hti, huj]
      exact Position.before_ofIndex_iff hi hj
    · obtain ⟨k, hk, htk⟩ := hplaces t ht
      rw [htk]
      exact ⟨Position.row_add_col_ofIndex_le hk, hk⟩
  · -- a fault has the place of an edge too
    obtain ⟨i, x, hx, hfaulty, hlocation⟩ := exists_faulty_of_tokenize h
    exact ⟨i, x, hx, hfaulty, _, hlocation, rfl,
      Position.row_add_col_ofIndex_le hx.edge_le_length, hx.edge_le_length⟩

/-- An operator that touches an integer has its cursor, a parenthesis behind a pair of line
breaks starts a row, and a run that is out of range ends its line. -/
theorem tokenize_positions_touching :
    (tokenize "12+\r\n(" = .ok [⟨.integer, ⟨2, 0, 2⟩, some (.integer 12)⟩,
        ⟨.operator, ⟨2, 0, 2⟩, some (.symbol '+')⟩, ⟨.leftParen, ⟨5, 2, 0⟩, none⟩] ∧
      ∃ found : List (Nat × Token),
        found.map Prod.snd = [⟨.integer, ⟨2, 0, 2⟩, some (.integer 12)⟩,
          ⟨.operator, ⟨2, 0, 2⟩, some (.symbol '+')⟩, ⟨.leftParen, ⟨5, 2, 0⟩, none⟩] ∧
        (∀ p ∈ found, p.2.StandsAt "12+\r\n(".toList p.1) ∧
        found.Pairwise (Token.Spaced "12+\r\n(".toList)) ∧
    tokenize "\n 9223372036854775808\r"
      = .error (.malformed (.integerOutOfRange "9223372036854775808") ⟨21, 1, 20⟩) ∧
    ∃ i x, At "\n 9223372036854775808\r".toList i x ∧
      x.Faulty (.malformed (.integerOutOfRange "9223372036854775808")) ∧
      (⟨21, 1, 20⟩ : Position) = .ofIndex "\n 9223372036854775808\r".toList (x.edge i) := by
  have htokens : tokenize "12+\r\n(" = .ok [⟨.integer, ⟨2, 0, 2⟩, some (.integer 12)⟩,
      ⟨.operator, ⟨2, 0, 2⟩, some (.symbol '+')⟩, ⟨.leftParen, ⟨5, 2, 0⟩, none⟩] := rfl
  have hfault : tokenize "\n 9223372036854775808\r"
      = .error (.malformed (.integerOutOfRange "9223372036854775808") ⟨21, 1, 20⟩) := rfl
  refine ⟨⟨htokens, ((tokenize_positions _).1 _ htokens).1⟩, hfault, ?_⟩
  obtain ⟨i, x, hx, hfaulty, place, hlocation, hplace, -⟩ := (tokenize_positions _).2 _ hfault
  cases hlocation
  exact ⟨i, x, hx, hfaulty, hplace⟩

end ArithTree
