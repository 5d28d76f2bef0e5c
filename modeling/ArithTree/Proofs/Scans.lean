import ArithTree.Proofs.Cuts
import ArithTree.Token.Scan
import Mathlib.Data.List.Forall2

/-!
# What a scan finds, and where

A scan walks over the lexemes of a text and keeps a place. This module says what
it comes to without the walk: each token and the fault belong to a lexeme that
stands in the text (`Lexeme.At`), and their place is the place of an edge of that
lexeme (`Lexeme.anchorAt`).

* `Scan.exists_starts` — the tokens of a scan without a fault, one for each lexeme
  that is read as a token, in the order in which they start.
* `Scan.exists_foundAt` — the same of one token.
* `Scan.exists_of_fault` — the fault of a scan is that of the first lexeme that is
  refused.
* `Scan.fault_eq_none_iff` — there is none when no lexeme is refused.

The proofs follow the cuts of the text.
-/

namespace ArithTree

namespace Lexeme

variable {place : Position} {cs : List Char} {x : Lexeme} {i : Nat}

/-- The place that a lexeme is known by which starts at the index `i` of a text,
if the text starts at `place`. -/
def anchorAt (place : Position) (cs : List Char) (i : Nat) (x : Lexeme) : Position :=
  x.anchor (place.advance (cs.take i)) (place.advance (cs.take (i + x.chars.length)))

theorem anchorAt_zero : anchorAt place (x.chars ++ cs) 0 x
    = x.anchor place (place.advance x.chars) := by
  rw [anchorAt, Nat.zero_add, List.take_zero, List.take_left]
  rfl

theorem anchorAt_append (front : List Char) : anchorAt place (front ++ cs) (front.length + i) x
    = anchorAt (place.advance front) cs i x := by
  unfold anchorAt
  rw [Nat.add_assoc, List.take_length_add_append, List.take_length_add_append,
    Position.advance_append, Position.advance_append]

end Lexeme

open Lexeme (At Between anchorAt)

/-- The token belongs to the lexeme that starts at the index `i` of a text. -/
def Token.FoundAt (place : Position) (cs : List Char) (i : Nat) (t : Token) : Prop :=
  ∃ x, At cs i x ∧ x.reading = .token t.kind t.value ∧ t.position = anchorAt place cs i x

theorem Token.FoundAt.cut {place : Position} {cs : List Char} {x : Lexeme} {i : Nat} {t : Token}
    (hx : Between [] x cs) (h : FoundAt (place.advance x.chars) cs i t) :
    FoundAt place (x.chars ++ cs) (x.chars.length + i) t := by
  obtain ⟨y, hy, hreading, hposition⟩ := h
  refine ⟨y, (Lexeme.at_cut hx).mpr (.inr ⟨i, rfl, hy⟩), hreading, ?_⟩
  rw [hposition, Lexeme.anchorAt_append]

namespace Scan

variable {place : Position} {cs : List Char} {tokens : List Token} {fault : Fault}

theorem result_eq_ok_iff {scan : Scan} :
    scan.result = .ok tokens ↔ scan.fault = none ∧ scan.tokens = tokens := by
  unfold result
  cases scan.fault <;> simp

theorem result_eq_error_iff {scan : Scan} :
    scan.result = .error fault ↔ scan.fault = some fault := by
  unfold result
  cases scan.fault <;> simp

/-! ### Tokens -/

/-- **The tokens of a text.** There is one for each lexeme that is read as a token,
in the order in which these lexemes start. -/
theorem exists_starts (h : (ofLexemes place (Lexeme.ofChars cs)).fault = none) :
    ∃ starts, Lexeme.Starts (fun x => ∃ kind value, x.reading = .token kind value) cs starts ∧
      List.Forall₂ (Token.FoundAt place cs) starts
        (ofLexemes place (Lexeme.ofChars cs)).tokens := by
  induction cs using Lexeme.cut_induction generalizing place with
  | nil => exact ⟨[], .nil, .nil⟩
  | cut x cs hx ih =>
    rw [Lexeme.ofChars_cut hx] at h ⊢
    cases hreading : x.reading with
    | refused cause => simp [ofLexemes, hreading] at h
    | blank =>
      simp only [ofLexemes, hreading] at h ⊢
      obtain ⟨starts, hstarts, hfound⟩ := ih h
      refine ⟨_, hstarts.skip hx (by simp [hreading]), ?_⟩
      rw [List.forall₂_map_left_iff]
      exact hfound.imp fun i t ht => ht.cut hx
    | token kind value =>
      simp only [ofLexemes, hreading] at h ⊢
      obtain ⟨starts, hstarts, hfound⟩ := ih h
      refine ⟨_, hstarts.cons hx ⟨kind, value, hreading⟩, .cons ?_ ?_⟩
      · exact ⟨x, (Lexeme.at_cut hx).mpr (.inl ⟨rfl, rfl⟩), hreading, Lexeme.anchorAt_zero.symm⟩
      · rw [List.forall₂_map_left_iff]
        exact hfound.imp fun i t ht => ht.cut hx

/-- Every token of a text was found at a lexeme. -/
theorem exists_foundAt {t : Token}
    (h : (ofLexemes place (Lexeme.ofChars cs)).fault = none)
    (ht : t ∈ (ofLexemes place (Lexeme.ofChars cs)).tokens) : ∃ i, t.FoundAt place cs i := by
  obtain ⟨starts, -, hfound⟩ := exists_starts h
  obtain ⟨k, rfl⟩ := List.mem_iff_get.mp ht
  have hk : k < starts.length := by
    rw [hfound.length_eq]
    exact k.isLt
  exact ⟨_, hfound.get hk k.isLt⟩

/-! ### The fault -/

/-- **A text without a fault** has no lexeme that is refused. -/
theorem fault_eq_none_iff :
    (ofLexemes place (Lexeme.ofChars cs)).fault = none ↔
      ∀ i x cause, At cs i x → x.reading ≠ .refused cause := by
  induction cs using Lexeme.cut_induction generalizing place with
  | nil => simp [Lexeme.ofChars, ofLexemes, Lexeme.not_at_nil]
  | cut x cs hx ih =>
    rw [Lexeme.ofChars_cut hx]
    -- a lexeme that is not refused does not matter to the rest
    have hrest : (∀ cause, x.reading ≠ .refused cause) →
        ((ofLexemes (place.advance x.chars) (Lexeme.ofChars cs)).fault = none ↔
          ∀ i y cause, At (x.chars ++ cs) i y → y.reading ≠ .refused cause) := by
      intro hfirst
      rw [ih]
      constructor
      · intro h i y cause hy
        obtain ⟨-, rfl⟩ | ⟨j, -, hy⟩ := (Lexeme.at_cut hx).mp hy
        · exact hfirst cause
        · exact h j y cause hy
      · exact fun h i y cause hy => h _ y cause ((Lexeme.at_cut hx).mpr (.inr ⟨i, rfl, hy⟩))
    cases hreading : x.reading with
    | blank | token => simpa [ofLexemes, hreading] using hrest
    | refused cause =>
      simp only [ofLexemes, hreading, reduceCtorEq, false_iff, not_forall]
      exact ⟨0, x, cause, (Lexeme.at_cut hx).mpr (.inl ⟨rfl, rfl⟩), fun h => h hreading⟩

/-- **The fault of a text** is that of the first lexeme that is refused. -/
theorem exists_of_fault (h : (ofLexemes place (Lexeme.ofChars cs)).fault = some fault) :
    ∃ i x, At cs i x ∧ x.reading = .refused fault.cause ∧
      fault.location = some (anchorAt place cs i x) ∧
      ∀ j y cause, At cs j y → y.reading = .refused cause → i ≤ j := by
  induction cs using Lexeme.cut_induction generalizing place with
  | nil => cases h
  | cut x cs hx ih =>
    rw [Lexeme.ofChars_cut hx] at h
    -- what is first behind a lexeme that is not refused is first in the whole text
    have hrest : (∀ cause, x.reading ≠ .refused cause) →
        (ofLexemes (place.advance x.chars) (Lexeme.ofChars cs)).fault = some fault →
        ∃ i y, At (x.chars ++ cs) i y ∧ y.reading = .refused fault.cause ∧
          fault.location = some (anchorAt place (x.chars ++ cs) i y) ∧
          ∀ j z cause, At (x.chars ++ cs) j z → z.reading = .refused cause → i ≤ j := by
      intro hfirst h
      obtain ⟨i, y, hy, hr, hlocation, hleft⟩ := ih h
      refine ⟨x.chars.length + i, y, (Lexeme.at_cut hx).mpr (.inr ⟨i, rfl, hy⟩), hr, ?_, ?_⟩
      · rw [hlocation, Lexeme.anchorAt_append]
      · intro j z cause hz hzr
        obtain ⟨-, rfl⟩ | ⟨k, rfl, hzk⟩ := (Lexeme.at_cut hx).mp hz
        · exact absurd hzr (hfirst cause)
        · exact Nat.add_le_add_left (hleft k z cause hzk hzr) _
    cases hreading : x.reading with
    | blank | token =>
      simp only [ofLexemes, hreading] at h
      exact hrest (by simp [hreading]) h
    | refused cause =>
      simp only [ofLexemes, hreading, Option.some.injEq] at h
      subst h
      refine ⟨0, x, (Lexeme.at_cut hx).mpr (.inl ⟨rfl, rfl⟩), hreading, ?_, ?_⟩
      · rw [Lexeme.anchorAt_zero]
      · exact fun j _ _ _ _ => Nat.zero_le j

/-- A lexeme that is refused, and before which none is, gives the fault. -/
theorem fault_eq_some_of_first {i : Nat} {x : Lexeme} {cause : Cause} (hx : At cs i x)
    (hreading : x.reading = .refused cause)
    (hfirst : ∀ j y cause, At cs j y → y.reading = .refused cause → i ≤ j) :
    (ofLexemes place (Lexeme.ofChars cs)).fault = some ⟨cause, some (anchorAt place cs i x)⟩ := by
  cases h : (ofLexemes place (Lexeme.ofChars cs)).fault with
  | none => exact absurd hreading (fault_eq_none_iff.mp h i x cause hx)
  | some fault =>
    obtain ⟨j, y, hy, hreading', hlocation, hfirst'⟩ := exists_of_fault h
    -- neither of the two stands before the other
    have hij : i = j :=
      Nat.le_antisymm (hfirst j y _ hy hreading') (hfirst' i x _ hx hreading)
    subst hij
    obtain rfl := hx.unique hy
    obtain ⟨cause', location⟩ := fault
    cases hreading.symm.trans hreading'
    cases hlocation
    rfl

end Scan

end ArithTree
