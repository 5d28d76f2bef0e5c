import ArithTree.Position
import Mathlib.Algebra.GroupWithZero.Nat
import Mathlib.Data.List.Induction

/-!
# Rows and lines

A place is found by walking over a text, one character after the other, and the
lines of a text by splitting it. The two are told apart nowhere: the row of a place
is an index into the lines, and its column an index into that line.

`Text.Broken` describes both at once for the text before a place. What stands before
it is some lines that have ended (`above`) and the start of a line that has not
(`left`). Whatever follows goes on with `left`, and the place counts the two.
`Text.exists_broken` says that every text falls apart like this, by induction from its
end, and `Text.Broken.fits` draws the conclusions.
-/

namespace ArithTree

/-- **The place fits the text**: it is a place in `l`, which is a line of the text, and
the lines above with a break behind each of them, and the characters to its left, are
what its cursor counts. -/
structure Position.Fits (place : Position) (cs l : List Char) : Prop where
  line_eq : (Text.lines cs)[place.row]? = some l
  col_le : place.col ≤ l.length
  cursor_eq : (((Text.lines cs).take place.row).map List.length).sum + place.row + place.col
    = place.cursor
  char_eq : place.col < l.length → l[place.col]? = cs[place.cursor]?

namespace Text

variable {front back ds left : List Char} {above : List (List Char)} {c : Char}

/-- A character that ends no line stands in front of the first one. -/
theorem lines_cons_of_not_isLineBreak (hc : ¬ isLineBreak c) (cs : List Char) :
    lines (c :: cs) = (lines cs).modifyHead (c :: ·) := by
  rw [lines_cons, if_neg hc]

/-- The first line of a text starts as the text does, unless it is empty. -/
theorem getElem?_head_lines (h : 0 < ((lines back).head (lines_ne_nil back)).length) :
    ((lines back).head (lines_ne_nil back))[0]? = back[0]? := by
  cases back with
  | nil => simp at h
  | cons c back =>
    by_cases hc : isLineBreak c
    · simp [lines_cons, hc] at h
    · simp [lines_cons, hc]

theorem length_head_lines_pos (hc : ¬ isLineBreak c) :
    0 < ((lines (c :: back)).head (lines_ne_nil _)).length := by
  simp [lines_cons, hc]

/-- **What stands before a place**: the lines `above`, and the start `left` of the
line that follows them. -/
structure Broken (front : List Char) (above : List (List Char)) (left : List Char) : Prop where
  lines_append : ∀ back, lines (front ++ back) = above ++ (lines back).modifyHead (left ++ ·)
  place_eq : Position.start.advance front
    = ⟨(above.map List.length).sum + above.length + left.length, above.length, left.length⟩

theorem Broken.nil : Broken [] [] [] where
  lines_append back := by
    simp only [List.nil_append]
    cases lines back <;> rfl
  place_eq := rfl

/-- **One character further.** A line break ends the line, all else belongs to
it. -/
theorem Broken.snoc (h : Broken front above left) :
    Broken (front ++ [c]) (if isLineBreak c then above ++ [left] else above)
      (if isLineBreak c then [] else left ++ [c]) := by
  have hadvance : Position.start.advance (front ++ [c])
      = (Position.start.advance front).step c := by
    rw [Position.advance_append]
    rfl
  by_cases hc : isLineBreak c
  · rw [if_pos hc, if_pos hc]
    refine ⟨fun back => ?_, ?_⟩
    · rw [← List.append_cons, h.lines_append, lines_cons, if_pos hc, List.modifyHead_cons,
        List.append_nil, ← List.append_cons]
      cases lines back <;> simp
    · rw [hadvance, h.place_eq, Position.step, if_pos hc]
      simp only [List.map_append, List.sum_append, List.length_append, List.map_cons, List.map_nil,
        List.sum_cons, List.sum_nil, List.length_cons, List.length_nil, Position.mk.injEq, and_self,
        and_true]
      omega
  · rw [if_neg hc, if_neg hc]
    refine ⟨fun back => ?_, ?_⟩
    · rw [← List.append_cons, h.lines_append, lines_cons_of_not_isLineBreak hc]
      cases lines back <;> simp
    · rw [hadvance, h.place_eq, Position.step, if_neg hc, List.length_append]
      rfl

/-- **Every text falls apart** into lines that have ended and the start of one that
has not. -/
theorem exists_broken (front : List Char) : ∃ above left, Broken front above left := by
  induction front using List.reverseRecOn with
  | nil => exact ⟨[], [], .nil⟩
  | append_singleton front c ih =>
    obtain ⟨above, left, h⟩ := ih
    exact ⟨_, _, h.snoc⟩

/-- Characters that end no line all belong to it. -/
theorem Broken.append (h : Broken front above left) (hds : ∀ d ∈ ds, ¬ isLineBreak d) :
    Broken (front ++ ds) above (left ++ ds) := by
  induction ds using List.reverseRecOn with
  | nil => simpa using h
  | append_singleton ds d ih =>
    have hd : ¬ isLineBreak d := hds d (by simp)
    have hsnoc := (ih fun e he => hds e (by simp [he])).snoc (c := d)
    rwa [if_neg hd, if_neg hd, List.append_assoc, List.append_assoc] at hsnoc

/-- **The place behind a text fits every text that goes on from there**, on the line
that starts with what is left of the text before it. -/
theorem Broken.fits (h : Broken front above left) (back : List Char) :
    (Position.start.advance front).Fits (front ++ back)
      (left ++ (lines back).head (lines_ne_nil back)) := by
  obtain ⟨line, below, hback⟩ := List.exists_cons_of_ne_nil (lines_ne_nil back)
  have hlines : lines (front ++ back) = above ++ (left ++ line) :: below := by
    rw [h.lines_append, hback, List.modifyHead_cons]
  have hhead : (lines back).head (lines_ne_nil back) = line := by simp [hback]
  have hcursor : (Position.start.advance front).cursor = front.length := by
    rw [Position.cursor_advance]
    exact Nat.zero_add _
  have hrow : (Position.start.advance front).row = above.length := by rw [h.place_eq]
  have hcol : (Position.start.advance front).col = left.length := by rw [h.place_eq]
  refine ⟨?_, ?_, ?_, ?_⟩
  · rw [hlines, hhead, hrow, List.getElem?_append_right (Nat.le_refl _), Nat.sub_self]
    rfl
  · rw [hcol, List.length_append]
    exact Nat.le_add_right _ _
  · rw [hlines, h.place_eq, List.take_left]
  · intro hlt
    -- past its left part the line is the first line of what follows
    rw [hcol, List.length_append] at hlt
    rw [hcol, hcursor, List.getElem?_append_right (Nat.le_refl _), Nat.sub_self,
      List.getElem?_append_right (Nat.le_refl _), Nat.sub_self]
    exact getElem?_head_lines (by omega)

end Text

end ArithTree
