import ArithTree.Proofs.Carets

/-!
# The alignment of a report

Below its heading and its place, a report shows some lines of the source text, each behind
its number, and a caret. Three numbers with different numbers of digits may stand below each
other, and the caret has no number at all. This module says that all of them keep to one
column (`Report.context_aligned`).

* `Report.Shows` — a line of the report shows a line of the source: it is `width + 3`
  characters of margin, with the number of the line at the right edge of a column of `width`
  characters, and then the line itself.
* `Report.caretLine` — the caret behind the same margin and as many blanks as its column
  says.
* `Report.Aligned` — the lines that are shown, from top to bottom.

A number fits its column because no line that is shown has a larger number than the line
below the one of the place, and it is the number of that line which the width is taken
from, whether or not there is such a line.
-/

namespace ArithTree

open Text (Span Style isLineBreak)

/-! ### Lines and their numbers -/

namespace Text

variable {cs l : List Char} {c : Char}

/-- A character of a line is a character of the text, and one that ends no line. -/
theorem of_mem_lines (hl : l ∈ lines cs) (hc : c ∈ l) : c ∈ cs ∧ ¬ isLineBreak c := by
  induction cs generalizing l with
  | nil =>
    rw [lines_nil, List.mem_singleton] at hl
    rw [hl] at hc
    cases hc
  | cons d cs ih =>
    -- all but the character in front is known of the lines of `cs`
    have hrest : ∀ m ∈ lines cs, c ∈ m → c ∈ d :: cs ∧ ¬ isLineBreak c := fun m hm hc =>
      (ih hm hc).imp_left (List.mem_cons_of_mem d)
    rw [lines_cons] at hl
    split at hl
    · obtain rfl | hl := List.mem_cons.mp hl
      · cases hc
      · exact hrest l hl hc
    · next hd =>
      obtain ⟨first, others, hlines⟩ := List.exists_cons_of_ne_nil (lines_ne_nil cs)
      rw [hlines] at hl hrest
      obtain rfl | hl := List.mem_cons.mp hl
      · obtain rfl | hc := List.mem_cons.mp hc
        · exact ⟨List.mem_cons_self, hd⟩
        · exact hrest first List.mem_cons_self hc
      · exact hrest l (List.mem_cons_of_mem _ hl) hc

theorem isDigit_of_mem_toString {n : Nat} (hc : c ∈ (toString n).toList) : c.isDigit := by
  rw [Nat.toString_eq_ofList_toDigits, String.toList_ofList] at hc
  exact Nat.isDigit_of_mem_toDigits (by decide) (by decide) hc

/-- A text that is moved to the right edge of a column has blanks in front of it, as many
as are missing to the width. -/
theorem toList_alignRight (width : Nat) (s : String) :
    (alignRight width s).toList = List.replicate (width - s.length) ' ' ++ s.toList := by
  rw [alignRight, String.toList_ofList, List.leftpad, String.length_toList]

/-- Without colours a span is its text. -/
theorem Span.toList_render_cons (x : Span) (xs : List Span) :
    (Span.render false (x :: xs)).toList = x.text.toList ++ (Span.render false xs).toList := by
  rw [Span.render_cons, String.toList_append]
  simp [Span.render, Span.plain]

end Text

namespace Report

variable {lines : List (List Char)} {width row col : Nat} {shown line : List Char}
  {place : Position}

/-! ### One line of a report -/

/-- **A line behind its number.** The row is one of the lines; behind the first `width + 3`
characters stands the line as it is; and these are two blanks, the number of the line at the
right edge of a column of `width` characters, and one more blank. -/
structure Shows (lines : List (List Char)) (width row : Nat) (shown : List Char) : Prop where
  row_lt : row < lines.length
  line_eq : shown.drop (width + 3) = lines[row]
  margin_eq : ∃ blanks, blanks + (toString (row + 1)).length = width ∧
    shown.take (width + 3)
      = [' ', ' '] ++ (List.replicate blanks ' ' ++ (toString (row + 1)).toList) ++ [' ']

/-- The caret below the column `col` of a line that is shown behind its number. -/
def caretLine (width col : Nat) : List Char :=
  List.replicate (width + 3 + col) ' ' ++ ['^']

/-- A line behind its number, put together from its parts. -/
def numberedLine (width row : Nat) (line : List Char) : List Char :=
  [' ', ' '] ++ (Text.alignRight width (toString (row + 1))).toList ++ [' '] ++ line

/-- A number that fits its column leaves the line behind the margin. -/
theorem shows_numberedLine (hline : lines[row]? = some line)
    (hwidth : (toString (row + 1)).length ≤ width) :
    Shows lines width row (numberedLine width row line) := by
  obtain ⟨hrow, hline⟩ := List.getElem?_eq_some_iff.mp hline
  have hmargin : ([' ', ' '] ++ (Text.alignRight width (toString (row + 1))).toList
      ++ [' ']).length = width + 3 := by
    have hnumber := Text.length_alignRight hwidth
    rw [← String.length_toList] at hnumber
    simp only [List.length_append, List.length_cons, List.length_nil, hnumber]
    omega
  refine ⟨hrow, ?_, width - (toString (row + 1)).length, Nat.sub_add_cancel hwidth, ?_⟩
  · rw [numberedLine, List.drop_left' hmargin, hline]
  · rw [numberedLine, List.take_left' hmargin, Text.toList_alignRight]

/-- What stands above the caret is the character of the line in the column of the caret, if
the line is that long. -/
theorem Shows.getElem?_column (h : Shows lines width row shown) (col : Nat) :
    shown[width + 3 + col]? = (lines[row]?).bind (·[col]?) := by
  rw [← List.getElem?_drop, h.line_eq, List.getElem?_eq_getElem h.row_lt]
  rfl

theorem not_isLineBreak_numberedLine (hline : ∀ c ∈ line, ¬ isLineBreak c) :
    ∀ c ∈ numberedLine width row line, ¬ isLineBreak c := by
  intro c hc
  rw [numberedLine, Text.toList_alignRight] at hc
  simp only [List.mem_append, List.mem_cons, List.not_mem_nil, or_false, List.mem_replicate]
    at hc
  obtain (((rfl | rfl) | ⟨-, rfl⟩ | hdigit) | rfl) | hc := hc
  · decide
  · decide
  · decide
  · intro hbreak
    exact not_isDigit_of_isBlank (Lexeme.isBlank_of_isLineBreak hbreak)
      (Text.isDigit_of_mem_toString hdigit)
  · decide
  · exact hline c hc

theorem not_isLineBreak_caretLine : ∀ c ∈ caretLine width col, ¬ isLineBreak c := by
  intro c hc
  obtain hc | hc := List.mem_append.mp hc
  · rw [List.eq_of_mem_replicate hc]
    decide
  · rw [List.mem_singleton.mp hc]
    decide

/-! ### The lines around a place -/

/-- The row above, unless the first row is the one of the place. -/
def rowsAbove (row : Nat) : List Nat :=
  if row = 0 then [] else [row - 1]

/-- The row below, if there is one. -/
def rowsBelow (row count : Nat) : List Nat :=
  if row + 1 < count then [row + 1] else []

/-- **The lines of a report around a place.** Around a place behind the last line there are
none. Around any other place the report shows the line above it, if there is one, the line
of the place, the caret, and the line below, if there is one. All numbers share one column,
and the caret stands below the column of the place. -/
structure Aligned (lines : List (List Char)) (width : Nat) (place : Position)
    (shown : List (List Char)) : Prop where
  outside : lines.length ≤ place.row → shown = []
  inside : place.row < lines.length → ∃ above marked below,
    shown = above ++ [marked, caretLine width place.col] ++ below ∧
    List.Forall₂ (Shows lines width) (rowsAbove place.row) above ∧
    Shows lines width place.row marked ∧
    List.Forall₂ (Shows lines width) (rowsBelow place.row lines.length) below ∧
    marked[width + 3 + place.col]? = (lines[place.row]?).bind (·[place.col]?)

/-- Some rows of the text, each as a line behind its number. -/
def numberedLines (lines : List (List Char)) (width : Nat) (rows : List Nat) :
    List (List Char) :=
  rows.map fun row => numberedLine width row ((lines[row]?).getD [])

/-- The lines of a report around a place, put together from their parts. -/
def contextLines (lines : List (List Char)) (place : Position) : List (List Char) :=
  if place.row < lines.length then
    numberedLines lines (gutter place.row) (rowsAbove place.row) ++
      [numberedLine (gutter place.row) place.row ((lines[place.row]?).getD []),
        caretLine (gutter place.row) place.col] ++
      numberedLines lines (gutter place.row) (rowsBelow place.row lines.length)
  else []

/-! What these lines come to as text. -/

/-- Some lines as text, each with the character that ends it. -/
def unlines (shown : List (List Char)) : List Char :=
  shown.flatMap (· ++ ['\n'])

@[simp] theorem unlines_nil : unlines [] = [] := rfl

@[simp] theorem unlines_cons (l : List Char) (shown : List (List Char)) :
    unlines (l :: shown) = l ++ '\n' :: unlines shown := by
  simp [unlines]

@[simp] theorem unlines_append (xs ys : List (List Char)) :
    unlines (xs ++ ys) = unlines xs ++ unlines ys :=
  List.flatMap_append

theorem toList_numbered (hrow : row < lines.length) (style : Style) (width : Nat) :
    (Span.render false (numbered style width row lines[row])).toList
      = unlines [numberedLine width row ((lines[row]?).getD [])] := by
  unfold numbered
  rw [List.getElem?_eq_getElem hrow, Option.getD_some]
  simp [Text.Span.toList_render_cons, Span.bare, Span.styled, numberedLine,
    String.toList_append]

theorem toList_caret (width col : Nat) :
    (Span.render false (caret width col)).toList = unlines [caretLine width col] := by
  simp [caret, Text.Span.toList_render_cons, Span.bare, Span.styled, Text.blanks, caretLine]

/-- **What a report shows around a place**, as lines. -/
theorem toList_context (lines : List (List Char)) (place : Position) :
    (Span.render false (context lines place)).toList = unlines (contextLines lines place) := by
  unfold context contextLines
  split
  · next hrow =>
    -- the lines above and below may be missing; then both sides have nothing there
    have habove : (Span.render false (if place.row = 0 then []
          else numbered .blue (gutter place.row) (place.row - 1) lines[place.row - 1])).toList
        = unlines (numberedLines lines (gutter place.row) (rowsAbove place.row)) := by
      unfold rowsAbove
      split
      · simp [numberedLines]
      · exact toList_numbered ..
    have hbelow : (Span.render false (if hbelow : place.row + 1 < lines.length then
          numbered .blue (gutter place.row) (place.row + 1) lines[place.row + 1] else [])).toList
        = unlines (numberedLines lines (gutter place.row) (rowsBelow place.row lines.length)) := by
      unfold rowsBelow
      split
      · exact toList_numbered ..
      · simp [numberedLines]
    simp only [Text.Span.render_append, String.toList_append, habove, hbelow, toList_caret,
      toList_numbered hrow, ← unlines_append, List.append_assoc, List.cons_append,
      List.nil_append]
  · simp

/-! ### The lines are aligned -/

/-- The rows around a row of the text are rows of the text, and none of them is more than
one line below it. -/
theorem lt_and_le_of_mem_rows (hrow : row < lines.length) {i : Nat}
    (hi : i ∈ rowsAbove row ∨ i ∈ rowsBelow row lines.length) :
    i < lines.length ∧ i + 1 ≤ row + 2 := by
  unfold rowsAbove rowsBelow at hi
  obtain hi | hi := hi
  · split at hi
    · cases hi
    · rw [List.mem_singleton.mp hi]
      omega
  · split at hi
    · rw [List.mem_singleton.mp hi]
      omega
    · cases hi

/-- A row of the text whose number fits the column of numbers is shown behind it. -/
theorem shows_of_row (hlt : row < lines.length) (hle : row + 1 ≤ place.row + 2) :
    Shows lines (gutter place.row) row
      (numberedLine (gutter place.row) row ((lines[row]?).getD [])) := by
  refine shows_numberedLine ?_ (Text.length_toString_mono hle)
  rw [List.getElem?_eq_getElem hlt, Option.getD_some]

theorem aligned_contextLines (lines : List (List Char)) (place : Position) :
    Aligned lines (gutter place.row) place (contextLines lines place) := by
  refine ⟨fun hout => if_neg (Nat.not_lt_of_le hout), fun hrow => ?_⟩
  -- the width is taken from the largest number that can be shown
  have hshows : ∀ i, i ∈ rowsAbove place.row ∨ i ∈ rowsBelow place.row lines.length →
      Shows lines (gutter place.row) i
        (numberedLine (gutter place.row) i ((lines[i]?).getD [])) := by
    intro i hi
    obtain ⟨hlt, hle⟩ := lt_and_le_of_mem_rows hrow hi
    exact shows_of_row hlt hle
  have hline := shows_of_row hrow (Nat.le_succ (place.row + 1))
  refine ⟨_, _, _, if_pos hrow, ?_, hline, ?_, hline.getElem?_column place.col⟩
  · rw [numberedLines, List.forall₂_map_right_iff, List.forall₂_same]
    exact fun i hi => hshows i (.inl hi)
  · rw [numberedLines, List.forall₂_map_right_iff, List.forall₂_same]
    exact fun i hi => hshows i (.inr hi)

theorem not_isLineBreak_of_mem_contextLines (hlines : ∀ l ∈ lines, ∀ c ∈ l, ¬ isLineBreak c) :
    ∀ l ∈ contextLines lines place, ∀ c ∈ l, ¬ isLineBreak c := by
  have hrow : ∀ i, ∀ c ∈ numberedLine (gutter place.row) i ((lines[i]?).getD []),
      ¬ isLineBreak c := by
    intro i
    apply not_isLineBreak_numberedLine
    cases hline : lines[i]? with
    | none => exact nofun
    | some line => exact hlines line (List.mem_of_getElem? hline)
  intro l hl
  unfold contextLines at hl
  split at hl
  · simp only [List.mem_append, List.mem_cons, List.not_mem_nil, or_false] at hl
    obtain (hl | rfl | rfl) | hl := hl
    · obtain ⟨i, -, rfl⟩ := List.mem_map.mp hl
      exact hrow i
    · exact hrow place.row
    · exact not_isLineBreak_caretLine
    · obtain ⟨i, -, rfl⟩ := List.mem_map.mp hl
      exact hrow i
  · cases hl

/-- **Reports are aligned.** With colours off, a report that has the source text is the
report without it, followed by the lines around the place. Each of these is a line of its
own, and they are aligned in a column as wide as the number two lines further than the row
of the place. -/
theorem context_aligned (cause : Cause) (place : Position) (source : String)
    (file : Option String) :
    ∃ shown : List (List Char),
      (render ⟨⟨cause, some place⟩, some source, file⟩ false).toList
        = (render ⟨⟨cause, some place⟩, none, file⟩ false).toList
          ++ shown.flatMap (· ++ ['\n']) ∧
      (∀ l ∈ shown, ∀ c ∈ l, ¬ isLineBreak c) ∧
      Aligned (Text.lines source.toList) (toString (place.row + 2)).length place shown := by
  refine ⟨contextLines (Text.lines source.toList) place, ?_, ?_, ?_⟩
  · -- the source is the last thing that a report comes to, so it only adds to the text
    show _ = _ ++ unlines _
    rw [← toList_context, ← String.toList_append]
    simp only [render, spans, Text.Span.render_append, Text.Span.render_nil, String.append_assoc,
      String.append_empty]
  · exact not_isLineBreak_of_mem_contextLines fun l hl c hc => (Text.of_mem_lines hl hc).2
  · exact aligned_contextLines _ place

/-- The last of nine lines, in a column that has room for the number of a tenth. -/
theorem context_aligned_last_of_nine :
    ∃ shown above marked,
      (render ⟨⟨.malformed .unexpectedRightParen, some ⟨9, 8, 1⟩⟩,
          some "\n\n\n\n\n\n\n8\n9)", none⟩ false).toList
        = (render ⟨⟨.malformed .unexpectedRightParen, some ⟨9, 8, 1⟩⟩, none, none⟩ false).toList
          ++ shown.flatMap (· ++ ['\n']) ∧
      shown = above ++ [marked, caretLine 2 1] ++ [] ∧
      List.Forall₂ (Shows (Text.lines "\n\n\n\n\n\n\n8\n9)".toList) 2) [7] above ∧
      Shows (Text.lines "\n\n\n\n\n\n\n8\n9)".toList) 2 8 marked ∧ marked[6]? = some ')' := by
  obtain ⟨shown, htext, -, haligned⟩ := context_aligned (.malformed .unexpectedRightParen)
    ⟨9, 8, 1⟩ "\n\n\n\n\n\n\n8\n9)" none
  have hlength : (Text.lines "\n\n\n\n\n\n\n8\n9)".toList).length = 9 := rfl
  obtain ⟨above, marked, below, hshown, habove, hline, hbelow, hcolumn⟩ :=
    haligned.inside (by rw [hlength]; decide)
  -- there is no tenth line
  rw [hlength] at hbelow
  obtain rfl : below = [] := List.forall₂_nil_left_iff.mp hbelow
  exact ⟨shown, above, marked, htext, hshown, habove, hline, hcolumn⟩

end Report

end ArithTree
