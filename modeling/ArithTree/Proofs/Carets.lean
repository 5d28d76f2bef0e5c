import ArithTree.Proofs.Blame
import ArithTree.Proofs.Rows
import ArithTree.Report

/-!
# Carets

A report shows the line of a fault and, below it, a caret. This module says that the
caret marks the fault, whatever text the fault is in (`Block.caret_marks_fault`).

The two ends meet in the place of the fault. On the one side it is the place of a
lexeme (`Block.exists_lexeme_of_fault`), so what stands there and what stands before
it is known, and `Text.Broken.fits` says which line of the text that is. On the
other side a report of a place that fits the text shows that line, with the caret
below the column of the place (`Report.caretUnder_context`): the number in front of
the line takes as much room as the report leaves in front of the caret.
-/

namespace ArithTree

open Text (Span Style)

/-! ### What a report shows -/

namespace Text

@[simp] theorem Span.render_append (colour : Bool) (xs ys : List Span) :
    Span.render colour (xs ++ ys) = Span.render colour xs ++ Span.render colour ys := by
  simp [Span.render, String.join_append]

@[simp] theorem Span.render_nil (colour : Bool) : Span.render colour [] = "" := by
  simp [Span.render]

@[simp] theorem Span.render_bare_cons (colour : Bool) (text : String) (xs : List Span) :
    Span.render colour (.bare text :: xs) = text ++ Span.render colour xs := by
  cases colour <;> simp [Span.render, Span.bare, Span.coloured, Span.plain]

theorem Span.render_cons (colour : Bool) (x : Span) (xs : List Span) :
    Span.render colour (x :: xs) = Span.render colour [x] ++ Span.render colour xs := by
  rw [← Span.render_append]
  rfl

/-- What follows the text starts on a line of its own: the text is empty or ends with
a line break. -/
def EndsLine (text : String) : Prop :=
  ∀ c ∈ text.toList.getLast?, c = '\n'

theorem endsLine_append (text : String) : EndsLine (text ++ "\n") := by
  simp [EndsLine, String.toList_append]

theorem length_toString_mono {m n : Nat} (h : m ≤ n) :
    (toString m).length ≤ (toString n).length := by
  have hpos : 0 < (Nat.toDigits 10 n).length := List.length_pos_iff.mpr Nat.toDigits_ne_nil
  simp only [Nat.toString_eq_ofList_toDigits, String.length_ofList]
  rw [Nat.length_toDigits_le_iff (by decide) hpos]
  have hn := (Nat.length_toDigits_le_iff (by decide) hpos).mp (Nat.le_refl _)
  exact Nat.lt_of_le_of_lt h hn

/-- A text that fits a column is filled up to its width. -/
theorem length_alignRight {width : Nat} {s : String} (h : s.length ≤ width) :
    (alignRight width s).length = width := by
  rw [alignRight, String.length_ofList, List.length_leftpad, String.length_toList]
  exact Nat.max_eq_left h

end Text

namespace Report

variable {lines : List (List Char)} {line : List Char} {place : Position}

/-- The number of a line, as a report shows it. -/
def number (row : Nat) : String :=
  Text.alignRight (gutter row) (toString (row + 1))

/-- **A caret below a line.** The text shows `line` behind its number, on a line of
its own, and on the next line a caret. In front of the caret stand as many blanks as
characters stand in front of the column `col` of `line`: two blanks, the number, one
more blank, and `col` characters of `line`. -/
def CaretUnder (colour : Bool) (text : String) (row : Nat) (line : List Char) (col : Nat) :
    Prop :=
  ∃ above below : String, Text.EndsLine above ∧
    text = above ++
      ("  " ++ Span.render colour [.styled .boldBlue (number row)] ++ " " ++ String.ofList line
        ++ "\n") ++
      (Text.blanks (2 + (number row).length + 1 + col) ++ Span.render colour [.styled .boldRed "^"]
        ++ "\n") ++
      below

/-- The number of a line is as wide as the gutter. -/
theorem length_number (row : Nat) : (number row).length = gutter row :=
  Text.length_alignRight (Text.length_toString_mono (by omega))

theorem endsLine_numbered (colour : Bool) (style : Style) (width index : Nat)
    (line : List Char) :
    Text.EndsLine (Span.render colour (numbered style width index line)) := by
  unfold numbered
  simp only [Span.render_bare_cons]
  rw [Span.render_cons, Span.render_bare_cons, Span.render_nil, String.append_empty,
    ← String.append_assoc, ← String.append_assoc]
  exact Text.endsLine_append _

/-- **The lines around a place** show its line, with a caret below its column. -/
theorem caretUnder_context (colour : Bool) (h : lines[place.row]? = some line) :
    CaretUnder colour (Span.render colour (context lines place)) place.row line place.col := by
  obtain ⟨hrow, rfl⟩ := List.getElem?_eq_some_iff.mp h
  have hblanks : 2 + (number place.row).length + 1 + place.col
      = gutter place.row + 3 + place.col := by
    rw [length_number]
    omega
  -- the line and the caret stand between what is shown of the line above and of the one below
  rw [context, dif_pos hrow]
  refine ⟨Span.render colour (if place.row = 0 then []
      else numbered .blue (gutter place.row) (place.row - 1) lines[place.row - 1]),
    Span.render colour (if hbelow : place.row + 1 < lines.length then
      numbered .blue (gutter place.row) (place.row + 1) lines[place.row + 1] else []), ?_, ?_⟩
  · split
    · simp [Text.EndsLine]
    · exact endsLine_numbered colour _ _ _ _
  · rw [hblanks, number]
    simp only [Span.render_append]
    unfold numbered caret
    simp only [Span.render_bare_cons, String.append_assoc]
    rw [Span.render_cons, Span.render_cons colour (.styled .boldRed "^")]
    simp [String.append_assoc]

/-- **Every report of a place that fits the text** ends in the lines around it, and
these show the line of the place with a caret below its column. -/
theorem caretUnder_of_fits {source : String} (cause : Cause) (h : place.Fits source.toList line)
    (file : Option String) (colour : Bool) :
    ∃ head, Text.EndsLine head ∧
      render ⟨⟨cause, some place⟩, some source, file⟩ colour
        = head ++ Span.render colour (context (Text.lines source.toList) place) ∧
      CaretUnder colour (Span.render colour (context (Text.lines source.toList) place))
        place.row line place.col := by
  refine ⟨Span.render colour (title cause ++ pointer file place), ?_, ?_, ?_⟩
  · unfold pointer
    rw [Span.render_append, Span.render_bare_cons, Span.render_cons, Span.render_bare_cons,
      Span.render_nil, String.append_empty]
    simp only [← String.append_assoc]
    exact Text.endsLine_append _
  · rw [← Span.render_append, List.append_assoc]
    rfl
  · exact caretUnder_context colour h.line_eq

end Report

/-! ### The caret of a fault -/

namespace Lexeme

variable {cs : List Char} {i : Nat} {x : Lexeme} {cause : Cause} {ds : List Char} {c : Char}

/-- **The place of a run** is on the line that the run is on, right behind it. -/
theorem At.fits_number (h : At cs i (.number ds)) :
    ∃ line, (anchorAt .start cs i (.number ds)).Fits cs line ∧
      ds <:+ line.take (anchorAt .start cs i (.number ds)).col := by
  obtain ⟨front, back, rfl, rfl, hrun⟩ := h
  have hdigits : ∀ d ∈ ds, d.isDigit := by
    cases hrun with
    | number hrun => exact hrun.digits
  have hbreaks : ∀ d ∈ ds, ¬ Text.isLineBreak d := by
    intro d hd hbreak
    exact not_isDigit_of_isBlank (isBlank_of_isLineBreak hbreak) (hdigits d hd)
  have hanchor : anchorAt .start (front ++ (chars (.number ds) ++ back)) front.length (.number ds)
      = Position.start.advance (front ++ ds) := by
    rw [anchorAt, anchor, List.take_length_add_append, List.take_left]
    rfl
  obtain ⟨above, left, hfront⟩ := Text.exists_broken front
  have hbroken : Text.Broken (front ++ ds) above (left ++ ds) := hfront.append hbreaks
  have hfits := hbroken.fits back
  rw [List.append_assoc front] at hfits
  have hcol : (Position.start.advance (front ++ ds)).col = (left ++ ds).length := by
    rw [hbroken.place_eq]
  rw [hanchor]
  refine ⟨_, hfits, ?_⟩
  rw [hcol, List.take_left]
  exact List.suffix_append left ds

/-- **The place of a character** is the one of the character on its line. -/
theorem At.fits_mark (h : At cs i (.mark c)) (hc : ¬ Text.isLineBreak c) :
    ∃ line, (anchorAt .start cs i (.mark c)).Fits cs line ∧
      (anchorAt .start cs i (.mark c)).col < line.length := by
  obtain ⟨front, back, rfl, rfl, -⟩ := h
  have hanchor : anchorAt .start (front ++ (chars (.mark c) ++ back)) front.length (.mark c)
      = Position.start.advance front := by
    rw [anchorAt, anchor, List.take_left]
  obtain ⟨above, left, hfront⟩ := Text.exists_broken front
  have hcol : (Position.start.advance front).col = left.length := by rw [hfront.place_eq]
  rw [hanchor]
  refine ⟨_, hfront.fits _, ?_⟩
  -- the line goes on with the character
  rw [hcol, List.length_append]
  exact Nat.lt_add_of_pos_right (Text.length_head_lines_pos hc)

end Lexeme

/-- **The caret marks the fault.** The place of a fault is a place in one of the lines
of the text, counted as the scan counts rows, and every report of the fault shows that
line with a caret below its column. Unless an integer is out of range, a character of
the line stands there: the one at the cursor. An integer out of range ends right in
front of the caret, on the line of the caret. -/
theorem Block.caret_marks_fault (source : String) (cause : Cause) (place : Position)
    (h : ofSource source = .error ⟨cause, some place⟩) :
    ∃ l, place.Fits source.toList l ∧
      (∀ file colour, ∃ head, Text.EndsLine head ∧
        Report.render ⟨⟨cause, some place⟩, some source, file⟩ colour
          = head ++ Span.render colour (Report.context (Text.lines source.toList) place) ∧
        Report.CaretUnder colour
          (Span.render colour (Report.context (Text.lines source.toList) place))
          place.row l place.col) ∧
      ((∀ digits, cause ≠ .malformed (.integerOutOfRange digits)) →
        ∃ c, l[place.col]? = some c ∧ source.toList[place.cursor]? = some c) ∧
      ∀ digits, cause = .malformed (.integerOutOfRange digits) →
        digits.toList <:+ l.take place.col := by
  obtain ⟨i, x, hx, hpointed, hplace⟩ := exists_lexeme_of_fault h
  cases hpointed with
  | @run ds =>
    obtain ⟨l, hfits, hsuffix⟩ := hx.fits_number
    rw [← hplace] at hfits hsuffix
    refine ⟨l, hfits, Report.caretUnder_of_fits _ hfits, ?_, ?_⟩
    · exact fun hcause => absurd rfl (hcause _)
    · intro digits hdigits
      cases hdigits
      rwa [String.toList_ofList]
  | @mark c cause hc hcause =>
    obtain ⟨l, hfits, hcol⟩ := hx.fits_mark hc
    rw [← hplace] at hfits hcol
    have hchar : l[place.col]? = some l[place.col] := List.getElem?_eq_getElem hcol
    refine ⟨l, hfits, Report.caretUnder_of_fits _ hfits, fun _ => ?_, ?_⟩
    · exact ⟨_, hchar, (hfits.char_eq hcol).symm.trans hchar⟩
    · exact fun digits hdigits => absurd hdigits (hcause digits)

/-- A parenthesis in the first column behind a pair of line breaks, and an integer out
of range at the end of a line. -/
theorem Block.caret_marks_fault_behind_line_breaks :
    (ofSource "1\r\n)\n3\n4" = .error (.malformed .unexpectedRightParen ⟨3, 2, 0⟩) ∧
      ∃ l, Position.Fits ⟨3, 2, 0⟩ "1\r\n)\n3\n4".toList l ∧
        ∃ c, l[0]? = some c ∧ "1\r\n)\n3\n4".toList[3]? = some c) ∧
    ofSource "1\n 09223372036854775808\r"
      = .error (.malformed (.integerOutOfRange "09223372036854775808") ⟨23, 1, 21⟩) ∧
      ∃ l, Position.Fits ⟨23, 1, 21⟩ "1\n 09223372036854775808\r".toList l ∧
        "09223372036854775808".toList <:+ l.take 21 := by
  have hparenthesis : ofSource "1\r\n)\n3\n4"
      = .error (.malformed .unexpectedRightParen ⟨3, 2, 0⟩) :=
    ofSource_eq_error_iff.mpr (.inr ⟨_, rfl, ofTokens_eq_error_iff_run.mpr (.inl rfl)⟩)
  have hrange : ofSource "1\n 09223372036854775808\r"
      = .error (.malformed (.integerOutOfRange "09223372036854775808") ⟨23, 1, 21⟩) :=
    ofSource_eq_error_iff.mpr (.inl rfl)
  obtain ⟨l, hfits, -, hchar, -⟩ := caret_marks_fault _ _ _ hparenthesis
  obtain ⟨l', hfits', -, -, hdigits⟩ := caret_marks_fault _ _ _ hrange
  exact ⟨⟨hparenthesis, l, hfits, hchar nofun⟩, hrange, l', hfits', hdigits _ rfl⟩

end ArithTree
