import ArithTree.Fault
import ArithTree.Text.Padding
import ArithTree.Text.Style

/-!
# Reports

A `Report` tells a person about a fault: what it is, where it is, and, if the
source text is at hand, how the place looks.

    Malformed Input: unexpected right parenthesis
      --> sum.txt:2:3
      1 (1 + 2)
      2 3 )
          ^
      3 4

The line of the fault stands between its neighbours, each after its number, and
a caret marks the column. The numbers share one width, that of the number two
lines further than the fault's row, so that a caret computed from the same width
stands under its character. `Report.spans` is the text with its styles,
`Report.render` the text itself.
-/

namespace ArithTree

/-- A fault, and what is known of the text that it is in. -/
structure Report where
  fault : Fault
  source : Option String
  file : Option String

namespace Report

open Text (Span Style)

/-- The width of the column of line numbers around `row`. -/
def gutter (row : Nat) : Nat :=
  (toString (row + 2)).length

/-- A line after its number, which counts from one. -/
def numbered (style : Style) (width index : Nat) (line : List Char) : List Span :=
  [.bare "  ", .styled style (Text.alignRight width (toString (index + 1))),
    .bare (" " ++ String.ofList line ++ "\n")]

/-- The caret under column `col` of a line that is shown after its number. -/
def caret (width col : Nat) : List Span :=
  [.bare (Text.blanks (width + 3 + col)), .styled .boldRed "^", .bare "\n"]

/-- The lines around a place. A row past the last line gives nothing, and there is no line
above the first row and none below the last. -/
def context (lines : List (List Char)) (place : Position) : List Span :=
  if hrow : place.row < lines.length then
    let width := gutter place.row
    (if place.row = 0 then []
      else numbered .blue width (place.row - 1) lines[place.row - 1]) ++
      numbered .boldBlue width place.row lines[place.row] ++
      caret width place.col ++
      (if hbelow : place.row + 1 < lines.length then
        numbered .blue width (place.row + 1) lines[place.row + 1]
      else [])
  else []

/-- The line that names the place. -/
def pointer (file : Option String) (place : Position) : List Span :=
  let shown := match file with
    | some name => name ++ ":" ++ place.ordinal
    | none => place.ordinal
  [.bare "  ", .styled .boldBlue "-->", .bare (" " ++ shown ++ "\n")]

/-- The line that says what the fault is. -/
def title (cause : Cause) : List Span :=
  [.styled .boldRed cause.heading, .bare (": " ++ cause.message ++ "\n")]

/-- The whole report with its styles. Without a place it ends after its title. -/
def spans (report : Report) : List Span :=
  title report.fault.cause ++
    match report.fault.location with
    | none => []
    | some place =>
      pointer report.file place ++
        match report.source with
        | none => []
        | some source => context (Text.lines source.toList) place

/-- The text of a report. -/
def render (report : Report) (colour : Bool) : String :=
  Span.render colour report.spans

end Report

end ArithTree
