/-!
# Lines of a text

A line ends at every line feed and at every carriage return, so the pair of
both ends two lines, the second of them empty. Positions count rows by the same
test, which is what makes a row number an index into `Text.lines`.
-/

namespace ArithTree.Text

/-- Does `c` end a line? -/
def isLineBreak (c : Char) : Bool :=
  c == '\n' || c == '\r'

/-- The lines of a text, without the characters that end them. There is one more
of them than line breaks, so even the empty text has a line. -/
def lines (cs : List Char) : List (List Char) :=
  cs.splitOnP isLineBreak

@[simp] theorem lines_nil : lines [] = [[]] := rfl

/-- A character either ends the first line or belongs to it. -/
theorem lines_cons (c : Char) (cs : List Char) :
    lines (c :: cs) =
      if isLineBreak c then [] :: lines cs else (lines cs).modifyHead (c :: ·) :=
  List.splitOnP_cons_eq_if_modifyHead c cs

theorem lines_ne_nil (cs : List Char) : lines cs ≠ [] :=
  List.splitOnP_ne_nil _ cs

end ArithTree.Text
