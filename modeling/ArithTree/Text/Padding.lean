/-!
# Padding text to a width

Columns of a table are filled up with blanks, on the left for numbers and on the
right for words. A text that is already as wide as its column is left alone.
-/

namespace ArithTree.Text

/-- `s` moved to the right edge of a column of `width` characters. -/
def alignRight (width : Nat) (s : String) : String :=
  String.ofList (s.toList.leftpad width ' ')

/-- `s` at the left edge of a column of `width` characters. -/
def alignLeft (width : Nat) (s : String) : String :=
  String.ofList (s.toList.rightpad width ' ')

/-- A row of `width` blanks. -/
def blanks (width : Nat) : String :=
  String.ofList (List.replicate width ' ')

end ArithTree.Text
