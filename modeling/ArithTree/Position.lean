import ArithTree.Text.Lines

/-!
# Places in a source text

A `Position` names the place before a character of a source text, or the one
after the last. It is found by walking over the text from `Position.start`:
`Position.step` passes one character and `Position.advance` a whole run of them.
All three fields count from zero and count characters.
-/

namespace ArithTree

/-- A place in a source text. -/
structure Position where
  /-- The number of characters before this place. -/
  cursor : Nat
  /-- The number of line breaks before this place. -/
  row : Nat
  /-- The number of characters between the last line break and this place. -/
  col : Nat
deriving DecidableEq

namespace Position

/-- The place before the first character. -/
def start : Position := ⟨0, 0, 0⟩

/-- The place after the character `c`, which stands at `p`. -/
def step (p : Position) (c : Char) : Position :=
  if Text.isLineBreak c then ⟨p.cursor + 1, p.row + 1, 0⟩
  else ⟨p.cursor + 1, p.row, p.col + 1⟩

/-- The place after the characters `cs`, which start at `p`. -/
def advance (p : Position) (cs : List Char) : Position :=
  cs.foldl step p

@[simp] theorem advance_cons (p : Position) (c : Char) (cs : List Char) :
    p.advance (c :: cs) = (p.step c).advance cs := rfl

/-- Walking over two runs in turn is walking over the two as one. -/
theorem advance_append (p : Position) (cs ds : List Char) :
    p.advance (cs ++ ds) = (p.advance cs).advance ds :=
  List.foldl_append

@[simp] theorem cursor_step (p : Position) (c : Char) : (p.step c).cursor = p.cursor + 1 := by
  unfold step
  split <;> rfl

/-- The cursor counts every character passed. -/
theorem cursor_advance (p : Position) (cs : List Char) :
    (p.advance cs).cursor = p.cursor + cs.length := by
  induction cs generalizing p with
  | nil => rfl
  | cons c cs ih =>
    rw [advance_cons, ih, cursor_step, List.length_cons]
    omega

/-- Row and column, as log lines and token tables show a position. -/
def label (p : Position) : String :=
  toString p.row ++ ":" ++ toString p.col

/-- Row and column after the name of the file that they belong to. -/
def labelIn (p : Position) (file : String) : String :=
  file ++ ":" ++ p.label

/-- Row and column counted from one, as people count lines. -/
def ordinal (p : Position) : String :=
  toString (p.row + 1) ++ ":" ++ toString (p.col + 1)

end Position

end ArithTree
