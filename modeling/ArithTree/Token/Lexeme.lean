import ArithTree.Fault

/-!
# Lexemes

A `Lexeme` is a stretch of source text that is read as one: a longest run of
digits, or any other character by itself. `Lexeme.ofChars` cuts a text into
lexemes without losing a character (`Lexeme.flatten_ofChars`), and
`Lexeme.reading` says what each of them stands for.

A run of digits is grown from its right end: a digit in front of a run joins it,
and a digit in front of anything else starts a run of its own. No two runs are
ever neighbours, so every run is a longest one.
-/

namespace ArithTree

/-- A stretch of source text that is read as one. -/
inductive Lexeme where
  /-- A longest run of digits. -/
  | number (digits : List Char)
  /-- A character that is not a digit. -/
  | mark (c : Char)
deriving DecidableEq

namespace Lexeme

/-- The characters of a lexeme. -/
def chars : Lexeme → List Char
  | .number digits => digits
  | .mark c => [c]

/-- Puts a digit in front of lexemes. -/
def consDigit (c : Char) : List Lexeme → List Lexeme
  | .number digits :: rest => .number (c :: digits) :: rest
  | rest => .number [c] :: rest

/-- Cuts a text into lexemes. -/
def ofChars : List Char → List Lexeme
  | [] => []
  | c :: cs => if c.isDigit then consDigit c (ofChars cs) else .mark c :: ofChars cs

theorem flatten_consDigit (c : Char) (xs : List Lexeme) :
    (consDigit c xs).flatMap chars = c :: xs.flatMap chars := by
  unfold consDigit
  split <;> simp [chars]

/-- Nothing is lost: the lexemes of a text, put together again, are the text. -/
theorem flatten_ofChars (cs : List Char) : (ofChars cs).flatMap chars = cs := by
  induction cs with
  | nil => rfl
  | cons c cs ih =>
    unfold ofChars
    split
    · rw [flatten_consDigit, ih]
    · simp [chars, ih]

/-- What a lexeme stands for. -/
inductive Reading where
  /-- Nothing: it only keeps other lexemes apart. -/
  | blank
  /-- A token. -/
  | token (kind : Token.Kind) (value : Option Token.Value)
  /-- Nothing that can be read. -/
  | refused (cause : Cause)
deriving DecidableEq

/-- The first number that an integer token cannot hold: two to the power of 63. -/
def integerBound : Nat := 9223372036854775808

/-- A run of digits is an integer in base ten, whatever zeros it starts with, as
long as its value is below the bound. -/
def readNumber (digits : List Char) : Reading :=
  let n := Nat.ofDigitChars 10 digits 0
  if n < integerBound then .token .integer (some (.integer (Int64.ofNat n)))
  else .refused (.malformed (.integerOutOfRange (String.ofList digits)))

/-- A character by itself. Blanks and line breaks stand for nothing; the five
operators and the two parentheses are tokens; letters, quotes and the other
brackets are kept for later; nothing else is known. -/
def readMark (c : Char) : Reading :=
  if c = ' ' ∨ Text.isLineBreak c then .blank
  else if (Operator.ofSymbol? c).isSome then .token .operator (some (.symbol c))
  else if c = '(' then .token .leftParen none
  else if c = ')' then .token .rightParen none
  else if c.isAlpha ∨ c = '_' then .refused (.unimplemented .identifier)
  else if c = '\x27' ∨ c = '"' then .refused (.unimplemented .stringLiteral)
  else if c = '\x7b' ∨ c = '\x7d' ∨ c = '[' ∨ c = ']' then .refused (.unimplemented .bracket)
  else .refused (.malformed (.unrecognizedCharacter c))

/-- What a lexeme stands for. -/
def reading : Lexeme → Reading
  | .number digits => readNumber digits
  | .mark c => readMark c

/-- The place that a lexeme between `before` and `after` is known by: a number by
its right edge, every other lexeme by its left one. -/
def anchor (before after : Position) : Lexeme → Position
  | .number _ => after
  | .mark _ => before

end Lexeme

end ArithTree
