import ArithTree.Text.DefaultIgnorable
import ArithTree.Text.GraphemeExtend
import ArithTree.Text.Unprintable

/-!
# Quoted text

How a character or a text is shown to a person, between quotes and with every
character that would be hard to see spelled out.

* `Text.isHidden` — the characters that would be hard to see.
* `Text.escape` — the spelling of one character between quotes of a given kind.
* `Text.quoteChar` — a single character between single quotes.
* `Text.quote` — a text between double quotes.

Inside either kind of quotes only that kind has to be escaped: the other one
stands for itself.
-/

namespace ArithTree.Text

/-- The two halfwidth voicing marks of katakana. They extend the grapheme before
them, but unlike all others that do they are letters with a form of their own. -/
def isVoicingMark (c : Char) : Bool :=
  c == '\uff9e' || c == '\uff9f'

/-- Would `c` be hard to see if it stood for itself? It would if it joins the
character before it, has no visible form, or may be left out altogether. -/
def isHidden (c : Char) : Bool :=
  (isGraphemeExtend c && !isVoicingMark c) || isUnprintable c || isDefaultIgnorable c

/-- The spelling of `c` between two quotes `mark`. The usual short escapes come
first; then a hidden character is written as its code point in lower-case
hexadecimal; all else is written as it is. -/
def escape (mark c : Char) : List Char :=
  if c = '\x00' then ['\\', '0']
  else if c = '\t' then ['\\', 't']
  else if c = '\r' then ['\\', 'r']
  else if c = '\n' then ['\\', 'n']
  else if c = '\\' ∨ c = mark then ['\\', c]
  else if isHidden c then ['\\', 'u', '\x7b'] ++ Nat.toDigits 16 c.toNat ++ ['\x7d']
  else [c]

/-- The characters of `cs` between two quotes `mark`. -/
def enquote (mark : Char) (cs : List Char) : List Char :=
  mark :: cs.flatMap (escape mark) ++ [mark]

/-- A character between single quotes. -/
def quoteChar (c : Char) : String :=
  String.ofList (enquote '\x27' [c])

/-- A text between double quotes. -/
def quote (s : String) : String :=
  String.ofList (enquote '"' s.toList)

end ArithTree.Text
