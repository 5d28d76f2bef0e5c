/-!
# Styled text

A report is a list of `Span`s, each a text and the style it asks for, if any.
Only the last step decides whether styles are shown: `Span.plain` writes the
text alone, `Span.coloured` wraps it in the terminal's escape sequences. Widths
are thus settled before any escape sequence exists.
-/

namespace ArithTree.Text

/-- The styles that a report makes use of. -/
inductive Style where
  | boldRed
  | boldBlue
  | blue
deriving DecidableEq

/-- The parameters of the escape sequence that turns the style on. -/
def Style.code : Style → String
  | .boldRed => "1;31"
  | .boldBlue => "1;34"
  | .blue => "34"

/-- A piece of text, with a style or without one. -/
structure Span where
  style : Option Style
  text : String
deriving DecidableEq

namespace Span

/-- Text without a style. -/
def bare (text : String) : Span := ⟨none, text⟩

/-- Text in the style `style`. -/
def styled (style : Style) (text : String) : Span := ⟨some style, text⟩

/-- The escape sequence with the given parameters. -/
def sequence (parameters : String) : String :=
  "\x1b[" ++ parameters ++ "m"

/-- The text of a span, its style dropped. -/
def plain (span : Span) : String := span.text

/-- The text of a span between the sequence that turns its style on and the one
that turns every style off. -/
def coloured (span : Span) : String :=
  match span.style with
  | none => span.text
  | some style => sequence style.code ++ span.text ++ sequence "0"

/-- The spans in a row, with their styles if `colour` is on. -/
def render (colour : Bool) (spans : List Span) : String :=
  String.join (spans.map (if colour then coloured else plain))

end Span

end ArithTree.Text
