import ArithTree.Token.Lexeme

/-!
# From source text to tokens

`Scan.ofLexemes` walks over the lexemes of a text from left to right, keeps the
tokens they stand for and stops at the first one that cannot be read. A `Scan`
has both, the tokens found so far and the fault that ended it, because the log
tells of tokens even when a fault follows; `tokenize` keeps only one of the two.
-/

namespace ArithTree

/-- What a walk over a source text found. -/
structure Scan where
  /-- The tokens before the first fault. -/
  tokens : List Token
  /-- The first fault, if there is one. -/
  fault : Option Fault
deriving DecidableEq

namespace Scan

/-- The walk over `lexemes`, the first of which stands at `place`. -/
def ofLexemes (place : Position) : List Lexeme → Scan
  | [] => ⟨[], none⟩
  | lexeme :: lexemes =>
    let next := place.advance lexeme.chars
    match lexeme.reading with
    | .blank => ofLexemes next lexemes
    | .token kind value =>
      let scan := ofLexemes next lexemes
      ⟨⟨kind, lexeme.anchor place next, value⟩ :: scan.tokens, scan.fault⟩
    | .refused cause => ⟨[], some ⟨cause, some (lexeme.anchor place next)⟩⟩

/-- The walk over a whole source text. -/
def ofSource (source : String) : Scan :=
  ofLexemes .start (Lexeme.ofChars source.toList)

/-- The tokens of a walk that met no fault. -/
def result (scan : Scan) : Except Fault (List Token) :=
  match scan.fault with
  | none => .ok scan.tokens
  | some fault => .error fault

end Scan

/-- The tokens of a source text, or the leftmost fault in it. -/
def tokenize (source : String) : Except Fault (List Token) :=
  (Scan.ofSource source).result

end ArithTree
