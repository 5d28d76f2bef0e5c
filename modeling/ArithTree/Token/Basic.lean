import ArithTree.Operator
import ArithTree.Position

/-!
# Tokens

A `Token` is what the source text is cut into and what trees are built from: a
kind, the place it was found at, and perhaps a value. Kind and value are
independent, so that a hand-made token may pair any of one with any of the
other; `Token.Basic` only says what there is, and the reader of tokens says which
pairs make sense.
-/

namespace ArithTree

namespace Token

/-- What a token is. -/
inductive Kind where
  | integer
  | string
  | identifier
  | operator
  | leftParen
  | rightParen
deriving DecidableEq

/-- What a token carries. Integers are signed and 64 bits wide. -/
inductive Value where
  | integer (n : Int64)
  | symbol (c : Char)
  | text (s : String)
deriving DecidableEq

end Token

/-- A token: its kind, where it was found, and what it carries. -/
structure Token where
  kind : Token.Kind
  position : Position
  value : Option Token.Value
deriving DecidableEq

namespace Token

/-- How messages and tables call a kind: parentheses by their character. -/
def Kind.label : Kind → String
  | .integer => "integer"
  | .string => "string"
  | .identifier => "identifier"
  | .operator => "operator"
  | .leftParen => "("
  | .rightParen => ")"

/-- The word for a kind in data. -/
def Kind.tag : Kind → String
  | .integer => "integer"
  | .string => "string"
  | .identifier => "identifier"
  | .operator => "operator"
  | .leftParen => "left_paren"
  | .rightParen => "right_paren"

/-- The name of a kind. -/
def Kind.name : Kind → String
  | .integer => "Integer"
  | .string => "String"
  | .identifier => "Identifier"
  | .operator => "Operator"
  | .leftParen => "LeftParen"
  | .rightParen => "RightParen"

end Token

end ArithTree
