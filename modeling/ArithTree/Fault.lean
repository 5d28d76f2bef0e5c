import ArithTree.Text.Quoted
import ArithTree.Token.Basic

/-!
# Faults

Reading stops at the first fault. A `Fault` says what went wrong and, where that
is a place in the source, at which place. Its cause is either a `Feature` that
the notation keeps for later or a `Problem` that makes the input unreadable, and
callers tell the two apart by the constructor of `Cause`.

The wording of every cause is in this module: `Fault.heading` and
`Fault.message` for its two parts, `Fault.summary` for the whole on one line.
-/

namespace ArithTree

/-- A construct that is kept for later: it is recognised, and refused. -/
inductive Feature where
  | identifier
  | stringLiteral
  | bracket
deriving DecidableEq

/-- A way for the input to be unreadable. -/
inductive Problem where
  /-- A character that no token starts with. -/
  | unrecognizedCharacter (c : Char)
  /-- A run of digits whose value does not fit an integer. -/
  | integerOutOfRange (digits : String)
  /-- An operator with nothing before it in its own block. -/
  | missingLeftOperand
  /-- The input ended inside parentheses. -/
  | missingClosingParen
  /-- A right parenthesis where an expression should start. -/
  | unexpectedRightParen
  /-- A token whose value does not go with its kind. -/
  | unexpectedToken (kind : Token.Kind)
  /-- The input ended where an expression should start. -/
  | unexpectedEndOfInput
deriving DecidableEq

/-- Why reading stopped. -/
inductive Cause where
  | unimplemented (feature : Feature)
  | malformed (problem : Problem)
deriving DecidableEq

/-- A cause and, if there is one, the place that it points at. -/
structure Fault where
  cause : Cause
  location : Option Position
deriving DecidableEq

/-- The features in the plural, as messages call them. -/
def Feature.plural : Feature → String
  | .identifier => "identifiers"
  | .stringLiteral => "string literals"
  | .bracket => "brackets"

/-- The problem in words. -/
def Problem.message : Problem → String
  | .unrecognizedCharacter c => "unrecognized character " ++ Text.quoteChar c
  | .integerOutOfRange digits => "integer literal '" ++ digits ++ "' is out of range"
  | .missingLeftOperand => "operator has no left-hand operand"
  | .missingClosingParen => "missing closing parenthesis"
  | .unexpectedRightParen => "unexpected right parenthesis"
  | .unexpectedToken kind => "unexpected " ++ kind.label ++ " token"
  | .unexpectedEndOfInput => "unexpected end of input"

namespace Cause

/-- The two headings that faults are sorted under. -/
def heading : Cause → String
  | .unimplemented _ => "Unimplemented"
  | .malformed _ => "Malformed Input"

/-- The cause in words. -/
def message : Cause → String
  | .unimplemented feature => feature.plural ++ " are not implemented"
  | .malformed problem => problem.message

/-- Is the cause a feature that is kept for later? -/
def isUnimplemented : Cause → Bool
  | .unimplemented _ => true
  | .malformed _ => false

/-- The problem, if the cause is one. -/
def problem? : Cause → Option Problem
  | .unimplemented _ => none
  | .malformed problem => some problem

end Cause

namespace Fault

/-- An unimplemented feature at a place. -/
def unimplemented (feature : Feature) (place : Position) : Fault :=
  ⟨.unimplemented feature, some place⟩

/-- A problem at a place. -/
def malformed (problem : Problem) (place : Position) : Fault :=
  ⟨.malformed problem, some place⟩

/-- A problem that lies past the end of the input, where there is no place to
point at. -/
def atEnd (problem : Problem) : Fault :=
  ⟨.malformed problem, none⟩

/-- Heading, message and place on one line. -/
def summary (fault : Fault) : String :=
  let text := fault.cause.heading ++ ": " ++ fault.cause.message
  match fault.location with
  | some place => text ++ " at " ++ place.label
  | none => text

end Fault

/-- Results of reading are compared in full: two faults are the same only with
the same cause at the same place. -/
instance instDecidableEqResult {α : Type} [DecidableEq α] : DecidableEq (Except Fault α)
  | .ok a, .ok b => if h : a = b then .isTrue (h ▸ rfl) else .isFalse (fun e => h (Except.ok.inj e))
  | .error a, .error b =>
    if h : a = b then .isTrue (h ▸ rfl) else .isFalse (fun e => h (Except.error.inj e))
  | .ok _, .error _ => .isFalse nofun
  | .error _, .ok _ => .isFalse nofun

end ArithTree
