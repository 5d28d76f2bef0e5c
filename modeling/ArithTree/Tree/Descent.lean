import ArithTree.Token.Scan
import ArithTree.Tree.Basic

/-!
# From tokens to trees

Trees are read by recursive descent over the tokens, with the *scope* at hand:
the expressions that the block under construction has so far, the newest first.
No operator binds tighter than another. An operator takes the newest expression
out of the scope as its left operand and the expression after it as its right
one, so that `1 + 5 / 2` groups as `(1 + 5) / 2`; and an operator that follows an
operator takes one more expression out of the scope. A pair of parentheses opens
a scope of its own.

* `readExpression` — one expression from the start of the tokens.
* `readGroup` — the expressions up to a closing parenthesis.
* `readBlock` — the expressions up to the end of the tokens.
* `Block.ofTokens`, `Block.ofSource` — a whole tree.

Each reader hands back the tokens that it left together with a proof that they
are fewer than before, which is what the recursion ends by.
-/

namespace ArithTree

/-- An expression read from the start of `tokens`. -/
structure Expression (tokens : List Token) where
  node : Node
  /-- The scope, less the expressions that became operands. -/
  scope : List Node
  /-- The tokens after the expression. -/
  rest : List Token
  shorter : rest.length < tokens.length

/-- The inside of a pair of parentheses, read from the start of `tokens`. -/
structure Group (tokens : List Token) where
  children : List Node
  /-- The tokens after the closing parenthesis. -/
  rest : List Token
  shorter : rest.length < tokens.length

namespace Token

/-- The literal that a token is, if its value goes with its kind. -/
def toLiteral (t : Token) : Except Fault Literal :=
  match t.kind, t.value with
  | .integer, some (.integer n) => .ok (.integer n)
  | .string, some (.text s) => .ok (.text s)
  | kind, _ => .error (.malformed (.unexpectedToken kind) t.position)

/-- The operator that a token is, if its value is the symbol of one. -/
def toOperator (t : Token) : Except Fault Operator :=
  match t.value with
  | some (.symbol c) =>
    match Operator.ofSymbol? c with
    | some operator => .ok operator
    | none => .error (.malformed (.unexpectedToken t.kind) t.position)
  | _ => .error (.malformed (.unexpectedToken t.kind) t.position)

end Token

mutual

/-- Reads one expression. Of several faults in one operator, an unknown symbol
comes before a missing left operand, and that before any fault on its right. -/
def readExpression (scope : List Node) : (tokens : List Token) → Except Fault (Expression tokens)
  | [] => .error (.atEnd .unexpectedEndOfInput)
  | t :: rest =>
    match t.kind with
    | .integer | .string => do
      let value ← t.toLiteral
      return ⟨.literal value, scope, rest, by simp⟩
    | .identifier => .error (.unimplemented .identifier t.position)
    | .operator => do
      let operator ← t.toOperator
      match scope with
      | [] => .error (.malformed .missingLeftOperand t.position)
      | left :: scope =>
        let right ← readExpression scope rest
        return ⟨.binary left operator right.node, right.scope, right.rest,
          Nat.lt_succ_of_lt right.shorter⟩
    | .leftParen => do
      let group ← readGroup t.position [] rest
      return ⟨.group group.children, scope, group.rest, Nat.lt_succ_of_lt group.shorter⟩
    | .rightParen => .error (.malformed .unexpectedRightParen t.position)
termination_by tokens => (tokens.length, 0)

/-- Reads expressions up to the closing parenthesis that answers the one at
`opening`. -/
def readGroup (opening : Position) (scope : List Node) :
    (tokens : List Token) → Except Fault (Group tokens)
  | [] => .error (.malformed .missingClosingParen opening)
  | t :: rest =>
    if t.kind = .rightParen then .ok ⟨scope.reverse, rest, by simp⟩
    else do
      let first ← readExpression scope (t :: rest)
      let others ← readGroup opening (first.node :: first.scope) first.rest
      return ⟨others.children, others.rest, Nat.lt_trans others.shorter first.shorter⟩
termination_by tokens => (tokens.length, 1)
decreasing_by
  · exact Prod.Lex.right _ Nat.zero_lt_one
  · exact Prod.Lex.left _ _ first.shorter

end

/-- Reads expressions up to the end of the tokens. -/
def readBlock (scope : List Node) : (tokens : List Token) → Except Fault (List Node)
  | [] => .ok scope.reverse
  | t :: rest => do
    let first ← readExpression scope (t :: rest)
    readBlock (first.node :: first.scope) first.rest
termination_by tokens => tokens.length
decreasing_by exact first.shorter

namespace Block

/-- The tree that the tokens spell, or the first fault in them. -/
def ofTokens (tokens : List Token) : Except Fault Block := do
  let children ← readBlock [] tokens
  return ⟨children⟩

/-- The tree that a source text spells, or the first fault in it. Faults in the
spelling of the text come before faults in its structure. -/
def ofSource (source : String) : Except Fault Block := do
  let tokens ← tokenize source
  ofTokens tokens

end Block

end ArithTree
