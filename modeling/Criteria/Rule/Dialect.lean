import Criteria.Rule.Expr.Basic
import Criteria.Rule.ParseError
import Criteria.Rule.Token

/-!
# Reading rules

An expression begins either with a parenthesised group or with three tokens that are, by their
places, a field, a comparator and a value. If tokens are left, the next one is, by its place, a
connective, and the rest is again an expression. Chains therefore lean to the right and no
connective binds closer than another.

## Main definitions

* `Dialect`: how rules are read.
* `closingIndex?`: where the group that begins a list of tokens ends.
* `Dialect.parse`: the tree of a list of tokens.
* `Dialect.compile`: the tree of a rule.
* `Dialect.combine`: the tree that demands every rule of a list.
-/

namespace Criteria

/-- How rules are read. -/
structure Dialect where
  /-- Unknown operators are refused while reading. -/
  strict : Bool
  /-- How many expressions may be nested, groups and links of chains alike. -/
  maxDepth : Nat
deriving DecidableEq, Inhabited

namespace Dialect

/-- Unknown operators are kept, and 256 expressions may be nested. -/
def standard : Dialect := ⟨false, 256⟩

end Dialect

/-- The index of the token that brings the number of open groups down to none, the first token
having a given index. -/
def closingFrom (index opened : Nat) : List Token → Option Nat
  | [] => none
  | .opening :: tokens => closingFrom (index + 1) (opened + 1) tokens
  | .closing :: tokens =>
    if opened = 1 then some index else closingFrom (index + 1) (opened - 1) tokens
  | _ :: tokens => closingFrom (index + 1) opened tokens

/-- The index of the parenthesis that closes the group opened by the first token. -/
def closingIndex? (tokens : List Token) : Option Nat := closingFrom 1 1 (tokens.drop 1)

namespace Dialect

variable (dialect : Dialect)

/-- The comparator in the place of one. -/
def comparator (token : Token) : Except ParseError Comparator :=
  let comparator := Comparator.ofText token.text
  if dialect.strict && !comparator.isKnown then .error (.unknownOperator comparator.text)
  else .ok comparator

/-- The connective in the place of one. -/
def connective (token : Token) : Except ParseError Connective :=
  let connective := Connective.ofText token.text
  if dialect.strict && !connective.isKnown then .error (.unknownOperator connective.text)
  else .ok connective

/-- The comparison made of three tokens. -/
def operand (field comparator value : Token) : Except ParseError Expr := do
  let comparator ← dialect.comparator comparator
  return .condition field.text comparator (.ofToken value)

/-- The tree of a list of tokens, read with so many expressions still to be nested. -/
def parseWithin : Nat → List Token → Except ParseError Expr
  | 0, _ => .error (.nestingTooDeep dialect.maxDepth)
  | _ + 1, [] => .error .emptyInput
  | depth + 1, .opening :: tokens =>
    match closingIndex? (.opening :: tokens) with
    | none => .error .mismatchedParentheses
    | some closing => do
      let group ← parseWithin depth (tokens.take (closing - 1))
      match tokens.drop closing with
      | [] => return group
      | link :: rest => do
        let connective ← dialect.connective link
        return .node connective group (← parseWithin depth rest)
  | _ + 1, [field, comparator, value] => dialect.operand field comparator value
  | depth + 1, field :: comparator :: value :: link :: rest => do
    let left ← dialect.operand field comparator value
    let connective ← dialect.connective link
    return .node connective left (← parseWithin depth rest)
  | _ + 1, tokens => .error (.malformedOperand tokens.length)

/-- The tree of a list of tokens. -/
def parse (tokens : List Token) : Except ParseError Expr :=
  dialect.parseWithin dialect.maxDepth tokens

/-- The tree of a rule. -/
def compile (rule : String) : Except ParseError Expr := dialect.parse (Token.ofString rule)

/-- The tree of one rule of a set; a refusal names the rule. -/
def compileNamed (rule : String) : Except ParseError Expr :=
  (dialect.compile rule).mapError (.invalidRule rule)

/-- The tree that demands every rule of a list, each compiled by itself; it leans to the left. -/
def combine : List String → Except ParseError Expr
  | [] => .error .emptyRuleSet
  | rule :: rules => do
    let first ← dialect.compileNamed rule
    rules.foldlM (fun tree rule => return .both tree (← dialect.compileNamed rule)) first

end Dialect

end Criteria
