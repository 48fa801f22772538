import Criteria.Json.Basic
import Criteria.Json.Numeral
import Criteria.Number.Numeral
import Criteria.Rule.Token

/-!
# Literals of rules

A literal is a number or a string. In rule text a word is a number if it begins with a digit and
reads as a number within the range of doubles; every other token is a string.

## Main definitions

* `Literal`: a number or a string.
* `Literal.numberOfWord?`, `Literal.unquoted`, `Literal.ofToken`: literals in rule text.
* `Literal.display`: the text of a literal.
* `Literal.toJson`, `Literal.ofJson?`: literals as JSON.
-/

namespace Criteria

/-- The value that a field is compared with. -/
inductive Literal where
  | number (value : Double)
  | text (value : String)
deriving DecidableEq, Inhabited

namespace Literal

/-- Equality of literals, numbers being compared as numbers. -/
def same : Literal → Literal → Bool
  | .number a, .number b => a.same b
  | .text a, .text b => a == b
  | _, _ => false

/-- The number, if it is one. -/
def number? : Literal → Option Double
  | .number value => some value
  | .text _ => none

/-- The string, if it is one. -/
def text? : Literal → Option String
  | .number _ => none
  | .text value => some value

/-! ### Rule text -/

/-- The double that a word stands for. The word begins with a digit, and so is no word for an
infinity, and the number is within the range of doubles. -/
def numberOfWord? (w : List Char) : Option Double :=
  if w.head?.any Char.isDigit then (Double.ofText? w).filter Double.isFinite else none

/-- A text without the apostrophes around it; unless it has both, it is left as it is. -/
def unquoted (text : String) : String :=
  match text.toList with
  | '\'' :: s => if s.getLast? = some '\'' then String.ofList s.dropLast else text
  | _ => text

@[simp] theorem unquoted_quote (content : List Char) :
    unquoted (Token.quote content) = String.ofList content := by
  simp [unquoted]

/-- The literal that a token stands for: a word may be a number, and quotes are taken off. -/
def ofToken : Token → Literal
  | .word w => match numberOfWord? w.toList with
    | some value => .number value
    | none => .text w
  | .quoted raw => .text (unquoted raw)
  | token => .text token.text

/-- The text of a literal in a rule. -/
def display : Literal → List Char
  | .number value => value.display
  | .text value => '\'' :: (value.toList ++ ['\''])

/-! ### JSON -/

/-- The largest number up to which every integer is a double of its own. -/
def safeInteger : Nat := 9007199254740991

/-- A number without a fraction is an integer as far as integers are exact, and a double beyond
that; what is not finite has no JSON form. -/
def toJson : Literal → Json
  | .text value => .text value
  | .number value =>
    match value.toInt? with
    | some n => if n.natAbs ≤ safeInteger then .int n else .ofDouble value
    | none => .ofDouble value

/-- Any number or string is a literal. -/
def ofJson? : Json → Option Literal
  | .number n => some (.number n.toDouble)
  | .text s => some (.text s)
  | _ => none

end Literal

end Criteria
