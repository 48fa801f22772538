import Criteria.Rule.Expr.Basic
import Criteria.Json.Reader

/-!
# Expression trees as JSON

A tree is written as an object whose member `type` tells a condition (`operand`) from an inner
node (`operator`). It is read from an object with its members in any order, members of other names
being ignored and none of its own being given twice, or from an array that begins with the type
and goes on with the members in their order. Below the outermost node the type may also be given
by its number.

## Main definitions

* `Expr.toJson`: a tree as JSON.
* `Expr.ofJson?`: the tree that a JSON value, as it is written, describes.
* `Expr.reader`: reads a tree off a JSON text.
-/

namespace Criteria.Expr

/-- The two types of nodes. -/
inductive Kind where
  | operand
  | operator
deriving DecidableEq, Inhabited

/-- The name of a type of nodes. -/
def Kind.name : Kind → String
  | .operand => "operand"
  | .operator => "operator"

/-- The type of nodes that a JSON value names. -/
def Kind.ofName? : Json → Option Kind
  | .text s =>
    if s = Kind.operand.name then some .operand
    else if s = Kind.operator.name then some .operator
    else none
  | _ => none

/-- The type of nodes that a JSON value names or numbers. -/
def Kind.ofNumber? : Json → Option Kind
  | .number (.integer 0) => some .operand
  | .number (.integer 1) => some .operator
  | value => Kind.ofName? value

/-- A tree as JSON. -/
def toJson : Expr → Json
  | .leaf c => .object [
      ("type", .text Kind.operand.name),
      ("attribute", .text c.field),
      ("operator", .text c.comparator.text),
      ("value", c.literal.toJson)]
  | .node k left right => .object [
      ("type", .text Kind.operator.name),
      ("operator", .text k.text),
      ("left", left.toJson),
      ("right", right.toJson)]

/-! ### Reading -/

/-- A JSON value inside a node, with the tree that it describes, if it describes one. -/
abbrev Part : Type := Json × Option Expr

/-- The string that a value is. -/
def textOf? : Json → Option String
  | .text s => some s
  | _ => none

/-- The only member of a name; none if it is missing or given twice. -/
def only? (name : String) (members : List (String × α)) : Option α :=
  match members.filter (·.1 == name) with
  | [member] => some member.2
  | _ => none

/-- The condition made of an attribute, a comparator and a literal. -/
def conditionOf? (name operator value : Json) : Option Expr := do
  return .leaf ⟨← textOf? name, .ofText (← textOf? operator), ← Literal.ofJson? value⟩

/-- The inner node made of a connective and two trees. -/
def nodeOf? (operator : Json) (left right : Option Expr) : Option Expr := do
  return .node (.ofText (← textOf? operator)) (← left) (← right)

/-- The tree described by the members of an object. -/
def ofMembers? (kindOf : Json → Option Kind) (members : List (String × Part)) : Option Expr := do
  match ← kindOf (← only? "type" members).1 with
  | .operand =>
    conditionOf? (← only? "attribute" members).1 (← only? "operator" members).1
      (← only? "value" members).1
  | .operator =>
    nodeOf? (← only? "operator" members).1 (← only? "left" members).2 (← only? "right" members).2

/-- The tree described by the items of an array. -/
def ofItems? (kindOf : Json → Option Kind) : List Part → Option Expr
  | [kind, first, second, third] => do
    match ← kindOf kind.1 with
    | .operand => conditionOf? first.1 second.1 third.1
    | .operator => nodeOf? first.1 second.2 third.2
  | _ => none

mutual

/-- The tree that a value below the outermost node describes. -/
def ofInner? : Json → Option Expr
  | .object members => ofMembers? Kind.ofNumber? (memberParts members)
  | .array items => ofItems? Kind.ofNumber? (itemParts items)
  | _ => none

/-- The members of an object with the trees that they describe. -/
def memberParts : List (String × Json) → List (String × Part)
  | [] => []
  | (name, value) :: members => (name, value, ofInner? value) :: memberParts members

/-- The items of an array with the trees that they describe. -/
def itemParts : List Json → List Part
  | [] => []
  | value :: items => (value, ofInner? value) :: itemParts items

end

/-- The tree that a JSON value, as it is written, describes. -/
def ofJson? : Json → Option Expr
  | .object members => ofMembers? Kind.ofName? (memberParts members)
  | .array items => ofItems? Kind.ofName? (itemParts items)
  | _ => none

/-- Reads a tree off a JSON text. -/
def reader : Json.Reader Expr := fun limit s => do
  let (value, rest) ← Json.Reader.written limit s
  match ofJson? value with
  | some e => return (e, rest)
  | none => .error .mismatched

end Criteria.Expr
