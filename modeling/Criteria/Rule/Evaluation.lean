import Criteria.Json.Printer
import Criteria.Record
import Criteria.Rule.Expr.Basic

/-!
# Holding a rule against a record

Both subtrees of an inner node are always evaluated, the left one first, and only then combined;
an operator that is unknown is refused at that point. A field compares with a literal of its own
kind alone: numbers by size, strings by code points. Every other pairing satisfies no comparator.

The evaluation keeps a list of the inner nodes that are still unfinished instead of recursing, so
that the height of a tree does not matter.

## Main definitions

* `EvalError`: why a tree has no truth value.
* `Condition.order?`, `Condition.check`: comparing a field with a literal.
* `TraceLine`, `TraceLine.render`: what is noted of each node.
* `Evaluation`, `Expr.evaluate`: the truth value of a tree, with the notes.
-/

namespace Criteria

/-- Why a tree has no truth value. -/
inductive EvalError where
  /-- A text stands in the place of an operator and is none. -/
  | unknownOperator (text : String)
deriving DecidableEq, Inhabited

namespace EvalError

/-- The code of a cause. -/
def code : EvalError → String
  | .unknownOperator _ => "UNKNOWN_OPERATOR"

/-- The message for a cause. -/
def message : EvalError → String
  | .unknownOperator text => "无效的操作符: " ++ text

end EvalError

/-! ### Comparing -/

/-- Which orders satisfy a comparator; none for unknown text. -/
def Comparator.accepts? : Comparator → Option (Ordering → Bool)
  | .greater => some (· == .gt)
  | .less => some (· == .lt)
  | .equal => some (· == .eq)
  | .atLeast => some (· != .lt)
  | .atMost => some (· != .gt)
  | .unknown _ => none

/-- The order of a field and a literal; none unless both are numbers or both are strings. -/
def Literal.order? (field : Option Json) (literal : Literal) : Option Ordering :=
  match field, literal with
  | some (.number n), .number value => n.toDouble.compare? value
  | some (.text s), .text value => some (compare s value)
  | _, _ => none

/-- Whether a field satisfies a comparator and a literal. The comparator is looked at first. -/
def Comparator.test (comparator : Comparator) (field : Option Json) (literal : Literal) :
    Except EvalError Bool :=
  match comparator.accepts? with
  | none => .error (.unknownOperator comparator.text)
  | some accepts => .ok ((literal.order? field).any accepts)

/-- Whether a record satisfies a condition. -/
def Condition.check (c : Condition) (record : Record) : Except EvalError Bool :=
  c.comparator.test (record.get? c.field) c.literal

/-- The truth value of two combined truth values. -/
def Connective.apply (connective : Connective) (left right : Bool) : Except EvalError Bool :=
  match connective with
  | .and => .ok (left && right)
  | .or => .ok (left || right)
  | .unknown text => .error (.unknownOperator text)

/-- The truth value of an inner node: an error on the left comes first, then one on the right. -/
def Connective.join (connective : Connective) (left right : Except EvalError Bool) :
    Except EvalError Bool := do
  connective.apply (← left) (← right)

/-! ### Notes -/

/-- One step from a node to a subtree. -/
inductive Side where
  | left
  | right
deriving DecidableEq, Inhabited

/-- The way from the root to a node, the last step first. -/
abbrev Path : Type := List Side

/-- The text of a step. -/
def Side.render : Side → String
  | .left => ".left"
  | .right => ".right"

/-- The text of a way. -/
def Path.render (path : Path) : String :=
  path.foldr (fun side text => text ++ side.render) "root"

/-- What is noted of a node that has a truth value. -/
inductive TraceLine where
  /-- A condition, with the value of its field. -/
  | leaf (path : Path) (condition : Condition) (field : Option Json) (result : Bool)
  /-- An inner node, with the truth values of its subtrees. -/
  | node (path : Path) (left : Bool) (connective : Connective) (right : Bool) (result : Bool)

/-- The way to the node that a note is about. -/
def TraceLine.path : TraceLine → Path
  | .leaf path .. => path
  | .node path .. => path

/-- The text of a field's value. -/
def renderField : Option Json → String
  | some value => value.print
  | none => "undefined"

/-- The text of a note. -/
def TraceLine.render : TraceLine → String
  | .leaf path condition field result =>
    path.render ++ ": " ++ String.ofList (Expr.renderCondition condition) ++ " against " ++
      renderField field ++ " => " ++ (if result then "MATCHED" else "NOT_MATCHED")
  | .node path left connective right result =>
    path.render ++ ": " ++ toString left ++ " " ++ connective.text ++ " " ++ toString right ++
      " => " ++ toString result

/-- The truth value of a tree, with a note of every node if notes are taken. -/
structure Evaluation where
  result : Bool
  trace : List TraceLine

namespace Expr

/-- Adds a note, the latest one first, if notes are taken and there is a truth value. -/
def takeNote (tracing : Bool) (note : Bool → TraceLine) (value : Except EvalError Bool)
    (notes : List TraceLine) : List TraceLine :=
  match tracing, value with
  | true, .ok result => note result :: notes
  | _, _ => notes

/-! ### Evaluating -/

/-- An inner node that is unfinished. -/
inductive Frame where
  /-- Its left subtree is being evaluated; the right one is still to come. -/
  | awaitingLeft (connective : Connective) (right : Expr) (path : Path)
  /-- Its right subtree is being evaluated; the left one had this value. -/
  | awaitingRight (connective : Connective) (left : Except EvalError Bool) (path : Path)

/-- The steps that a subtree takes. -/
def steps : Expr → Nat
  | .leaf _ => 2
  | .node _ left right => left.steps + right.steps + 3

/-- The steps that finishing an inner node takes. -/
def Frame.steps : Frame → Nat
  | .awaitingLeft _ right _ => right.steps + 2
  | .awaitingRight .. => 1

/-- The number of steps that several waiting nodes still take. -/
def Frame.totalSteps : List Frame → Nat
  | [] => 0
  | frame :: pending => frame.steps + totalSteps pending

/-- The note of an inner node, from the values of its subtrees. -/
def noteNode (path : Path) (connective : Connective) (left right : Except EvalError Bool)
    (result : Bool) : TraceLine :=
  .node path (left.toOption.getD false) connective (right.toOption.getD false) result

mutual

/-- Goes down to the leftmost condition of a subtree. -/
def descend (tracing : Bool) (record : Record) (e : Expr) (path : Path) (pending : List Frame)
    (notes : List TraceLine) : Except EvalError Bool × List TraceLine :=
  match e with
  | .leaf c =>
    let value := c.check record
    climb tracing record value pending
      (takeNote tracing (.leaf path c (record.get? c.field)) value notes)
  | .node connective left right =>
    descend tracing record left (.left :: path) (.awaitingLeft connective right path :: pending)
      notes
termination_by e.steps + Frame.totalSteps pending
decreasing_by
  all_goals simp only [Expr.steps, Frame.steps, Frame.totalSteps]
  all_goals omega

/-- Takes the value of a subtree up to the nodes that wait for it. -/
def climb (tracing : Bool) (record : Record) (value : Except EvalError Bool)
    (pending : List Frame) (notes : List TraceLine) : Except EvalError Bool × List TraceLine :=
  match pending with
  | [] => (value, notes)
  | .awaitingLeft connective right path :: pending =>
    descend tracing record right (.right :: path) (.awaitingRight connective value path :: pending)
      notes
  | .awaitingRight connective left path :: pending =>
    let result := connective.join left value
    climb tracing record result pending
      (takeNote tracing (noteNode path connective left value) result notes)
termination_by Frame.totalSteps pending + 1
decreasing_by
  all_goals simp only [Frame.steps, Frame.totalSteps]
  all_goals omega

end

/-- The truth value of a tree for a record, with the notes in the order in which the nodes were
finished. -/
def evaluate (tracing : Bool) (record : Record) (e : Expr) : Except EvalError Evaluation :=
  let (value, notes) := descend tracing record e [] [] []
  value.map fun result => ⟨result, notes.reverse⟩

end Expr

end Criteria
