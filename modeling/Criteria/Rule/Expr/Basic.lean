import Criteria.Rule.Literal
import Criteria.Rule.Operator

/-!
# Expression trees

A compiled rule is a binary tree: a leaf compares one field with a literal, an inner node
combines two trees by a connective. Statistics of a tree are computed by walking over it with a
list of the subtrees still to visit, so that long chains need no deep recursion.

## Main definitions

* `Condition`, `Expr`: leaves and trees.
* `Expr.foldNodes`, `Expr.nodes`: all nodes, each before its subtrees, left before right.
* `Expr.operandCount`, `Expr.depth`, `Expr.attributes`: statistics of a tree.
* `Expr.render`: the rule text of a tree.
* `Expr.same`: equality of trees, numbers being compared as numbers.
-/

namespace Criteria

/-- One comparison of a field of a record with a literal. -/
structure Condition where
  /-- The name of the field that is compared. -/
  field : String
  /-- How it is compared. -/
  comparator : Comparator
  /-- What it is compared with. -/
  literal : Literal
deriving DecidableEq, Inhabited

/-- An expression tree. -/
inductive Expr where
  /-- A single comparison. -/
  | leaf (condition : Condition)
  /-- Two trees combined. -/
  | node (connective : Connective) (left right : Expr)
deriving DecidableEq, Inhabited

namespace Expr

/-- A single comparison, from its parts. -/
def condition (field : String) (comparator : Comparator) (literal : Literal) : Expr :=
  .leaf ⟨field, comparator, literal⟩

/-- Both trees must hold. -/
def both (left right : Expr) : Expr := .node .and left right

/-- One of the trees must hold. -/
def either (left right : Expr) : Expr := .node .or left right

/-! ### Walking over a tree -/

/-- The number of nodes of a tree. -/
def size : Expr → Nat
  | .leaf _ => 1
  | .node _ left right => left.size + right.size + 1

/-- The number of nodes of several trees. -/
def totalSize : List Expr → Nat
  | [] => 0
  | e :: pending => e.size + totalSize pending

/-- Folds over the nodes of the trees still to visit, each node before its subtrees, the left one
before the right one. -/
def foldNodes (f : α → Expr → α) (acc : α) : List Expr → α
  | [] => acc
  | .leaf c :: pending => foldNodes f (f acc (.leaf c)) pending
  | .node k left right :: pending =>
    foldNodes f (f acc (.node k left right)) (left :: right :: pending)
termination_by pending => totalSize pending
decreasing_by
  all_goals simp only [totalSize, size]
  all_goals omega

/-- All nodes of a tree, each before its subtrees. -/
def nodes (e : Expr) : List Expr := (foldNodes (fun acc node => node :: acc) [] [e]).reverse

/-- The number of conditions of a tree. -/
def operandCount (e : Expr) : Nat :=
  foldNodes (fun count node => match node with
    | .leaf _ => count + 1
    | .node .. => count) 0 [e]

/-- The largest level among the nodes of trees that stand at given levels. -/
def deepest (level : Nat) : List (Expr × Nat) → Nat
  | [] => level
  | (.leaf _, at') :: pending => deepest (max level at') pending
  | (.node _ left right, at') :: pending =>
    deepest (max level at') ((left, at' + 1) :: (right, at' + 1) :: pending)
termination_by pending => totalSize (pending.map (·.1))
decreasing_by
  all_goals simp only [List.map_cons, totalSize, size]
  all_goals omega

/-- The number of levels of a tree; a single condition has one. -/
def depth (e : Expr) : Nat := deepest 0 [(e, 1)]

/-- Inserts a name among names in increasing order, once. -/
def insertName (name : String) : List String → List String
  | [] => [name]
  | other :: rest =>
    match compare name other with
    | .lt => name :: other :: rest
    | .eq => other :: rest
    | .gt => other :: insertName name rest

/-- The names of the attributes of a tree, in increasing order, each once. -/
def attributes (e : Expr) : List String :=
  foldNodes (fun names node => match node with
    | .leaf c => insertName c.field names
    | .node .. => names) [] [e]

/-! ### Rule text -/

/-- The rule text of a condition. -/
def renderCondition (c : Condition) : List Char :=
  c.field.toList ++ ' ' :: (c.comparator.text.toList ++ ' ' :: c.literal.display)

mutual

/-- The rule text of a tree. -/
def renderChars : Expr → List Char
  | .leaf c => renderCondition c
  | .node k left right =>
    renderChild left ++ ' ' :: (k.text.toList ++ ' ' :: renderChild right)

/-- The rule text of a subtree: an inner node stands in parentheses. -/
def renderChild : Expr → List Char
  | .leaf c => renderCondition c
  | .node k left right =>
    '(' :: (renderChild left ++ ' ' :: (k.text.toList ++ ' ' :: renderChild right) ++ [')'])

end

/-- The rule text of a tree. -/
def render (e : Expr) : String := String.ofList e.renderChars

/-! ### Equality -/

/-- Equality of trees, numbers being compared as numbers. -/
def same : Expr → Expr → Bool
  | .leaf c, .leaf d =>
    c.field == d.field && c.comparator == d.comparator && c.literal.same d.literal
  | .node k left right, .node l left' right' => k == l && left.same left' && right.same right'
  | _, _ => false

end Expr

end Criteria
