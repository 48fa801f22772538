import Criteria.Rule.Evaluation
import Mathlib.Data.List.Forall2

/-!
# The traversal computes the plain recursion

The evaluation of a tree walks over it with a list of unfinished nodes. Read off the tree itself,
the truth value is a recursion over subtrees: both subtrees of an inner node are evaluated, an
error on the left comes first, then one on the right, then that of an unknown connective. This
file shows that the walk gives just this value, and that its notes are one line for each node, the
nodes taken in post-order, each line under the address of its node.

The invariant of the walk is `Expr.descend_eq_climb`: going down into a subtree, whatever nodes
are waiting above it, comes to going up with the value of the subtree after its notes were added.

## Main definitions

* `Expr.truth`: the truth value of a tree, by recursion over the tree.
* `Expr.postorder`: the nodes of a tree with their addresses, each after its subtrees.
* `Expr.Describes`: a line says of the node at an address what there is to say.

## Main results

* `Expr.descend_eq_climb`: the invariant of the walk.
* `Expr.evaluate_eq_truth`: the value of the walk, and its notes.
-/

namespace Criteria.Expr

/-! ### The plain recursion -/

/-- The truth value of a tree. Both subtrees of an inner node have theirs before they are
combined. -/
def truth (record : Record) : Expr → Except EvalError Bool
  | .leaf c => c.check record
  | .node k left right =>
    match left.truth record, right.truth record with
    | .error cause, _ => .error cause
    | .ok _, .error cause => .error cause
    | .ok a, .ok b =>
      match k with
      | .and => .ok (a && b)
      | .or => .ok (a || b)
      | .unknown text => .error (.unknownOperator text)

/-- The nodes of a tree that stands at an address, each with its own address and after its
subtrees. -/
def postorder (address : String) : Expr → List (String × Expr)
  | .leaf c => [(address, .leaf c)]
  | .node k left right =>
    left.postorder (address ++ ".left") ++ right.postorder (address ++ ".right") ++
      [(address, .node k left right)]

/-- A line describes the node at an address: a condition with the value of its field, an inner node
with the truth values of its subtrees, and either of them with its own truth value. -/
inductive Describes (record : Record) (address : String) : Expr → String → Prop
  | leaf {c : Condition} {result : Bool} (h : truth record (.leaf c) = .ok result) :
      Describes record address (.leaf c)
        (address ++ ": " ++ c.field ++ " " ++ c.comparator.text ++ " " ++
          String.ofList c.literal.display ++ " against " ++ renderField (record.get? c.field) ++
          " => " ++ (if result then "MATCHED" else "NOT_MATCHED"))
  | node {k : Connective} {left right : Expr} {a b result : Bool}
      (hleft : left.truth record = .ok a) (hright : right.truth record = .ok b)
      (h : truth record (.node k left right) = .ok result) :
      Describes record address (.node k left right)
        (address ++ ": " ++ toString a ++ " " ++ k.text ++ " " ++ toString b ++ " => " ++
          toString result)

theorem length_postorder (address : String) (e : Expr) :
    (e.postorder address).length = e.size := by
  induction e generalizing address with
  | leaf c => rfl
  | node k left right ihleft ihright =>
    simp [postorder, size, ihleft, ihright, Nat.add_assoc]

@[simp] theorem truth_leaf (record : Record) (c : Condition) :
    truth record (.leaf c) = c.check record := rfl

theorem truth_node (record : Record) (k : Connective) (left right : Expr) :
    truth record (.node k left right) = k.join (left.truth record) (right.truth record) := by
  rw [truth]
  cases left.truth record with
  | error cause => rfl
  | ok a =>
    cases right.truth record with
    | error cause => rfl
    | ok b => cases k <;> rfl

/-- An inner node has a truth value only if both its subtrees have one. -/
theorem truth_node_eq_ok {record : Record} {k : Connective} {left right : Expr} {result : Bool}
    (h : truth record (.node k left right) = .ok result) :
    ∃ a b, left.truth record = .ok a ∧ right.truth record = .ok b ∧
      k.apply a b = .ok result := by
  rw [truth_node] at h
  cases hl : left.truth record with
  | error cause => rw [hl] at h; cases h
  | ok a =>
    cases hr : right.truth record with
    | error cause => rw [hl, hr] at h; cases h
    | ok b =>
      rw [hl, hr] at h
      exact ⟨a, b, rfl, rfl, h⟩

/-! ### The invariant of the walk -/

/-- The notes that a walk over a tree takes, the latest one first. -/
def notes (tracing : Bool) (record : Record) (path : Path) : Expr → List TraceLine
  | .leaf c => takeNote tracing (.leaf path c (record.get? c.field)) (c.check record) []
  | .node k left right =>
    takeNote tracing (noteNode path k (left.truth record) (right.truth record))
      (truth record (.node k left right))
      (right.notes tracing record (.right :: path) ++ left.notes tracing record (.left :: path))

theorem takeNote_append (tracing : Bool) (note : Bool → TraceLine)
    (value : Except EvalError Bool) (earlier earliest : List TraceLine) :
    takeNote tracing note value (earlier ++ earliest) =
      takeNote tracing note value earlier ++ earliest := by
  cases tracing <;> cases value <;> rfl

/-- **The invariant of the walk.** Going down into a subtree comes to going up with its value,
after its notes were added, whatever nodes wait above it. -/
theorem descend_eq_climb (tracing : Bool) (record : Record) (e : Expr) (path : Path)
    (pending : List Frame) (earlier : List TraceLine) :
    descend tracing record e path pending earlier =
      climb tracing record (e.truth record) pending
        (e.notes tracing record path ++ earlier) := by
  induction e generalizing path pending earlier with
  | leaf c => rw [descend, notes, ← takeNote_append, List.nil_append, truth_leaf]
  | node k left right ihl ihr =>
    -- down the left subtree, over to the right one, and up with both values
    rw [descend, ihl, climb, ihr, climb, notes, ← takeNote_append, List.append_assoc, truth_node]

/-- The walk gives the value of the recursion and its notes, the earliest first. -/
theorem evaluate_eq (tracing : Bool) (record : Record) (e : Expr) :
    e.evaluate tracing record =
      (e.truth record).map fun result => ⟨result, (e.notes tracing record []).reverse⟩ := by
  rw [evaluate, descend_eq_climb, climb, List.append_nil]

/-- Without its notes, the evaluation is the recursion. -/
theorem map_result_evaluate (tracing : Bool) (record : Record) (e : Expr) :
    (e.evaluate tracing record).map Evaluation.result = e.truth record := by
  rw [evaluate_eq]
  cases e.truth record <;> rfl

/-! ### What the notes say -/

/-- Nothing is noted unless notes are taken. -/
theorem notes_untraced (record : Record) (path : Path) (e : Expr) :
    e.notes false record path = [] := by
  induction e generalizing path with
  | leaf c => rfl
  | node k left right ihl ihr =>
    rw [notes, ihl, ihr]
    rfl

theorem ofList_renderCondition (c : Condition) :
    String.ofList (renderCondition c) =
      c.field ++ " " ++ c.comparator.text ++ " " ++ String.ofList c.literal.display := by
  apply String.toList_inj.1
  simp [renderCondition]

/-- The notes of a tree that has a truth value describe its nodes in post-order. -/
theorem describes_notes {record : Record} {e : Expr} {result : Bool}
    (h : e.truth record = .ok result) (path : Path) :
    List.Forall₂ (fun node line => Describes record node.1 node.2 line)
      (e.postorder path.render) ((e.notes true record path).reverse.map TraceLine.render) := by
  induction e generalizing path result with
  | leaf c =>
    have hline : Describes record path.render (.leaf c) _ := .leaf h
    rw [truth_leaf] at h
    rw [postorder, notes, h, takeNote, List.reverse_singleton, List.map_singleton]
    refine .cons ?_ .nil
    rw [TraceLine.render, ofList_renderCondition]
    simpa only [String.append_assoc] using hline
  | node k left right ihl ihr =>
    obtain ⟨a, b, hl, hr, -⟩ := truth_node_eq_ok h
    rw [notes, h, hl, hr, takeNote, List.reverse_cons, List.reverse_append, List.map_append,
      List.map_append, postorder]
    have hsubtrees := List.rel_append (ihl hl (.left :: path)) (ihr hr (.right :: path))
    exact List.rel_append hsubtrees (.cons (.node hl hr h) .nil)

/-- **The traversal computes the plain recursion.** The walk gives the truth value of the
recursion, or its error, whether notes are taken or not. The notes are one line for each node in
post-order, each describing its node under the address of the node, and none if none are taken. -/
theorem evaluate_eq_truth (tracing : Bool) (record : Record) (e : Expr) :
    (e.evaluate tracing record).map Evaluation.result = e.truth record ∧
      ∀ evaluation, e.evaluate tracing record = .ok evaluation →
        if tracing then
          List.Forall₂ (fun node line => Describes record node.1 node.2 line)
            (e.postorder "root") (evaluation.trace.map TraceLine.render)
        else evaluation.trace = [] := by
  rw [evaluate_eq]
  cases h : e.truth record with
  | error cause => exact ⟨rfl, fun evaluation he => nomatch he⟩
  | ok result =>
    refine ⟨rfl, fun evaluation he => ?_⟩
    obtain rfl := Except.ok.inj he
    cases tracing with
    | false => simp [notes_untraced]
    | true => exact describes_notes h []

end Criteria.Expr
