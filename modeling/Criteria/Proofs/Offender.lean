import Criteria.Proofs.Strictness

/-!
# The error of an evaluation

Both subtrees of an inner node are evaluated before they are combined, whatever they give, so that
an unknown operator is met wherever it stands. The evaluation fails just if there is one, and its
error is that of the first one in post-order: those of the left subtree come first, then those of
the right one, then the connective itself. The record has no part in this.

## Main definitions

* `Expr.finishedOperators`: the operators of a tree in post-order.

## Main results

* `Expr.mem_finishedOperators`: these are the operators of the tree.
* `Expr.truth_eq_error_iff`: the error of the plain recursion.
* `Expr.evaluate_eq_error_of_tree`: the error of an evaluation, from the tree alone.
-/

namespace Criteria

theorem Condition.check_eq_error_iff {c : Condition} {record : Record} {cause : EvalError} :
    c.check record = .error cause ↔
      c.comparator.isKnown = false ∧ .unknownOperator c.comparator.text = cause := by
  rw [check, Comparator.test]
  cases c.comparator <;> simp [Comparator.accepts?, Comparator.isKnown]

theorem Connective.apply_eq_error_iff {k : Connective} {left right : Bool} {cause : EvalError} :
    k.apply left right = .error cause ↔
      k.isKnown = false ∧ .unknownOperator k.text = cause := by
  cases k <;> simp [apply, isKnown, text]

namespace Expr

/-- The operators of a tree in the order in which its nodes are finished: each connective behind
the operators of both its subtrees. -/
def finishedOperators : Expr → List Operator
  | .leaf c => [.comparator c.comparator]
  | .node k left right => left.finishedOperators ++ right.finishedOperators ++ [.connective k]

/-- Finishing nodes meets just the operators of the tree. -/
theorem mem_finishedOperators {operator : Operator} {e : Expr} :
    operator ∈ e.finishedOperators ↔ operator ∈ e.operators := by
  induction e with
  | leaf c => rfl
  | node k left right ihleft ihright =>
    simp only [finishedOperators, operators, List.mem_append, List.mem_cons, List.not_mem_nil,
      or_false, ihleft, ihright, or_assoc, or_comm (a := operator ∈ right.operators)]

/-- An inner node fails as its left subtree does, or else as its right one does, or else for its
connective. -/
theorem truth_node_eq_error_iff {record : Record} {k : Connective} {left right : Expr}
    {cause : EvalError} :
    (node k left right).truth record = .error cause ↔
      left.truth record = .error cause ∨ (∃ a, left.truth record = .ok a) ∧
        (right.truth record = .error cause ∨ (∃ b, right.truth record = .ok b) ∧
          k.isKnown = false ∧ .unknownOperator k.text = cause) := by
  rw [truth_node, Connective.join]
  simp only [bind_eq_error_iff, Connective.apply_eq_error_iff, exists_and_right]

/-- A tree has no truth value just if one of its operators is unknown; the first one of them to be
finished is refused. -/
theorem truth_eq_error_iff {record : Record} {e : Expr} {cause : EvalError} :
    e.truth record = .error cause ↔ ∃ operator,
      IsFirst (fun o => o.isKnown = false) e.finishedOperators operator ∧
        .unknownOperator operator.text = cause := by
  induction e generalizing cause with
  | leaf c =>
    rw [truth_leaf, Condition.check_eq_error_iff]
    simp [finishedOperators, isFirst_cons_iff, not_isFirst_nil, Operator.isKnown, Operator.text]
  | node k left right ihleft ihright =>
    -- a subtree that has a truth value has no unknown operator, and the search goes on behind it
    have hknown (t : Expr) : (∃ a, t.truth record = .ok a) ↔
        ∀ operator ∈ t.finishedOperators, ¬ operator.isKnown = false := by
      simp only [exists_truth_iff, mem_finishedOperators, Bool.not_eq_false]
    rw [truth_node_eq_error_iff, hknown, hknown, ihleft, ihright]
    simp only [finishedOperators, List.append_assoc, isFirst_append_iff, isFirst_cons_iff,
      not_isFirst_nil, and_false, or_false]
    constructor
    · rintro (⟨operator, h, hcause⟩ | ⟨hleft, ⟨operator, h, hcause⟩ | ⟨hright, hk, hcause⟩⟩)
      · exact ⟨operator, .inl h, hcause⟩
      · exact ⟨operator, .inr ⟨hleft, .inl h⟩, hcause⟩
      · exact ⟨.connective k, .inr ⟨hleft, .inr ⟨hright, hk, rfl⟩⟩, hcause⟩
    · rintro ⟨operator, h | ⟨hleft, h | ⟨hright, hk, rfl⟩⟩, hcause⟩
      · exact .inl ⟨operator, h, hcause⟩
      · exact .inr ⟨hleft, .inl ⟨operator, h, hcause⟩⟩
      · exact .inr ⟨hleft, .inr ⟨hright, hk, hcause⟩⟩

/-- **The error of an evaluation depends on the tree alone.** The evaluation of a tree fails just if
there is an unknown comparator or connective anywhere in it, and its error is that of the first one
in post-order. So it is the same for all records, whether notes are taken or not. Where there is no
error, notes were taken of all nodes: no subtree is passed over, whatever the other one gave. -/
theorem evaluate_eq_error_of_tree (e : Expr) :
    (∀ tracing record, (∃ cause, e.evaluate tracing record = .error cause) ↔
      ∃ operator ∈ e.operators, operator.isKnown = false) ∧
    (∀ tracing record cause, e.evaluate tracing record = .error cause ↔ ∃ operator,
      IsFirst (fun o => o.isKnown = false) e.finishedOperators operator ∧
        cause = .unknownOperator operator.text) ∧
    (∀ tracing tracing' record record' cause,
      e.evaluate tracing record = .error cause ↔ e.evaluate tracing' record' = .error cause) ∧
    ∀ record evaluation, e.evaluate true record = .ok evaluation →
      evaluation.trace.length = e.size := by
  have herror (tracing : Bool) (record : Record) (cause : EvalError) :
      e.evaluate tracing record = .error cause ↔ ∃ operator,
        IsFirst (fun o => o.isKnown = false) e.finishedOperators operator ∧
          cause = .unknownOperator operator.text := by
    rw [evaluate_eq, map_eq_error_iff, truth_eq_error_iff]
    simp only [eq_comm]
  refine ⟨fun tracing record => ?_, herror, fun tracing tracing' record record' cause => ?_,
    fun record evaluation h => ?_⟩
  · simp only [← mem_finishedOperators, ← exists_isFirst_iff, herror]
    exact ⟨fun ⟨_, operator, hfirst, _⟩ => ⟨operator, hfirst⟩,
      fun ⟨operator, hfirst⟩ => ⟨_, operator, hfirst, rfl⟩⟩
  · rw [herror, herror]
  · rw [evaluate_eq, map_eq_ok_iff] at h
    obtain ⟨result, htruth, rfl⟩ := h
    have hlength := (describes_notes htruth []).length_eq
    rw [length_postorder, List.length_map] at hlength
    exact hlength.symm

-- the left side decides nothing: the connective on the right is met before the one at the root
example : (Expr.node (.unknown "NOR") (.condition "a" .equal (.text "x"))
      (.node (.unknown "XOR") (.condition "b" .equal (.text "y"))
        (.condition "c" .less (.text "z")))).evaluate false ⟨[]⟩ =
    .error (.unknownOperator "XOR") := (evaluate_eq _ _ _).trans rfl

end Expr

end Criteria
