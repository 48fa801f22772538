import Criteria.Proofs.Traversal
import Criteria.Proofs.TreeStatistics

/-!
# The fields that a tree reads

The attributes of a tree are collected by one walk over it, and another walk evaluates it. Both come
to the conditions of the tree: the attributes are the names of the fields that they compare, and
nothing else of a record has a part in its evaluation, neither in the truth value nor in the notes.

## Main definitions

* `Record.AgreesOn`: two records do not differ in some fields.

## Main results

* `Expr.truth_congr`, `Expr.notes_congr`: what is evaluated depends on the fields of the conditions.
* `Expr.evaluate_of_agreesOn`: the attributes are all that is read.
-/

namespace Criteria

/-- Two records have the same value for each of some names, or neither has any. -/
def Record.AgreesOn (record other : Record) (names : List String) : Prop :=
  ∀ name ∈ names, record.get? name = other.get? name

variable {record other : Record}

/-- A condition reads its field only. -/
theorem Condition.check_congr {c : Condition} (h : record.get? c.field = other.get? c.field) :
    c.check record = c.check other := by
  rw [check, check, h]

namespace Expr

variable {e : Expr}

/-- The truth value of a tree depends on the fields of its conditions. -/
theorem truth_congr (h : ∀ c ∈ e.conditions, record.get? c.field = other.get? c.field) :
    e.truth record = e.truth other := by
  induction e with
  | leaf c => exact Condition.check_congr (h c List.mem_cons_self)
  | node k left right ihleft ihright =>
    obtain ⟨hleft, hright⟩ := List.forall_mem_append.1 h
    rw [truth_node, truth_node, ihleft hleft, ihright hright]

/-- So do the notes: of a condition they hold the value of its field, of an inner node the truth
values of its subtrees. -/
theorem notes_congr (tracing : Bool)
    (h : ∀ c ∈ e.conditions, record.get? c.field = other.get? c.field) (path : Path) :
    e.notes tracing record path = e.notes tracing other path := by
  induction e generalizing path with
  | leaf c =>
    have hfield := h c List.mem_cons_self
    rw [notes, notes, Condition.check_congr hfield, hfield]
  | node k left right ihleft ihright =>
    obtain ⟨hleft, hright⟩ := List.forall_mem_append.1 h
    rw [notes, notes, truth_congr h, truth_congr hleft, truth_congr hright, ihleft hleft,
      ihright hright]

/-- **The attributes are all that a tree reads.** Records that do not differ in the attributes of a
tree have the same evaluation by it, whether notes are taken or not: the same truth value with the
same notes, or the same error. -/
theorem evaluate_of_agreesOn (h : record.AgreesOn other e.attributes) (tracing : Bool) :
    e.evaluate tracing record = e.evaluate tracing other := by
  have hfields : ∀ c ∈ e.conditions, record.get? c.field = other.get? c.field := fun c hc =>
    h c.field (mem_attributes.2 ⟨c, hc, rfl⟩)
  rw [evaluate_eq, evaluate_eq, truth_congr hfields, notes_congr tracing hfields]

/-- The theorem for records that differ in a field that is no attribute, and have no value for one
that is. -/
theorem evaluate_of_agreesOn_of_debt :
    let tree : Expr := .both (.condition "age" .atLeast (.number (.ofInt 18)))
      (.either (.condition "vip" .equal (.text "yes")) (.condition "age" .less (.text "x")))
    let record : Record := .ofMembers [("age", .nat 20), ("debt", .nat 0)]
    let other : Record := .ofMembers [("age", .nat 20), ("debt", .text "none")]
    record.AgreesOn other tree.attributes ∧
      tree.evaluate true record = tree.evaluate true other := by
  intro tree record other
  have hattributes : tree.attributes = ["age", "vip"] := by decide +kernel
  have hagrees : record.AgreesOn other tree.attributes := by
    rw [hattributes]
    exact List.forall_mem_cons.2 ⟨rfl, List.forall_mem_singleton.2 rfl⟩
  exact ⟨hagrees, evaluate_of_agreesOn hagrees true⟩

end Expr

end Criteria
