import Criteria.Proofs.FirstFailure
import Criteria.Proofs.Traversal

/-!
# Bracketings

The trees of a sequence can be joined to one tree by a connective in many ways, which differ in their
brackets. All trees are evaluated, from left to right, whatever the brackets are, so that the same
one of them fails first. If none fails, the conjunction or the disjunction of their truth values does
not depend on the brackets either.

## Main definitions

* `Connective.total`: several truth values combined.
* `Expr.Brackets`: a tree joins the trees of a sequence by a connective, in any way.

## Main results

* `Expr.Brackets.truth_eq`: the truth value of a bracketing, from its sequence alone.
-/

namespace Criteria

namespace Connective

/-- Several truth values combined; unknown text combines none. -/
def total : Connective → List Bool → Bool
  | .and, values => values.all id
  | .or, values => values.any id
  | .unknown _, _ => false

variable {k : Connective}

theorem total_singleton (hk : k.isKnown = true) (value : Bool) : k.total [value] = value := by
  cases k with
  | unknown text => cases hk
  | _ => simp [total]

/-- A known connective combines the truth values of two parts as it combines all of them. -/
theorem apply_total (hk : k.isKnown = true) (front back : List Bool) :
    k.apply (k.total front) (k.total back) = .ok (k.total (front ++ back)) := by
  cases k with
  | unknown text => cases hk
  | _ => simp [apply, total]

end Connective

namespace Expr

/-- A tree joins the trees of a sequence, in their order, by one connective, with any brackets. -/
inductive Brackets (k : Connective) : List Expr → Expr → Prop
  /-- A single tree needs no brackets. -/
  | single (tree : Expr) : Brackets k [tree] tree
  /-- Two parts of the sequence are joined, each of them with brackets of its own. -/
  | join {front back : List Expr} {left right : Expr} (hfront : Brackets k front left)
      (hback : Brackets k back right) : Brackets k (front ++ back) (.node k left right)

/-- The truth value of a bracketing: the trees are evaluated one after another, and if all of them
have a truth value, these are combined. -/
theorem Brackets.truth_eq {k : Connective} (hk : k.isKnown = true) {trees : List Expr} {tree : Expr}
    (h : Brackets k trees tree) (record : Record) :
    tree.truth record = (trees.mapM (truth record)).map k.total := by
  induction h with
  | single tree =>
    rw [List.mapM_cons, List.mapM_nil]
    cases tree.truth record with
    | error cause => rfl
    | ok value => exact congrArg Except.ok (Connective.total_singleton hk value).symm
  | @join front back left right _ _ ihfront ihback =>
    rw [truth_node, ihfront, ihback, List.mapM_append]
    cases front.mapM (truth record) with
    | error cause => rfl
    | ok values =>
      cases back.mapM (truth record) with
      | error cause => rfl
      | ok others => exact Connective.apply_total hk values others

end Expr

end Criteria
