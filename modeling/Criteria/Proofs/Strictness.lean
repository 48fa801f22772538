import Criteria.Proofs.Grammar
import Criteria.Proofs.Traversal
import Criteria.Rule.Engine
import Mathlib.Data.List.TFAE
import Mathlib.Tactic.TFAE

/-!
# Checking operators while reading

A strict engine refuses unknown operators while it reads a rule, a lenient one when it evaluates
the tree. The two look in different orders, the one as the rule is written and the other at
subtrees before the nodes above them, and they may find different operators. Yet they accept the
same rules: those whose operators are all known.

## Main definitions

* `Operator`: a comparator or a connective.
* `Expr.operators`: the operators of a tree, in the order of the rule text.
* `Expr.screened`: a tree, unless one of its operators is unknown.
* `Screened`: how the outcomes of reading with and without the check compare.

## Main results

* `Expr.exists_truth_iff`: a tree has a truth value if all its operators are known.
* `Writes.sublist_operators`: the operators of a tree stand in its tokens in their order.
* `Dialect.screened_parseWithin`: checking operators comes to screening the tree that is read
  without the check, as far as there is one.
* `Engine.compile_strict`: what a strict engine compiles, and how it fails.
-/

namespace Criteria

/-- A comparator or a connective. -/
inductive Operator where
  | comparator (comparator : Comparator)
  | connective (connective : Connective)
deriving DecidableEq

namespace Operator

/-- The spelling of an operator. -/
def text : Operator → String
  | .comparator c => c.text
  | .connective k => k.text

/-- It is one of the known operators. -/
def isKnown : Operator → Bool
  | .comparator c => c.isKnown
  | .connective k => k.isKnown

/-- A known operator; an unknown one is refused. -/
def check (operator : Operator) : Except ParseError Operator :=
  if operator.isKnown then .ok operator else .error (.unknownOperator operator.text)

theorem check_eq_ok_iff {operator other : Operator} :
    operator.check = .ok other ↔ operator.isKnown = true ∧ operator = other := by
  rw [check]
  split <;> simp_all

theorem check_eq_error_iff {operator : Operator} {cause : ParseError} :
    operator.check = .error cause ↔
      operator.isKnown = false ∧ .unknownOperator operator.text = cause := by
  rw [check]
  split <;> simp_all

end Operator

namespace Expr

/-- The operators of a tree, in the order in which the rule text has them. -/
def operators : Expr → List Operator
  | .leaf c => [.comparator c.comparator]
  | .node k left right => left.operators ++ .connective k :: right.operators

/-- The tree, if all its operators are known; else the first one that is unknown is refused. -/
def screened (e : Expr) : Except ParseError Expr :=
  (e.operators.mapM Operator.check).map fun _ => e

/-- Both subtrees of an inner node are screened, and its connective in between. -/
theorem screened_node (k : Connective) (left right : Expr) :
    (node k left right).screened = (do
      let left ← left.screened
      let k ← (Operator.connective k).check.map fun _ => k
      return .node k left (← right.screened)) := by
  simp only [screened, operators, List.mapM_append, List.mapM_cons]
  cases left.operators.mapM Operator.check with
  | error cause => rfl
  | ok _ =>
    cases (Operator.connective k).check with
    | error cause => rfl
    | ok _ => cases right.operators.mapM Operator.check <;> rfl

theorem screened_eq_ok_iff {e t : Expr} :
    e.screened = .ok t ↔ (∀ operator ∈ e.operators, operator.isKnown = true) ∧ e = t := by
  simp only [screened, map_eq_ok_iff, mapM_eq_ok_iff, Operator.check_eq_ok_iff]
  constructor
  · rintro ⟨_, hall, rfl⟩
    exact ⟨fun operator h => (exists_of_forall₂ hall operator h).elim fun _ h => h.1, rfl⟩
  · rintro ⟨hall, rfl⟩
    exact ⟨e.operators, List.forall₂_same.2 fun operator h => ⟨hall operator h, rfl⟩, rfl⟩

/-- A tree is refused for the first of its operators that is unknown. -/
theorem screened_eq_error_iff {e : Expr} {cause : ParseError} :
    e.screened = .error cause ↔ ∃ operator,
      IsFirst (fun o => o.isKnown = false) e.operators operator ∧
        .unknownOperator operator.text = cause := by
  have hfails (o : Operator) : (∀ o', o.check ≠ .ok o') ↔ o.isKnown = false := by
    simp [Operator.check_eq_ok_iff]
  simp only [screened, map_eq_error_iff, mapM_eq_error_iff, hfails, Operator.check_eq_error_iff]
  constructor
  · rintro ⟨operator, hfirst, -, hcause⟩
    exact ⟨operator, hfirst, hcause⟩
  · rintro ⟨operator, hfirst, hcause⟩
    exact ⟨operator, hfirst, hfirst.holds, hcause⟩

/-! ### Evaluating -/

/-- A condition has a truth value just if its comparator is known, whatever the record holds. -/
theorem exists_check_iff (c : Condition) (record : Record) :
    (∃ result, c.check record = .ok result) ↔ c.comparator.isKnown = true := by
  rw [Condition.check, Comparator.test]
  cases c.comparator <;> simp [Comparator.accepts?, Comparator.isKnown]

theorem exists_apply_iff (k : Connective) (left right : Bool) :
    (∃ result, k.apply left right = .ok result) ↔ k.isKnown = true := by
  cases k <;> simp [Connective.apply, Connective.isKnown]

/-- A tree has a truth value just if all its operators are known, whatever the record holds. -/
theorem exists_truth_iff (record : Record) (e : Expr) :
    (∃ result, e.truth record = .ok result) ↔
      ∀ operator ∈ e.operators, operator.isKnown = true := by
  induction e with
  | leaf c => simpa [operators, Operator.isKnown] using exists_check_iff c record
  | node k left right ihl ihr =>
    simp only [operators, List.forall_mem_append, List.forall_mem_cons, ← ihl, ← ihr]
    constructor
    · rintro ⟨result, h⟩
      obtain ⟨a, b, hl, hr, happly⟩ := truth_node_eq_ok h
      exact ⟨⟨a, hl⟩, (exists_apply_iff k a b).1 ⟨result, happly⟩, ⟨b, hr⟩⟩
    · rintro ⟨⟨a, hl⟩, hk, ⟨b, hr⟩⟩
      obtain ⟨result, happly⟩ := (exists_apply_iff k a b).2 hk
      refine ⟨result, ?_⟩
      rw [truth_node, hl, hr]
      exact happly

end Expr

/-! ### Reading -/

/-- The operators of a tree stand among the tokens that write it, in the same order. -/
theorem Writes.sublist_operators {tokens : List Token} {tree : Expr} (h : Writes tokens tree) :
    (tree.operators.map Operator.text).Sublist (tokens.map Token.text) := by
  induction h with
  | leaf => simp [Expr.operators, Operator.text, Condition.ofTokens]
  | group _ _ ih =>
    simp only [List.map_cons, List.map_append]
    exact (ih.trans (List.sublist_append_left _ _)).cons _
  | @link field comparator value connective rest right _ _ ih =>
    simp only [Expr.operators, List.map_append, List.map_cons, List.map_nil, Operator.text,
      Condition.ofTokens, Comparator.text_ofText, Connective.text_ofText]
    exact (((ih.cons_cons connective.text).cons value.text).cons_cons comparator.text).cons
      field.text
  | @groupLink inner rest connective left right _ _ _ ihleft ihright =>
    simp only [Expr.operators, List.map_append, List.map_cons, Operator.text,
      Connective.text_ofText]
    exact (ihleft.append ((ihright.cons_cons connective.text).cons Token.closing.text)).cons
      Token.opening.text

/-- How the outcome of reading with the check of operators compares with that of reading without
it: a tree is screened, and a failure stays unless an unknown operator is met before it. -/
inductive Screened : Except ParseError Expr → Except ParseError Expr → Prop
  | tree (e : Expr) : Screened (.ok e) e.screened
  | failure {cause cause' : ParseError}
      (h : cause' = cause ∨ ∃ text, cause' = .unknownOperator text) :
      Screened (.error cause) (.error cause')

namespace Screened

variable {lenient strict : Except ParseError Expr}

/-- A tree that is read without the check is screened. -/
theorem eq_screened (h : Screened lenient strict) {t : Expr} (ht : lenient = .ok t) :
    strict = t.screened := by
  cases h with
  | tree e =>
    obtain rfl := Except.ok.inj ht
    rfl
  | failure _ => cases ht

/-- A failure without the check is one with it. -/
theorem exists_failure (h : Screened lenient strict) {cause : ParseError}
    (hcause : lenient = .error cause) : ∃ cause', strict = .error cause' ∧
      (cause' = cause ∨ ∃ text, cause' = .unknownOperator text) := by
  cases h with
  | tree _ => cases hcause
  | failure h =>
    obtain rfl := Except.error.inj hcause
    exact ⟨_, rfl, h⟩

/-- The check leaves just the trees whose operators are all known. -/
theorem eq_ok_iff (h : Screened lenient strict) {t : Expr} :
    strict = .ok t ↔ lenient = .ok t ∧ ∀ operator ∈ t.operators, operator.isKnown = true := by
  cases h with
  | tree e =>
    rw [Expr.screened_eq_ok_iff]
    constructor
    · rintro ⟨hknown, rfl⟩
      exact ⟨rfl, hknown⟩
    · rintro ⟨he, hknown⟩
      obtain rfl := Except.ok.inj he
      exact ⟨hknown, rfl⟩
  | failure _ => simp

end Screened

namespace Dialect

variable {maxDepth : Nat}

theorem operand_of_strict (field comparator value : Token) :
    (Dialect.mk true maxDepth).operand field comparator value =
      (Expr.leaf (.ofTokens field comparator value)).screened := by
  have hknown : (Operator.comparator (.ofText comparator.text)).isKnown =
    (Comparator.ofText comparator.text).isKnown := rfl
  simp only [operand, Dialect.comparator, Expr.screened, Expr.operators, List.mapM_cons,
    List.mapM_nil, Operator.check, Condition.ofTokens, hknown]
  cases (Comparator.ofText comparator.text).isKnown <;> rfl

theorem connective_of_strict (token : Token) :
    (Dialect.mk true maxDepth).connective token =
      (Operator.connective (.ofText token.text)).check.map fun _ => .ofText token.text := by
  have hknown : (Operator.connective (.ofText token.text)).isKnown =
    (Connective.ofText token.text).isKnown := rfl
  simp only [connective, Operator.check, hknown]
  cases (Connective.ofText token.text).isKnown <;> rfl

/-- The outcomes of reading an inner node compare as those of reading its subtrees do. -/
theorem screened_node {left left' right right' : Except ParseError Expr}
    (hleft : Screened left left') (hright : Screened right right') (link : Token) :
    Screened
      (do
        let left ← left
        let connective ← (Dialect.mk false maxDepth).connective link
        return .node connective left (← right))
      (do
        let left ← left'
        let connective ← (Dialect.mk true maxDepth).connective link
        return .node connective left (← right')) := by
  rw [connective_of_lenient rfl, connective_of_strict]
  cases hleft with
  | failure h => exact .failure h
  | tree left =>
    cases hright with
    | tree right =>
      rw [← Expr.screened_node]
      exact .tree _
    | @failure cause cause' h =>
      -- the failure on the right is met unless an operator before it is unknown
      cases hl : left.screened with
      | error cause =>
        obtain ⟨operator, -, rfl⟩ := Expr.screened_eq_error_iff.1 hl
        exact .failure (.inr ⟨operator.text, rfl⟩)
      | ok left =>
        cases hk : (Operator.connective (.ofText link.text)).check with
        | error cause =>
          obtain ⟨-, rfl⟩ := Operator.check_eq_error_iff.1 hk
          exact .failure (.inr ⟨_, rfl⟩)
        | ok k => exact .failure h

/-- Checking operators comes to screening the tree that is read without the check. Where there is
no tree, the failure is the same or that of an unknown operator. -/
theorem screened_parseWithin (depth : Nat) (tokens : List Token) :
    Screened ((Dialect.mk false maxDepth).parseWithin depth tokens)
      ((Dialect.mk true maxDepth).parseWithin depth tokens) := by
  induction depth generalizing tokens with
  | zero =>
    rw [parseWithin_zero, parseWithin_zero]
    exact .failure (.inl rfl)
  | succ depth ih =>
    cases form tokens with
    | empty =>
      rw [parseWithin_nil, parseWithin_nil]
      exact .failure (.inl rfl)
    | unclosed hnone =>
      rw [parseWithin_unclosed depth hnone, parseWithin_unclosed depth hnone]
      exact .failure (.inl rfl)
    | short hfield hrest =>
      rw [parseWithin_short hfield depth hrest, parseWithin_short hfield depth hrest]
      exact .failure (.inl rfl)
    | leaf hfield =>
      rw [parseWithin_leaf hfield, parseWithin_leaf hfield, operand_of_lenient rfl,
        operand_of_strict]
      exact .tree _
    | group hinner =>
      rw [parseWithin_group hinner, parseWithin_group hinner]
      exact ih _
    | link hfield =>
      rw [parseWithin_link hfield, parseWithin_link hfield, operand_of_lenient rfl,
        operand_of_strict]
      exact screened_node (.tree _) (ih _) _
    | groupLink hinner =>
      rw [parseWithin_groupLink hinner, parseWithin_groupLink hinner]
      exact screened_node (ih _) (ih _) _

end Dialect

namespace Engine

theorem exists_evaluate_iff_known (engine : Engine) (record : Record) (t : Expr) :
    (∃ evaluation, engine.evaluate t record = .ok evaluation) ↔
      ∀ operator ∈ t.operators, operator.isKnown = true := by
  rw [← Expr.exists_truth_iff record]
  simp only [evaluate, Expr.evaluate_eq, map_eq_ok_iff]
  exact ⟨fun ⟨_, result, h, _⟩ => ⟨result, h⟩, fun ⟨result, h⟩ => ⟨_, result, h, rfl⟩⟩

/-- **A strict engine compiles just the rules that can be evaluated.** It gives a tree just if the
lenient engine gives the same one and evaluating it fails on no record, or on one record does not
fail. A rule that only the lenient engine compiles is refused for the first operator in the order of
the text that is unknown. Where the lenient engine fails, the strict one fails in the same way or
for an unknown operator. -/
theorem compile_strict (maxDepth : Nat) (tracing : Bool) (rule : String) :
    let strict : Engine := ⟨⟨true, maxDepth⟩, tracing⟩
    let lenient : Engine := ⟨⟨false, maxDepth⟩, tracing⟩
    (∀ t, [strict.compile rule = .ok t,
      lenient.compile rule = .ok t ∧ ∃ record evaluation,
        lenient.evaluate t record = .ok evaluation,
      lenient.compile rule = .ok t ∧ ∀ record, ∃ evaluation,
        lenient.evaluate t record = .ok evaluation].TFAE) ∧
    match lenient.compile rule with
    | .ok t =>
      (t.operators.map Operator.text).Sublist ((Token.ofString rule).map Token.text) ∧
        ∀ cause, strict.compile rule = .error cause → ∃ operator,
          IsFirst (fun o => o.isKnown = false) t.operators operator ∧
            cause = .unknownOperator operator.text
    | .error cause => ∃ cause', strict.compile rule = .error cause' ∧
        (cause' = cause ∨ ∃ text, cause' = .unknownOperator text) := by
  intro strict lenient
  have hscreened : Screened (lenient.compile rule) (strict.compile rule) :=
    Dialect.screened_parseWithin maxDepth (Token.ofString rule)
  constructor
  · intro t
    simp only [hscreened.eq_ok_iff, exists_evaluate_iff_known]
    tfae_have 1 → 3 := fun h => ⟨h.1, fun _ => h.2⟩
    tfae_have 3 → 2 := fun h => ⟨h.1, default, h.2 default⟩
    tfae_have 2 → 1 := fun ⟨h, _, hknown⟩ => ⟨h, hknown⟩
    tfae_finish
  · cases h : lenient.compile rule with
    | ok t =>
      refine ⟨(Dialect.writes_of_parseWithin h).1.sublist_operators, fun cause hcause => ?_⟩
      rw [hscreened.eq_screened h] at hcause
      obtain ⟨operator, hfirst, rfl⟩ := Expr.screened_eq_error_iff.1 hcause
      exact ⟨operator, hfirst, rfl⟩
    | error cause => exact hscreened.exists_failure h

-- the evaluation of this rule would meet the comparator first
example : (Engine.ofDialect ⟨true, 2⟩).compile "a = 1 XOR b <> 2" =
    .error (.unknownOperator "XOR") := by decide +kernel

end Engine

end Criteria
