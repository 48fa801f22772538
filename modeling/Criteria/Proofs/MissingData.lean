import Criteria.Proofs.Alike
import Criteria.Proofs.RuleSet

/-!
# Missing data

A field that a record lacks satisfies no comparator, however it is written, and both connectives
keep the order of truth values. So a record that lacks some of the fields of another one satisfies
no rule that the other one does not satisfy. Whether there is a truth value at all depends on the
rules alone. This file shows both along two runs of the same computation, one for each record.

## Main definitions

* `Record.Within`: a record holds every field of another one.
* `Outcome.Supports`: what is satisfied in one outcome is satisfied in another one.

## Main results

* `Expr.alike_truth`: the truth values of a tree for the two records.
* `Engine.execute_of_within`: the execution of a set of rules on the two records.
-/

namespace Criteria

/-! ### Records -/

namespace Record

/-- Every field of a record is in another one, with the same value. -/
def Within (record larger : Record) : Prop :=
  ∀ name value, record.get? name = some value → larger.get? name = some value

/-- A record without the fields of some names. -/
def without (record : Record) (names : List String) : Record :=
  ⟨record.fields.filter (·.1 ∉ names)⟩

theorem get?_without (record : Record) (names : List String) (name : String) :
    (record.without names).get? name = if name ∈ names then none else record.get? name := by
  obtain ⟨fields⟩ := record
  change (fields.filter (·.1 ∉ names)).lookup name = if name ∈ names then none else
    fields.lookup name
  induction fields with
  | nil => simp
  | cons field fields ih =>
    by_cases hfield : field.1 ∈ names
    · rw [List.filter_cons_of_neg (by simpa using hfield), ih, List.lookup_cons]
      split_ifs with hname
      · rfl
      · have hne : (name == field.1) = false := by
          simpa using fun heq : name = field.1 => hname (heq ▸ hfield)
        rw [hne]
    · rw [List.filter_cons_of_pos (by simpa using hfield), List.lookup_cons, ih, List.lookup_cons]
      cases hname : name == field.1 with
      | false => rfl
      | true =>
        obtain rfl := eq_of_beq hname
        simp only [if_neg hfield]

/-- What is left of a record is within it. -/
theorem without_within (record : Record) (names : List String) :
    (record.without names).Within record := by
  intro name value h
  rw [get?_without] at h
  split_ifs at h with hname
  exact h

end Record

/-! ### Truth values -/

variable {record larger : Record}

/-- A condition on a missing field is not satisfied. -/
theorem Literal.order?_none (literal : Literal) : Literal.order? none literal = none := rfl

/-- A record satisfies the conditions that a record within it satisfies. -/
theorem Condition.alike_check (h : record.Within larger) (c : Condition) :
    Alike (fun a b => a = true → b = true) (c.check record) (c.check larger) := by
  rw [check, check, Comparator.test, Comparator.test]
  cases c.comparator.accepts? with
  | none => exact .error _
  | some accepts =>
    refine .ok fun hany => ?_
    cases hfield : record.get? c.field with
    | none => rw [hfield, Literal.order?_none] at hany; cases hany
    | some value => rwa [h c.field value hfield, ← hfield]

/-- Both connectives keep the order of truth values. -/
theorem Connective.alike_apply (k : Connective) {a b a' b' : Bool} (ha : a = true → a' = true)
    (hb : b = true → b' = true) :
    Alike (fun x y => x = true → y = true) (k.apply a b) (k.apply a' b') := by
  cases k with
  | and =>
    refine .ok fun h => ?_
    obtain ⟨hleft, hright⟩ := Bool.and_eq_true_iff.1 h
    exact Bool.and_eq_true_iff.2 ⟨ha hleft, hb hright⟩
  | or => exact .ok fun h => Bool.or_eq_true_iff.2 ((Bool.or_eq_true_iff.1 h).imp ha hb)
  | unknown text => exact .error _

/-- A tree has truth values for both records, or for none, with the same error. -/
theorem Expr.alike_truth (h : record.Within larger) (e : Expr) :
    Alike (fun a b => a = true → b = true) (e.truth record) (e.truth larger) := by
  induction e with
  | leaf c => exact c.alike_check h
  | node k left right ihleft ihright =>
    rw [truth_node, truth_node]
    exact ihleft.bind fun _ _ ha => ihright.bind fun _ _ hb => k.alike_apply ha hb

namespace Engine

variable (engine : Engine)

/-- The results of the evaluation of a tree for the two records. -/
theorem alike_evaluate (h : record.Within larger) (e : Expr) :
    Alike (fun a b => a.result = true → b.result = true) (engine.evaluate e record)
      (engine.evaluate e larger) := by
  rw [evaluate, evaluate, Expr.evaluate_eq, Expr.evaluate_eq]
  exact (e.alike_truth h).map fun _ _ => id

end Engine

/-! ### Outcomes -/

/-- Two results are those of one rule, and it is satisfied in the second one if it is in the first
one. -/
structure RuleResult.Supports (r s : RuleResult) : Prop where
  ruleId_eq : r.ruleId = s.ruleId
  rule_eq : r.rule = s.rule
  result : r.result = true → s.result = true

/-- Two outcomes are those of the same rules, and what is satisfied in the first one is satisfied in
the second one. -/
structure Outcome.Supports (outcome larger : Outcome) : Prop where
  final : outcome.finalResult = true → larger.finalResult = true
  individual : List.Forall₂ RuleResult.Supports outcome.individualResults larger.individualResults

namespace Engine

variable (engine : Engine)

/-- The results of one rule by itself for the two records. -/
theorem alike_resultOf (h : record.Within larger) (rule : StoredRule) :
    Alike RuleResult.Supports (engine.resultOf record rule) (engine.resultOf larger rule) := by
  refine (Alike.refl _).bind fun tree _ htree => ?_
  subst htree
  exact ((engine.alike_evaluate h tree).mapError _).bind fun _ _ hresult => .ok ⟨rfl, rfl, hresult⟩

/-- **Missing data satisfies nothing.** Rules are executed on a record and on one that holds more,
with whatever engine, and they fail for both in the same way, or they have outcomes for both. The
outcomes hold results of the same rules in the same order, and all that is satisfied for the
smaller record, be it a single rule or all of them together, is satisfied for the larger one. -/
theorem execute_of_within {record larger : Record} (h : record.Within larger)
    (elapsed elapsed' : Elapsed) (rules : List StoredRule) :
    Alike Outcome.Supports (engine.execute record elapsed rules).1
      (engine.execute larger elapsed' rules).1 := by
  change Alike Outcome.Supports (engine.outcomeOf record elapsed rules)
    (engine.outcomeOf larger elapsed' rules)
  refine (Alike.refl _).bind fun combined _ hcombined => ?_
  subst hcombined
  refine ((engine.alike_evaluate h combined).mapError _).bind fun _ _ hfinal => ?_
  exact (Alike.mapM (engine.alike_resultOf h) rules).bind fun _ _ hresults =>
    .ok ⟨hfinal, hresults⟩

/-- The theorem for a record from which a field is taken away that a rule reads with a comparator
that is written as a negation. -/
theorem execute_of_without :
    let larger : Record := .ofMembers [("age", .nat 20), ("debt", .nat 0)]
    let rules : List StoredRule := [⟨1, "adult", "age >= 18", ""⟩, ⟨2, "solvent", "debt <= 0", ""⟩]
    (larger.without ["debt"]).Within larger ∧
      Alike Outcome.Supports (Engine.standard.execute (larger.without ["debt"]) ⟨0⟩ rules).1
        (Engine.standard.execute larger ⟨0⟩ rules).1 :=
  ⟨Record.without_within _ _, execute_of_within _ (Record.without_within _ _) _ _ _⟩

-- without the field, the second rule is not satisfied, though it only sets an upper bound
example :
    let record : Record := .ofMembers [("age", .nat 20), ("debt", .nat 0)]
    let rules : List StoredRule := [⟨1, "adult", "age >= 18", ""⟩, ⟨2, "solvent", "debt <= 0", ""⟩]
    let results (record : Record) : List Bool :=
      match (Engine.standard.execute record ⟨0⟩ rules).1 with
      | .ok outcome => outcome.individualResults.map (·.result)
      | .error _ => []
    results record = [true, true] ∧ results (record.without ["debt"]) = [true, false] := by
  decide +kernel

end Engine

end Criteria
