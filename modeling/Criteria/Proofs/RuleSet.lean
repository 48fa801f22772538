import Criteria.Execution
import Criteria.Proofs.Combination

/-!
# Executing a set of rules, and its rules one by one

The outcome of a set of rules comes from one tree that demands all of them, and the results of the
rules come from their own trees. This file shows that the two agree: the execution succeeds just if
each rule by itself compiles and has a truth value, and then the outcome is the conjunction of the
results of the rules. It fails with the first rule that does not compile or else with the first
one that has no truth value.

## Main definitions

* `Engine.Decides`: the result of a rule by itself.
* `Engine.IsOutcome`: an outcome that agrees with the rules one by one.
* `Engine.IsFailure`: the failures of a set of rules.

## Main results

* `Engine.execute_agrees`: the execution of a set of rules, from its rules.
-/

namespace Criteria

namespace Engine

variable (engine : Engine) (record : Record)

/-- A rule by itself compiles, and its tree has a truth value for a record. -/
def Decides (rule : String) (result : Bool) : Prop :=
  ∃ tree evaluation, engine.compile rule = .ok tree ∧
    engine.evaluate tree record = .ok evaluation ∧ evaluation.result = result

/-- An outcome of a set of rules that agrees with its rules. -/
structure IsOutcome (rules : List StoredRule) (outcome : Outcome) : Prop where
  /-- There is one result for each rule, with its number, its text and its own truth value. -/
  individual : List.Forall₂ (fun (rule : StoredRule) (r : RuleResult) => r.ruleId = rule.id ∧
    r.rule = rule.rule ∧ engine.Decides record rule.rule r.result) rules outcome.individualResults
  /-- The final result is the truth value of the combined tree. -/
  combined : ∃ tree evaluation, engine.combine (rules.map (·.rule)) = .ok tree ∧
    engine.evaluate tree record = .ok evaluation ∧ evaluation.result = outcome.finalResult
  /-- The final result is the conjunction of the others. -/
  conjunction : outcome.finalResult = true ↔ ∀ r ∈ outcome.individualResults, r.result = true

/-- The failures of sets of rules, from their rules. -/
inductive IsFailure (rules : List StoredRule) : Failure → Prop
  /-- The first rule that does not compile is named, with its own cause. -/
  | refused {rule : StoredRule} {source : ParseError}
      (hfirst : IsFirst (fun r => ∀ tree, engine.compile r.rule ≠ .ok tree) rules rule)
      (hsource : engine.compile rule.rule = .error source) :
      IsFailure rules (.parse (.invalidRule rule.rule source))
  /-- All rules compile, and the error is that of the first one without a truth value. -/
  | undecided {rule : StoredRule} {tree : Expr} {text : String}
      (hcompile : ∀ r ∈ rules, ∃ tree, engine.compile r.rule = .ok tree)
      (hfirst : IsFirst (fun r => ∀ result, ¬ engine.Decides record r.rule result) rules rule)
      (htree : engine.compile rule.rule = .ok tree)
      (hcause : engine.evaluate tree record = .error (.unknownOperator text)) :
      IsFailure rules (.evaluation (.unknownOperator text))

variable {engine record}

theorem evaluate_eq_error_iff {tree : Expr} {cause : EvalError} :
    engine.evaluate tree record = .error cause ↔ tree.truth record = .error cause := by
  rw [evaluate, Expr.evaluate_eq, map_eq_error_iff]

theorem exists_evaluate_iff {tree : Expr} {result : Bool} :
    (∃ evaluation, engine.evaluate tree record = .ok evaluation ∧ evaluation.result = result) ↔
      tree.truth record = .ok result := by
  simp only [evaluate, Expr.evaluate_eq, map_eq_ok_iff]
  constructor
  · rintro ⟨_, ⟨result, htruth, rfl⟩, rfl⟩
    exact htruth
  · intro htruth
    exact ⟨_, ⟨result, htruth, rfl⟩, rfl⟩

theorem decides_iff {rule : String} {result : Bool} :
    engine.Decides record rule result ↔
      ∃ tree, engine.compile rule = .ok tree ∧ tree.truth record = .ok result := by
  simp only [Decides, exists_and_left, exists_evaluate_iff]

/-- A rule that compiles is decided just as its tree is. -/
theorem decides_iff_truth {rule : String} {tree : Expr} (h : engine.compile rule = .ok tree)
    (result : Bool) : engine.Decides record rule result ↔ tree.truth record = .ok result := by
  rw [decides_iff]
  constructor
  · rintro ⟨tree', htree', htruth⟩
    obtain rfl := Except.ok.inj (h.symm.trans htree')
    exact htruth
  · exact fun htruth => ⟨tree, h, htruth⟩

/-! ### One rule of the set -/

/-- The result of a rule of the set is that of the rule by itself. -/
theorem resultOf_eq_ok_iff {rule : StoredRule} {r : RuleResult} :
    engine.resultOf record rule = .ok r ↔
      r.ruleId = rule.id ∧ r.rule = rule.rule ∧ engine.Decides record rule.rule r.result := by
  simp only [resultOf, bind_eq_ok_iff, mapError_eq_ok_iff]
  constructor
  · rintro ⟨tree, htree, evaluation, heval, h⟩
    obtain rfl := Except.ok.inj h
    exact ⟨rfl, rfl, tree, evaluation, htree, heval, rfl⟩
  · rintro ⟨hid, hrule, tree, evaluation, htree, heval, hresult⟩
    refine ⟨tree, htree, evaluation, heval, ?_⟩
    rw [← hid, ← hrule, hresult]
    rfl

/-- A rule of the set that compiles fails only for want of a truth value. -/
theorem resultOf_eq_error {rule : StoredRule} {tree : Expr} {failure : Failure}
    (h : engine.compile rule.rule = .ok tree) (hfail : engine.resultOf record rule = .error failure) :
    ∃ cause, tree.truth record = .error cause ∧ failure = .evaluation cause := by
  rw [resultOf, h] at hfail
  rcases bind_eq_error_iff.1 hfail with hparse | ⟨_, htree, hfail⟩
  · cases hparse
  · obtain rfl := Except.ok.inj htree
    rcases bind_eq_error_iff.1 hfail with heval | ⟨_, _, hpure⟩
    · obtain ⟨cause, hcause, rfl⟩ := mapError_eq_error_iff.1 heval
      exact ⟨cause, evaluate_eq_error_iff.1 hcause, rfl⟩
    · cases hpure

/-! ### The whole set -/

/-- The trees of the rules of a set that can be combined. -/
theorem forall₂_of_combine {rules : List StoredRule} {combined : Expr} (hne : rules ≠ [])
    (h : engine.combine (rules.map (·.rule)) = .ok combined) :
    ∃ first others, List.Forall₂ (fun rule tree => engine.compile rule.rule = .ok tree) rules
        (first :: others) ∧ Expr.chain (first :: others) = combined := by
  obtain ⟨trees, htrees, hchain⟩ := (Dialect.combine_eq_ok_iff (by simpa using hne)).1 h
  rw [List.forall₂_map_left_iff] at htrees
  cases trees with
  | nil => exact absurd (List.forall₂_nil_right_iff.1 htrees) hne
  | cons first others => exact ⟨first, others, htrees, hchain⟩

/-- A set that cannot be combined has a first rule that does not compile. -/
theorem first_of_combine_error {rules : List StoredRule} {cause : ParseError} (hne : rules ≠ [])
    (h : engine.combine (rules.map (·.rule)) = .error cause) :
    ∃ rule source, IsFirst (fun r => ∀ tree, engine.compile r.rule ≠ .ok tree) rules rule ∧
      engine.compile rule.rule = .error source ∧ cause = .invalidRule rule.rule source := by
  obtain ⟨text, hfirst, source, hsource, rfl⟩ :=
    (Dialect.combine_eq_error_iff (by simpa using hne)).1 h
  have hmap : List.Forall₂ (fun (r : StoredRule) text => r.rule = text) rules
      (rules.map (·.rule)) := by
    simp
  obtain ⟨rule, hrule, rfl⟩ := hfirst.transfer hmap
    (p := fun r => ∀ tree, engine.compile r.rule ≠ .ok tree) fun r text h => by subst h; rfl
  exact ⟨rule, source, hrule, hsource, rfl⟩

/-- A set whose rules compile, but which has no truth value, has a first rule without one, and the
error is that of this rule. -/
theorem first_of_truth_error {rules : List StoredRule} {first : Expr} {others : List Expr}
    {cause : EvalError}
    (htrees : List.Forall₂ (fun rule tree => engine.compile rule.rule = .ok tree) rules
      (first :: others))
    (h : (Expr.chain (first :: others)).truth record = .error cause) :
    ∃ rule tree, IsFirst (fun r => ∀ result, ¬ engine.Decides record r.rule result) rules rule ∧
      engine.compile rule.rule = .ok tree ∧ tree.truth record = .error cause := by
  rw [Expr.truth_chain, map_eq_error_iff, mapM_eq_error_iff] at h
  obtain ⟨tree, hfirst, htree⟩ := h
  obtain ⟨rule, hrule, hcompile⟩ := hfirst.transfer htrees fun r tree hr =>
    forall_congr' fun result => not_congr (decides_iff_truth hr result)
  exact ⟨rule, tree, hrule, hcompile, htree⟩

/-- The outcome of a set of rules holds the results of its rules, and their conjunction. -/
theorem isOutcome_of_outcomeOf {rules : List StoredRule} {elapsed : Elapsed} {outcome : Outcome}
    (hne : rules ≠ []) (h : engine.outcomeOf record elapsed rules = .ok outcome) :
    engine.IsOutcome record rules outcome := by
  simp only [outcomeOf, bind_eq_ok_iff, mapError_eq_ok_iff, mapM_eq_ok_iff,
    resultOf_eq_ok_iff] at h
  obtain ⟨combined, hcombine, evaluation, heval, individual, hindividual, h⟩ := h
  obtain rfl := Except.ok.inj h
  refine ⟨hindividual, ⟨combined, evaluation, hcombine, heval, rfl⟩, ?_⟩
  obtain ⟨first, others, htrees, rfl⟩ := forall₂_of_combine hne hcombine
  have htruth := exists_evaluate_iff.1 ⟨evaluation, heval, rfl⟩
  rw [Expr.truth_chain, map_eq_ok_iff] at htruth
  obtain ⟨values, hvalues, hall⟩ := htruth
  -- the truth values along the chain are the results of the rules
  have hresults : (first :: others).mapM (Expr.truth record) =
      .ok (individual.map (·.result)) := by
    rw [mapM_eq_ok_iff, List.forall₂_map_right_iff]
    exact forall₂_of_common htrees hindividual fun rule tree r htree hr =>
      (decides_iff_truth htree r.result).1 hr.2.2
  obtain rfl := Except.ok.inj (hvalues.symm.trans hresults)
  change evaluation.result = true ↔ _
  rw [← hall]
  simp

/-- A set of rules fails with the first rule that does not compile, or else with the first one
that has no truth value. -/
theorem isFailure_of_outcomeOf {rules : List StoredRule} {elapsed : Elapsed} {failure : Failure}
    (hne : rules ≠ []) (h : engine.outcomeOf record elapsed rules = .error failure) :
    engine.IsFailure record rules failure := by
  rcases bind_eq_error_iff.1 h with hparse | ⟨combined, hcombine, h⟩
  · obtain ⟨cause, hcause, rfl⟩ := mapError_eq_error_iff.1 hparse
    obtain ⟨rule, source, hfirst, hsource, rfl⟩ := first_of_combine_error hne hcause
    exact .refused hfirst hsource
  obtain ⟨first, others, htrees, rfl⟩ := forall₂_of_combine hne (mapError_eq_ok_iff.1 hcombine)
  have hcompile : ∀ rule ∈ rules, ∃ tree, engine.compile rule.rule = .ok tree :=
    exists_of_forall₂ htrees
  rcases bind_eq_error_iff.1 h with heval | ⟨evaluation, -, h⟩
  · obtain ⟨⟨text⟩, hcause, rfl⟩ := mapError_eq_error_iff.1 heval
    obtain ⟨rule, tree, hfirst, htree, htruth⟩ :=
      first_of_truth_error htrees (evaluate_eq_error_iff.1 hcause)
    exact .undecided hcompile hfirst htree (evaluate_eq_error_iff.2 htruth)
  rcases bind_eq_error_iff.1 h with hresult | ⟨_, _, hpure⟩
  · obtain ⟨rule, hfirst, hfail⟩ := (mapM_eq_error_iff _ _ _).1 hresult
    obtain ⟨tree, htree⟩ := hcompile rule hfirst.mem
    obtain ⟨⟨text⟩, hcause, rfl⟩ := resultOf_eq_error htree hfail
    refine .undecided hcompile (hfirst.congr fun r _ => ?_) htree (evaluate_eq_error_iff.2 hcause)
    simp only [ne_eq, resultOf_eq_ok_iff]
    constructor
    · exact fun hnone result hdecides => hnone ⟨r.id, r.rule, result⟩ ⟨rfl, rfl, hdecides⟩
    · exact fun hnone result hr => hnone result.result hr.2.2
  · cases hpure

/-- A set of rules that fails has a rule that is not decided by itself. -/
theorem IsFailure.exists_not_decides {rules : List StoredRule} {failure : Failure}
    (h : engine.IsFailure record rules failure) :
    ∃ rule ∈ rules, ∀ result, ¬ engine.Decides record rule.rule result := by
  cases h with
  | @refused rule source hfirst _ =>
    refine ⟨rule, hfirst.mem, fun result hresult => ?_⟩
    obtain ⟨tree, htree, -⟩ := decides_iff.1 hresult
    exact hfirst.holds tree htree
  | @undecided rule _ _ _ hfirst _ _ => exact ⟨rule, hfirst.mem, hfirst.holds⟩

/-- Rules that are decided one by one have an outcome together. -/
theorem exists_outcome_of_decides {rules : List StoredRule} (hne : rules ≠ [])
    (h : ∀ rule ∈ rules, ∃ result, engine.Decides record rule.rule result) (elapsed : Elapsed) :
    ∃ outcome, engine.outcomeOf record elapsed rules = .ok outcome := by
  cases houtcome : engine.outcomeOf record elapsed rules with
  | ok outcome => exact ⟨outcome, rfl⟩
  | error failure =>
    obtain ⟨rule, hrule, hnone⟩ := (isFailure_of_outcomeOf hne houtcome).exists_not_decides
    obtain ⟨result, hresult⟩ := h rule hrule
    exact absurd hresult (hnone result)

/-- There is no tree for no rules. -/
theorem execute_nil (engine : Engine) (record : Record) (elapsed : Elapsed) :
    (engine.execute record elapsed []).1 = .error (.parse .emptyRuleSet) := rfl

/-- Rules are not executed for want of a tree or of a truth value only. -/
theorem execute_eq_error {elapsed : Elapsed} {rules : List StoredRule} {failure : Failure}
    (h : (engine.execute record elapsed rules).1 = .error failure) :
    (∃ cause, failure = .parse cause) ∨ ∃ cause, failure = .evaluation cause := by
  rcases eq_or_ne rules [] with rfl | hne
  · exact .inl ⟨_, (Except.error.inj h).symm⟩
  · cases isFailure_of_outcomeOf hne h with
    | refused => exact .inl ⟨_, rfl⟩
    | undecided => exact .inr ⟨_, rfl⟩

/-- **A set of rules is executed as its rules are one by one.** For rules that are not none, the
execution succeeds just if each rule by itself compiles and has a truth value. The outcome then
holds the results of the rules and is their conjunction, and one evaluation, its duration and the
number of rules are recorded. A failure is that of the first rule that does not compile, or else
that of the first rule without a truth value, and nothing is recorded. -/
theorem execute_agrees (engine : Engine) (record : Record) (elapsed : Elapsed)
    {rules : List StoredRule} (hne : rules ≠ []) :
    ((∃ outcome, (engine.execute record elapsed rules).1 = .ok outcome) ↔
      ∀ rule ∈ rules, ∃ result, engine.Decides record rule.rule result) ∧
    match engine.execute record elapsed rules with
    | (.ok outcome, events) => engine.IsOutcome record rules outcome ∧
        events = [
          ⟨"rule_evaluations_total", [("matched", toString outcome.finalResult)], .counter 1⟩,
          ⟨"rule_evaluation_duration_seconds", [], .histogram elapsed.seconds⟩,
          ⟨"rule_set_size", [], .histogram (.ofInt rules.length)⟩]
    | (.error failure, events) => engine.IsFailure record rules failure ∧ events = [] := by
  rw [execute]
  cases h : engine.outcomeOf record elapsed rules with
  | ok outcome =>
    have houtcome := isOutcome_of_outcomeOf hne h
    refine ⟨⟨fun _ rule hrule => ?_, fun _ => ⟨outcome, rfl⟩⟩, houtcome, rfl⟩
    obtain ⟨r, -, -, hr⟩ := exists_of_forall₂ houtcome.individual rule hrule
    exact ⟨r.result, hr⟩
  | error failure =>
    have hfailure := isFailure_of_outcomeOf hne h
    obtain ⟨rule, hrule, hnone⟩ := hfailure.exists_not_decides
    refine ⟨⟨fun ⟨outcome, h⟩ => ?_, fun hall => ?_⟩, hfailure, rfl⟩
    · cases h
    · obtain ⟨result, hresult⟩ := hall rule hrule
      exact absurd hresult (hnone result)

/-- The theorem at two rules of one number, the second one with an unknown connective. -/
theorem execute_agrees_of_two :
    let rules : List StoredRule :=
      [⟨7, "adult", "age >= 18", ""⟩, ⟨7, "odd", "age > 1 XOR vip = 'yes'", ""⟩]
    rules ≠ [] ∧
    ((∃ outcome, (Engine.standard.execute ⟨[]⟩ ⟨0⟩ rules).1 = .ok outcome) ↔
      ∀ rule ∈ rules, ∃ result, Engine.standard.Decides ⟨[]⟩ rule.rule result) :=
  ⟨by simp, (execute_agrees Engine.standard ⟨[]⟩ ⟨0⟩ (by simp)).1⟩

end Engine

end Criteria
