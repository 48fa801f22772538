import Criteria.Proofs.Envelope
import Criteria.Proofs.ToldNumbers

/-!
# What answers show of rules

The data of an answer shows rules, or what came of executing some, member by member. This file says
what the members are called and what they hold, and it says so of any value, however it was written:
a client that knows the names of the members has all of a rule, or of an outcome, from the answer.

## Main definitions

* `Json.member?`: the member of a name.
* `Json.ShowsRule`, `Json.ShowsResult`, `Json.ShowsOutcome`: a value shows a rule, the result of
  one, or an outcome.
* `Body.ShowsRule`, `Body.ShowsRules`, `Body.ShowsOutcome`: the data of a body does so.
* `Body.Declines`: a body tells why a request does not succeed.

## Main results

* `Json.ShowsRule.unique`: a value shows one rule at most.
* `StoredRule.showsRule_toJson`, `Outcome.showsOutcome_toJson`: what is written shows what it is
  written from.
* `Body.ShowsRule.tells`: what shows a rule tells its number.
-/

namespace Criteria

/-! ### Members -/

namespace Json

/-- The member of a name, if a value is an object that has one. -/
def member? (value : Json) (name : String) : Option Json :=
  match value with
  | .object members => members.lookup name
  | _ => none

/-- A value shows a stored rule. -/
structure ShowsRule (value : Json) (rule : StoredRule) : Prop where
  id_eq : value.member? "id" = some (.nat rule.id)
  name_eq : value.member? "name" = some (.text rule.name)
  rule_eq : value.member? "ruleString" = some (.text rule.rule)
  createdAt_eq : value.member? "createdAt" = some (.text rule.createdAt)

/-- A value shows the truth value of one rule. -/
structure ShowsResult (value : Json) (result : RuleResult) : Prop where
  ruleId_eq : value.member? "ruleId" = some (.nat result.ruleId)
  rule_eq : value.member? "rule" = some (.text result.rule)
  result_eq : value.member? "result" = some (.boolean result.result)

/-- A value shows what came of executing rules. -/
structure ShowsOutcome (value : Json) (outcome : Outcome) : Prop where
  finalResult_eq : value.member? "finalResult" = some (.boolean outcome.finalResult)
  /-- There is an item for each result, in order. -/
  individualResults : ∃ items, value.member? "individualResults" = some (.array items) ∧
    List.Forall₂ ShowsResult items outcome.individualResults
  evaluationTime_eq : value.member? "evaluationTimeUs" = some (.nat outcome.evaluationTime)
  /-- Notes are shown if there are some. -/
  trace_eq : value.member? "trace" =
    if outcome.trace = [] then none else some (.array (outcome.trace.map .text))

variable {value : Json}

/-- A value shows one rule at most. -/
theorem ShowsRule.unique {rule other : StoredRule} (h : value.ShowsRule rule)
    (hother : value.ShowsRule other) : rule = other := by
  have hid := h.id_eq.symm.trans hother.id_eq
  have hname := h.name_eq.symm.trans hother.name_eq
  have hrule := h.rule_eq.symm.trans hother.rule_eq
  have hcreatedAt := h.createdAt_eq.symm.trans hother.createdAt_eq
  simp only [Option.some.injEq, nat_inj, text.injEq] at hid hname hrule hcreatedAt
  cases rule
  cases other
  simp_all

/-- What shows a rule tells its number. -/
theorem ShowsRule.tells {rule : StoredRule} (h : value.ShowsRule rule) : value.Tells rule.id := by
  cases value with
  | object members =>
    obtain ⟨front, back, hmembers, -⟩ := List.lookup_eq_some_iff.1 h.id_eq
    exact .here (.inl rfl) (hmembers ▸ List.mem_append_right front List.mem_cons_self)
  | _ => cases h.id_eq

end Json

/-! ### What is written -/

theorem StoredRule.showsRule_toJson (rule : StoredRule) : rule.toJson.ShowsRule rule :=
  ⟨rfl, rfl, rfl, rfl⟩

theorem RuleResult.showsResult_toJson (result : RuleResult) : result.toJson.ShowsResult result :=
  ⟨rfl, rfl, rfl⟩

theorem Outcome.showsOutcome_toJson (outcome : Outcome) : outcome.toJson.ShowsOutcome outcome where
  finalResult_eq := rfl
  individualResults := by
    refine ⟨_, rfl, List.forall₂_map_left_iff.2 ?_⟩
    exact List.forall₂_same.2 fun result _ => result.showsResult_toJson
  evaluationTime_eq := rfl
  trace_eq := by
    rw [toJson]
    cases outcome.trace <;> rfl

/-! ### Bodies -/

namespace Body

variable (body : Body)

/-- The data of a body shows a rule. -/
def ShowsRule (rule : StoredRule) : Prop :=
  ∃ data, body.member? "data" = some data ∧ data.ShowsRule rule

/-- The data of a body is a list of rules, with their numbers in order. -/
def ShowsRules (rules : List StoredRule) : Prop :=
  ∃ items, body.member? "data" = some (.array items) ∧
    items.map (·.member? "id") = rules.map (fun rule => some (.nat rule.id)) ∧
    List.Forall₂ Json.ShowsRule items rules

/-- The data of a body shows an outcome that lists a result for each of some numbers, in order. -/
def ShowsOutcome (outcome : Outcome) (ids : List Nat) : Prop :=
  ∃ data items, body.member? "data" = some data ∧ data.ShowsOutcome outcome ∧
    data.member? "individualResults" = some (.array items) ∧
    items.map (·.member? "ruleId") = ids.map fun id => some (.nat id)

/-- A body tells why a request does not succeed, and there is no data. -/
structure Declines (code message : String) : Prop where
  success_eq : body.member? "success" = some (.boolean false)
  code_eq : body.member? "code" = some (.text code)
  message_eq : body.member? "message" = some (.text message)
  data_eq : body.member? "data" = some .null

variable {body} {rule : StoredRule}

/-- Data that is written from a rule shows that rule, and no other one. -/
theorem showsRule_iff (h : body.member? "data" = some rule.toJson) (other : StoredRule) :
    body.ShowsRule other ↔ other = rule := by
  rw [ShowsRule, h]
  simp only [Option.some.injEq, exists_eq_left']
  exact ⟨fun hother => hother.unique rule.showsRule_toJson, fun heq => heq ▸ rule.showsRule_toJson⟩

/-- What shows a rule tells its number. -/
theorem ShowsRule.tells (h : body.ShowsRule rule) : body.Tells rule.id := by
  obtain ⟨data, hdata, hshows⟩ := h
  cases body with
  | json content =>
    cases content with
    | object members =>
      obtain ⟨front, back, hmembers, -⟩ := List.lookup_eq_some_iff.1 hdata
      have hmem : ("data", data) ∈ members := hmembers ▸ List.mem_append_right _ List.mem_cons_self
      exact ⟨_, rfl, .member hmem hshows.tells⟩
    | _ => cases hdata
  | _ => cases hdata

end Body

namespace Response

variable (message : String)

theorem showsRules_success (rules : List StoredRule) :
    (success message (.array (rules.map StoredRule.toJson))).body.ShowsRules rules := by
  refine ⟨_, rfl, by rw [List.map_map]; rfl, List.forall₂_map_left_iff.2 ?_⟩
  exact List.forall₂_same.2 fun rule _ => rule.showsRule_toJson

theorem showsOutcome_success {outcome : Outcome} {ids : List Nat}
    (h : outcome.individualResults.map (·.ruleId) = ids) :
    (success message outcome.toJson).body.ShowsOutcome outcome ids := by
  refine ⟨_, _, rfl, outcome.showsOutcome_toJson, rfl, ?_⟩
  rw [← h, List.map_map, List.map_map]
  rfl

end Response

theorem Problem.declines_response (problem : Problem) :
    problem.response.body.Declines problem.code problem.message :=
  ⟨rfl, rfl, rfl, rfl⟩

end Criteria
