import Criteria.Json.Reader
import Criteria.Store

/-!
# Submitted rules

A rule is submitted with a name, to be stored, or without one, to be looked at. Names have 1 to 100
characters, rules 1 to 4096.

## Main definitions

* `Submission`: a name and the text of a rule.
* `Submission.refusal?`, `Submission.ruleRefusal?`: why lengths are not acceptable.
* `Submission.reader`, `Submission.ruleReader`: submissions from JSON.
* `Store.submit`: stores a submitted rule.
-/

namespace Criteria

/-- A rule that is submitted to be stored. -/
structure Submission where
  name : String
  rule : String
deriving DecidableEq, Inhabited

namespace Submission

/-- What is wrong with the length of a name. -/
def nameProblem? (name : String) : Option String :=
  if 1 ≤ name.length ∧ name.length ≤ 100 then none
  else some "name: 规则名称长度必须在1-100个字符之间"

/-- What is wrong with the length of a rule. -/
def ruleProblem? (rule : String) : Option String :=
  if 1 ≤ rule.length ∧ rule.length ≤ 4096 then none
  else some "rule_string: 规则字符串长度必须在1-4096个字符之间"

/-- Why a rule without a name is not looked at. -/
def ruleRefusal? (rule : String) : Option Failure := (ruleProblem? rule).map .invalid

/-- Why a submission is not looked at; each thing that is wrong has a line. -/
def refusal? (submission : Submission) : Option Failure :=
  match (nameProblem? submission.name).toList ++ (ruleProblem? submission.rule).toList with
  | [] => none
  | problems => some (.invalid (String.intercalate "\n" problems))

/-- A submission that is being read. -/
structure Draft where
  name : Option String := none
  rule : Option String := none

/-- The text of a rule, as it is being read. -/
def ruleField : Json.Reader.Field Draft :=
  .of "ruleString" Draft.rule (fun s d => { d with rule := some s }) .text

/-- Reads a name and a rule. -/
def reader : Json.Reader Submission := .record {
  fields := [.of "name" Draft.name (fun s d => { d with name := some s }) .text, ruleField]
  blank := {}
  finish := fun d => do return ⟨← d.name, ← d.rule⟩ }

/-- Reads a rule without a name. -/
def ruleReader : Json.Reader String := .record {
  fields := [ruleField]
  blank := {}
  finish := Draft.rule }

end Submission

/-- Stores a submitted rule, if the lengths are acceptable and the store accepts it. -/
def Store.submit (store : Store) (now : String) (submission : Submission) :
    Transaction StoredRule :=
  match submission.refusal? with
  | some failure => ⟨.error failure, store, []⟩
  | none => store.create now submission.name submission.rule

/-- A stored rule as JSON. -/
def StoredRule.toJson (rule : StoredRule) : Json :=
  .object [("id", .nat rule.id), ("name", .text rule.name), ("ruleString", .text rule.rule),
    ("createdAt", .text rule.createdAt)]

end Criteria
