import Criteria.Store

/-!
# Executing a set of rules

All rules together decide the outcome; each rule is also evaluated by itself.

## Main definitions

* `Elapsed`: a measured duration.
* `Outcome`, `RuleResult`: what the execution of a set of rules gives.
* `Engine.execute`: executes rules on a record.
* `Outcome.toJson`, `Outcome.reader`: outcomes as JSON.
-/

namespace Criteria

/-- A measured duration. -/
structure Elapsed where
  nanoseconds : Nat
deriving DecidableEq, Inhabited

namespace Elapsed

/-- The whole microseconds of a duration, in 64 bits. -/
def microseconds (elapsed : Elapsed) : Nat := elapsed.nanoseconds / 1000 % wordBound

/-- A duration in seconds. -/
def seconds (elapsed : Elapsed) : Double :=
  .ofMagnitude? false (Magnitude.ofQuotient? elapsed.nanoseconds 1000000000)

end Elapsed

/-- The truth value of one rule of a set. -/
structure RuleResult where
  ruleId : Nat
  rule : String
  result : Bool
deriving DecidableEq, Inhabited

/-- What the execution of a set of rules gives. -/
structure Outcome where
  /-- Whether all rules together are satisfied. -/
  finalResult : Bool
  /-- The truth value of each rule by itself, in the order of the rules. -/
  individualResults : List RuleResult
  /-- How long it took, in microseconds. -/
  evaluationTime : Nat
  /-- The notes of the evaluation of all rules together. -/
  trace : List String
deriving DecidableEq, Inhabited

namespace Engine

/-- The truth value of one rule by itself. -/
def resultOf (engine : Engine) (record : Record) (rule : StoredRule) :
    Except Failure RuleResult := do
  let tree ← (engine.compile rule.rule).mapError Failure.parse
  let evaluation ← (engine.evaluate tree record).mapError Failure.evaluation
  return ⟨rule.id, rule.rule, evaluation.result⟩

/-- Executes rules on a record: together, then one by one. -/
def outcomeOf (engine : Engine) (record : Record) (elapsed : Elapsed) (rules : List StoredRule) :
    Except Failure Outcome := do
  let combined ← (engine.combine (rules.map (·.rule))).mapError Failure.parse
  let evaluation ← (engine.evaluate combined record).mapError Failure.evaluation
  let individual ← rules.mapM (engine.resultOf record)
  return ⟨evaluation.result, individual, elapsed.microseconds,
    evaluation.trace.map TraceLine.render⟩

/-- Executes rules on a record and records the events of it; a failure records none. -/
def execute (engine : Engine) (record : Record) (elapsed : Elapsed) (rules : List StoredRule) :
    Except Failure Outcome × List Metric :=
  let outcome := engine.outcomeOf record elapsed rules
  (outcome, match outcome with
    | .ok outcome => Metric.ruleEvaluation outcome.finalResult rules.length elapsed.seconds
    | .error _ => [])

end Engine

/-! ### As JSON -/

/-- One result as JSON. -/
def RuleResult.toJson (result : RuleResult) : Json :=
  .object [("ruleId", .nat result.ruleId), ("rule", .text result.rule),
    ("result", .boolean result.result)]

/-- An outcome as JSON; there is no member for notes if there are none. -/
def Outcome.toJson (outcome : Outcome) : Json :=
  .object ([
      ("finalResult", .boolean outcome.finalResult),
      ("individualResults", .array (outcome.individualResults.map RuleResult.toJson)),
      ("evaluationTimeUs", .nat outcome.evaluationTime)] ++
    if outcome.trace.isEmpty then [] else [("trace", .array (outcome.trace.map .text))])

/-- A result that is being read. -/
structure RuleResult.Draft where
  ruleId : Option Nat := none
  rule : Option String := none
  result : Option Bool := none

/-- Reads one result. -/
def RuleResult.reader : Json.Reader RuleResult := .record {
  fields := [
    .of "ruleId" RuleResult.Draft.ruleId (fun n d => { d with ruleId := some n })
      (.natural wordBound),
    .of "rule" RuleResult.Draft.rule (fun s d => { d with rule := some s }) .text,
    .of "result" RuleResult.Draft.result (fun b d => { d with result := some b }) .flag]
  blank := {}
  finish := fun d => do return ⟨← d.ruleId, ← d.rule, ← d.result⟩ }

/-- An outcome that is being read. -/
structure Outcome.Draft where
  finalResult : Option Bool := none
  individualResults : Option (List RuleResult) := none
  evaluationTime : Option Nat := none
  trace : Option (List String) := none

/-- Reads an outcome; the notes may be missing. -/
def Outcome.reader : Json.Reader Outcome := .record {
  fields := [
    .of "finalResult" Outcome.Draft.finalResult (fun b d => { d with finalResult := some b })
      .flag,
    .of "individualResults" Outcome.Draft.individualResults
      (fun l d => { d with individualResults := some l }) (.listOf RuleResult.reader),
    .of "evaluationTimeUs" Outcome.Draft.evaluationTime
      (fun n d => { d with evaluationTime := some n }) (.natural wordBound),
    .of "trace" Outcome.Draft.trace (fun l d => { d with trace := some l }) (.listOf .text)]
  blank := {}
  finish := fun d => do
    return ⟨← d.finalResult, ← d.individualResults, ← d.evaluationTime, d.trace.getD []⟩ }

end Criteria
