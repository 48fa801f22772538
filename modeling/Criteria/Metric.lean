import Criteria.Number.Double

/-!
# Metric events

What the service counts and measures. Events are recorded in the order in which they happen.

## Main definitions

* `Metric`: one event.
* `Metric.httpRequest`, `Metric.ruleEvaluation`, `Metric.compileFailure`, `Metric.rulesStored`:
  the events of the service.
-/

namespace Criteria

/-- What an event records. -/
inductive Metric.Reading where
  /-- A counter grows. -/
  | counter (increment : Nat)
  /-- A gauge has a new value. -/
  | gauge (value : Double)
  /-- A value is observed. -/
  | histogram (value : Double)
deriving DecidableEq, Inhabited

/-- One event. -/
structure Metric where
  name : String
  labels : List (String × String)
  reading : Metric.Reading
deriving DecidableEq, Inhabited

namespace Metric

/-- The events of a request that was answered: it is counted, and its duration observed. -/
def httpRequest (method path : String) (status : Nat) (seconds : Double) : List Metric :=
  let labels := [("method", method), ("path", path), ("status", toString status)]
  [⟨"http_requests_total", labels, .counter 1⟩,
    ⟨"http_request_duration_seconds", labels, .histogram seconds⟩]

/-- The events of a rule set that was evaluated: it is counted by its result, and its duration and
the number of its rules are observed. -/
def ruleEvaluation (matched : Bool) (ruleCount : Nat) (seconds : Double) : List Metric :=
  [⟨"rule_evaluations_total", [("matched", toString matched)], .counter 1⟩,
    ⟨"rule_evaluation_duration_seconds", [], .histogram seconds⟩,
    ⟨"rule_set_size", [], .histogram (.ofInt ruleCount)⟩]

/-- The event of a rule that was refused on compilation. -/
def compileFailure (code : String) : Metric :=
  ⟨"rule_compile_failures_total", [("code", code)], .counter 1⟩

/-- The event of a new number of stored rules. -/
def rulesStored (count : Nat) : Metric := ⟨"rules_stored", [], .gauge (.ofInt count)⟩

end Metric

end Criteria
