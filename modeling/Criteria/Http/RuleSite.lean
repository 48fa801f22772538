import Criteria.Compilation
import Criteria.Http.Origin
import Criteria.Http.Path
import Criteria.Http.Payload
import Criteria.Http.Problem
import Criteria.Inquiry

/-!
# The site of the rules

Rules are stored, listed, looked up, deleted, compiled and executed over HTTP.

## Main definitions

* `Transaction.exchange`: the exchange that a transaction on the store is.
* `ruleSite`: the resources.
-/

namespace Criteria

/-- The exchange that a transaction is: an envelope with the data, or with the problem. -/
def Transaction.exchange {α : Type} (transaction : Transaction α) (message : String)
    (encode : α → Json) : Exchange Store :=
  { response := match transaction.result with
      | .ok value => .success message (encode value)
      | .error failure => (Problem.ofFailure failure).response
    state := transaction.store
    events := transaction.events }

namespace RuleSite

/-- The message of most requests that succeed. -/
def done : String := "操作成功"

/-- Handles the payload of a request; a body that is not taken is refused. -/
def onPayload {α : Type} (reader : Json.Reader α)
    (handle : Occasion → α → Store → Exchange Store) : Handler Store :=
  fun id occasion request store =>
    match request.payload reader with
    | .ok payload => handle occasion payload store
    | .error error => Handler.always error.response id occasion request store

/-- Handles the number in a path; a part of a path that is no number is refused. -/
def onId (segment : String) (handle : Nat → Store → Exchange Store) : Handler Store :=
  fun id occasion request store =>
    match Path.natural? segment with
    | some ruleId => handle ruleId store
    | none => Handler.always (.ofText 400 "The path must hold a number") id occasion request store

/-- Stores a submitted rule. -/
def create : Handler Store :=
  onPayload Submission.reader fun occasion submission store =>
    (store.submit occasion.now submission).exchange "规则创建成功" StoredRule.toJson

/-- Lists the stored rules. -/
def list : Handler Store := fun _ _ _ store =>
  Transaction.exchange ⟨.ok store.list, store, []⟩ done fun rules =>
    .array (rules.map StoredRule.toJson)

/-- Looks up a stored rule. -/
def get (segment : String) : Handler Store :=
  onId segment fun id store =>
    Transaction.exchange ⟨store.get id, store, []⟩ done StoredRule.toJson

/-- Deletes a stored rule. -/
def delete (segment : String) : Handler Store :=
  onId segment fun id store => (store.delete id).exchange "规则已删除" StoredRule.toJson

/-- Compiles a rule without storing it. -/
def compile : Handler Store :=
  onPayload Submission.ruleReader fun _ rule store =>
    Transaction.exchange ⟨store.compile rule, store, []⟩ done Compilation.toJson

/-- Executes stored rules on data. -/
def evaluate : Handler Store :=
  onPayload Inquiry.reader fun occasion inquiry store =>
    (store.inquire occasion.execution inquiry).exchange done Outcome.toJson

/-- Tells that the service is alive. -/
def health : Handler Store := .always (.ofText 200 "OK")

end RuleSite

open RuleSite in
/-- The site of the rules. -/
def ruleSite : Site Store := fun path =>
  if path = "/api/rules" then some ⟨path, [("POST", create), ("GET", list)]⟩
  else if path = "/api/rules/compile" then some ⟨path, [("POST", compile)]⟩
  else if path = "/api/rules/evaluate" then some ⟨path, [("POST", evaluate)]⟩
  else if path = "/health" then some ⟨path, [("GET", health)]⟩
  else (Path.segmentBehind? "/api/rules/" path).map fun segment =>
    ⟨"/api/rules/\x7bid\x7d", [("GET", get segment), ("DELETE", delete segment)]⟩

end Criteria
