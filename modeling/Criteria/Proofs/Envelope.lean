import Criteria.Proofs.RuleSet
import Criteria.Proofs.SiteAnswer

/-!
# Envelopes

The answers in JSON say several times over whether a request succeeded: with the status, with a
flag, with a code, and by whether there is data. This file shows that they never contradict
themselves, that each of them tells of the failure that it comes from, and that the service is never
at fault.

## Main definitions

* `Body.member?`: the members of a body.
* `Body.Coherent`: a body says the same everywhere, and what the status says.
* `Body.Reports`: a body tells of a failure.
* `Store.Fails`: why a request to a store may fail.

## Main results

* `RuleSite.Asks.fails`: requests fail for these reasons only.
* `RuleSite.answers_are_coherent`: every answer to a sequence of requests is as it should be.
-/

namespace Criteria

/-! ### What a response says -/

theorem ParseError.code_ne_success (cause : ParseError) : cause.code ≠ "SUCCESS" := by
  induction cause with
  | invalidRule _ _ ih => exact ih
  | _ => simp [code]

theorem Failure.code_ne_success (failure : Failure) : failure.code ≠ "SUCCESS" := by
  cases failure with
  | parse cause => exact cause.code_ne_success
  | evaluation cause => cases cause; simp [code, EvalError.code]
  | _ => simp [code]

namespace Body

/-- The member of a name, if a body is an object that has one. -/
def member? (body : Body) (name : String) : Option Json :=
  match body with
  | .json (.object members) => members.lookup name
  | _ => none

variable (body : Body) (status : Nat)

/-- A body says everywhere what the status says of whether the request succeeded. -/
structure Coherent : Prop where
  success_iff : body.member? "success" = some (.boolean true) ↔ status = 200
  code_iff : body.member? "code" = some (.text "SUCCESS") ↔ status = 200
  /-- There is data just if the request succeeded. -/
  data_iff : (∃ data, body.member? "data" = some data ∧ data ≠ .null) ↔ status = 200

/-- A body and a status tell of a failure. -/
structure Reports (failure : Failure) : Prop where
  success_eq : body.member? "success" = some (.boolean false)
  data_eq : body.member? "data" = some .null
  code_eq : body.member? "code" = some (.text failure.code)
  /-- A wrapped cause has the code of what it wraps. -/
  root_code : ∀ cause, failure = .parse cause → failure.code = cause.rootCause.code ∧
    ∀ rule source, cause.rootCause ≠ .invalidRule rule source
  /-- A rule is refused, or something else is not acceptable. -/
  status_eq_400_iff : status = 400 ↔
    (∃ cause, failure = .parse cause) ∨ ∃ reason, failure = .invalid reason
  /-- A rule is missing. -/
  status_eq_404_iff : status = 404 ↔ ∃ id, failure = .notFound id
  /-- There is no truth value. -/
  status_eq_422_iff : status = 422 ↔ ∃ cause, failure = .evaluation cause

/-- The envelope of a success says so everywhere. -/
theorem coherent_success (message : String) {data : Json} (h : data ≠ .null) :
    (Response.success message data).body.Coherent 200 where
  success_iff := by simp [Response.success, Response.ofJson, member?]
  code_iff := by simp [Response.success, Response.ofJson, member?, List.lookup_cons]
  data_iff := by simp [Response.success, Response.ofJson, member?, List.lookup_cons, h]

variable {body status}

/-- A body that tells of a failure says so everywhere. -/
theorem Reports.coherent {failure : Failure} (h : body.Reports status failure)
    (hstatus : status ≠ 200) : body.Coherent status where
  success_iff := by simp [h.success_eq, hstatus]
  code_iff := by simp [h.code_eq, failure.code_ne_success, hstatus]
  data_iff := by simp [h.data_eq, hstatus]

end Body

/-! ### Why requests fail -/

/-- Why a request to a store may fail. -/
inductive Store.Fails (store : Store) : Failure → Prop
  | parse (cause : ParseError) : Fails store (.parse cause)
  | invalid (reason : String) : Fails store (.invalid reason)
  /-- No rule has the number. -/
  | notFound {id : Nat} (h : ∀ rule ∈ store.list, rule.id ≠ id) : Fails store (.notFound id)
  | evaluation (cause : EvalError) : Fails store (.evaluation cause)

namespace Store

variable {store : Store} {failure : Failure}

theorem fails_of_find? {id : Nat} (h : store.rules.find? (·.id = id) = none) :
    store.Fails (.notFound id) :=
  .notFound fun rule hrule => by simpa using List.find?_eq_none.1 h rule hrule

theorem fails_of_get {id : Nat} (h : store.get id = .error failure) : store.Fails failure := by
  obtain ⟨hfind, rfl⟩ := get_eq_error_iff.1 h
  exact fails_of_find? hfind

theorem fails_of_refusal
    (h : (∃ cause, failure = .parse cause) ∨ ∃ reason, failure = .invalid reason) :
    store.Fails failure := by
  rcases h with ⟨cause, rfl⟩ | ⟨reason, rfl⟩
  · exact .parse cause
  · exact .invalid reason

theorem fails_of_rulesFor {inquiry : Inquiry} (h : store.rulesFor inquiry = .error failure) :
    store.Fails failure := by
  rw [rulesFor] at h
  cases hids : inquiry.ruleIds with
  | none =>
    rw [hids] at h
    cases h
  | some ids =>
    rw [hids] at h
    obtain ⟨id, -, hid⟩ := (mapM_eq_error_iff _ _ _).1 h
    exact fails_of_get hid

theorem fails_of_inquire {elapsed : Elapsed} {inquiry : Inquiry}
    (h : (store.inquire elapsed inquiry).result = .error failure) : store.Fails failure := by
  rcases store.inquire_cases elapsed inquiry with
    ⟨_, hread, heq⟩ | ⟨_, _, -, hrules, heq⟩ | ⟨record, rules, -, -, heq⟩
  · rw [heq] at h
    obtain rfl := Except.error.inj h
    obtain ⟨reason, -, rfl⟩ := mapError_eq_error_iff.1 hread
    exact .invalid reason
  · rw [heq] at h
    obtain rfl := Except.error.inj h
    exact fails_of_rulesFor hrules
  · rw [heq] at h
    rcases Engine.execute_eq_error h with ⟨cause, rfl⟩ | ⟨cause, rfl⟩
    · exact .parse cause
    · exact .evaluation cause

/-- What is answered to a request that fails tells why. -/
theorem Fails.reports (h : store.Fails failure) :
    (Problem.ofFailure failure).response.body.Reports (Problem.ofFailure failure).status
      failure := by
  have hcode : (Problem.ofFailure failure).code = failure.code := by cases h <;> rfl
  refine ⟨rfl, rfl, congrArg (some ∘ Json.text) hcode, ?root, ?_, ?_, ?_⟩
  case root =>
    rintro cause rfl
    exact ⟨(ParseError.code_rootCause cause).symm, cause.rootCause_ne_invalidRule⟩
  all_goals cases h <;> simp [Problem.ofFailure, Problem.status]

end Store

/-! ### What is answered -/

namespace RuleSite

variable {occasion : Occasion} {request : Request} {store : Store} {method path message : String}
  {t : Transaction Json}

/-- A request that asks for a transaction fails for these reasons only. -/
theorem Asks.fails (h : Asks occasion request store method path message t) {failure : Failure}
    (hresult : t.result = .error failure) : store.Fails failure := by
  cases h with
  | create => exact Store.fails_of_refusal (Store.submit_eq_error (map_eq_error_iff.1 hresult))
  | list => cases hresult
  | get => exact Store.fails_of_get (map_eq_error_iff.1 hresult)
  | delete =>
    obtain ⟨hfind, rfl⟩ := Store.delete_eq_error (map_eq_error_iff.1 hresult)
    exact Store.fails_of_find? hfind
  | compile => exact Store.fails_of_refusal (Store.compile_eq_error (map_eq_error_iff.1 hresult))
  | evaluate => exact Store.fails_of_inquire (map_eq_error_iff.1 hresult)

/-- A transaction that succeeds gives data. -/
theorem Asks.data_ne_null (h : Asks occasion request store method path message t) {data : Json}
    (hresult : t.result = .ok data) : data ≠ .null := by
  cases h with
  | list =>
    obtain rfl := Except.ok.inj hresult
    simp
  | _ =>
    obtain ⟨_, -, rfl⟩ := map_eq_ok_iff.1 hresult
    simp [StoredRule.toJson, Compilation.toJson, Outcome.toJson]

/-- What an envelope holds is what came of the transaction. -/
theorem Asks.reports (h : Asks occasion request store method path message t) :
    match t.result with
    | .ok data => (t.envelope message).response.status = 200 ∧
        (t.envelope message).response.body.member? "data" = some data
    | .error failure => store.Fails failure ∧ (t.envelope message).response.body.Reports
        (t.envelope message).response.status failure := by
  cases hresult : t.result with
  | ok data =>
    rw [Transaction.envelope_of_ok hresult]
    exact ⟨rfl, rfl⟩
  | error failure =>
    rw [Transaction.envelope_of_error hresult]
    exact ⟨h.fails hresult, (h.fails hresult).reports⟩

/-- An envelope says the same everywhere. -/
theorem Asks.coherent (h : Asks occasion request store method path message t) :
    (t.envelope message).response.body.Coherent (t.envelope message).response.status := by
  cases hresult : t.result with
  | ok data =>
    rw [Transaction.envelope_of_ok hresult]
    exact Body.coherent_success message (h.data_ne_null hresult)
  | error failure =>
    rw [Transaction.envelope_of_error hresult]
    exact (h.fails hresult).reports.coherent (status_ofFailure_ne failure)

/-- The service is not at fault. -/
theorem Asks.status_ne_internal (h : Asks occasion request store method path message t) :
    (t.envelope message).response.status ≠ 500 := by
  cases hresult : t.result with
  | ok data =>
    rw [Transaction.envelope_of_ok hresult]
    simp [Response.success, Response.ofJson]
  | error failure =>
    rw [Transaction.envelope_of_error hresult]
    cases h.fails hresult <;>
      simp [Problem.ofFailure, Problem.response, Problem.status, Response.ofJson]

namespace Answer

variable {exchange : Exchange Store}

theorem status_ne_internal (h : Answer occasion request store method path exchange) :
    exchange.response.status ≠ 500 := by
  induction h with
  | envelope h => exact h.status_ne_internal
  | plain h => exact h.status_ne_internal
  | head _ ih => exact ih

/-- JSON is answered to requests that ask for a transaction, in envelopes. -/
theorem asks_of_json (h : Answer occasion request store method path exchange) {content : Json}
    (hbody : exchange.response.body = .json content) :
    exchange.response.body.Coherent exchange.response.status ∧
      ∃ message t, Asks occasion request store method path message t := by
  cases h with
  | envelope h => exact ⟨h.coherent, _, _, h⟩
  | plain h => exact absurd hbody (h.body_ne_json content)
  | head => cases hbody

end Answer

/-- **Envelopes never contradict themselves.** Whatever requests are sent to the service, one after
the other from the empty store on, the service is never at fault. JSON is answered only to requests
that ask for a transaction, in envelopes that say the same everywhere of whether it succeeded. If it
did, its data is answered; if not, the code and the status are those of its failure. -/
theorem envelopes_are_coherent (engine : Engine) (before after : List (Occasion × Request))
    (occasion : Occasion) (request : Request) :
    let store := (ruleSite.service.run before (Store.empty engine)).2
    let exchange := ruleSite.service occasion request store
    let response := exchange.response
    (ruleSite.service.run (before ++ (occasion, request) :: after)
        (Store.empty engine)).1[before.length]? = some exchange ∧
      response.status ≠ 500 ∧
      (∀ content, response.body = .json content → response.body.Coherent response.status ∧
        ∃ message t, Asks occasion request store request.method request.path message t) ∧
      ∀ message t, Asks occasion request store request.method request.path message t →
        match t.result with
        | .ok data => response.status = 200 ∧ response.body.member? "data" = some data
        | .error failure => store.Fails failure ∧
            response.body.Reports response.status failure := by
  intro store exchange response
  obtain ⟨answer, hanswer, -, hstatus, hbody⟩ := answer_service occasion request store
  refine ⟨Service.getElem?_run .., ?_, fun content hcontent => ?_, fun message t h => ?_⟩
  · exact ne_of_eq_of_ne hstatus hanswer.status_ne_internal
  · rw [hstatus, hbody]
    exact hanswer.asks_of_json (hbody.symm.trans hcontent)
  · obtain ⟨-, hstatus, hbody⟩ := h.answer_service
    rw [hstatus, hbody]
    exact h.reports

end RuleSite

end Criteria
