import Criteria.Proofs.Alike
import Criteria.Proofs.SiteAnswer

/-!
# Answers without their times

How long rules are executed is told in the answer, and how long a request is handled is recorded
with the events. This file shows that time makes no other difference: without the times, an inquiry
is answered alike however long it takes.

## Main definitions

* `Exchange.untimed`: what comes of a request, without the times in it.

## Main results

* `Store.untimed_inquire`: an inquiry is answered alike however long it takes.
* `RuleSite.Asks.untimed_service`: what comes of a request without the times, from its transaction.
-/

namespace Criteria

/-! ### Leaving out the times -/

namespace Json

/-- An object without the members of a name. -/
def without (name : String) : Json → Json
  | .object members => .object (members.filter (·.1 ≠ name))
  | value => value

/-- An object whose members of a name have their values changed. -/
def mapMember (name : String) (f : Json → Json) : Json → Json
  | .object members => .object (members.map fun member =>
      if member.1 = name then (member.1, f member.2) else member)
  | value => value

end Json

/-- The name of the member that tells how long rules were executed. -/
def Outcome.timeMember : String := "evaluationTimeUs"

/-- A body whose data does not tell how long rules were executed. -/
def Body.untimed : Body → Body
  | .json content => .json (content.mapMember "data" (Json.without Outcome.timeMember))
  | body => body

/-- A response that does not tell how long rules were executed. -/
def Response.untimed (response : Response) : Response :=
  { response with body := response.body.untimed }

namespace Metric

/-- The names of durations. -/
def durations : List String :=
  ["rule_evaluation_duration_seconds", "http_request_duration_seconds"]

/-- An event without the duration that is observed. -/
def untimed (event : Metric) : Metric :=
  if event.name ∈ durations then
    { event with reading := match event.reading with
      | .histogram _ => .histogram default
      | reading => reading }
  else event

end Metric

theorem Response.untimed_telling (response : Response) (id : String) :
    (response.telling id).untimed = response.untimed.telling id := by
  rw [telling, telling]
  split <;> rfl

/-- What comes of a request, without the times in it. -/
def Exchange.untimed {σ : Type} (exchange : Exchange σ) : Exchange σ :=
  ⟨exchange.response.untimed, exchange.state, exchange.events.map Metric.untimed⟩

namespace Metric

theorem untimed_httpRequest (method path : String) (status : Nat) (seconds seconds' : Double) :
    (httpRequest method path status seconds).map untimed =
      (httpRequest method path status seconds').map untimed := by
  simp [httpRequest, untimed, durations]

theorem untimed_ruleEvaluation (matched : Bool) (ruleCount : Nat) (seconds seconds' : Double) :
    (ruleEvaluation matched ruleCount seconds).map untimed =
      (ruleEvaluation matched ruleCount seconds').map untimed := by
  simp [ruleEvaluation, untimed, durations]

end Metric

theorem Outcome.without_toJson (outcome : Outcome) (time : Nat) :
    ({ outcome with evaluationTime := time } : Outcome).toJson.without timeMember =
      outcome.toJson.without timeMember := by
  simp [toJson, Json.without, timeMember]

theorem Exchange.untimed_success {σ : Type} (message : String) (data : Json) (state : σ)
    (events : List Metric) : (Exchange.mk (.success message data) state events).untimed =
      ⟨.success message (data.without Outcome.timeMember), state, events.map Metric.untimed⟩ := by
  simp [untimed, Response.success, Response.ofJson, Response.untimed, Body.untimed, Json.mapMember]

/-! ### However long it takes -/

namespace Engine

variable (engine : Engine) (record : Record) (elapsed elapsed' : Elapsed)
  (rules : List StoredRule)

/-- How long it takes is told in the outcome, and makes no other difference. -/
theorem alike_outcomeOf : Alike
    (fun outcome outcome' => outcome' = { outcome with evaluationTime := elapsed'.microseconds })
    (engine.outcomeOf record elapsed rules) (engine.outcomeOf record elapsed' rules) := by
  refine (Alike.refl _).bind fun combined _ hcombined => ?_
  subst hcombined
  refine (Alike.refl _).bind fun evaluation _ hevaluation => ?_
  subst hevaluation
  refine (Alike.refl _).bind fun individual _ hindividual => ?_
  subst hindividual
  exact .ok rfl

/-- Rules are executed alike however long it takes. -/
theorem alike_execute : Alike
    (fun outcome outcome' => outcome' = { outcome with evaluationTime := elapsed'.microseconds })
    (engine.execute record elapsed rules).1 (engine.execute record elapsed' rules).1 ∧
    (engine.execute record elapsed rules).2.map Metric.untimed =
      (engine.execute record elapsed' rules).2.map Metric.untimed := by
  have halike := engine.alike_outcomeOf record elapsed elapsed' rules
  refine ⟨halike, ?_⟩
  rw [execute, execute]
  generalize engine.outcomeOf record elapsed rules = outcome,
    engine.outcomeOf record elapsed' rules = outcome' at halike
  cases halike with
  | error failure => rfl
  | ok h =>
    subst h
    exact Metric.untimed_ruleEvaluation ..

end Engine

namespace Store

section

variable {store : Store} {inquiry : Inquiry} {record : Record} {failure : Failure}
  (elapsed : Elapsed)

/-- An inquiry about what is no record fails. -/
theorem inquire_of_unread (hread : Record.read inquiry.data = .error failure) :
    store.inquire elapsed inquiry = ⟨.error failure, store, []⟩ := by
  rw [inquire, hread]
  rfl

/-- An inquiry about a record fails if a rule is missing. -/
theorem inquire_of_missing (hread : Record.read inquiry.data = .ok record)
    (hrules : store.rulesFor inquiry = .error failure) :
    store.inquire elapsed inquiry = ⟨.error failure, store, []⟩ := by
  rw [inquire, hread, hrules]
  rfl

/-- Otherwise its rules are executed. -/
theorem inquire_of_rules {rules : List StoredRule} (hread : Record.read inquiry.data = .ok record)
    (hrules : store.rulesFor inquiry = .ok rules) : store.inquire elapsed inquiry =
      ⟨(store.engine.execute record elapsed rules).1, store,
        (store.engine.execute record elapsed rules).2⟩ := by
  rw [inquire, hread, hrules]
  rfl

end

/-- An inquiry is answered alike however long it takes. -/
theorem untimed_inquire (store : Store) (elapsed elapsed' : Elapsed) (inquiry : Inquiry)
    (message : String) :
    (((store.inquire elapsed inquiry).map Outcome.toJson).envelope message).untimed =
      (((store.inquire elapsed' inquiry).map Outcome.toJson).envelope message).untimed := by
  cases hread : Record.read inquiry.data with
  | error failure => rw [inquire_of_unread elapsed hread, inquire_of_unread elapsed' hread]
  | ok record =>
    cases hrules : store.rulesFor inquiry with
    | error failure =>
      rw [inquire_of_missing elapsed hread hrules, inquire_of_missing elapsed' hread hrules]
    | ok rules =>
      rw [inquire_of_rules elapsed hread hrules, inquire_of_rules elapsed' hread hrules]
      obtain ⟨hresult, hevents⟩ := store.engine.alike_execute record elapsed elapsed' rules
      generalize store.engine.execute record elapsed rules = executed,
        store.engine.execute record elapsed' rules = executed' at hresult hevents
      obtain ⟨result, events⟩ := executed
      obtain ⟨result', events'⟩ := executed'
      change events.map Metric.untimed = events'.map Metric.untimed at hevents
      cases hresult with
      | error failure => exact congrArg (Exchange.mk _ store) hevents
      | @ok outcome _ h =>
        subst h
        change (Exchange.mk (.success message outcome.toJson) store events).untimed =
          (Exchange.mk (.success message (Outcome.toJson _)) store events').untimed
        rw [Exchange.untimed_success, Exchange.untimed_success,
          Outcome.without_toJson outcome elapsed'.microseconds, hevents]

end Store

/-- What comes of a request with the times left out, from what its handler does. -/
theorem RuleSite.Asks.untimed_service {occasion : Occasion} {request : Request} {store : Store}
    {message : String} {t : Transaction Json}
    (h : Asks occasion request store request.method request.path message t) :
    (ruleSite.service occasion request store).untimed =
      let exchange := (t.envelope message).untimed
      ⟨exchange.response.telling (request.id occasion.freshId),
        exchange.state, exchange.events ++ (Metric.httpRequest request.method
          (Site.label ruleSite request) exchange.response.status default).map Metric.untimed⟩ := by
  simp only [Exchange.untimed, Site.service, Handler.identified, Handler.counted, h.handle_eq,
    List.map_append, Response.untimed_telling]
  rw [Metric.untimed_httpRequest _ _ _ occasion.handling.seconds default]
  rfl

end Criteria
