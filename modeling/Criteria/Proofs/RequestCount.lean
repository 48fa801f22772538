import Criteria.Proofs.MetricHistory
import Criteria.Proofs.SiteAnswer

/-!
# Every request is counted once

Behind the events of what handles a request, the request itself is counted and its duration is
observed, under its method, the route that it takes and the status that is answered. This file shows
that this is so for every request, also for those that are refused on the way, and that the label of
the route is one of six whatever the path is.

## Main definitions

* `RuleSite.Route`: the label of the route that a path takes.
* `RuleSite.Calls`, `RuleSite.Called`: the call that handles a request, with the events of it.
* `RuleSite.IsCounted`: a request is counted once, behind these events.

## Main results

* `RuleSite.matches_iff`: the paths of the resources of the site.
* `RuleSite.called_handle`: the events of the handler of a request are those of its call.
* `RuleSite.isCounted_service`: a request is counted once.
* `RuleSite.total_run`: so are the requests of a sequence, one by one.
* `RuleSite.each_request_counted_once`: the service from the empty store on.
-/

namespace Criteria

namespace Metric

/-- An event that tells of a request. -/
def isHttp (event : Metric) : Bool :=
  event.name == "http_requests_total" || event.name == "http_request_duration_seconds"

/-- Events that do not tell of requests count none. -/
theorem total_of_not_isHttp {events : List Metric} (h : ∀ event ∈ events, event.isHttp = false) :
    total "http_requests_total" events = 0 := by
  induction events with
  | nil => rfl
  | cons event events ih =>
    obtain ⟨hevent, hevents⟩ := List.forall_mem_cons.1 h
    rw [isHttp, Bool.or_eq_false_iff, beq_eq_false_iff_ne] at hevent
    rw [total, ih hevents, increment, Nat.add_zero]
    split
    · exact if_neg hevent.1
    · rfl

end Metric

namespace RuleSite

/-! ### Routes -/

/-- The templates of the resources of the site. -/
def templates : List String :=
  ["/api/rules", "/api/rules/compile", "/api/rules/evaluate", "/api/rules/\x7bid\x7d", "/health"]

/-- The paths that look like a template. -/
inductive Matches : String → String → Prop
  | rules : Matches "/api/rules" "/api/rules"
  | compile : Matches "/api/rules/compile" "/api/rules/compile"
  | evaluate : Matches "/api/rules/evaluate" "/api/rules/evaluate"
  /-- Any other single part may stand behind the path of all rules, be it a number or not. -/
  | rule {segment : String} (hne : segment ≠ "") (hslash : '/' ∉ segment.toList)
      (hcompile : segment ≠ "compile") (hevaluate : segment ≠ "evaluate") :
      Matches ("/api/rules/" ++ segment) "/api/rules/\x7bid\x7d"
  | health : Matches "/health" "/health"

/-- The label of the route that a path takes: the template that it looks like, if there is one. -/
def Route (path label : String) : Prop :=
  Matches path label ∨ label = "unmatched" ∧ ∀ template, ¬ Matches path template

theorem isRulePath_iff {path segment : String} : IsRulePath path segment ↔
    path = "/api/rules/" ++ segment ∧ segment ≠ "" ∧ '/' ∉ segment.toList ∧
      segment ≠ "compile" ∧ segment ≠ "evaluate" := by
  have hcompile : "/api/rules/" ++ segment ≠ "/api/rules/compile" ↔ segment ≠ "compile" :=
    not_congr (@String.append_right_inj "/api/rules/" segment "compile")
  have hevaluate : "/api/rules/" ++ segment ≠ "/api/rules/evaluate" ↔ segment ≠ "evaluate" :=
    not_congr (@String.append_right_inj "/api/rules/" segment "evaluate")
  constructor
  · rintro ⟨hne, hne', h⟩
    obtain ⟨rfl, hempty, hslash⟩ := Path.segmentBehind?_eq_some_iff.1 h
    exact ⟨rfl, hempty, hslash, hcompile.1 hne, hevaluate.1 hne'⟩
  · rintro ⟨rfl, hempty, hslash, hne, hne'⟩
    exact ⟨hcompile.2 hne, hevaluate.2 hne',
      Path.segmentBehind?_eq_some_iff.2 ⟨rfl, hempty, hslash⟩⟩

theorem Matches.mem_templates {path template : String} (h : Matches path template) :
    template ∈ templates := by
  cases h <;> decide

/-- The paths of the resources of the site look like their templates. -/
theorem matches_iff {path template : String} : Matches path template ↔
    ∃ resource, ruleSite path = some resource ∧ resource.template = template := by
  constructor
  · intro h
    cases h with
    | rule hne hslash hcompile hevaluate =>
      have hpath := isRulePath_iff.2 ⟨rfl, hne, hslash, hcompile, hevaluate⟩
      exact ⟨_, ruleSite_of_segment ⟨hpath.compile_ne, hpath.evaluate_ne⟩ hpath.segment_eq, rfl⟩
    | _ => exact ⟨_, rfl, rfl⟩
  · rintro ⟨resource, h, rfl⟩
    unfold ruleSite at h
    split_ifs at h with hrules hcompile hevaluate hhealth
    case neg =>
      obtain ⟨segment, hsegment, rfl⟩ := Option.map_eq_some_iff.1 h
      obtain ⟨rfl, hne, hslash, hcompile, hevaluate⟩ :=
        isRulePath_iff.1 ⟨hcompile, hevaluate, hsegment⟩
      exact .rule hne hslash hcompile hevaluate
    all_goals obtain rfl := Option.some.inj h
    · exact hrules ▸ .rules
    · exact hcompile ▸ .compile
    · exact hevaluate ▸ .evaluate
    · exact hhealth ▸ .health

/-- Requests are counted under the label of their route. -/
theorem route_label (request : Request) : Route request.path (Site.label ruleSite request) := by
  rw [Site.label]
  cases h : ruleSite request.path with
  | some resource => exact .inl (matches_iff.2 ⟨resource, h, rfl⟩)
  | none =>
    refine .inr ⟨rfl, fun template hmatches => ?_⟩
    obtain ⟨resource, hresource, -⟩ := matches_iff.1 hmatches
    exact absurd (h.symm.trans hresource) (by simp)

theorem Route.mem {path label : String} (h : Route path label) :
    label ∈ templates ++ ["unmatched"] := by
  obtain h | ⟨rfl, -⟩ := h
  · exact List.mem_append_left _ h.mem_templates
  · exact List.mem_append_right _ (List.mem_singleton_self _)

/-! ### Calls -/

section

variable (occasion : Occasion) (request : Request) (store : Store)

/-- The call that handles a request with a method and a path, with the events that it records. Calls
that only look at the rules record none, and are left out. -/
inductive Calls : String → String → List Metric → Prop
  /-- A submission of acceptable lengths is brought to the store. -/
  | create {submission : Submission} (h : request.payload Submission.reader = .ok submission)
      (hlengths : submission.refusal? = none) : Calls "POST" "/api/rules"
        (store.create occasion.now submission.name submission.rule).events
  | delete {path segment : String} {ruleId : Nat} (hpath : IsRulePath path segment)
      (hid : Path.natural? segment = some ruleId) : Calls "DELETE" path (store.delete ruleId).events
  /-- The rules that an inquiry means are executed on its data. -/
  | execute {inquiry : Inquiry} {record : Record} {rules : List StoredRule}
      (h : request.payload Inquiry.reader = .ok inquiry)
      (hrecord : Record.read inquiry.data = .ok record)
      (hrules : store.rulesFor inquiry = .ok rules) : Calls "POST" "/api/rules/evaluate"
        (store.engine.execute record occasion.execution rules).2

/-- The events of the call that handles a request; there are none if there is no call. -/
def Called (events : List Metric) : Prop :=
  Calls occasion request store request.method request.path events ∨
    events = [] ∧ ∀ other, ¬ Calls occasion request store request.method request.path other

end

variable {occasion : Occasion} {request : Request} {store : Store} {method path : String}
  {events : List Metric}

/-- A call handles a transaction that the request asks for. -/
theorem Calls.exists_asks (h : Calls occasion request store method path events) :
    ∃ message t, Asks occasion request store method path message t ∧ t.events = events := by
  cases h with
  | @create submission h hlengths =>
    refine ⟨_, _, .create h, ?_⟩
    rcases store.submit_cases occasion.now submission with ⟨reason, hrefusal, -⟩ | ⟨-, hsubmit⟩
    · exact absurd (hlengths.symm.trans hrefusal) (by simp)
    · rw [hsubmit]
      rfl
  | delete hpath hid => exact ⟨_, _, .delete hpath hid, rfl⟩
  | @execute inquiry record rules h hrecord hrules =>
    refine ⟨_, _, .evaluate h, ?_⟩
    rw [Store.inquire, hrecord, hrules]
    rfl

/-- A transaction that records events is handled by a call. -/
theorem Asks.calls {message : String} {t : Transaction Json}
    (h : Asks occasion request store method path message t) :
    Calls occasion request store method path t.events ∨ t.events = [] := by
  cases h with
  | list => exact .inr rfl
  | get => exact .inr rfl
  | compile => exact .inr rfl
  | delete hpath hid => exact .inl (.delete hpath hid)
  | @create submission h =>
    rcases store.submit_cases occasion.now submission with ⟨_, -, hsubmit⟩ | ⟨hlengths, hsubmit⟩
    · rw [hsubmit]
      exact .inr rfl
    · rw [hsubmit]
      exact .inl (.create h hlengths)
  | @evaluate inquiry h =>
    rcases store.inquire_cases occasion.execution inquiry with
      ⟨_, -, hinquire⟩ | ⟨_, _, -, -, hinquire⟩ | ⟨record, rules, hrecord, hrules, hinquire⟩
    · rw [hinquire]
      exact .inr rfl
    · rw [hinquire]
      exact .inr rfl
    · rw [hinquire]
      exact .inl (.execute h hrecord hrules)

theorem Calls.method_ne (h : Calls occasion request store method path events) :
    method ≠ "GET" := by
  cases h <;> decide

/-- Nothing that `GET` asks for records events. -/
theorem Answer.events_of_get {exchange : Exchange Store}
    (h : Answer occasion request store method path exchange) (hmethod : method = "GET") :
    exchange.events = [] := by
  cases h with
  | plain => rfl
  | head => exact absurd hmethod (by decide)
  | envelope h => exact h.calls.resolve_left fun hcalls => hcalls.method_ne hmethod

/-- Whatever records events is a call. -/
theorem Answer.calls {exchange : Exchange Store}
    (h : Answer occasion request store method path exchange) :
    Calls occasion request store method path exchange.events ∨ exchange.events = [] := by
  cases h with
  | envelope h => exact h.calls
  | plain => exact .inr rfl
  | head h => exact .inr (h.events_of_get rfl)

/-- The events of the handler of a request are those of its call. -/
theorem called_handle (requestId : String) (occasion : Occasion) (request : Request)
    (store : Store) : Called occasion request store
      (Site.handle ruleSite requestId occasion request store).events := by
  rcases (answer_handle requestId occasion request store).calls with hcalls | hnil
  · exact .inl hcalls
  · by_cases h : ∃ other, Calls occasion request store request.method request.path other
    · obtain ⟨other, hother⟩ := h
      obtain ⟨message, t, hasks, rfl⟩ := hother.exists_asks
      rw [hasks.handle_eq]
      exact .inl hother
    · exact .inr ⟨hnil, not_exists.1 h⟩

/-- No call tells of a request. -/
theorem Calls.not_isHttp (h : Calls occasion request store method path events) :
    ∀ event ∈ events, event.isHttp = false := by
  cases h with
  | @create submission _ _ =>
    rcases store.create_cases occasion.now submission.name submission.rule with
      ⟨-, hcreate⟩ | ⟨_, _, hrefuses, hcreate⟩
    · rw [hcreate]
      simp [Metric.isHttp, Metric.rulesStored]
    · rw [hcreate]
      cases hrefuses <;> simp [Metric.isHttp, Metric.compileFailure]
  | @delete _ _ ruleId _ _ =>
    rcases store.delete_cases ruleId with ⟨_, -, hdelete⟩ | ⟨-, hdelete⟩
    · rw [hdelete]
      simp [Metric.isHttp, Metric.rulesStored]
    · rw [hdelete]
      simp
  | @execute _ record rules _ _ _ =>
    rw [Engine.execute]
    cases store.engine.outcomeOf record occasion.execution rules <;>
      simp [Metric.isHttp, Metric.ruleEvaluation]

theorem Called.not_isHttp (h : Called occasion request store events) :
    ∀ event ∈ events, event.isHttp = false := by
  obtain h | ⟨rfl, -⟩ := h
  · exact h.not_isHttp
  · simp

/-! ### Counting -/

/-- A request is counted once: behind the events of the call that handles it come those that tell of
the request, under the label of its route and the status that is answered. -/
def IsCounted (occasion : Occasion) (request : Request) (store : Store)
    (exchange : Exchange Store) : Prop :=
  ∃ route called, Route request.path route ∧ route ∈ templates ++ ["unmatched"] ∧
    Called occasion request store called ∧ (∀ event ∈ called, event.isHttp = false) ∧
    let labels := [("method", request.method), ("path", route),
      ("status", toString exchange.response.status)]
    exchange.events = called ++ [⟨"http_requests_total", labels, .counter 1⟩,
      ⟨"http_request_duration_seconds", labels, .histogram occasion.handling.seconds⟩]

/-- Every request is counted once. -/
theorem isCounted_service (occasion : Occasion) (request : Request) (store : Store) :
    IsCounted occasion request store (ruleSite.service occasion request store) := by
  have hcalled := called_handle (request.id occasion.freshId) occasion request store
  have hroute := route_label request
  refine ⟨_, _, hroute, hroute.mem, hcalled, hcalled.not_isHttp, ?_⟩
  rw [Site.status_service]
  rfl

/-- The requests of a sequence are counted one by one. -/
theorem total_run (requests : List (Occasion × Request)) (store : Store) :
    Metric.total "http_requests_total"
      ((ruleSite.service.run requests store).1.flatMap (·.events)) = requests.length := by
  induction requests generalizing store with
  | nil => rfl
  | cons first requests ih =>
    obtain ⟨route, called, -, -, -, hcalled, hevents⟩ := isCounted_service first.1 first.2 store
    rw [Service.run_cons, List.flatMap_cons, Metric.total_append, ih, hevents, Metric.total_append,
      Metric.total_of_not_isHttp hcalled, List.length_cons]
    exact Nat.add_comm ..

/-- **Every request is counted once, under its route.** Whatever requests are sent to the service,
one after the other from the empty store on, and whatever comes of them, each is counted once behind
the events of the call that handles it, under its method, the status that is answered and the label
of its route, which is one of six. The counter has the number of requests in the end. -/
theorem each_request_counted_once (engine : Engine) (before after : List (Occasion × Request))
    (occasion : Occasion) (request : Request) :
    let requests := before ++ (occasion, request) :: after
    let exchanges := (ruleSite.service.run requests (Store.empty engine)).1
    let store := (ruleSite.service.run before (Store.empty engine)).2
    (∃ exchange, exchanges[before.length]? = some exchange ∧
      IsCounted occasion request store exchange) ∧
    Metric.total "http_requests_total" (exchanges.flatMap (·.events)) = requests.length := by
  intro requests exchanges store
  exact ⟨⟨_, Service.getElem?_run .., isCounted_service occasion request store⟩,
    total_run requests (Store.empty engine)⟩

end RuleSite

end Criteria
