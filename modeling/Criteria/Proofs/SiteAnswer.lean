import Criteria.Proofs.SiteRun

/-!
# What comes of a request

A request to the site of the rules asks for a transaction on the store, and the answer is an
envelope with what the transaction gives; or it does not get that far, and the answer is plain. This
file says once which transaction is asked for and what is answered, so that whatever holds of all
answers is shown by cases.

## Main definitions

* `RuleSite.Asks`: the transaction that a request asks for.
* `RuleSite.Plain`: the answers to requests that ask for none.
* `RuleSite.Answer`: what comes of a request.
* `RuleSite.Effect`: what becomes of the store.

## Main results

* `RuleSite.answer_handle`: every request is answered so.
* `RuleSite.Answer.effect`: a request that is not answered with a rule that it stored or deleted
  leaves the store as it is.
-/

namespace Criteria

/-! ### Transactions -/

namespace Transaction

variable {α β : Type}

/-- A transaction with what it gives in another form. -/
def map (f : α → β) (t : Transaction α) : Transaction β := ⟨t.result.map f, t.store, t.events⟩

/-- The exchange that a transaction is that gives JSON. -/
def envelope (t : Transaction Json) (message : String) : Exchange Store := t.exchange message id

/-- An exchange encodes what a transaction gives; it may be encoded before. -/
theorem exchange_eq_envelope (t : Transaction α) (message : String) (encode : α → Json) :
    t.exchange message encode = (t.map encode).envelope message := by
  rw [envelope, exchange, exchange, map]
  cases t.result <;> rfl

section

variable {t : Transaction Json}

theorem envelope_of_ok {data : Json} (h : t.result = .ok data) (message : String) :
    t.envelope message = ⟨.success message data, t.store, t.events⟩ := by
  simp only [envelope, exchange, h, id_eq]

theorem envelope_of_error {failure : Failure} (h : t.result = .error failure) (message : String) :
    t.envelope message = ⟨(Problem.ofFailure failure).response, t.store, t.events⟩ := by
  simp only [envelope, exchange, h]

end

end Transaction

namespace RuleSite

/-- The path of a single rule: a part of its own behind the path of all rules. -/
structure IsRulePath (path segment : String) : Prop where
  compile_ne : path ≠ "/api/rules/compile"
  evaluate_ne : path ≠ "/api/rules/evaluate"
  segment_eq : Path.segmentBehind? "/api/rules/" path = some segment

section

variable (occasion : Occasion) (request : Request) (store : Store)

/-- The transaction that a request asks for with its method and path, and the message if it
succeeds. What the transaction gives is JSON already. -/
inductive Asks : String → String → String → Transaction Json → Prop
  | create {submission : Submission} (h : request.payload Submission.reader = .ok submission) :
      Asks "POST" "/api/rules" "规则创建成功"
        ((store.submit occasion.now submission).map StoredRule.toJson)
  | list : Asks "GET" "/api/rules" done ⟨.ok (.array (store.list.map StoredRule.toJson)), store, []⟩
  | get {path segment : String} {ruleId : Nat} (hpath : IsRulePath path segment)
      (hid : Path.natural? segment = some ruleId) :
      Asks "GET" path done ⟨(store.get ruleId).map StoredRule.toJson, store, []⟩
  | delete {path segment : String} {ruleId : Nat} (hpath : IsRulePath path segment)
      (hid : Path.natural? segment = some ruleId) :
      Asks "DELETE" path "规则已删除" ((store.delete ruleId).map StoredRule.toJson)
  | compile {rule : String} (h : request.payload Submission.ruleReader = .ok rule) :
      Asks "POST" "/api/rules/compile" done
        ⟨(store.compile rule).map Compilation.toJson, store, []⟩
  | evaluate {inquiry : Inquiry} (h : request.payload Inquiry.reader = .ok inquiry) :
      Asks "POST" "/api/rules/evaluate" done
        ((store.inquire occasion.execution inquiry).map Outcome.toJson)

/-- The body of a request is not taken by the handler for a method and a path. -/
inductive Unread (error : PayloadError) : String → String → Prop
  | create (h : request.payload Submission.reader = .error error) : Unread error "POST" "/api/rules"
  | compile (h : request.payload Submission.ruleReader = .error error) :
      Unread error "POST" "/api/rules/compile"
  | evaluate (h : request.payload Inquiry.reader = .error error) :
      Unread error "POST" "/api/rules/evaluate"

/-- The answers that are no envelopes. -/
inductive Plain (method path : String) : Response → Prop
  /-- The body is not taken. -/
  | unread {error : PayloadError} (h : Unread request error method path) :
      Plain method path error.response
  /-- The path should hold a number, and does not. -/
  | numberless {segment : String} (hmethod : method = "GET" ∨ method = "DELETE")
      (hpath : IsRulePath path segment) (h : Path.natural? segment = none) :
      Plain method path (.ofText 400 "The path must hold a number")
  /-- The service is alive. -/
  | alive (hmethod : method = "GET") (hpath : path = "/health") :
      Plain method path (.ofText 200 "OK")
  /-- There is nothing at the path. -/
  | unmatched (h : ruleSite path = none) : Plain method path (.ofStatus 404)
  /-- What is there does not take the method. -/
  | notAllowed {resource : Resource Store} (h : ruleSite path = some resource) :
      Plain method path resource.notAllowed

/-- What comes of a request with a method and a path. -/
inductive Answer : String → String → Exchange Store → Prop
  /-- A transaction is asked for and answered. -/
  | envelope {method path message : String} {t : Transaction Json}
      (h : Asks occasion request store method path message t) :
      Answer method path (t.envelope message)
  /-- No transaction is asked for. -/
  | plain {method path : String} {response : Response} (h : Plain request method path response) :
      Answer method path ⟨response, store, []⟩
  /-- `HEAD` is answered as `GET` is, without the body. -/
  | head {path : String} {exchange : Exchange Store} (h : Answer "GET" path exchange) :
      Answer "HEAD" path { exchange with response := exchange.response.withoutBody }

end

variable {occasion : Occasion} {request : Request} {store : Store} {method path : String}

/-! ### Every request is answered so -/

section

variable {α : Type} {reader : Json.Reader α} {handle : Occasion → α → Store → Exchange Store}
  (requestId : String)

theorem onPayload_of_ok {payload : α} (h : request.payload reader = .ok payload) :
    onPayload reader handle requestId occasion request store = handle occasion payload store := by
  rw [onPayload, h]

theorem onPayload_of_error {error : PayloadError} (h : request.payload reader = .error error) :
    onPayload reader handle requestId occasion request store = ⟨error.response, store, []⟩ := by
  rw [onPayload, h]
  rfl

theorem answer_onPayload
    (hok : ∀ payload, request.payload reader = .ok payload →
      Answer occasion request store method path (handle occasion payload store))
    (herror : ∀ error, request.payload reader = .error error → Unread request error method path) :
    Answer occasion request store method path
      (onPayload reader handle requestId occasion request store) := by
  cases h : request.payload reader with
  | ok payload =>
    rw [onPayload_of_ok requestId h]
    exact hok payload h
  | error error =>
    rw [onPayload_of_error requestId h]
    exact .plain (.unread (herror error h))

theorem onId_of_some {segment : String} {handle : Nat → Store → Exchange Store} {ruleId : Nat}
    (h : Path.natural? segment = some ruleId) :
    onId segment handle requestId occasion request store = handle ruleId store := by
  rw [onId, h]

theorem answer_onId {segment : String} {handle : Nat → Store → Exchange Store}
    (hmethod : method = "GET" ∨ method = "DELETE") (hpath : IsRulePath path segment)
    (hok : ∀ ruleId, Path.natural? segment = some ruleId →
      Answer occasion request store method path (handle ruleId store)) :
    Answer occasion request store method path
      (onId segment handle requestId occasion request store) := by
  cases h : Path.natural? segment with
  | some ruleId =>
    rw [onId_of_some requestId h]
    exact hok ruleId h
  | none =>
    rw [onId, h]
    exact .plain (.numberless hmethod hpath h)

end

/-- The handlers of the site of the rules answer so. -/
theorem Serves.answer {handler : Handler Store} (h : Serves method path handler)
    (requestId : String) (occasion : Occasion) (request : Request) (store : Store) :
    Answer occasion request store method path (handler requestId occasion request store) := by
  cases h with
  | create =>
    refine answer_onPayload requestId (fun submission h => ?_) fun _ h => .create h
    rw [Transaction.exchange_eq_envelope]
    exact .envelope (.create h)
  | list => exact .envelope .list
  | compile =>
    refine answer_onPayload requestId (fun rule h => ?_) fun _ h => .compile h
    rw [Transaction.exchange_eq_envelope]
    exact .envelope (.compile h)
  | evaluate =>
    refine answer_onPayload requestId (fun inquiry h => ?_) fun _ h => .evaluate h
    rw [Transaction.exchange_eq_envelope]
    exact .envelope (.evaluate h)
  | health => exact .plain (.alive rfl rfl)
  | get hother h =>
    have hpath : IsRulePath path _ := ⟨hother.1, hother.2, h⟩
    refine answer_onId requestId (.inl rfl) hpath fun ruleId hid => ?_
    rw [Transaction.exchange_eq_envelope]
    exact .envelope (.get hpath hid)
  | delete hother h =>
    have hpath : IsRulePath path _ := ⟨hother.1, hother.2, h⟩
    refine answer_onId requestId (.inr rfl) hpath fun ruleId hid => ?_
    rw [Transaction.exchange_eq_envelope]
    exact .envelope (.delete hpath hid)

/-- Every request is answered so. -/
theorem answer_handle (requestId : String) (occasion : Occasion) (request : Request)
    (store : Store) : Answer occasion request store request.method request.path
      (Site.handle ruleSite requestId occasion request store) := by
  obtain ⟨handler, hanswers, hhandle⟩ := Site.answers_handle ruleSite request
  rw [hhandle]
  cases hanswers with
  | unmatched h => exact .plain (.unmatched h)
  | listed h hmem => exact (serves_of_mem h hmem).answer requestId occasion request store
  | head h hmethod hmem =>
    rw [hmethod]
    exact .head ((serves_of_mem h hmem).answer requestId occasion request store)
  | notAllowed h => exact .plain (.notAllowed h)

/-- A transaction that is asked for is answered. -/
theorem Asks.handle_eq {message : String} {t : Transaction Json}
    (h : Asks occasion request store request.method request.path message t) (requestId : String) :
    Site.handle ruleSite requestId occasion request store = t.envelope message := by
  have hhandler : ∃ handler, Serves request.method request.path handler ∧
      handler requestId occasion request store = t.envelope message := by
    generalize request.method = method, request.path = path at h
    cases h with
    | create h =>
      refine ⟨_, .create, ?_⟩
      rw [RuleSite.create, onPayload_of_ok requestId h, Transaction.exchange_eq_envelope]
    | list => exact ⟨_, .list, Transaction.exchange_eq_envelope ..⟩
    | get hpath hid =>
      refine ⟨_, .get ⟨hpath.compile_ne, hpath.evaluate_ne⟩ hpath.segment_eq, ?_⟩
      rw [RuleSite.get, onId_of_some requestId hid, Transaction.exchange_eq_envelope]
      rfl
    | delete hpath hid =>
      refine ⟨_, .delete ⟨hpath.compile_ne, hpath.evaluate_ne⟩ hpath.segment_eq, ?_⟩
      rw [RuleSite.delete, onId_of_some requestId hid, Transaction.exchange_eq_envelope]
    | compile h =>
      refine ⟨_, .compile, ?_⟩
      rw [RuleSite.compile, onPayload_of_ok requestId h, Transaction.exchange_eq_envelope]
      rfl
    | evaluate h =>
      refine ⟨_, .evaluate, ?_⟩
      rw [RuleSite.evaluate, onPayload_of_ok requestId h, Transaction.exchange_eq_envelope]
  obtain ⟨handler, hserves, hhandler⟩ := hhandler
  rw [hserves.handle_eq, hhandler]

/-- A body that is not taken is refused. -/
theorem Unread.handle_eq {error : PayloadError}
    (h : Unread request error request.method request.path) (requestId : String) :
    Site.handle ruleSite requestId occasion request store = ⟨error.response, store, []⟩ := by
  have hhandler : ∃ handler, Serves request.method request.path handler ∧
      handler requestId occasion request store = ⟨error.response, store, []⟩ := by
    generalize request.method = method, request.path = path at h
    cases h with
    | create h => exact ⟨_, .create, onPayload_of_error requestId h⟩
    | compile h => exact ⟨_, .compile, onPayload_of_error requestId h⟩
    | evaluate h => exact ⟨_, .evaluate, onPayload_of_error requestId h⟩
  obtain ⟨handler, hserves, hhandler⟩ := hhandler
  rw [hserves.handle_eq, hhandler]

/-! ### Answers that are no envelopes -/

namespace Plain

variable {response : Response}

theorem body_ne_json (h : Plain request method path response) (content : Json) :
    response.body ≠ .json content := by
  cases h <;> simp [PayloadError.response, Response.ofText, Response.ofStatus,
    Resource.notAllowed, Response.withHeader]

theorem status_ne_internal (h : Plain request method path response) : response.status ≠ 500 := by
  cases h with
  | @unread error _ => cases error <;> decide
  | _ => simp [Response.ofText, Response.ofStatus, Resource.notAllowed, Response.withHeader]

/-- Of these, only the answer of the service that it is alive tells of success. -/
theorem method_eq_of_status (h : Plain request method path response)
    (hstatus : response.status = 200) : method = "GET" := by
  cases h with
  | alive hmethod hpath => exact hmethod
  | @unread error _ => cases error <;> cases hstatus
  | _ => cases hstatus

end Plain

/-! ### What becomes of the store -/

/-- What becomes of the store, with the answer that tells of it. -/
inductive Effect (occasion : Occasion) (store : Store) (method path : String) :
    Exchange Store → Prop
  /-- A submitted rule is stored. -/
  | created {submission : Submission} {events : List Metric} (hmethod : method = "POST")
      (hpath : path = "/api/rules") (hlengths : submission.refusal? = none)
      (haccepts : store.engine.Accepts submission.name submission.rule) :
      Effect occasion store method path
        ⟨.success "规则创建成功"
            (store.next occasion.now submission.name submission.rule).toJson,
          store.adding occasion.now submission.name submission.rule, events⟩
  /-- The rule of a number is deleted. -/
  | deleted {segment : String} {ruleId : Nat} {rule : StoredRule} {events : List Metric}
      (hmethod : method = "DELETE") (hpath : IsRulePath path segment)
      (hid : Path.natural? segment = some ruleId)
      (hfind : store.rules.find? (·.id = ruleId) = some rule) :
      Effect occasion store method path
        ⟨.success "规则已删除" rule.toJson, store.removing ruleId, events⟩
  /-- The store stays as it is. -/
  | kept {exchange : Exchange Store} (hstate : exchange.state = store)
      (hstatus : method = "POST" ∧ path = "/api/rules" ∨ method = "DELETE" →
        exchange.response.status ≠ 200) : Effect occasion store method path exchange

theorem status_ofFailure_ne (failure : Failure) : (Problem.ofFailure failure).status ≠ 200 := by
  cases failure <;> simp [Problem.ofFailure, Problem.status]

/-- A transaction that fails is not answered with success. -/
theorem status_envelope_of_error {t : Transaction Json} {failure : Failure}
    (h : t.result = .error failure) (message : String) :
    (t.envelope message).response.status ≠ 200 := by
  rw [Transaction.envelope_of_error h]
  exact status_ofFailure_ne failure

/-- A transaction that is asked for stores a rule, deletes one, or leaves the store as it is. -/
theorem Asks.effect {message : String} {t : Transaction Json}
    (h : Asks occasion request store method path message t) :
    Effect occasion store method path (t.envelope message) := by
  have hother : ¬ (method = "POST" ∧ path = "/api/rules" ∨ method = "DELETE") →
      t.store = store → Effect occasion store method path (t.envelope message) :=
    fun hne hstore => .kept hstore fun h => absurd h hne
  cases h with
  | list => exact hother (by decide) rfl
  | get => exact hother (by simp) rfl
  | compile => exact hother (by decide) rfl
  | @evaluate inquiry h =>
    refine hother (by decide) ?_
    rcases store.inquire_cases occasion.execution inquiry with
      ⟨_, -, h⟩ | ⟨_, _, -, -, h⟩ | ⟨_, _, -, -, h⟩ <;> rw [h] <;> rfl
  | @create submission h =>
    rcases store.submit_cases occasion.now submission with ⟨reason, -, h⟩ | ⟨hlengths, h⟩
    · rw [h]
      exact .kept rfl fun _ => status_envelope_of_error rfl _
    · rcases store.create_cases occasion.now submission.name submission.rule with
        ⟨haccepts, hcreate⟩ | ⟨failure, events, -, hcreate⟩
      · rw [h, hcreate]
        exact .created rfl rfl hlengths haccepts
      · rw [h, hcreate]
        exact .kept rfl fun _ => status_envelope_of_error rfl _
  | @delete _ segment ruleId hpath hid =>
    rcases store.delete_cases ruleId with ⟨rule, hfind, h⟩ | ⟨-, h⟩
    · rw [h]
      exact .deleted rfl hpath hid hfind
    · rw [h]
      exact .kept rfl fun _ => status_envelope_of_error rfl _

/-- Nothing that `GET` asks for changes the store. -/
theorem Answer.state_of_get {exchange : Exchange Store}
    (h : Answer occasion request store method path exchange) (hmethod : method = "GET") :
    exchange.state = store := by
  cases h with
  | plain => rfl
  | head => exact absurd hmethod (by decide)
  | envelope h =>
    cases h with
    | list => rfl
    | get => rfl
    | _ => exact absurd hmethod (by decide)

/-- A request that is not answered with a rule that it stored or deleted leaves the store as it
is. -/
theorem Answer.effect {exchange : Exchange Store}
    (h : Answer occasion request store method path exchange) :
    Effect occasion store method path exchange := by
  cases h with
  | envelope h => exact h.effect
  | plain h =>
    refine .kept rfl fun hmethod hstatus => ?_
    rcases hmethod with ⟨rfl, -⟩ | rfl <;> exact absurd (h.method_eq_of_status hstatus) (by decide)
  | head h => exact .kept (h.state_of_get rfl) (by simp)

/-- What becomes of the store is what an operation on it does. -/
theorem Effect.exists_operation {exchange : Exchange Store}
    (h : Effect occasion store method path exchange) :
    ∃ operation, exchange.state = (store.perform operation).store := by
  cases h with
  | @created submission _ _ _ _ haccepts =>
    refine ⟨.create occasion.now submission.name submission.rule, ?_⟩
    rw [Store.perform, Store.create_of_accepts haccepts]
  | @deleted _ ruleId _ _ _ _ _ hfind =>
    refine ⟨.delete ruleId, ?_⟩
    rw [Store.perform, Store.delete_of_find? hfind]
  | kept hstate _ => exact ⟨.list, hstate⟩

/-- The service answers a transaction that is asked for. -/
theorem Asks.answer_service {message : String} {t : Transaction Json}
    (h : Asks occasion request store request.method request.path message t) :
    (ruleSite.service occasion request store).state = t.store ∧
    (ruleSite.service occasion request store).response.status =
      (t.envelope message).response.status ∧
    (ruleSite.service occasion request store).response.body =
      (t.envelope message).response.body := by
  rw [Site.state_service, Site.status_service, Site.body_service, h.handle_eq]
  exact ⟨rfl, rfl, rfl⟩

section service

variable (occasion : Occasion) (request : Request) (store : Store)

/-- The service answers as the site does, but for the headers and the events of the request. -/
theorem answer_service : ∃ exchange,
    Answer occasion request store request.method request.path exchange ∧
    (ruleSite.service occasion request store).state = exchange.state ∧
    (ruleSite.service occasion request store).response.status = exchange.response.status ∧
    (ruleSite.service occasion request store).response.body = exchange.response.body :=
  ⟨_, answer_handle _ occasion request store, Site.state_service .., Site.status_service ..,
    Site.body_service ..⟩

/-- A request performs one operation on the store at most. -/
theorem exists_operation_service : ∃ operation,
    (ruleSite.service occasion request store).state = (store.perform operation).store := by
  obtain ⟨exchange, hanswer, hstate, -⟩ := answer_service occasion request store
  rw [hstate]
  exact hanswer.effect.exists_operation

end service

end RuleSite

end Criteria
