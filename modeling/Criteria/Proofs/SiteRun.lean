import Criteria.Http.RuleSite
import Criteria.Proofs.FirstFailure
import Criteria.Proofs.StoreRun

/-!
# Requests to the site of the rules

Which handler answers a request to a site, and what requests one after the other keep.

## Main definitions

* `Site.Answers`: the handlers that may answer a method and a path.
* `RuleSite.Serves`: the handlers of the site of the rules.

## Main results

* `Site.answers_handle`: a request is answered by one of the handlers.
* `RuleSite.serves_of_mem`, `RuleSite.Serves.handle_eq`: which handlers these are.
* `Service.run_induction`: what every request keeps, every sequence of requests keeps.
-/

namespace Criteria

/-! ### Sequences of requests -/

/-- What every request keeps, every sequence of requests keeps; and what holds of the exchange of
each request in a state that is so kept, holds of all exchanges of the sequence. -/
theorem Service.run_induction {σ : Type} {service : Service σ} {p : σ → Prop}
    {q : Occasion × Request → Exchange σ → Prop}
    (hstep : ∀ occasion request state, p state →
      p (service occasion request state).state ∧
        q (occasion, request) (service occasion request state))
    {state : σ} (h : p state) (requests : List (Occasion × Request)) :
    p (service.run requests state).2 ∧ List.Forall₂ q requests (service.run requests state).1 := by
  induction requests generalizing state with
  | nil => exact ⟨h, .nil⟩
  | cons first requests ih =>
    obtain ⟨hstate, hexchange⟩ := hstep first.1 first.2 state h
    obtain ⟨hfinal, hrest⟩ := ih hstate
    exact ⟨hfinal, .cons hexchange hrest⟩

section run

variable {σ : Type} (service : Service σ)

@[simp] theorem Service.run_nil (state : σ) : service.run [] state = ([], state) := rfl

theorem Service.run_cons (occasion : Occasion) (request : Request)
    (requests : List (Occasion × Request)) (state : σ) :
    service.run ((occasion, request) :: requests) state =
      (service occasion request state ::
          (service.run requests (service occasion request state).state).1,
        (service.run requests (service occasion request state).state).2) := rfl

variable {service} in
/-- What every request keeps, every sequence of requests keeps. -/
theorem Service.run_invariant {p : σ → Prop}
    (hstep : ∀ occasion request state, p state → p (service occasion request state).state)
    {state : σ} (h : p state) (requests : List (Occasion × Request)) :
    p (service.run requests state).2 :=
  (run_induction (q := fun _ _ => True)
    (fun occasion request state h => ⟨hstep occasion request state h, trivial⟩) h requests).1

/-- Each request has an answer. -/
@[simp] theorem Service.length_run (requests : List (Occasion × Request)) (state : σ) :
    (service.run requests state).1.length = requests.length := by
  induction requests generalizing state with
  | nil => rfl
  | cons first requests ih => rw [run_cons, List.length_cons, ih, List.length_cons]

/-- The answers to requests one after the other are those to the first of them, then those to the
others in the state that is left. -/
theorem Service.run_append (before after : List (Occasion × Request)) (state : σ) :
    service.run (before ++ after) state =
      ((service.run before state).1 ++ (service.run after (service.run before state).2).1,
        (service.run after (service.run before state).2).2) := by
  induction before generalizing state with
  | nil => rfl
  | cons first before ih => rw [List.cons_append, run_cons, run_cons, ih, List.cons_append]

/-- A request is answered in the state that the ones before it leave. -/
theorem Service.getElem?_run (before after : List (Occasion × Request)) (occasion : Occasion)
    (request : Request) (state : σ) :
    (service.run (before ++ (occasion, request) :: after) state).1[before.length]? =
      some (service occasion request (service.run before state).2) := by
  rw [run_append, List.getElem?_append_right (by simp)]
  simp [run_cons]

end run

/-! ### Which handler answers -/

/-- The handlers that may answer the requests of a method and a path. -/
inductive Site.Answers {σ : Type} (site : Site σ) (method path : String) : Handler σ → Prop
  /-- There is no resource. -/
  | unmatched (h : site path = none) : Answers site method path (.always (.ofStatus 404))
  /-- The resource lists a handler for the method. -/
  | listed {resource : Resource σ} {handler : Handler σ} (h : site path = some resource)
      (hmem : (method, handler) ∈ resource.handlers) : Answers site method path handler
  /-- `HEAD` is answered as `GET` is. -/
  | head {resource : Resource σ} {handler : Handler σ} (h : site path = some resource)
      (hmethod : method = "HEAD") (hmem : ("GET", handler) ∈ resource.handlers) :
      Answers site method path handler.withoutBody
  /-- The resource does not take the method. -/
  | notAllowed {resource : Resource σ} (h : site path = some resource) :
      Answers site method path (.always resource.notAllowed)

theorem mem_of_lookup {α : Type} {key : String} {value : α} {l : List (String × α)}
    (h : l.lookup key = some value) : (key, value) ∈ l := by
  obtain ⟨before, after, rfl, -⟩ := List.lookup_eq_some_iff.1 h
  simp

/-- The handler of a resource is one that it lists, or refuses the method. -/
theorem Resource.handler?_cases {σ : Type} (resource : Resource σ) (method : String) :
    (∃ handler, (method, handler) ∈ resource.handlers ∧ resource.handler? method = some handler) ∨
      (method = "HEAD" ∧ ∃ handler, ("GET", handler) ∈ resource.handlers ∧
        resource.handler? method = some handler.withoutBody) ∨
      resource.handler? method = none := by
  rw [handler?]
  cases h : resource.handlers.lookup method with
  | some handler => exact .inl ⟨handler, mem_of_lookup h, rfl⟩
  | none =>
    by_cases hmethod : method = "HEAD"
    · simp only [if_pos hmethod]
      cases hget : resource.handlers.lookup "GET" with
      | some handler => exact .inr (.inl ⟨hmethod, handler, mem_of_lookup hget, rfl⟩)
      | none => exact .inr (.inr rfl)
    · exact .inr (.inr (if_neg hmethod))

/-- A request is answered by one of the handlers for its method and its path. -/
theorem Site.answers_handle {σ : Type} (site : Site σ) (request : Request) :
    ∃ handler, site.Answers request.method request.path handler ∧
      ∀ id occasion state, site.handle id occasion request state =
        handler id occasion request state := by
  cases h : site request.path with
  | none => exact ⟨_, .unmatched h, fun _ _ _ => by rw [handle, h]⟩
  | some resource =>
    have hhandle (id : String) (occasion : Occasion) (state : σ) :
        site.handle id occasion request state =
          (resource.handler? request.method).getD (.always resource.notAllowed) id occasion request
            state := by
      rw [handle, h]
      rfl
    rcases resource.handler?_cases request.method with
      ⟨handler, hmem, hsome⟩ | ⟨hmethod, handler, hmem, hsome⟩ | hnone
    · exact ⟨handler, .listed h hmem, fun _ _ _ => by rw [hhandle, hsome, Option.getD_some]⟩
    · exact ⟨_, .head h hmethod hmem, fun _ _ _ => by rw [hhandle, hsome, Option.getD_some]⟩
    · exact ⟨_, .notAllowed h, fun _ _ _ => by rw [hhandle, hnone, Option.getD_none]⟩

section service

variable {σ : Type} (site : Site σ) (occasion : Occasion) (request : Request) (state : σ)

@[simp] theorem Site.state_service : (site.service occasion request state).state =
    (site.handle (request.id occasion.freshId) occasion request state).state := rfl

@[simp] theorem Site.body_service : (site.service occasion request state).response.body =
    (site.handle (request.id occasion.freshId) occasion request state).response.body :=
  Response.body_telling ..

@[simp] theorem Site.status_service : (site.service occasion request state).response.status =
    (site.handle (request.id occasion.freshId) occasion request state).response.status :=
  Response.status_telling ..

end service

/-! ### Submissions and inquiries -/

namespace Store

/-- A submission is refused for its lengths, or its rule is stored as any other. -/
theorem submit_cases (store : Store) (now : String) (submission : Submission) :
    (∃ reason, submission.refusal? = some (.invalid reason) ∧
      store.submit now submission = ⟨.error (.invalid reason), store, []⟩) ∨
      submission.refusal? = none ∧
        store.submit now submission = store.create now submission.name submission.rule := by
  rw [submit, Submission.refusal?]
  cases (Submission.nameProblem? submission.name).toList ++
    (Submission.ruleProblem? submission.rule).toList with
  | nil => exact .inr ⟨rfl, rfl⟩
  | cons problem problems => exact .inl ⟨_, rfl, rfl⟩

section

variable {store : Store} {failure : Failure}

/-- A submission is refused, for its rule or for something else. -/
theorem submit_eq_error {now : String} {submission : Submission}
    (h : (store.submit now submission).result = .error failure) :
    (∃ cause, failure = .parse cause) ∨ ∃ reason, failure = .invalid reason := by
  rcases store.submit_cases now submission with ⟨reason, -, hsubmit⟩ | ⟨-, hsubmit⟩
  · rw [hsubmit] at h
    exact .inr ⟨reason, (Except.error.inj h).symm⟩
  · rw [hsubmit] at h
    rcases store.create_cases now submission.name submission.rule with
      ⟨-, hcreate⟩ | ⟨_, _, hrefuses, hcreate⟩
    · rw [hcreate] at h
      cases h
    · rw [hcreate] at h
      obtain rfl := Except.error.inj h
      cases hrefuses with
      | parse _ _ _ => exact .inl ⟨_, rfl⟩
      | _ => exact .inr ⟨_, rfl⟩

/-- A rule that is not compiled is refused, for itself or for its length. -/
theorem compile_eq_error {rule : String} (h : store.compile rule = .error failure) :
    (∃ cause, failure = .parse cause) ∨ ∃ reason, failure = .invalid reason := by
  rw [compile, Submission.ruleRefusal?] at h
  cases hproblem : Submission.ruleProblem? rule with
  | some reason =>
    rw [hproblem] at h
    exact .inr ⟨reason, (Except.error.inj h).symm⟩
  | none =>
    rw [hproblem] at h
    obtain ⟨cause, -, rfl⟩ := mapError_eq_error_iff.1 (map_eq_error_iff.1 h)
    exact .inl ⟨cause, rfl⟩

/-- A rule is not deleted because it is missing. -/
theorem delete_eq_error {id : Nat} (h : (store.delete id).result = .error failure) :
    store.rules.find? (·.id = id) = none ∧ failure = .notFound id := by
  rcases store.delete_cases id with ⟨rule, -, hdelete⟩ | ⟨hfind, hdelete⟩
  · rw [hdelete] at h
    cases h
  · rw [hdelete] at h
    exact ⟨hfind, (Except.error.inj h).symm⟩

end

/-- The rules that an inquiry means are missing at most. -/
theorem rulesFor_eq_error {store : Store} {inquiry : Inquiry} {failure : Failure}
    (h : store.rulesFor inquiry = .error failure) : ∃ id, failure = .notFound id := by
  rw [rulesFor] at h
  cases hids : inquiry.ruleIds with
  | none => rw [hids] at h; cases h
  | some ids =>
    rw [hids] at h
    obtain ⟨id, -, hid⟩ := (mapM_eq_error_iff _ _ _).1 h
    exact ⟨id, (get_eq_error_iff.1 hid).2⟩

/-- The rules that an inquiry means are stored. -/
theorem mem_of_rulesFor {store : Store} {inquiry : Inquiry} {rules : List StoredRule}
    (h : store.rulesFor inquiry = .ok rules) : ∀ rule ∈ rules, rule ∈ store.list := by
  rw [rulesFor] at h
  cases hids : inquiry.ruleIds with
  | none =>
    rw [hids] at h
    obtain rfl := Except.ok.inj h
    exact fun _ hrule => hrule
  | some ids =>
    rw [hids] at h
    intro rule hrule
    obtain ⟨id, hid⟩ := exists_of_forall₂ ((mapM_eq_ok_iff _ _ _).1 h).flip rule hrule
    exact List.mem_of_find?_eq_some (get_eq_ok_iff.1 hid)

/-- An inquiry fails for its data or for the rules that it means, or these are executed. The store
stays as it is. -/
theorem inquire_cases (store : Store) (elapsed : Elapsed) (inquiry : Inquiry) :
    (∃ failure, Record.read inquiry.data = .error failure ∧
      store.inquire elapsed inquiry = ⟨.error failure, store, []⟩) ∨
    (∃ record failure, Record.read inquiry.data = .ok record ∧
      store.rulesFor inquiry = .error failure ∧
      store.inquire elapsed inquiry = ⟨.error failure, store, []⟩) ∨
    ∃ record rules, Record.read inquiry.data = .ok record ∧ store.rulesFor inquiry = .ok rules ∧
      store.inquire elapsed inquiry = ⟨(store.engine.execute record elapsed rules).1, store,
        (store.engine.execute record elapsed rules).2⟩ := by
  rw [inquire]
  cases Record.read inquiry.data with
  | error failure => exact .inl ⟨failure, rfl, rfl⟩
  | ok record =>
    cases store.rulesFor inquiry with
    | error failure => exact .inr (.inl ⟨record, failure, rfl, rfl, rfl⟩)
    | ok rules => exact .inr (.inr ⟨record, rules, rfl, rfl, rfl⟩)

end Store

/-! ### The site of the rules -/

namespace RuleSite

/-- The handlers of the site of the rules, by method and path. -/
inductive Serves : String → String → Handler Store → Prop
  | create : Serves "POST" "/api/rules" create
  | list : Serves "GET" "/api/rules" list
  | compile : Serves "POST" "/api/rules/compile" compile
  | evaluate : Serves "POST" "/api/rules/evaluate" evaluate
  | health : Serves "GET" "/health" health
  | get {path segment : String}
      (hother : path ≠ "/api/rules/compile" ∧ path ≠ "/api/rules/evaluate")
      (h : Path.segmentBehind? "/api/rules/" path = some segment) : Serves "GET" path (get segment)
  | delete {path segment : String}
      (hother : path ≠ "/api/rules/compile" ∧ path ≠ "/api/rules/evaluate")
      (h : Path.segmentBehind? "/api/rules/" path = some segment) :
      Serves "DELETE" path (delete segment)

/-- The site of the rules has no other handlers. -/
theorem serves_of_mem {path method : String} {resource : Resource Store} {handler : Handler Store}
    (h : ruleSite path = some resource) (hmem : (method, handler) ∈ resource.handlers) :
    Serves method path handler := by
  unfold ruleSite at h
  split_ifs at h with hrules hcompile hevaluate hhealth
  case neg =>
    obtain ⟨segment, hsegment, rfl⟩ := Option.map_eq_some_iff.1 h
    simp only [List.mem_cons, Prod.mk.injEq, List.not_mem_nil, or_false] at hmem
    obtain ⟨rfl, rfl⟩ | ⟨rfl, rfl⟩ := hmem
    · exact .get ⟨hcompile, hevaluate⟩ hsegment
    · exact .delete ⟨hcompile, hevaluate⟩ hsegment
  all_goals
    obtain rfl := Option.some.inj h
    simp only [List.mem_cons, Prod.mk.injEq, List.not_mem_nil, or_false] at hmem
  · obtain ⟨rfl, rfl⟩ | ⟨rfl, rfl⟩ := hmem
    · exact hrules ▸ .create
    · exact hrules ▸ .list
  · obtain ⟨rfl, rfl⟩ := hmem
    exact hcompile ▸ .compile
  · obtain ⟨rfl, rfl⟩ := hmem
    exact hevaluate ▸ .evaluate
  · obtain ⟨rfl, rfl⟩ := hmem
    exact hhealth ▸ .health

/-- The resource of a path that ends in a part of its own. -/
theorem ruleSite_of_segment {path segment : String}
    (hother : path ≠ "/api/rules/compile" ∧ path ≠ "/api/rules/evaluate")
    (h : Path.segmentBehind? "/api/rules/" path = some segment) :
    ruleSite path = some ⟨"/api/rules/\x7bid\x7d",
      [("GET", get segment), ("DELETE", delete segment)]⟩ := by
  have hrules : path ≠ "/api/rules" := by
    rintro rfl
    exact absurd h (by simp [Path.segmentBehind?])
  have hhealth : path ≠ "/health" := by
    rintro rfl
    exact absurd h (by simp [Path.segmentBehind?])
  rw [ruleSite, if_neg hrules, if_neg hother.1, if_neg hother.2, if_neg hhealth, h]
  rfl

/-- The handlers of the site of the rules answer. -/
theorem Serves.handle_eq {request : Request} {handler : Handler Store}
    (h : Serves request.method request.path handler) (id : String) (occasion : Occasion)
    (store : Store) :
    Site.handle ruleSite id occasion request store = handler id occasion request store := by
  have hlookup : ∃ resource, ruleSite request.path = some resource ∧
      resource.handlers.lookup request.method = some handler := by
    generalize request.method = method, request.path = path at h
    cases h with
    | get hother h => exact ⟨_, ruleSite_of_segment hother h, rfl⟩
    | delete hother h => exact ⟨_, ruleSite_of_segment hother h, rfl⟩
    | _ => exact ⟨_, rfl, rfl⟩
  obtain ⟨resource, hresource, hhandler⟩ := hlookup
  simp only [Site.handle, hresource, Resource.handle, Resource.handler?, hhandler,
    Option.getD_some]

end RuleSite

end Criteria
