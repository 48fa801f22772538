import Criteria.Proofs.Admission
import Criteria.Proofs.ReachableStore
import Criteria.Proofs.ShownRules
import Criteria.Proofs.Untimed
import Criteria.Proofs.WrittenNumber

/-!
# Naming the rules of an inquiry

An inquiry names rules by their numbers, or it names none and means all of them. This file shows
that it makes no difference to name them all, in the order in which they are listed: the answer is
the same but for the time that it tells, and so are the events but for their durations. It also says
what is answered to an inquiry that names rules, whatever numbers it names, and which members the
answer has.

## Main definitions

* `Inquiry.Naming`: the ways to say which rules are meant, `Inquiry.Naming.body` the text.
* `RuleSite.Inquires`: the requests to execute rules.
* `RuleSite.Gets`: the answer to such a request, with the events of the execution.
* `RuleSite.Declined`: the members of an answer to a request that does not succeed.

## Main results

* `Inquiry.Naming.run_reader`: a written inquiry is read as itself.
* `RuleSite.untimed_service_eq`: naming all rules makes no difference.
* `RuleSite.naming_rules`: what is answered to all inquiries.
-/

namespace Criteria

/-! ### Written inquiries -/

namespace Inquiry

/-- The ways to say which rules are meant. -/
inductive Naming where
  /-- Nothing is said: all of them. -/
  | absent
  /-- The numbers are `null`: all of them. -/
  | null
  /-- The numbers are listed. -/
  | listed (ids : List Nat)

/-- A text is read as data, where the data of an inquiry stands. -/
def IsText (text : List Char) (data : Json) : Prop :=
  (Json.Reader.value 126 (text ++ ['\x7d'])).Takes data ['\x7d']

namespace Naming

/-- The numbers, if they are listed. -/
def ruleIds : Naming → Option (List Nat)
  | .absent | .null => none
  | .listed ids => some ids

open Json (write writeText) in
/-- The member for the numbers, in front of the others. -/
def member : Naming → List Char → List Char
  | .absent, others => others
  | .null, others => writeText "ruleIds" (':' :: write .null (',' :: others))
  | .listed ids, others =>
    writeText "ruleIds" (':' :: write (.array (ids.map .nat)) (',' :: others))

/-- The text of an inquiry about the data of a text. -/
def body (naming : Naming) (text : List Char) : String :=
  .ofList ('\x7b' :: naming.member (Json.writeText "data" (':' :: (text ++ ['\x7d']))))

open Json in
/-- A written inquiry is read as itself. -/
theorem run_reader {naming : Naming} {text : List Char} {data : Json}
    (hids : ∀ ids, naming.ruleIds = some ids → ∀ id ∈ ids, id < wordBound)
    (htext : IsText text data) :
    reader.run (naming.body text) = .ok ⟨naming.ruleIds, data⟩ := by
  refine run_of_takes ?_
  rw [body, String.toList_ofList]
  cases naming with
  | absent =>
    refine takes_record (takes_fieldsOf
      (takes_memberOf (by rfl) rfl (takes_fill htext _)) takes_fieldsTail_nil) ?_
    rfl
  | null =>
    refine takes_record (takes_fieldsOf
      (takes_memberOf (by rfl) rfl (takes_fill (takes_orNull_null ..) _))
      (takes_fieldsTail_cons (takes_memberOf (by rfl) rfl (takes_fill htext _))
        takes_fieldsTail_nil)) ?_
    rfl
  | listed ids =>
    have hlisted := takes_naturals (Nat.le_refl wordBound) 125
      (',' :: Json.writeText "data" (':' :: (text ++ ['\x7d']))) (hids ids rfl)
    refine takes_record (takes_fieldsOf
      (takes_memberOf (by rfl) rfl
        (takes_fill (takes_orNull (skipBlanks_write_array_ne _ _) hlisted) _))
      (takes_fieldsTail_cons (takes_memberOf (by rfl) rfl (takes_fill htext _))
        takes_fieldsTail_nil)) ?_
    rfl

end Naming

end Inquiry

/-! ### What an inquiry comes to -/

/-- Execution that fails records nothing. -/
theorem Engine.events_of_execute {engine : Engine} {record : Record} {elapsed : Elapsed}
    {rules : List StoredRule} {failure : Failure} {events : List Metric}
    (h : engine.execute record elapsed rules = (.error failure, events)) : events = [] := by
  obtain ⟨hfailure, rfl⟩ := Prod.mk.inj h
  simp only [hfailure]

namespace Store

/-- An inquiry that names all rules is answered as one that names none. -/
theorem Ordered.inquire_list {store : Store} (h : store.Ordered) (elapsed : Elapsed) (data : Json) :
    store.inquire elapsed ⟨some (store.list.map (·.id)), data⟩ =
      store.inquire elapsed ⟨none, data⟩ := by
  have hrules : store.rulesFor ⟨some (store.list.map (·.id)), data⟩ =
      store.rulesFor ⟨none, data⟩ := h.resolve_list
  rw [inquire, inquire, hrules]

/-- Only an object is a record. -/
theorem inquire_of_ne_object {store : Store} {inquiry : Inquiry}
    (h : ∀ members, inquiry.data ≠ .object members) (elapsed : Elapsed) :
    store.inquire elapsed inquiry =
      ⟨.error (.invalid (Record.refusal inquiry.data)), store, []⟩ := by
  refine inquire_of_unread elapsed ?_
  cases hdata : inquiry.data with
  | object members => exact absurd hdata (h members)
  | _ => rfl

end Store

/-! ### Requests -/

namespace RuleSite

/-- A request asks for the execution of the rules of some numbers, or of all rules, on data. -/
structure Inquires (request : Request) (ruleIds : Option (List Nat)) (data : Json) : Prop where
  method_eq : request.method = "POST"
  path_eq : request.path = "/api/rules/evaluate"
  payload_eq : request.payload Inquiry.reader = .ok ⟨ruleIds, data⟩

/-- A request to execute rules, with a body that it says to be JSON. -/
def inquiring (body : String) : Request :=
  ⟨"POST", "/api/rules/evaluate", [("content-type", .ofString "application/json")], body⟩

/-- What a request to execute rules gets: a response, and the store as it was. The request is
counted behind the events of the execution. -/
structure Gets (occasion : Occasion) (request : Request) (store : Store) (response : Response)
    (events : List Metric) : Prop where
  status_eq : (ruleSite.service occasion request store).response.status = response.status
  body_eq : (ruleSite.service occasion request store).response.body = response.body
  state_eq : (ruleSite.service occasion request store).state = store
  events_eq : (ruleSite.service occasion request store).events = events ++
    Metric.httpRequest "POST" "/api/rules/evaluate" response.status occasion.handling.seconds

/-- A request does not succeed, and its answer has a status, a code and a message for that. -/
structure Declined (occasion : Occasion) (request : Request) (store : Store) (status : Nat)
    (code message : String) : Prop where
  status_eq : (ruleSite.service occasion request store).response.status = status
  declines : (ruleSite.service occasion request store).response.body.Declines code message

theorem path_inquiring (body : String) : (inquiring body).path = "/api/rules/evaluate" := by
  change String.ofList (Request.pathOf ("/api/rules/evaluate".toList.takeWhile fun c =>
    c ≠ '?' ∧ c ≠ '#')) = _
  decide +kernel

/-- Every inquiry can be made, if it is not too long. -/
theorem inquires_inquiring {naming : Inquiry.Naming} {text : List Char} {data : Json}
    (hids : ∀ ids, naming.ruleIds = some ids → ∀ id ∈ ids, id < wordBound)
    (htext : Inquiry.IsText text data)
    (hlength : (naming.body text).utf8ByteSize ≤ Request.bodyLimit) :
    Inquires (inquiring (naming.body text)) naming.ruleIds data where
  method_eq := rfl
  path_eq := path_inquiring _
  payload_eq := payload_of_json rfl rfl hlength (Inquiry.Naming.run_reader hids htext)

section

variable {request : Request} {ruleIds : Option (List Nat)} {data : Json} {store : Store}

theorem Inquires.asks (h : Inquires request ruleIds data) (occasion : Occasion) (store : Store) :
    Asks occasion request store request.method request.path done
      ((store.inquire occasion.execution ⟨ruleIds, data⟩).map Outcome.toJson) := by
  rw [h.method_eq, h.path_eq]
  exact .evaluate h.payload_eq

theorem Inquires.label_eq (h : Inquires request ruleIds data) :
    Site.label ruleSite request = "/api/rules/evaluate" := by
  rw [Site.label, h.path_eq]
  rfl

/-- Naming all rules makes no difference. -/
theorem untimed_service_eq {all named : Request} (hstore : store.Ordered)
    (hall : Inquires all none data) (hnamed : Inquires named (some (store.list.map (·.id))) data)
    {occasion occasion' : Occasion} (hid : all.id occasion.freshId = named.id occasion'.freshId) :
    (ruleSite.service occasion all store).untimed =
      (ruleSite.service occasion' named store).untimed := by
  rw [(hall.asks occasion store).untimed_service, (hnamed.asks occasion' store).untimed_service,
    hstore.inquire_list, store.untimed_inquire occasion.execution occasion'.execution, hid,
    hall.label_eq, hnamed.label_eq, hall.method_eq, hnamed.method_eq]

/-- A request gets what comes of its inquiry. -/
theorem Inquires.gets (h : Inquires request ruleIds data) {occasion : Occasion}
    {response : Response} {events : List Metric}
    (hresponse : (((store.inquire occasion.execution ⟨ruleIds, data⟩).map
      Outcome.toJson).envelope done) = ⟨response, store, events⟩) :
    Gets occasion request store response events := by
  have hhandle := (h.asks occasion store).handle_eq (request.id occasion.freshId)
  rw [hresponse] at hhandle
  refine ⟨?_, ?_, ?_, ?_⟩
  · rw [Site.status_service, hhandle]
  · rw [Site.body_service, hhandle]
  · rw [Site.state_service, hhandle]
  · change (Handler.counted _ _ _ _ _ _).events = _
    rw [Handler.events_counted, hhandle, h.label_eq, h.method_eq]

theorem Inquires.gets_problem (h : Inquires request ruleIds data) {occasion : Occasion}
    {failure : Failure} (hinquire : store.inquire occasion.execution ⟨ruleIds, data⟩ =
      ⟨.error failure, store, []⟩) :
    Gets occasion request store (Problem.ofFailure failure).response [] :=
  h.gets (by rw [hinquire]; rfl)

end

section

variable {occasion : Occasion} {request : Request} {store : Store} {events : List Metric}

/-- A request that gets a problem is told its status, code and message. -/
theorem Gets.declined {problem : Problem} (h : Gets occasion request store problem.response events) :
    Declined occasion request store problem.status problem.code problem.message where
  status_eq := h.status_eq
  declines := h.body_eq ▸ problem.declines_response

/-- A request that gets an outcome is shown it, with its results in order. -/
theorem Gets.showsOutcome {outcome : Outcome} {ids : List Nat}
    (h : Gets occasion request store (.success done outcome.toJson) events)
    (hids : outcome.individualResults.map (·.ruleId) = ids) :
    (ruleSite.service occasion request store).response.body.ShowsOutcome outcome ids :=
  h.body_eq ▸ Response.showsOutcome_success done hids

end

/-- What comes of executing the rules of some numbers, all of which are stored. -/
theorem Inquires.gets_executed {engine : Engine} {store : Store} (hstore : store.Sound engine)
    {request : Request} {ids : List Nat} {members : List (String × Json)}
    (h : Inquires request (some ids) (.object members)) (occasion : Occasion)
    (hids : ∀ id ∈ ids, store.Has id) :
    ∃ rules, List.Forall₂ (fun id rule => rule ∈ store.list ∧ rule.id = id) ids rules ∧
      match engine.execute (.ofMembers members) occasion.execution rules with
      | (.ok outcome, events) => outcome.individualResults.map (·.ruleId) = ids ∧
          engine.IsOutcome (.ofMembers members) rules outcome ∧
          Gets occasion request store (.success done outcome.toJson) events ∧
          (ruleSite.service occasion request store).response.body.ShowsOutcome outcome ids
      | (.error failure, _) => (ids = [] ∧ failure = .parse .emptyRuleSet ∨
            ids ≠ [] ∧ ∃ text, failure = .evaluation (.unknownOperator text)) ∧
          Gets occasion request store (Problem.ofFailure failure).response [] := by
  obtain ⟨rules, hrules, hnumbers⟩ := Store.resolve_of_has hids
  refine ⟨rules, hnumbers, ?_⟩
  have hinquire : store.inquire occasion.execution ⟨some ids, .object members⟩ =
      ⟨(store.engine.execute (.ofMembers members) occasion.execution rules).1, store,
        (store.engine.execute (.ofMembers members) occasion.execution rules).2⟩ :=
    Store.inquire_of_rules _ rfl hrules
  have hnil : ids = [] ↔ rules = [] := by
    rw [← List.length_eq_zero_iff, hnumbers.length_eq, List.length_eq_zero_iff]
  rw [hstore.engine_eq] at hinquire
  cases hexecute : engine.execute (.ofMembers members) occasion.execution rules with
  | mk result events =>
    rw [hexecute] at hinquire
    cases result with
    | ok outcome =>
      have hne : rules ≠ [] := by
        rintro rfl
        cases hexecute
      have houtcome := Engine.isOutcome_of_outcomeOf hne (congrArg Prod.fst hexecute)
      have hresults : List.Forall₂ (fun (r : RuleResult) id => r.ruleId = id)
          outcome.individualResults ids :=
        forall₂_of_common houtcome.individual hnumbers.flip fun _ _ _ hr hid =>
          hr.1.trans hid.2
      rw [← List.forall₂_map_left_iff, List.forall₂_eq_eq_eq] at hresults
      have hgets : Gets occasion request store (.success done outcome.toJson) events :=
        h.gets (by rw [hinquire]; rfl)
      exact ⟨hresults, houtcome, hgets, hgets.showsOutcome hresults⟩
    | error failure =>
      have hfailure := congrArg Prod.fst hexecute
      obtain rfl := Engine.events_of_execute hexecute
      refine ⟨?_, h.gets_problem hinquire⟩
      rcases eq_or_ne rules [] with rfl | hne
      · exact .inl ⟨hnil.2 rfl, (Except.error.inj hfailure).symm⟩
      · refine .inr ⟨mt hnil.1 hne, ?_⟩
        have hcompiles : ∀ rule ∈ rules, ∃ tree, engine.compile rule.rule = .ok tree := by
          intro rule hrule
          obtain ⟨id, hid⟩ := exists_of_forall₂ hnumbers.flip rule hrule
          exact hstore.compiles rule hid.1
        rcases Engine.execute_of_compiles hne hcompiles (.ofMembers members)
          occasion.execution with ⟨outcome, hok⟩ | ⟨text, herror⟩
        · cases hfailure.symm.trans hok
        · exact ⟨text, Except.error.inj (hfailure.symm.trans herror)⟩

/-- **Naming rules.** Whatever requests and operations a store was reached by, every inquiry whose
text is not too long can be made, with its numbers absent, `null` or listed, and all rules are
listed with their numbers, which fit 64 bits. An inquiry without numbers is answered as one that
names all rules as they are listed, the same events being recorded, but for the times. If an inquiry
lists numbers and its data is no object, it gets the problem of that, whatever the numbers are;
else, if some number is not that of a stored rule, it gets the problem of the first one, and nothing
is executed; else the rules of the numbers are executed, and the answer shows the outcome with one
result for each number, in the order of the numbers. Then there is no outcome just for want of
numbers or for an unknown operator. -/
theorem naming_rules {engine : Engine} {store : Store} (h : Store.Reachable engine store) :
    (∀ (naming : Inquiry.Naming) text data, Inquiry.IsText text data →
      (∀ ids, naming.ruleIds = some ids → ∀ id ∈ ids, id < wordBound) →
      (naming.body text).utf8ByteSize ≤ Request.bodyLimit →
        Inquires (inquiring (naming.body text)) naming.ruleIds data) ∧
    (∀ occasion request, request.method = "GET" → request.path = "/api/rules" →
      (ruleSite.service occasion request store).response.status = 200 ∧
      (ruleSite.service occasion request store).response.body =
        (Response.success done (.array (store.list.map StoredRule.toJson))).body ∧
      (ruleSite.service occasion request store).response.body.ShowsRules store.list) ∧
    (∀ rule ∈ store.list, rule.id < wordBound) ∧
    (∀ all named data occasion occasion', Inquires all none data →
      Inquires named (some (store.list.map (·.id))) data →
      all.id occasion.freshId = named.id occasion'.freshId →
        (ruleSite.service occasion all store).untimed =
          (ruleSite.service occasion' named store).untimed) ∧
    ∀ occasion request ids data, Inquires request (some ids) data →
      ((∀ members, data ≠ .object members) →
        Gets occasion request store (Problem.invalid (Record.refusal data)).response [] ∧
        Declined occasion request store 400 "VALIDATION_ERROR"
          ("参数验证失败: " ++ ("数据记录必须是 JSON 对象，实际为 " ++ data.kind))) ∧
      ∀ members, data = .object members →
        (∀ id, IsFirst (fun id => ¬ store.Has id) ids id →
          Gets occasion request store (Problem.notFound id).response [] ∧
          Declined occasion request store 404 "RULE_NOT_FOUND" ("规则不存在: " ++ toString id)) ∧
        ((∀ id ∈ ids, store.Has id) →
          ∃ rules, List.Forall₂ (fun id rule => rule ∈ store.list ∧ rule.id = id) ids rules ∧
            match engine.execute (.ofMembers members) occasion.execution rules with
            | (.ok outcome, events) => outcome.individualResults.map (·.ruleId) = ids ∧
                engine.IsOutcome (.ofMembers members) rules outcome ∧
                Gets occasion request store (.success done outcome.toJson) events ∧
                (ruleSite.service occasion request store).response.body.ShowsOutcome outcome ids
            | (.error failure, _) => (ids = [] ∧ failure = .parse .emptyRuleSet ∨
                  ids ≠ [] ∧ ∃ text, failure = .evaluation (.unknownOperator text)) ∧
                Gets occasion request store (Problem.ofFailure failure).response []) := by
  refine ⟨fun naming text data htext hids => inquires_inquiring hids htext,
    fun occasion request hmethod hpath => ?_, h.ordered.id_lt,
    fun all named data occasion occasion' hall hnamed =>
      untimed_service_eq h.ordered hall hnamed,
    fun occasion request ids data hrequest => ⟨fun hdata => ?_, ?_⟩⟩
  · have hasks : Asks occasion request store request.method request.path done
        ⟨.ok (.array (store.list.map StoredRule.toJson)), store, []⟩ := by
      rw [hmethod, hpath]
      exact .list
    obtain ⟨-, hstatus, hbody⟩ := hasks.answer_service
    exact ⟨hstatus, hbody, hbody ▸ Response.showsRules_success done store.list⟩
  · have hgets : Gets occasion request store (Problem.invalid (Record.refusal data)).response [] :=
      hrequest.gets_problem (Store.inquire_of_ne_object hdata occasion.execution)
    exact ⟨hgets, hgets.declined⟩
  · rintro members rfl
    refine ⟨fun id hfirst => ?_, hrequest.gets_executed h.sound occasion⟩
    have hgets : Gets occasion request store (Problem.notFound id).response [] :=
      hrequest.gets_problem
        (Store.inquire_of_missing occasion.execution rfl (Store.resolve_of_missing hfirst))
    exact ⟨hgets, hgets.declined⟩

/-- The theorem at a store of one rule: its number is listed twice, and then with another one. -/
theorem naming_rules_of_one :
    let store : Store := ⟨.standard, 2, [⟨1, "adult", "age >= 18", ""⟩]⟩
    let occasion : Occasion := ⟨"", "", ⟨7000⟩, ⟨9000⟩⟩
    let asking (ids : List Nat) := inquiring (Inquiry.Naming.body (.listed ids) ['\x7b', '\x7d'])
    let outcome : Outcome :=
      ⟨false, [⟨1, "age >= 18", false⟩, ⟨1, "age >= 18", false⟩], 7, []⟩
    Store.Reachable .standard store ∧
    Gets occasion (asking [1, 1]) store (.success done outcome.toJson)
      (Metric.ruleEvaluation false 2 occasion.execution.seconds) ∧
    (ruleSite.service occasion (asking [1, 1]) store).response.body.ShowsOutcome outcome [1, 1] ∧
    Gets occasion (asking [1, 7]) store (Problem.notFound 7).response [] ∧
    Declined occasion (asking [1, 7]) store 404 "RULE_NOT_FOUND" "规则不存在: 7" := by
  intro store occasion asking outcome
  have hstore :
      ((Store.empty .standard).perform (.create "" "adult" "age >= 18")).store = store := by
    decide +kernel
  have hreachable : Store.Reachable .standard store :=
    hstore ▸ .perform .empty ⟨.original, .create "" "adult" "age >= 18"⟩
  obtain ⟨hinquires, -, -, -, hgets⟩ := naming_rules hreachable
  have hasking (ids : List Nat) (hids : ∀ id ∈ ids, id < wordBound)
      (hlength : ((Inquiry.Naming.listed ids).body ['\x7b', '\x7d']).utf8ByteSize ≤
        Request.bodyLimit) : Inquires (asking ids) (some ids) (.object []) :=
    hinquires (.listed ids) _ _ ⟨by decide, rfl⟩ (fun _ h => Option.some.inj h ▸ hids) hlength
  obtain ⟨rules, hrules, hexecuted⟩ :=
    ((hgets occasion _ _ _ (hasking [1, 1] (by decide) (by decide +kernel))).2 [] rfl).2
      (by simp [Store.Has, store])
  have hrules : rules = [⟨1, "adult", "age >= 18", ""⟩, ⟨1, "adult", "age >= 18", ""⟩] := by
    simpa [List.forall₂_cons_left_iff, Store.list, store] using hrules
  have hexecute : Engine.standard.execute (.ofMembers []) occasion.execution rules =
      (.ok outcome, Metric.ruleEvaluation false 2 occasion.execution.seconds) := by
    rw [hrules]
    decide +kernel
  rw [hexecute] at hexecuted
  refine ⟨hreachable, hexecuted.2.2.1, hexecuted.2.2.2, ?_⟩
  exact ((hgets occasion _ _ _ (hasking [1, 7] (by decide) (by decide +kernel))).2 [] rfl).1 7
    ⟨[1], [], rfl, by simp [Store.Has, store], by simp [Store.Has, store]⟩

end RuleSite

end Criteria
