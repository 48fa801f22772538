import Criteria.Proofs.SiteAnswer
import Criteria.Proofs.WrittenText

/-!
# Creating a rule and compiling it

A rule that is submitted under a name passes other checks than one that is only compiled: of the
lengths of both texts, of whether they are blank, and the store compiles it again. This file shows
that, for an acceptable name, the outcome is the same: the rule is stored just if it compiles, and
refused for the same reason if it does not. So nothing is ever stored that would not be stored
again.

## Main definitions

* `Submission.IsName`: the acceptable names.
* `Store.Admitted`: the store holds acceptable rules only.
* `RuleSite.Submits`, `RuleSite.Presents`: the requests to store a rule, and to compile it.

## Main results

* `Token.scan_of_all_isBlank`: a blank text has no tokens.
* `Store.result_submit`: what comes of a submission, from what comes of compiling its rule.
* `RuleSite.creating_agrees_with_compiling`: the two requests.
-/

namespace Criteria

/-! ### Blank rules -/

namespace Token

theorem isSymbolChar_of_isBlank {c : Char} (h : Text.isBlank c = true) :
    isSymbolChar c = false := by
  simp only [isSymbolChar, Bool.or_eq_false_iff, decide_eq_false_iff_not]
  refine ⟨⟨?_, ?_⟩, ?_⟩ <;> · rintro rfl; exact absurd h (by decide)

theorem toNat_of_isAlphanum {c : Char} (h : c.isAlphanum = true) :
    48 ≤ c.toNat ∧ c.toNat ≤ 122 := by
  change (((decide ('A'.val ≤ c.val ∧ c.val ≤ 'Z'.val)) ||
    (decide ('a'.val ≤ c.val) && decide (c.val ≤ 'z'.val))) ||
      (decide ('0'.val ≤ c.val) && decide (c.val ≤ '9'.val))) = true at h
  simp only [Bool.or_eq_true, Bool.and_eq_true, decide_eq_true_eq, UInt32.le_iff_toNat_le] at h
  rcases h with (h | h) | h <;>
    exact ⟨Nat.le_trans (by decide) h.1, Nat.le_trans h.2 (by decide)⟩

theorem isWordChar_of_isBlank {c : Char} (h : Text.isBlank c = true) : isWordChar c = false := by
  rw [← Bool.not_eq_true, isWordChar, Bool.or_eq_true, decide_eq_true_eq]
  rintro (hword | rfl)
  · obtain ⟨hge, hle⟩ := toNat_of_isAlphanum hword
    simp only [Text.isBlank, Bool.or_eq_true, Bool.and_eq_true, decide_eq_true_eq, beq_iff_eq] at h
    omega
  · exact absurd h (by decide)

/-- A blank text has no tokens. -/
theorem scan_of_all_isBlank {s : List Char} (h : s.all Text.isBlank = true) : scan s = [] := by
  induction s with
  | nil => exact scan_nil
  | cons c s ih =>
    obtain ⟨hc, hs⟩ := Bool.and_eq_true_iff.1 h
    rw [scan_cons_of_skipped _ _ _ (isSymbolChar_of_isBlank hc) (isWordChar_of_isBlank hc), ih hs]
    all_goals
      rintro rfl
      exact absurd hc (by decide)

end Token

/-- A blank rule does not compile. -/
theorem Engine.compile_of_isAllBlank (engine : Engine) {rule : String}
    (h : Text.isAllBlank rule = true) : ∃ cause, engine.compile rule = .error cause := by
  rw [compile, Dialect.compile, Dialect.parse, Token.ofString, Token.scan_of_all_isBlank h]
  cases engine.dialect.maxDepth with
  | zero => exact ⟨_, rfl⟩
  | succ depth => exact ⟨_, rfl⟩

/-! ### Lengths -/

namespace Submission

/-- A name under which a rule may be stored. -/
structure IsName (name : String) : Prop where
  pos : 1 ≤ name.length
  le : name.length ≤ 100
  /-- The name is not blank. -/
  ne : Text.isAllBlank name = false

theorem nameProblem?_eq_none_iff {name : String} :
    nameProblem? name = none ↔ 1 ≤ name.length ∧ name.length ≤ 100 := by
  simp [nameProblem?]

theorem ruleProblem?_eq_none_iff {rule : String} :
    ruleProblem? rule = none ↔ 1 ≤ rule.length ∧ rule.length ≤ 4096 := by
  simp [ruleProblem?]

theorem refusal?_eq_none_iff {submission : Submission} : submission.refusal? = none ↔
    nameProblem? submission.name = none ∧ ruleProblem? submission.rule = none := by
  rw [refusal?]
  cases nameProblem? submission.name <;> cases ruleProblem? submission.rule <;> simp

/-- With a name that is not too long, a submission is refused as its rule is. -/
theorem refusal?_of_nameProblem? (submission : Submission)
    (h : nameProblem? submission.name = none) :
    submission.refusal? = ruleRefusal? submission.rule := by
  rw [refusal?, h, ruleRefusal?]
  cases ruleProblem? submission.rule <;> rfl

end Submission

/-! ### As JSON -/

namespace Submission

/-- A name and a rule as JSON. -/
def toJson (submission : Submission) : Json :=
  .object [("name", .text submission.name), ("ruleString", .text submission.rule)]

/-- A rule without a name as JSON. -/
def ruleToJson (rule : String) : Json := .object [("ruleString", .text rule)]

open Json in
/-- A written submission is read as itself. -/
theorem run_reader (submission : Submission) :
    reader.run submission.toJson.print = .ok submission := by
  refine run_of_takes ?_
  rw [Json.print, String.toList_ofList]
  refine takes_record (takes_fieldsOf
    (takes_memberOf (by rfl) rfl (takes_fill (takes_text ..) _))
    (takes_fieldsTail_cons (takes_memberOf (by rfl) rfl (takes_fill (takes_text ..) _))
      takes_fieldsTail_nil)) ?_
  rfl

open Json in
/-- A written rule is read as itself. -/
theorem run_ruleReader (rule : String) : ruleReader.run (ruleToJson rule).print = .ok rule := by
  refine run_of_takes ?_
  rw [Json.print, String.toList_ofList]
  refine takes_record (takes_fieldsOf
    (takes_memberOf (by rfl) rfl (takes_fill (takes_text ..) _)) takes_fieldsTail_nil) ?_
  rfl

end Submission

/-! ### The store -/

namespace Store

variable (store : Store) (now : String) {name rule : String}

/-- Under an acceptable name, a rule that is not blank is stored just if it compiles, and refused
for the same reason if it does not. -/
theorem result_submit (hname : Submission.IsName name) (hrule : Text.isAllBlank rule = false) :
    (store.submit now ⟨name, rule⟩).result =
      (store.compile rule).map fun _ => store.next now name rule := by
  have hlength := Submission.nameProblem?_eq_none_iff.2 ⟨hname.pos, hname.le⟩
  rw [submit, Submission.refusal?_of_nameProblem? ⟨name, rule⟩ hlength, compile]
  cases Submission.ruleRefusal? rule with
  | some failure => rfl
  | none =>
    simp only [create, refusal?, hname.ne, hrule]
    cases store.engine.compile rule <;> rfl

theorem compile_of_isAllBlank (h : Text.isAllBlank rule = true) :
    ∃ failure, store.compile rule = .error failure := by
  obtain ⟨cause, hcause⟩ := store.engine.compile_of_isAllBlank h
  rw [compile, hcause]
  cases Submission.ruleRefusal? rule with
  | some failure => exact ⟨failure, rfl⟩
  | none => exact ⟨.parse cause, rfl⟩

/-- A rule that compiles is not blank. -/
theorem isAllBlank_of_compile {compilation : Compilation}
    (h : store.compile rule = .ok compilation) : Text.isAllBlank rule = false := by
  rw [← Bool.not_eq_true]
  intro hblank
  obtain ⟨failure, hfailure⟩ := store.compile_of_isAllBlank hblank
  cases h.symm.trans hfailure

/-- A rule is stored just if its name is acceptable and it compiles. -/
theorem exists_submit_iff : (∃ stored, (store.submit now ⟨name, rule⟩).result = .ok stored) ↔
    Submission.IsName name ∧ ∃ compilation, store.compile rule = .ok compilation := by
  constructor
  · rintro ⟨stored, h⟩
    rcases store.submit_cases now ⟨name, rule⟩ with ⟨reason, -, hsubmit⟩ | ⟨hlengths, hsubmit⟩
    · rw [hsubmit] at h
      cases h
    · rcases store.create_cases now name rule with ⟨haccepts, -⟩ | ⟨_, _, -, hcreate⟩
      · obtain ⟨hpos, hle⟩ := Submission.nameProblem?_eq_none_iff.1
          (Submission.refusal?_eq_none_iff.1 hlengths).1
        have hname : Submission.IsName name := ⟨hpos, hle, haccepts.name_ne⟩
        rw [store.result_submit now hname haccepts.rule_ne] at h
        obtain ⟨compilation, hcompile, -⟩ := map_eq_ok_iff.1 h
        exact ⟨hname, compilation, hcompile⟩
      · rw [hsubmit, hcreate] at h
        cases h
  · rintro ⟨hname, compilation, hcompile⟩
    rw [store.result_submit now hname (store.isAllBlank_of_compile hcompile), hcompile]
    exact ⟨_, rfl⟩

/-- A blank rule is not acceptable under any name. -/
theorem submit_of_isAllBlank (name : String) (h : Text.isAllBlank rule = true) :
    ∃ reason, (store.submit now ⟨name, rule⟩).result = .error (.invalid reason) := by
  rcases store.submit_cases now ⟨name, rule⟩ with ⟨reason, -, hsubmit⟩ | ⟨-, hsubmit⟩
  · exact ⟨reason, by rw [hsubmit]⟩
  · rcases store.create_cases now name rule with ⟨haccepts, -⟩ | ⟨_, _, hrefuses, hcreate⟩
    · exact absurd (h.symm.trans haccepts.rule_ne) (by decide)
    · rw [hsubmit, hcreate]
      cases hrefuses with
      | blankName _ => exact ⟨_, rfl⟩
      | blankRule _ _ => exact ⟨_, rfl⟩
      | parse _ hrule _ => exact absurd (h.symm.trans hrule) (by decide)

/-! ### What is stored -/

/-- A rule that a request may store: the lengths of its name and its text are acceptable, its name
is not blank, and it compiles. -/
structure Admissible (engine : Engine) (rule : StoredRule) : Prop where
  isName : Submission.IsName rule.name
  pos : 1 ≤ rule.rule.length
  le : rule.rule.length ≤ 4096
  compiles : ∃ tree, engine.compile rule.rule = .ok tree

/-- The store of an engine holds no other rules. -/
structure Admitted (engine : Engine) (store : Store) : Prop where
  engine_eq : store.engine = engine
  admissible : ∀ rule ∈ store.list, Admissible engine rule

theorem Admitted.empty (engine : Engine) : Admitted engine (empty engine) where
  engine_eq := rfl
  admissible := by simp [list, Store.empty]

end Store

/-! ### The two requests -/

namespace RuleSite

variable {occasion : Occasion} {request : Request} {store : Store} {name rule : String}

/-- A request submits a rule under a name. -/
structure Submits (request : Request) (name rule : String) : Prop where
  method_eq : request.method = "POST"
  path_eq : request.path = "/api/rules"
  payload_eq : request.payload Submission.reader = .ok ⟨name, rule⟩

/-- A request presents a rule to be compiled. -/
structure Presents (request : Request) (rule : String) : Prop where
  method_eq : request.method = "POST"
  path_eq : request.path = "/api/rules/compile"
  payload_eq : request.payload Submission.ruleReader = .ok rule

/-- A request that sends JSON, as it is written. -/
def posting (path : String) (content : Json) : Request :=
  ⟨"POST", path, [("content-type", .ofString "application/json")], content.print⟩

theorem path_posting {path : String}
    (h : Request.pathOf (path.toList.takeWhile fun c => c ≠ '?' ∧ c ≠ '#') = path.toList)
    (content : Json) : (posting path content).path = path := by
  rw [Request.path, posting, h, String.ofList_toList]

/-- What a request whose body is JSON holds, if it says so and is not too long. -/
theorem payload_of_json {α : Type} {reader : Json.Reader α} {value : α} {text : String}
    (hheader : request.headers.first? "content-type" = some (.ofString "application/json"))
    (hbody : request.body = text.toUTF8) (hlength : text.utf8ByteSize ≤ Request.bodyLimit)
    (h : reader.run text = .ok value) : request.payload reader = .ok value := by
  have hnames : MediaType.namesJson (.ofString "application/json") = true := by decide +kernel
  have hsize : ¬ Request.bodyLimit < request.body.size := by
    rw [hbody]
    exact Nat.not_lt.2 hlength
  rw [Request.payload, hheader, Option.any_some, hnames, if_neg (by decide), if_neg hsize,
    Request.text_of_toUTF8 hbody]
  exact mapError_eq_ok_iff.2 h

/-- What a request that sends JSON holds, if it is not too long. -/
theorem payload_posting {α : Type} {reader : Json.Reader α} {content : Json} {value : α}
    (hlength : content.print.utf8ByteSize ≤ Request.bodyLimit)
    (h : reader.run content.print = .ok value) (path : String) :
    (posting path content).payload reader = .ok value :=
  payload_of_json rfl rfl hlength h

/-- Every name and every rule can be submitted. -/
theorem submits_posting {submission : Submission}
    (h : submission.toJson.print.utf8ByteSize ≤ Request.bodyLimit) :
    Submits (posting "/api/rules" submission.toJson) submission.name submission.rule where
  method_eq := rfl
  path_eq := path_posting (by decide) _
  payload_eq := payload_posting h submission.run_reader _

/-- Every rule can be presented. -/
theorem presents_posting {rule : String}
    (h : (Submission.ruleToJson rule).print.utf8ByteSize ≤ Request.bodyLimit) :
    Presents (posting "/api/rules/compile" (Submission.ruleToJson rule)) rule where
  method_eq := rfl
  path_eq := path_posting (by decide) _
  payload_eq := payload_posting h (Submission.run_ruleReader rule) _

theorem Submits.asks (h : Submits request name rule) (occasion : Occasion) (store : Store) :
    Asks occasion request store request.method request.path "规则创建成功"
      ((store.submit occasion.now ⟨name, rule⟩).map StoredRule.toJson) := by
  rw [h.method_eq, h.path_eq]
  exact .create h.payload_eq

theorem Presents.asks (h : Presents request rule) (occasion : Occasion) (store : Store) :
    Asks occasion request store request.method request.path done
      ⟨(store.compile rule).map Compilation.toJson, store, []⟩ := by
  rw [h.method_eq, h.path_eq]
  exact .compile h.payload_eq

/-- A transaction is answered with success just if it succeeds. -/
theorem status_envelope_eq_iff {t : Transaction Json} {message : String} :
    (t.envelope message).response.status = 200 ↔ ∃ data, t.result = .ok data := by
  cases h : t.result with
  | ok data =>
    rw [Transaction.envelope_of_ok h]
    exact ⟨fun _ => ⟨data, rfl⟩, fun _ => rfl⟩
  | error failure => simpa using status_envelope_of_error h message

/-- A rule is created just if its name is acceptable and it compiles. -/
theorem Submits.status_eq_iff (h : Submits request name rule) (occasion : Occasion)
    (store : Store) : (ruleSite.service occasion request store).response.status = 200 ↔
      Submission.IsName name ∧ ∃ compilation, store.compile rule = .ok compilation := by
  rw [(h.asks occasion store).answer_service.2.1, status_envelope_eq_iff,
    ← store.exists_submit_iff occasion.now, Transaction.map]
  simp [map_eq_ok_iff]

/-- A rule is compiled just if it compiles. -/
theorem Presents.status_eq_iff (h : Presents request rule) (occasion : Occasion)
    (store : Store) : (ruleSite.service occasion request store).response.status = 200 ↔
      ∃ compilation, store.compile rule = .ok compilation := by
  rw [(h.asks occasion store).answer_service.2.1, status_envelope_eq_iff]
  simp [map_eq_ok_iff]

/-- A rule that is not blank is refused in the same way under an acceptable name. -/
theorem exists_problem_of_refused {create compile : Request} (hcreate : Submits create name rule)
    (hcompile : Presents compile rule) (occasion occasion' : Occasion) (store : Store)
    (hname : Submission.IsName name) (hrule : Text.isAllBlank rule = false)
    (hstatus : (ruleSite.service occasion' compile store).response.status ≠ 200) :
    ∃ problem : Problem,
      (ruleSite.service occasion create store).response.status = problem.status ∧
      (ruleSite.service occasion' compile store).response.status = problem.status ∧
      (ruleSite.service occasion create store).response.body = problem.response.body ∧
      (ruleSite.service occasion' compile store).response.body = problem.response.body := by
  obtain ⟨-, hcreated, hcreatedBody⟩ := (hcreate.asks occasion store).answer_service
  obtain ⟨-, hcompiled, hcompiledBody⟩ := (hcompile.asks occasion' store).answer_service
  have hsubmit := store.result_submit occasion.now hname hrule
  cases hresult : store.compile rule with
  | ok compilation => exact absurd ((hcompile.status_eq_iff _ _).2 ⟨compilation, hresult⟩) hstatus
  | error failure =>
    rw [hresult] at hsubmit
    rw [Transaction.envelope_of_error (map_eq_error_iff.2 hsubmit)] at hcreated hcreatedBody
    rw [Transaction.envelope_of_error (map_eq_error_iff.2 hresult)] at hcompiled hcompiledBody
    exact ⟨.ofFailure failure, hcreated, hcompiled, hcreatedBody, hcompiledBody⟩

theorem Submits.status_of_isAllBlank (h : Submits request name rule)
    (hrule : Text.isAllBlank rule = true) (occasion : Occasion) (store : Store) :
    (ruleSite.service occasion request store).response.status = 400 := by
  obtain ⟨reason, hresult⟩ := store.submit_of_isAllBlank occasion.now name hrule
  rw [(h.asks occasion store).answer_service.2.1,
    Transaction.envelope_of_error (map_eq_error_iff.2 hresult)]
  rfl

theorem Presents.status_of_isAllBlank (h : Presents request rule)
    (hrule : Text.isAllBlank rule = true) (occasion : Occasion) (store : Store) :
    (ruleSite.service occasion request store).response.status = 400 := by
  obtain ⟨failure, hresult⟩ := store.compile_of_isAllBlank hrule
  rw [(h.asks occasion store).answer_service.2.1,
    Transaction.envelope_of_error (map_eq_error_iff.2 hresult)]
  rcases Store.compile_eq_error hresult with ⟨cause, rfl⟩ | ⟨reason, rfl⟩ <;> rfl

/-- What a request stores is admissible. -/
theorem admissible_next {engine : Engine} {now : String} {submission : Submission}
    (hlengths : submission.refusal? = none)
    (haccepts : engine.Accepts submission.name submission.rule) :
    Store.Admissible engine (store.next now submission.name submission.rule) := by
  obtain ⟨hname, hrule⟩ := Submission.refusal?_eq_none_iff.1 hlengths
  obtain ⟨hnamePos, hnameLe⟩ := Submission.nameProblem?_eq_none_iff.1 hname
  obtain ⟨hpos, hle⟩ := Submission.ruleProblem?_eq_none_iff.1 hrule
  exact ⟨⟨hnamePos, hnameLe, haccepts.name_ne⟩, hpos, hle, haccepts.compiles⟩

/-- A request keeps a store admitted. -/
theorem admitted_service {engine : Engine} (occasion : Occasion) (request : Request)
    (h : Store.Admitted engine store) :
    Store.Admitted engine (ruleSite.service occasion request store).state := by
  obtain ⟨answer, hanswer, hstate, -, -⟩ := answer_service occasion request store
  rw [hstate]
  cases hanswer.effect with
  | created _ _ hlengths haccepts =>
    refine ⟨h.engine_eq, fun rule hrule => ?_⟩
    rcases Store.mem_of_mem_insert hrule with rfl | hrule
    · exact admissible_next hlengths (h.engine_eq ▸ haccepts)
    · exact h.admissible rule hrule
  | deleted =>
    exact ⟨h.engine_eq, fun rule hrule => h.admissible rule (List.mem_of_mem_filter hrule)⟩
  | kept hkept _ => exact hkept ▸ h

end RuleSite

end Criteria
