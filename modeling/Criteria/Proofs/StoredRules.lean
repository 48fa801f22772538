import Criteria.Proofs.RuleSet
import Criteria.Proofs.SiteAnswer
import Criteria.Proofs.Strictness

/-!
# Stored rules can be executed

A store keeps texts, not trees: they are compiled when they are stored, and again whenever they are
executed. This file shows that the second time does not fail. Every rule of a store compiles,
however the store was reached, so that executing stored rules fails for want of a truth value at
most; with a strict engine it does not fail at all, and no request is answered with the status for
it.

## Main definitions

* `Store.Sound`: the stores of an engine whose rules compile.
* `RuleSite.Mismatched`: the requests whose body is refused for its shape.

## Main results

* `Store.Sound.perform`, `Store.Sound.run`: operations keep a store sound.
* `RuleSite.status_eq_iff`: when a request to a sound store of a strict engine is answered 422.
* `Store.stored_rules_execute`: the rules of a store that was reached are executed.
-/

namespace Criteria

/-! ### Executing rules that compile -/

namespace Engine

variable {engine : Engine} {rules : List StoredRule}

/-- Rules that compile are executed, unless an operator is unknown. -/
theorem execute_of_compiles (hne : rules ≠ [])
    (hcompile : ∀ rule ∈ rules, ∃ tree, engine.compile rule.rule = .ok tree) (record : Record)
    (elapsed : Elapsed) :
    (∃ outcome, (engine.execute record elapsed rules).1 = .ok outcome) ∨
      ∃ text, (engine.execute record elapsed rules).1 =
        .error (.evaluation (.unknownOperator text)) := by
  rw [execute]
  cases h : engine.outcomeOf record elapsed rules with
  | ok outcome => exact .inl ⟨outcome, rfl⟩
  | error failure =>
    cases isFailure_of_outcomeOf hne h with
    | refused hfirst _ =>
      obtain ⟨tree, htree⟩ := hcompile _ hfirst.mem
      exact absurd htree (hfirst.holds tree)
    | undecided => exact .inr ⟨_, rfl⟩

/-- A rule that a strict engine compiles has a truth value for every record. -/
theorem exists_decides_of_strict (hstrict : engine.dialect.strict = true) {rule : String}
    {tree : Expr} (h : engine.compile rule = .ok tree) (record : Record) :
    ∃ result, engine.Decides record rule result := by
  obtain ⟨⟨strict, maxDepth⟩, tracing⟩ := engine
  obtain rfl : strict = true := hstrict
  obtain ⟨-, hknown⟩ :=
    (Dialect.screened_parseWithin maxDepth (Token.ofString rule)).eq_ok_iff.1 h
  obtain ⟨result, hresult⟩ := (Expr.exists_truth_iff record tree).2 hknown
  exact ⟨result, decides_iff.2 ⟨tree, h, hresult⟩⟩

/-- Rules that a strict engine compiles are executed. -/
theorem execute_of_strict (hstrict : engine.dialect.strict = true) (hne : rules ≠ [])
    (hcompile : ∀ rule ∈ rules, ∃ tree, engine.compile rule.rule = .ok tree) (record : Record)
    (elapsed : Elapsed) : ∃ outcome, (engine.execute record elapsed rules).1 = .ok outcome := by
  refine exists_outcome_of_decides hne (fun rule hrule => ?_) elapsed
  obtain ⟨tree, htree⟩ := hcompile rule hrule
  exact exists_decides_of_strict hstrict htree record

end Engine

/-! ### The invariant -/

namespace Store

/-- The store has an engine and holds nothing but rules that the engine compiles. -/
structure Sound (engine : Engine) (store : Store) : Prop where
  /-- The engine of the store. -/
  engine_eq : store.engine = engine
  /-- Every stored rule compiles. -/
  compiles : ∀ rule ∈ store.list, ∃ tree, engine.compile rule.rule = .ok tree

variable {engine : Engine} {store : Store}

theorem Sound.empty (engine : Engine) : Sound engine (empty engine) where
  engine_eq := rfl
  compiles := by simp [list, Store.empty]

/-- An operation keeps a store sound: what it adds was compiled before. -/
theorem Sound.perform (h : Sound engine store) (operation : Operation) :
    Sound engine (store.perform operation).store := by
  have hstep := store.step_perform operation
  generalize store.perform operation = t at hstep
  cases hstep with
  | created haccepts =>
    refine ⟨h.engine_eq, fun rule hrule => ?_⟩
    rcases mem_of_mem_insert hrule with rfl | hrule
    · exact h.engine_eq ▸ haccepts.compiles
    · exact h.compiles rule hrule
  | deleted =>
    exact ⟨h.engine_eq, fun rule hrule => h.compiles rule (List.mem_of_mem_filter hrule)⟩
  | _ => exact h

theorem Sound.run (h : Sound engine store) (calls : List Call) :
    Sound engine (store.run calls).2 :=
  run_induction (fun _ operation h => h.perform operation) h calls

/-- A request keeps a store sound. -/
theorem Sound.service (h : Sound engine store) (occasion : Occasion) (request : Request) :
    Sound engine (ruleSite.service occasion request store).state := by
  obtain ⟨operation, hoperation⟩ := RuleSite.exists_operation_service occasion request store
  rw [hoperation]
  exact h.perform operation

/-! ### What fails for want of a truth value -/

theorem get_ne_evaluation (store : Store) (id : Nat) (cause : EvalError) :
    store.get id ≠ .error (.evaluation cause) := by
  intro h
  cases (get_eq_error_iff.1 h).2

theorem delete_ne_evaluation (store : Store) (id : Nat) (cause : EvalError) :
    (store.delete id).result ≠ .error (.evaluation cause) := by
  intro h
  cases (delete_eq_error h).2

theorem submit_ne_evaluation (store : Store) (now : String) (submission : Submission)
    (cause : EvalError) : (store.submit now submission).result ≠ .error (.evaluation cause) := by
  intro h
  rcases submit_eq_error h with ⟨_, h⟩ | ⟨_, h⟩ <;> cases h

theorem compile_ne_evaluation (store : Store) (rule : String) (cause : EvalError) :
    store.compile rule ≠ .error (.evaluation cause) := by
  intro h
  rcases compile_eq_error h with ⟨_, h⟩ | ⟨_, h⟩ <;> cases h

/-- With a strict engine, an inquiry into a sound store fails for the data, for the rules that it
means, or for meaning none. -/
theorem Sound.inquire_ne_evaluation (h : Sound engine store)
    (hstrict : engine.dialect.strict = true) (elapsed : Elapsed) (inquiry : Inquiry)
    (cause : EvalError) : (store.inquire elapsed inquiry).result ≠ .error (.evaluation cause) := by
  rcases store.inquire_cases elapsed inquiry with
    ⟨failure, hread, heq⟩ | ⟨_, failure, -, hrules, heq⟩ | ⟨record, rules, -, hrules, heq⟩
  · obtain ⟨reason, -, rfl⟩ := mapError_eq_error_iff.1 hread
    simp [heq]
  · obtain ⟨id, rfl⟩ := rulesFor_eq_error hrules
    simp [heq]
  · rw [heq, h.engine_eq]
    rcases eq_or_ne rules [] with rfl | hne
    · simp [Engine.execute_nil]
    · obtain ⟨outcome, houtcome⟩ := Engine.execute_of_strict hstrict hne
        (fun rule hrule => h.compiles rule (mem_of_rulesFor hrules rule hrule)) record elapsed
      simp [houtcome]

end Store

/-! ### The status of an evaluation that fails -/

/-- Only a transaction that fails for want of a truth value is answered 422. -/
theorem Transaction.status_envelope_ne {t : Transaction Json}
    (h : ∀ cause, t.result ≠ .error (.evaluation cause)) (message : String) :
    (t.envelope message).response.status ≠ 422 := by
  cases hresult : t.result with
  | ok data =>
    rw [envelope_of_ok hresult]
    simp [Response.success, Response.ofJson]
  | error failure =>
    rw [envelope_of_error hresult]
    cases failure with
    | evaluation cause => exact absurd hresult (h cause)
    | _ => simp [Problem.ofFailure, Problem.response, Problem.status, Response.ofJson]

namespace RuleSite

/-- The body of a request is JSON, but of another shape than the handler for a method and a path
takes: the handler does not see the request. -/
inductive Mismatched (request : Request) : String → String → Prop
  | create (h : request.payload Submission.reader = .error .mismatched) :
      Mismatched request "POST" "/api/rules"
  | compile (h : request.payload Submission.ruleReader = .error .mismatched) :
      Mismatched request "POST" "/api/rules/compile"
  | evaluate (h : request.payload Inquiry.reader = .error .mismatched) :
      Mismatched request "POST" "/api/rules/evaluate"

section

variable {request : Request} {method path : String}

theorem Mismatched.method_eq (h : Mismatched request method path) : method = "POST" := by
  cases h <;> rfl

theorem mismatched_iff_unread :
    Mismatched request method path ↔ Unread request .mismatched method path := by
  constructor <;> rintro (h | h | h)
  · exact .create h
  · exact .compile h
  · exact .evaluate h
  · exact .create h
  · exact .compile h
  · exact .evaluate h

end

section

variable {engine : Engine} {occasion : Occasion} {request : Request} {store : Store}
  {method path : String}

/-- With a strict engine, no transaction that is asked for fails for want of a truth value. -/
theorem Asks.result_ne_evaluation {message : String} {t : Transaction Json}
    (h : Asks occasion request store method path message t) (hsound : store.Sound engine)
    (hstrict : engine.dialect.strict = true) (cause : EvalError) :
    t.result ≠ .error (.evaluation cause) := by
  intro hresult
  cases h with
  | create => exact store.submit_ne_evaluation _ _ cause (map_eq_error_iff.1 hresult)
  | list => cases hresult
  | get => exact store.get_ne_evaluation _ cause (map_eq_error_iff.1 hresult)
  | delete => exact store.delete_ne_evaluation _ cause (map_eq_error_iff.1 hresult)
  | compile => exact store.compile_ne_evaluation _ cause (map_eq_error_iff.1 hresult)
  | evaluate =>
    exact hsound.inquire_ne_evaluation hstrict _ _ cause (map_eq_error_iff.1 hresult)

/-- No request gets this answer but for the shape of its body, if the engine is strict. -/
theorem Answer.mismatched_of_status {exchange : Exchange Store}
    (h : Answer occasion request store method path exchange) (hsound : store.Sound engine)
    (hstrict : engine.dialect.strict = true) (hstatus : exchange.response.status = 422) :
    Mismatched request method path := by
  induction h with
  | envelope h =>
    exact absurd hstatus (Transaction.status_envelope_ne (h.result_ne_evaluation hsound hstrict) _)
  | plain h =>
    cases h with
    | @unread error h =>
      cases error with
      | mismatched => exact mismatched_iff_unread.2 h
      | _ => cases hstatus
    | _ => cases hstatus
  | head _ ih =>
    -- what answers `GET` reads no body
    exact absurd (ih hstatus).method_eq (by decide)

end

variable {engine : Engine} {store : Store}

/-- A body of another shape is refused, whatever is stored. -/
theorem Mismatched.status_service {request : Request}
    (h : Mismatched request request.method request.path) (occasion : Occasion) (store : Store) :
    (ruleSite.service occasion request store).response.status = 422 := by
  rw [Site.status_service, (mismatched_iff_unread.1 h).handle_eq]
  rfl

/-- With a strict engine, a request to a sound store is answered 422 just if its body is refused for
its shape. -/
theorem status_eq_iff (hsound : store.Sound engine) (hstrict : engine.dialect.strict = true)
    (occasion : Occasion) (request : Request) :
    (ruleSite.service occasion request store).response.status = 422 ↔
      Mismatched request request.method request.path := by
  refine ⟨fun hstatus => ?_, fun h => h.status_service occasion store⟩
  obtain ⟨exchange, hanswer, -, hexchange, -⟩ := answer_service occasion request store
  exact hanswer.mismatched_of_status hsound hstrict (hexchange ▸ hstatus)

end RuleSite

/-! ### Stores that are reached -/

/-- **Stored rules can be executed.** However a store is reached, all its rules compile. Executing
all of them fails for want of rules just if there are none, and else for an unknown operator at
most. With a strict engine, executing any of them, if not none, succeeds, and a request is answered
422 just if its body is refused before a handler sees it. -/
theorem Store.stored_rules_execute (engine : Engine) (calls : List Store.Call) :
    let store := ((Store.empty engine).run calls).2
    (∀ rule ∈ store.list, ∃ tree, engine.compile rule.rule = .ok tree) ∧
    (∀ record elapsed,
      ((engine.execute record elapsed store.list).1 = .error (.parse .emptyRuleSet) ↔
        store.isEmpty = true) ∧
      (store.isEmpty = false →
        (∃ outcome, (engine.execute record elapsed store.list).1 = .ok outcome) ∨
          ∃ text, (engine.execute record elapsed store.list).1 =
            .error (.evaluation (.unknownOperator text)))) ∧
    (engine.dialect.strict = true →
      (∀ record elapsed rules, rules ≠ [] → (∀ rule ∈ rules, rule ∈ store.list) →
        ∃ outcome, (engine.execute record elapsed rules).1 = .ok outcome) ∧
      ∀ requests, List.Forall₂
        (fun (request : Occasion × Request) exchange => exchange.response.status = 422 ↔
          RuleSite.Mismatched request.2 request.2.method request.2.path)
        requests (ruleSite.service.run requests store).1) := by
  intro store
  have hsound : store.Sound engine := (Sound.empty engine).run calls
  have hempty : store.isEmpty = true ↔ store.list = [] := by
    simp [isEmpty, size, list]
  have hnonempty (record : Record) (elapsed : Elapsed) (hne : store.list ≠ []) :=
    Engine.execute_of_compiles hne hsound.compiles record elapsed
  refine ⟨hsound.compiles, fun record elapsed => ⟨⟨fun h => ?_, fun h => ?_⟩, fun h => ?_⟩,
    fun hstrict => ⟨fun record elapsed rules hne hrules => ?_, fun requests => ?_⟩⟩
  · by_contra hne
    rcases hnonempty record elapsed (mt hempty.2 hne) with ⟨_, hok⟩ | ⟨_, herror⟩
    · cases h.symm.trans hok
    · cases h.symm.trans herror
  · rw [hempty.1 h]
    exact Engine.execute_nil engine record elapsed
  · exact hnonempty record elapsed fun hnil => by simp [hempty.2 hnil] at h
  · exact Engine.execute_of_strict hstrict hne
      (fun rule hrule => hsound.compiles rule (hrules rule hrule)) record elapsed
  · exact (Service.run_induction (p := Sound engine) (fun occasion request _ h =>
      ⟨h.service occasion request, RuleSite.status_eq_iff h hstrict occasion request⟩)
      hsound requests).2

-- without the check of operators, this rule is stored, and no record decides it
example :
    let store := ((Store.empty .standard).run [⟨.original, .create "" "odd" "age <> 1"⟩]).2
    (Engine.standard.execute ⟨[]⟩ ⟨0⟩ store.list).1 =
      .error (.evaluation (.unknownOperator "<>")) := by decide +kernel

end Criteria
