import Criteria.Proofs.RuleSet
import Criteria.Proofs.SiteAnswer

/-!
# The numbers that answers tell

An answer tells of rules by their numbers: in what it gives of a rule, and in what it gives of the
result of one. This file shows that the service tells of stored rules only.

## Main definitions

* `Json.Tells`, `Body.Tells`: a JSON value, or a body, tells of a number.
* `Store.Has`: a number is that of a stored rule.

## Main results

* `Expr.not_tells_toJson`: a tree tells of no rule, whatever it holds.
* `RuleSite.Answer.has_of_tells`: an answer tells of stored rules only.
-/

namespace Criteria

/-! ### What a JSON value tells -/

/-- A JSON value tells of a number: it has a member for the number of a rule that holds it, however
deep. -/
inductive Json.Tells (id : Nat) : Json → Prop
  | here {name : String} {members : List (String × Json)} (hname : name = "id" ∨ name = "ruleId")
      (h : (name, .nat id) ∈ members) : Tells id (.object members)
  | member {name : String} {value : Json} {members : List (String × Json)}
      (h : (name, value) ∈ members) (hvalue : Tells id value) : Tells id (.object members)
  | item {value : Json} {items : List Json} (h : value ∈ items) (hvalue : Tells id value) :
      Tells id (.array items)

namespace Json

variable {id : Nat}

@[simp] theorem nat_inj {m n : Nat} : nat m = nat n ↔ m = n :=
  ⟨fun h => Int.ofNat.inj (Number.integer.inj (number.inj h)), fun h => h ▸ rfl⟩

@[simp] theorem text_ne_nat (s : String) (n : Nat) : text s ≠ nat n := by
  simp [nat, int]

@[simp] theorem boolean_ne_nat (b : Bool) (n : Nat) : boolean b ≠ nat n := by
  simp [nat, int]

@[simp] theorem not_tells_null : ¬ Tells id null := nofun

@[simp] theorem not_tells_boolean (b : Bool) : ¬ Tells id (boolean b) := nofun

@[simp] theorem not_tells_number (n : Number) : ¬ Tells id (number n) := nofun

@[simp] theorem not_tells_text (s : String) : ¬ Tells id (text s) := nofun

@[simp] theorem not_tells_nat (n : Nat) : ¬ Tells id (nat n) := nofun

@[simp] theorem tells_array_iff {items : List Json} :
    Tells id (array items) ↔ ∃ value ∈ items, Tells id value := by
  constructor
  · rintro (_ | _ | ⟨h, hvalue⟩)
    exact ⟨_, h, hvalue⟩
  · rintro ⟨value, h, hvalue⟩
    exact .item h hvalue

@[simp] theorem not_tells_object_nil : ¬ Tells id (object []) := by
  rintro (⟨-, h⟩ | ⟨h, -⟩) <;> exact List.not_mem_nil h

@[simp] theorem tells_object_cons_iff {name : String} {value : Json}
    {members : List (String × Json)} : Tells id (object ((name, value) :: members)) ↔
      ((name = "id" ∨ name = "ruleId") ∧ value = nat id) ∨ Tells id value ∨
        Tells id (object members) := by
  constructor
  · rintro (⟨hname, h⟩ | ⟨h, hvalue⟩)
    · rcases List.mem_cons.1 h with heq | h
      · obtain ⟨rfl, rfl⟩ := Prod.mk.inj heq
        exact .inl ⟨hname, rfl⟩
      · exact .inr (.inr (.here hname h))
    · rcases List.mem_cons.1 h with heq | h
      · obtain ⟨rfl, rfl⟩ := Prod.mk.inj heq
        exact .inr (.inl hvalue)
      · exact .inr (.inr (.member h hvalue))
  · rintro (⟨hname, rfl⟩ | hvalue | (⟨hname, h⟩ | ⟨h, hvalue⟩))
    · exact .here hname List.mem_cons_self
    · exact .member List.mem_cons_self hvalue
    · exact .here hname (List.mem_cons_of_mem _ h)
    · exact .member (List.mem_cons_of_mem _ h) hvalue

end Json

/-! ### What is told of rules -/

section

variable {id : Nat}

@[simp] theorem StoredRule.tells_toJson {rule : StoredRule} :
    rule.toJson.Tells id ↔ rule.id = id := by
  simp [toJson]

@[simp] theorem RuleResult.tells_toJson {result : RuleResult} :
    result.toJson.Tells id ↔ result.ruleId = id := by
  simp [toJson]

theorem Json.not_tells_ofDouble (x : Double) : ¬ (Json.ofDouble x).Tells id := by
  cases x <;> exact nofun

theorem Literal.not_tells_toJson (literal : Literal) : ¬ literal.toJson.Tells id := by
  cases literal with
  | text s => exact Json.not_tells_text s
  | number x =>
    rw [toJson]
    cases x.toInt? with
    | none => exact Json.not_tells_ofDouble x
    | some n =>
      dsimp only
      split_ifs
      · exact Json.not_tells_number _
      · exact Json.not_tells_ofDouble x

/-- A tree tells of no rule. -/
theorem Expr.not_tells_toJson (e : Expr) : ¬ e.toJson.Tells id := by
  induction e with
  | leaf c => simp [toJson, c.literal.not_tells_toJson]
  | node k left right ihleft ihright => simp [toJson, ihleft, ihright]

theorem Compilation.not_tells_toJson (compilation : Compilation) :
    ¬ compilation.toJson.Tells id := by
  simp [toJson, compilation.tree.not_tells_toJson]

/-- An outcome tells of the rules that were executed. -/
theorem Outcome.tells_toJson {outcome : Outcome} :
    outcome.toJson.Tells id ↔ ∃ result ∈ outcome.individualResults, result.ruleId = id := by
  rw [toJson]
  cases outcome.trace.isEmpty <;> simp

end

/-! ### What an answer tells -/

/-- A body tells of a number. -/
def Body.Tells (body : Body) (id : Nat) : Prop := ∃ content, body = .json content ∧ content.Tells id

@[simp] theorem Body.tells_json {content : Json} {id : Nat} :
    (Body.json content).Tells id ↔ content.Tells id := by
  simp [Tells]

/-- The envelope of a success tells what its data tells. -/
theorem tells_success {message : String} {data : Json} {id : Nat} :
    (Response.success message data).body.Tells id ↔ data.Tells id := by
  simp [Response.success, Response.ofJson]

/-- A problem tells of no rule. -/
theorem Problem.not_tells_response (problem : Problem) (id : Nat) :
    ¬ problem.response.body.Tells id := by
  simp [response, Response.ofJson]

namespace Store

variable {store : Store} {id : Nat}

/-- The number is that of a stored rule. -/
def Has (store : Store) (id : Nat) : Prop := ∃ rule ∈ store.rules, rule.id = id

theorem has_of_submit {now : String} {submission : Submission} {rule : StoredRule}
    (h : (store.submit now submission).result = .ok rule) :
    (store.submit now submission).store.Has rule.id := by
  rcases store.submit_cases now submission with ⟨reason, -, hsubmit⟩ | ⟨-, hsubmit⟩
  · rw [hsubmit] at h
    cases h
  · rcases store.create_cases now submission.name submission.rule with
      ⟨-, hcreate⟩ | ⟨failure, events, -, hcreate⟩
    · rw [hsubmit, hcreate] at h ⊢
      obtain rfl := Except.ok.inj h
      exact ⟨_, mem_insert_self _ _, rfl⟩
    · rw [hsubmit, hcreate] at h
      cases h

theorem has_of_delete {ruleId : Nat} {rule : StoredRule}
    (h : (store.delete ruleId).result = .ok rule) : store.Has rule.id := by
  rcases store.delete_cases ruleId with ⟨removed, hfind, hdelete⟩ | ⟨-, hdelete⟩
  · rw [hdelete] at h
    obtain rfl := Except.ok.inj h
    exact ⟨removed, List.mem_of_find?_eq_some hfind, rfl⟩
  · rw [hdelete] at h
    cases h

/-- The rules whose results an inquiry gives are stored. -/
theorem has_of_inquire {elapsed : Elapsed} {inquiry : Inquiry} {outcome : Outcome}
    (h : (store.inquire elapsed inquiry).result = .ok outcome) {result : RuleResult}
    (hresult : result ∈ outcome.individualResults) : store.Has result.ruleId := by
  rcases store.inquire_cases elapsed inquiry with
    ⟨_, -, heq⟩ | ⟨_, _, -, -, heq⟩ | ⟨record, rules, -, hrules, heq⟩
  · rw [heq] at h
    cases h
  · rw [heq] at h
    cases h
  · rw [heq] at h
    have hne : rules ≠ [] := by
      rintro rfl
      cases h
    have hindividual := (Engine.isOutcome_of_outcomeOf hne h).individual.flip
    obtain ⟨rule, hrule, hid, -⟩ := exists_mem_of_forall₂ hindividual result hresult
    exact ⟨rule, mem_of_rulesFor hrules rule hrule, hid.symm⟩

end Store

namespace RuleSite

section

variable {occasion : Occasion} {request : Request} {store : Store} {method path message : String}
  {t : Transaction Json} {exchange : Exchange Store} {id : Nat}

/-- What a transaction gives tells of rules that were stored or are then. -/
theorem Asks.has_of_tells (h : Asks occasion request store method path message t) {data : Json}
    (hresult : t.result = .ok data) (htells : data.Tells id) : store.Has id ∨ t.store.Has id := by
  cases h with
  | create =>
    obtain ⟨rule, hrule, rfl⟩ := map_eq_ok_iff.1 hresult
    obtain rfl := StoredRule.tells_toJson.1 htells
    exact .inr (Store.has_of_submit hrule)
  | list =>
    obtain rfl := Except.ok.inj hresult
    exact .inl (by simpa [Store.Has, Store.list] using htells)
  | get =>
    obtain ⟨rule, hrule, rfl⟩ := map_eq_ok_iff.1 hresult
    have hmem := List.mem_of_find?_eq_some (Store.get_eq_ok_iff.1 hrule)
    exact .inl ⟨rule, hmem, StoredRule.tells_toJson.1 htells⟩
  | delete =>
    obtain ⟨rule, hrule, rfl⟩ := map_eq_ok_iff.1 hresult
    obtain rfl := StoredRule.tells_toJson.1 htells
    exact .inl (Store.has_of_delete hrule)
  | compile =>
    obtain ⟨compilation, -, rfl⟩ := map_eq_ok_iff.1 hresult
    exact absurd htells compilation.not_tells_toJson
  | evaluate =>
    obtain ⟨outcome, houtcome, rfl⟩ := map_eq_ok_iff.1 hresult
    obtain ⟨result, hmem, rfl⟩ := Outcome.tells_toJson.1 htells
    exact .inl (Store.has_of_inquire houtcome hmem)

/-- An answer tells of rules that were stored or are then. -/
theorem Answer.has_of_tells (h : Answer occasion request store method path exchange)
    (htells : exchange.response.body.Tells id) : store.Has id ∨ exchange.state.Has id := by
  cases h with
  | @envelope _ _ message t h =>
    cases hresult : t.result with
    | ok data =>
      rw [Transaction.envelope_of_ok hresult] at htells ⊢
      exact h.has_of_tells hresult (tells_success.1 htells)
    | error failure =>
      rw [Transaction.envelope_of_error hresult] at htells
      exact absurd htells (Problem.not_tells_response _ id)
  | plain h =>
    obtain ⟨content, hbody, -⟩ := htells
    exact absurd hbody (h.body_ne_json content)
  | head =>
    obtain ⟨content, hbody, -⟩ := htells
    cases hbody

end

/-- What the service answers tells of rules that were stored or are then. -/
theorem has_of_tells_service (occasion : Occasion) (request : Request) (store : Store) {id : Nat}
    (h : (ruleSite.service occasion request store).response.body.Tells id) :
    store.Has id ∨ (ruleSite.service occasion request store).state.Has id := by
  obtain ⟨answer, hanswer, hstate, -, hbody⟩ := answer_service occasion request store
  rw [hbody] at h
  rw [hstate]
  exact hanswer.has_of_tells h

end RuleSite

end Criteria
