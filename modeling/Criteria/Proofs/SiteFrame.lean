import Criteria.Proofs.ShownRules

/-!
# The stored rules change as it is answered

A client that sees the answers of the service knows what becomes of the stored rules: they change
with a rule that is answered as stored or deleted, just by this rule, and not otherwise. It also has
not seen the number of a rule before the rule is stored.

## Main definitions

* `RuleSite.Creates`, `RuleSite.Deletes`: what a request is answered for.
* `RuleSite.Change`: what a request changes.
* `RuleSite.Log`, `RuleSite.creations`: requests with their answers, and how many rules they stored.
* `RuleSite.Numbered`: the numbers of the rules and of the log are those of the rules that were
  stored.

## Main results

* `RuleSite.change_service`: a request changes nothing else.
* `RuleSite.Numbered.service`, `RuleSite.Numbered.run`: what requests keep.
* `RuleSite.rules_change_as_answered`: the service from the empty store on.
-/

namespace Criteria

namespace RuleSite

/-! ### What a request changes -/

section

variable (request : Request) (response : Response)

/-- A request is answered with a rule that it stored. -/
def Creates : Prop :=
  request.method = "POST" ∧ request.path = "/api/rules" ∧ response.status = 200

instance : Decidable (Creates request response) := inferInstanceAs (Decidable (_ ∧ _ ∧ _))

/-- A request is answered with a rule that it deleted. -/
def Deletes : Prop := request.method = "DELETE" ∧ response.status = 200

end

/-- What a request changes, and how it is answered. -/
inductive Change (request : Request) (store : Store) (exchange : Exchange Store) : Prop
  /-- The rule that is answered has the next number, and was put in its place. -/
  | created {now name rule : String} (hcreates : Creates request exchange.response)
      (hdata : exchange.response.body.member? "data" = some (store.next now name rule).toJson)
      (hstate : exchange.state = store.adding now name rule)
  /-- The rule that is answered has the number in the path, and is gone. -/
  | deleted {segment : String} {ruleId : Nat} {rule : StoredRule}
      (hdeletes : Deletes request exchange.response) (hpath : IsRulePath request.path segment)
      (hid : Path.natural? segment = some ruleId)
      (hfind : store.rules.find? (·.id = ruleId) = some rule)
      (hdata : exchange.response.body.member? "data" = some rule.toJson)
      (hstate : exchange.state = store.removing ruleId)
  | kept (hcreates : ¬ Creates request exchange.response)
      (hdeletes : ¬ Deletes request exchange.response) (hstate : exchange.state = store)

section

variable (occasion : Occasion) (request : Request) (store : Store)

/-- Every request to the service changes nothing else. -/
theorem change_service : Change request store (ruleSite.service occasion request store) := by
  obtain ⟨answer, hanswer, hstate, hstatus, hbody⟩ := answer_service occasion request store
  cases hanswer.effect with
  | created hmethod hpath _ _ =>
    refine .created ⟨hmethod, hpath, hstatus⟩ ?_ hstate
    rw [hbody]
    rfl
  | deleted hmethod hpath hid hfind =>
    refine .deleted ⟨hmethod, hstatus⟩ hpath hid hfind ?_ hstate
    rw [hbody]
    rfl
  | kept hkept hne =>
    refine .kept (fun h => ?_) (fun h => ?_) (hstate.trans hkept)
    · exact hne (.inl ⟨h.1, h.2.1⟩) (hstatus.symm.trans h.2.2)
    · exact hne (.inr h.1) (hstatus.symm.trans h.2)

end

/-! ### Logs of requests -/

/-- Requests with what came of them. -/
abbrev Log : Type := List ((Occasion × Request) × Exchange Store)

/-- The number of rules that were stored. -/
def creations (log : Log) : Nat := log.countP fun entry => Creates entry.1.2 entry.2.response

theorem creations_concat_of_creates (log : Log) {entry : (Occasion × Request) × Exchange Store}
    (h : Creates entry.1.2 entry.2.response) : creations (log ++ [entry]) = creations log + 1 := by
  simp [creations, h]

theorem creations_concat_of_not (log : Log) {entry : (Occasion × Request) × Exchange Store}
    (h : ¬ Creates entry.1.2 entry.2.response) : creations (log ++ [entry]) = creations log := by
  simp [creations, h]

/-- The numbers of the stored rules, and those that a log tells, are those of the rules that were
stored. -/
structure Numbered (log : Log) (store : Store) : Prop where
  /-- The rules are in order. -/
  pairwise : store.rules.Pairwise (·.id < ·.id)
  nextId_eq : store.nextId = (creations log + 1) % wordBound
  id_le : ∀ id, store.Has id → id ≤ creations log
  told_le : ∀ entry ∈ log, ∀ id, entry.2.response.body.Tells id → id ≤ creations log

theorem numbered_nil (engine : Engine) : Numbered [] (Store.empty engine) where
  pairwise := .nil
  nextId_eq := rfl
  id_le := by simp [Store.Has, Store.empty]
  told_le := by simp

theorem Deletes.not_creates {request : Request} {response : Response}
    (h : Deletes request response) : ¬ Creates request response := fun hcreates =>
  absurd (h.1.symm.trans hcreates.1) (by decide)

namespace Numbered

variable {log : Log} {store : Store}

/-- What a request changes keeps the numbers of the stored rules. -/
theorem rules_concat (h : Numbered log store) (occasion : Occasion) {request : Request}
    {exchange : Exchange Store} (hchange : Change request store exchange) :
    let log' := log ++ [((occasion, request), exchange)]
    exchange.state.rules.Pairwise (·.id < ·.id) ∧
      exchange.state.nextId = (creations log' + 1) % wordBound ∧
      ∀ id, exchange.state.Has id → id ≤ creations log' := by
  intro log'
  cases hchange with
  | created hcreates _ hstate =>
    have hcount : creations log' = creations log + 1 := creations_concat_of_creates log hcreates
    rw [hstate, hcount]
    refine ⟨Store.pairwise_insert _ h.pairwise, ?_, ?_⟩
    · rw [Store.adding, h.nextId_eq, Nat.mod_add_mod]
    · rintro _ ⟨rule, hrule, rfl⟩
      rcases Store.mem_of_mem_insert hrule with rfl | hrule
      · rw [Store.next, h.nextId_eq]
        exact Nat.mod_le _ _
      · exact Nat.le_succ_of_le (h.id_le _ ⟨rule, hrule, rfl⟩)
  | deleted hdeletes _ _ _ _ hstate =>
    have hcount : creations log' = creations log :=
      creations_concat_of_not log hdeletes.not_creates
    rw [hstate, hcount]
    refine ⟨h.pairwise.filter _, h.nextId_eq, ?_⟩
    rintro _ ⟨rule, hrule, rfl⟩
    exact h.id_le _ ⟨rule, List.mem_of_mem_filter hrule, rfl⟩
  | kept hcreates _ hstate =>
    have hcount : creations log' = creations log := creations_concat_of_not log hcreates
    rw [hstate, hcount]
    exact ⟨h.pairwise, h.nextId_eq, h.id_le⟩

/-- One request more. -/
theorem service (h : Numbered log store) (occasion : Occasion) (request : Request) :
    Numbered (log ++ [((occasion, request), ruleSite.service occasion request store)])
      (ruleSite.service occasion request store).state := by
  have hchange := change_service occasion request store
  have htells (id : Nat) := @has_of_tells_service occasion request store id
  generalize ruleSite.service occasion request store = exchange at hchange htells ⊢
  obtain ⟨hpairwise, hnextId, hid⟩ := h.rules_concat occasion hchange
  have hle : creations log ≤ creations (log ++ [((occasion, request), exchange)]) := by
    simp [creations]
  refine ⟨hpairwise, hnextId, hid, List.forall_mem_append.2 ⟨fun entry hmem id htold => ?_, ?_⟩⟩
  · exact Nat.le_trans (h.told_le entry hmem id htold) hle
  · rw [List.forall_mem_singleton]
    intro id htold
    exact (htells id htold).elim (fun hhas => Nat.le_trans (h.id_le id hhas) hle) (hid id)

/-- Any requests more. -/
theorem run (h : Numbered log store) (requests : List (Occasion × Request)) :
    Numbered (log ++ requests.zip (ruleSite.service.run requests store).1)
      (ruleSite.service.run requests store).2 := by
  induction requests generalizing log store with
  | nil => simpa using h
  | cons first requests ih =>
    rw [Service.run_cons, List.zip_cons_cons, List.append_cons]
    exact ih (h.service first.1 first.2)

end Numbered

/-- **The stored rules change as it is answered.** After any requests to the service from the empty
store on, a request that is answered as having stored a rule has stored just the rule that the
answer shows, under the next number; as long as numbers do not begin anew, the rule comes behind all
others, and its number is above all numbers that were answered before. A request that is answered as
having deleted a rule has deleted just the rule that the answer shows, the one of the number in the
path. Any other request, whatever it is and however it fails, leaves the store as it is. -/
theorem rules_change_as_answered (engine : Engine) (requests : List (Occasion × Request))
    (occasion : Occasion) (request : Request) :
    let log := requests.zip (ruleSite.service.run requests (Store.empty engine)).1
    let store := (ruleSite.service.run requests (Store.empty engine)).2
    let exchange := ruleSite.service occasion request store
    (Creates request exchange.response → ∃ rule : StoredRule,
      exchange.response.body.member? "data" = some rule.toJson ∧
      (∀ other, exchange.response.body.ShowsRule other ↔ other = rule) ∧
      exchange.response.body.Tells rule.id ∧ rule.id = store.nextId ∧
      exchange.state = { store with
        nextId := (store.nextId + 1) % wordBound
        rules := Store.insert rule store.rules } ∧
      (creations log + 1 < wordBound → exchange.state.list = store.list ++ [rule] ∧
        ∀ entry ∈ log, ∀ id, entry.2.response.body.Tells id → id < rule.id)) ∧
    (Deletes request exchange.response → ∃ (rule : StoredRule) (segment : String)
        (front back : List StoredRule),
      exchange.response.body.member? "data" = some rule.toJson ∧
      (∀ other, exchange.response.body.ShowsRule other ↔ other = rule) ∧
      IsRulePath request.path segment ∧ Path.natural? segment = some rule.id ∧
      store.list = front ++ rule :: back ∧
      exchange.state = { store with rules := front ++ back }) ∧
    (¬ Creates request exchange.response → ¬ Deletes request exchange.response →
      exchange.state = store) := by
  intro log store exchange
  have hnumbered : Numbered log store := by simpa using (numbered_nil engine).run requests
  cases change_service occasion request store with
  | @created now name rule hcreates hdata hstate =>
    have hshows := Body.showsRule_iff hdata
    refine ⟨fun _ => ⟨_, hdata, hshows, ((hshows _).2 rfl).tells, rfl, hstate, fun hroom => ?_⟩,
      fun hdeletes => absurd hcreates hdeletes.not_creates, fun hnot => absurd hcreates hnot⟩
    have hid : (store.next now name rule).id = creations log + 1 := by
      rw [Store.next, hnumbered.nextId_eq, Nat.mod_eq_of_lt hroom]
    refine ⟨?_, fun entry hentry id htells => ?_⟩
    · rw [hstate]
      refine Store.insert_of_forall_lt fun r hr => ?_
      rw [hid]
      exact Nat.lt_succ_of_le (hnumbered.id_le _ ⟨r, hr, rfl⟩)
    · rw [hid]
      exact Nat.lt_succ_of_le (hnumbered.told_le entry hentry id htells)
  | @deleted segment ruleId rule hdeletes hpath hid hfind hdata hstate =>
    refine ⟨fun hcreates => absurd hcreates hdeletes.not_creates, fun _ => ?_,
      fun _ hnot => absurd hdeletes hnot⟩
    obtain ⟨rfl, front, back, hrules, hfilter⟩ :=
      Store.exists_split_of_find? hnumbered.pairwise hfind
    have hshows := Body.showsRule_iff hdata
    refine ⟨rule, segment, front, back, hdata, hshows, hpath, hid, hrules, ?_⟩
    rw [hstate, Store.removing, hfilter]
  | kept hcreates hdeletes hstate =>
    exact ⟨fun h => absurd h hcreates, fun h => absurd h hdeletes, fun _ _ => hstate⟩

-- the number of a rule that was deleted is not given out again
example :
    let headers : Headers := [("content-type", .ofString "application/json")]
    let create : Request :=
      ⟨"POST", "/api/rules", headers, "\x7b\"name\": \"adult\", \"ruleString\": \"age > 17\"\x7d"⟩
    let delete : Request := ⟨"DELETE", "/api/rules/1", [], ""⟩
    let requests := [create, delete, create].map fun request => (default, request)
    (ruleSite.service.run requests (Store.empty .standard)).2.list =
      [⟨2, "adult", "age > 17", ""⟩] := by
  decide +kernel

end RuleSite

end Criteria
