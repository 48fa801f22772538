import Criteria.Proofs.StoreRun
import Mathlib.Data.List.Range

/-!
# The store keeps what its log says

The log of a run tells which rules were stored and which numbers were deleted. It is only ever
added to. This file shows that the store is determined by it: the rules that are listed are those
that were stored and not deleted since, in the order in which they were stored, and every answer is
the one that the log before it calls for.

Numbers have 64 bits, so that this holds as long as they do not begin anew.

## Main definitions

* `Store.created`, `Store.deleted`, `Store.live`: what a log says.
* `Store.Answers`: the answers that a log calls for.
* `Store.Keeps`: a store keeps what a log says.

## Main results

* `Store.Keeps.perform`: one operation more.
* `Store.run_keeps_log`: a whole run, from the empty store.
-/

namespace Criteria

namespace Store

/-! ### What a log says -/

/-- The rule that was stored, if the entry is of a rule that was. -/
def Entry.created? (entry : Entry) : Option StoredRule :=
  match entry.call.operation, entry.answer with
  | .create .., .ok (.rule rule) => some rule
  | _, _ => none

/-- The number that was deleted, if the entry is of one that was. -/
def Entry.deleted? (entry : Entry) : Option Nat :=
  match entry.call.operation, entry.answer with
  | .delete id, .ok _ => some id
  | _, _ => none

/-- The rules that were stored, the earliest one first. -/
def created (log : List Entry) : List StoredRule := log.filterMap Entry.created?

/-- The numbers that were deleted. -/
def deleted (log : List Entry) : List Nat := log.filterMap Entry.deleted?

/-- The rules that were stored and whose numbers were not deleted. -/
def live (log : List Entry) : List StoredRule :=
  (created log).filter fun rule => rule.id ∉ deleted log

/-- The answers that a log calls for. -/
inductive Answers (engine : Engine) (log : List Entry) : Operation → Except Failure Answer → Prop
  /-- The rule has the next number, and its name and its text are those that were given. -/
  | created {now name rule : String} (h : engine.Accepts name rule) :
      Answers engine log (.create now name rule)
        (.ok (.rule ⟨(created log).length + 1, name, rule, now⟩))
  | refused {now name rule : String} {failure : Failure} {events : List Metric}
      (h : engine.Refuses name rule failure events) :
      Answers engine log (.create now name rule) (.error failure)
  | found {rule : StoredRule} (h : rule ∈ live log) :
      Answers engine log (.get rule.id) (.ok (.rule rule))
  | missing {id : Nat} (h : ∀ rule ∈ live log, rule.id ≠ id) :
      Answers engine log (.get id) (.error (.notFound id))
  | deleted {rule : StoredRule} (h : rule ∈ live log) :
      Answers engine log (.delete rule.id) (.ok (.rule rule))
  | undeleted {id : Nat} (h : ∀ rule ∈ live log, rule.id ≠ id) :
      Answers engine log (.delete id) (.error (.notFound id))
  | listed : Answers engine log .list (.ok (.rules (live log)))
  | counted : Answers engine log .size (.ok (.size (live log).length))
  | emptiness : Answers engine log .isEmpty (.ok (.isEmpty (live log).isEmpty))

/-- A store keeps what a log says. -/
structure Keeps (engine : Engine) (log : List Entry) (store : Store) : Prop where
  engine_eq : store.engine = engine
  /-- The stored rules are those that were not deleted. -/
  rules_eq : store.rules = live log
  /-- The next number is the one behind those that were given out. -/
  nextId_eq : store.nextId = ((created log).length + 1) % wordBound
  /-- The numbers of the rules that were stored are 1, 2 and so on. -/
  numbered : (created log).map (·.id) = List.range' 1 (created log).length
  /-- No number was deleted that was not given out. -/
  deleted_le : ∀ id ∈ deleted log, id ≤ (created log).length

theorem keeps_nil (engine : Engine) : Keeps engine [] (empty engine) where
  engine_eq := rfl
  rules_eq := rfl
  nextId_eq := rfl
  numbered := rfl
  deleted_le := by simp [deleted]

section

variable (log : List Entry) (entry : Entry)

theorem created_concat : created (log ++ [entry]) = created log ++ entry.created?.toList := by
  rw [created, List.filterMap_append]
  cases h : entry.created? <;> simp [created, h]

theorem deleted_concat : deleted (log ++ [entry]) = deleted log ++ entry.deleted?.toList := by
  rw [deleted, List.filterMap_append]
  cases h : entry.deleted? <;> simp [deleted, h]

end

namespace Keeps

variable {engine : Engine} {log : List Entry} {store : Store}

/-- The rules that were stored have increasing numbers. -/
theorem pairwise_created (h : Keeps engine log store) :
    (created log).Pairwise (·.id < ·.id) := by
  rw [← List.pairwise_map, h.numbered]
  exact List.pairwise_lt_range'

/-- So do the rules that are left. -/
theorem pairwise_live (h : Keeps engine log store) : (live log).Pairwise (·.id < ·.id) :=
  h.pairwise_created.filter _

/-- The numbers that were given out are not above the number of rules that were stored. -/
theorem id_le_of_mem (h : Keeps engine log store) {rule : StoredRule} (hrule : rule ∈ created log) :
    rule.id ≤ (created log).length := by
  have hid : rule.id ∈ (created log).map (·.id) := List.mem_map_of_mem hrule
  rw [h.numbered, List.mem_range'_1] at hid
  omega

theorem mem_live_of_find? (h : Keeps engine log store) {id : Nat} {rule : StoredRule}
    (hfind : store.rules.find? (·.id = id) = some rule) : rule ∈ live log ∧ rule.id = id := by
  rw [← h.rules_eq]
  exact ⟨List.mem_of_find?_eq_some hfind, by simpa using List.find?_some hfind⟩

theorem id_ne_of_find? (h : Keeps engine log store) {id : Nat}
    (hfind : store.rules.find? (·.id = id) = none) : ∀ rule ∈ live log, rule.id ≠ id := by
  rw [← h.rules_eq]
  simpa using List.find?_eq_none.1 hfind

/-! ### One operation more -/

/-- An entry that tells of no change leaves everything as it is. -/
theorem concat (h : Keeps engine log store) {entry : Entry} (hcreated : entry.created? = none)
    (hdeleted : entry.deleted? = none) : Keeps engine (log ++ [entry]) store := by
  have hc : created (log ++ [entry]) = created log := by simp [created_concat, hcreated]
  have hd : deleted (log ++ [entry]) = deleted log := by simp [deleted_concat, hdeleted]
  have hl : live (log ++ [entry]) = live log := by rw [live, hc, hd, live]
  exact ⟨h.engine_eq, hl ▸ h.rules_eq, hc ▸ h.nextId_eq, hc ▸ h.numbered, by
    rw [hc, hd]
    exact h.deleted_le⟩

/-- A rule that is stored comes behind all others. -/
theorem adding (h : Keeps engine log store) (hroom : (created log).length + 1 < wordBound)
    {entry : Entry} {now name rule : String}
    (hcreated : entry.created? = some (store.next now name rule))
    (hdeleted : entry.deleted? = none) :
    Keeps engine (log ++ [entry]) (store.adding now name rule) := by
  have hid : (store.next now name rule).id = (created log).length + 1 := by
    rw [Store.next, h.nextId_eq, Nat.mod_eq_of_lt hroom]
  have hc : created (log ++ [entry]) = created log ++ [store.next now name rule] := by
    simp [created_concat, hcreated]
  have hd : deleted (log ++ [entry]) = deleted log := by simp [deleted_concat, hdeleted]
  have hlength : (created (log ++ [entry])).length = (created log).length + 1 := by simp [hc]
  have hfresh : (store.next now name rule).id ∉ deleted log := by
    intro hmem
    have := h.deleted_le _ hmem
    omega
  have hlive : live (log ++ [entry]) = live log ++ [store.next now name rule] := by
    rw [live, hc, hd, List.filter_append, List.filter_singleton]
    simp [hfresh, live]
  refine ⟨h.engine_eq, ?_, ?_, ?_, ?_⟩
  · rw [hlive, ← h.rules_eq]
    refine insert_of_forall_lt fun r hr => ?_
    rw [h.rules_eq] at hr
    have := h.id_le_of_mem (List.mem_of_mem_filter hr)
    omega
  · rw [hlength]
    change (store.nextId + 1) % wordBound = _
    rw [h.nextId_eq, Nat.mod_eq_of_lt hroom]
  · rw [hlength, hc, List.map_append, h.numbered, List.range'_1_concat, List.map_singleton, hid,
      Nat.add_comm 1]
  · intro id hmem
    rw [hd] at hmem
    have := h.deleted_le id hmem
    omega

/-- A rule that is deleted is not listed any more. -/
theorem removing (h : Keeps engine log store) {entry : Entry} {rule : StoredRule}
    (hrule : rule ∈ live log) (hcreated : entry.created? = none)
    (hdeleted : entry.deleted? = some rule.id) :
    Keeps engine (log ++ [entry]) (store.removing rule.id) := by
  have hc : created (log ++ [entry]) = created log := by simp [created_concat, hcreated]
  have hd : deleted (log ++ [entry]) = deleted log ++ [rule.id] := by
    simp [deleted_concat, hdeleted]
  refine ⟨h.engine_eq, ?_, hc ▸ h.nextId_eq, hc ▸ h.numbered, ?_⟩
  · rw [Store.removing, h.rules_eq, live, live, hc, hd, List.filter_filter]
    exact List.filter_congr fun r _ => by simp [and_comm]
  · rw [hc, hd, List.forall_mem_append, List.forall_mem_singleton]
    exact ⟨h.deleted_le, h.id_le_of_mem (List.mem_of_mem_filter hrule)⟩

/-- An operation gives the answer that the log calls for, and the store keeps the log with the new
entry. -/
theorem perform (h : Keeps engine log store) (call : Call)
    (hroom : (created (log ++ [⟨call, (store.perform call.operation).result⟩])).length <
      wordBound) :
    Answers engine log call.operation (store.perform call.operation).result ∧
      Keeps engine (log ++ [⟨call, (store.perform call.operation).result⟩])
        (store.perform call.operation).store := by
  obtain ⟨handle, operation⟩ := call
  have hstep := store.step_perform operation
  generalize store.perform operation = t at hroom hstep ⊢
  cases hstep with
  | created haccepts =>
    have hfull : (created log).length + 1 < wordBound := by
      simpa [created_concat, Entry.created?] using hroom
    have hnext (now name rule : String) : store.next now name rule =
        ⟨(created log).length + 1, name, rule, now⟩ := by
      rw [Store.next, h.nextId_eq, Nat.mod_eq_of_lt hfull]
    refine ⟨?_, h.adding hfull rfl rfl⟩
    rw [hnext]
    exact .created (h.engine_eq ▸ haccepts)
  | refused hrefuses => exact ⟨.refused (h.engine_eq ▸ hrefuses), h.concat rfl rfl⟩
  | found hfind =>
    obtain ⟨hrule, rfl⟩ := h.mem_live_of_find? hfind
    exact ⟨.found hrule, h.concat rfl rfl⟩
  | missing hfind => exact ⟨.missing (h.id_ne_of_find? hfind), h.concat rfl rfl⟩
  | deleted hfind =>
    obtain ⟨hrule, rfl⟩ := h.mem_live_of_find? hfind
    exact ⟨.deleted hrule, h.removing hrule rfl rfl⟩
  | undeleted hfind => exact ⟨.undeleted (h.id_ne_of_find? hfind), h.concat rfl rfl⟩
  | listed => exact ⟨h.rules_eq ▸ .listed, h.concat rfl rfl⟩
  | counted => exact ⟨h.rules_eq ▸ .counted, h.concat rfl rfl⟩
  | emptiness => exact ⟨h.rules_eq ▸ .emptiness, h.concat rfl rfl⟩

/-! ### Whole runs -/

theorem length_created_le (log entries : List Entry) :
    (created log).length ≤ (created (log ++ entries)).length := by
  simp [created, List.filterMap_append]

/-- A run gives the answers that the log before them calls for, and the store keeps the log with the
entries of the run. -/
theorem run (h : Keeps engine log store) (calls : List Call)
    (hroom : (created (log ++ (store.run calls).1)).length < wordBound) :
    (∀ before entry after, (store.run calls).1 = before ++ entry :: after →
      Answers engine (log ++ before) entry.call.operation entry.answer) ∧
      Keeps engine (log ++ (store.run calls).1) (store.run calls).2 := by
  induction calls generalizing log store with
  | nil => exact ⟨by simp, by simpa using h⟩
  | cons call calls ih =>
    simp only [run_cons] at hroom ⊢
    rw [List.append_cons] at hroom ⊢
    obtain ⟨hanswer, hkeeps⟩ :=
      h.perform call (Nat.lt_of_le_of_lt (length_created_le _ _) hroom)
    obtain ⟨hrest, hfinal⟩ := ih hkeeps hroom
    refine ⟨fun before entry after hentries => ?_, hfinal⟩
    cases before with
    | nil =>
      obtain ⟨rfl, -⟩ := List.cons.inj hentries
      rw [List.append_nil]
      exact hanswer
    | cons first before =>
      obtain ⟨rfl, htail⟩ := List.cons.inj hentries
      rw [List.append_cons]
      exact hrest before entry after htail

/-- A number that was deleted is not found any more. -/
theorem delete_of_mem_deleted (h : Keeps engine log store) {id : Nat} (hid : id ∈ deleted log) :
    (store.delete id).result = .error (.notFound id) := by
  have hnone : store.rules.find? (·.id = id) = none := by
    rw [h.rules_eq, List.find?_eq_none]
    intro rule hrule
    have hlive : rule.id ∉ deleted log := by simpa using (List.mem_filter.1 hrule).2
    rw [decide_eq_true_eq]
    rintro rfl
    exact hlive hid
  rw [delete, hnone]

end Keeps

/-- **A store keeps what its log says.** However operations are called through the handles of a
store, each of them gives the answer that the log before it calls for, as long as numbers do not
begin anew. The rules that are stored are numbered from 1 on, and no number is given out again. The
store lists the rules that were stored and not deleted, in the order of their numbers, and knows no
number that was deleted. An operation that fails leaves the store as it is. -/
theorem run_keeps_log (engine : Engine) (calls : List Call)
    (hroom : (created ((empty engine).run calls).1).length < wordBound) :
    let log := ((empty engine).run calls).1
    let store := ((empty engine).run calls).2
    log.map Entry.call = calls ∧
      (∀ before entry after, log = before ++ entry :: after →
        Answers engine before entry.call.operation entry.answer) ∧
      (created log).map (·.id) = List.range' 1 (created log).length ∧
      store.list = live log ∧ store.list.Pairwise (·.id < ·.id) ∧
      (∀ id ∈ deleted log, (store.delete id).result = .error (.notFound id)) ∧
      ∀ operation failure, (store.perform operation).result = .error failure →
        (store.perform operation).store = store := by
  intro log store
  obtain ⟨hanswers, hkeeps⟩ := (keeps_nil engine).run calls (by simpa using hroom)
  have hlist : store.list = live log := hkeeps.rules_eq
  refine ⟨map_call_run _ calls, hanswers, hkeeps.numbered, hlist, ?_,
    fun id => hkeeps.delete_of_mem_deleted, fun _ _ => perform_store_of_error⟩
  rw [hlist]
  exact hkeeps.pairwise_live

/-- The theorem for calls through two handles: a number that was deleted is not given out again, and
a rule without a name gets none. -/
theorem run_keeps_log_of_copies :
    let calls : List Call := [
      ⟨.original, .create "now" " a " " a > 1 "⟩, ⟨.copy .original, .create "now" " " "a > 1"⟩,
      ⟨.copy .original, .delete 1⟩, ⟨.original, .delete 1⟩,
      ⟨.original, .create "now" "b" "b <> 1"⟩, ⟨.copy (.copy .original), .list⟩]
    let log := ((empty .standard).run calls).1
    let store := ((empty .standard).run calls).2
    (created log).length < wordBound ∧
      (created log).map (·.id) = List.range' 1 (created log).length ∧ store.list = live log := by
  intro calls log store
  have hroom : (created log).length < wordBound := by decide +kernel
  obtain ⟨-, -, hnumbered, hlist, -⟩ := run_keeps_log .standard calls hroom
  exact ⟨hroom, hnumbered, hlist⟩

end Store

end Criteria
