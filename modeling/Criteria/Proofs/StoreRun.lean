import Criteria.Store
import Mathlib.Tactic.SplitIfs

/-!
# Runs of a store

A store is reached through handles. A copy of a handle has the engine of the handle and shares the
rules and the counter with it, so that it does not matter through which one an operation is called.
This file says once what an operation can do; what a whole run does follows from it step by step.

## Main definitions

* `Engine.Accepts`, `Engine.Refuses`: what may be stored, and why something may not.
* `Store.Handle`: a way to reach a store, `Store.through` the store that is reached.
* `Store.Operation`, `Store.Answer`: what is called, and what it gives.
* `Store.perform`: performs an operation.
* `Store.run`: calls operations one after the other; each call has an entry in the log.
* `Store.Step`: what an operation can do.

## Main results

* `Store.step_perform`: an operation does nothing else.
* `Store.perform_store_of_error`: an operation that fails leaves the store as it is.
* `Store.run_induction`: what every operation keeps, every run keeps.
-/

namespace Criteria

/-! ### What may be stored -/

namespace Engine

variable (engine : Engine) (name rule : String)

/-- A rule may be stored: its name and its text are not blank, and the text compiles. -/
structure Accepts : Prop where
  /-- The name is not blank. -/
  name_ne : Text.isAllBlank name = false
  /-- The text is not blank. -/
  rule_ne : Text.isAllBlank rule = false
  /-- The text compiles. -/
  compiles : ∃ tree, engine.compile rule = .ok tree

/-- Why a rule may not be stored, with the events of the refusal. -/
inductive Refuses : Failure → List Metric → Prop
  | blankName (hname : Text.isAllBlank name = true) : Refuses (.invalid "规则名称不能为空") []
  | blankRule (hname : Text.isAllBlank name = false) (hrule : Text.isAllBlank rule = true) :
      Refuses (.invalid "规则字符串不能为空") []
  | parse (hname : Text.isAllBlank name = false) (hrule : Text.isAllBlank rule = false)
      {cause : ParseError} (hcause : engine.compile rule = .error cause) :
      Refuses (.parse cause) [.compileFailure cause.code]

end Engine

namespace Store

/-- The reasons to refuse a rule. A rule may be stored if there is none. -/
theorem refusal?_cases (store : Store) (name rule : String) :
    (store.engine.Accepts name rule ∧ store.refusal? name rule = none) ∨
      ∃ failure events, store.engine.Refuses name rule failure events ∧
        store.refusal? name rule = some (failure, events) := by
  rw [refusal?]
  cases hname : Text.isAllBlank name with
  | true => exact .inr ⟨_, _, .blankName hname, rfl⟩
  | false =>
    cases hrule : Text.isAllBlank rule with
    | true => exact .inr ⟨_, _, .blankRule hname hrule, rfl⟩
    | false =>
      cases hcompile : store.engine.compile rule with
      | ok tree => exact .inl ⟨⟨hname, hrule, tree, hcompile⟩, rfl⟩
      | error cause => exact .inr ⟨_, _, .parse hname hrule hcompile, rfl⟩

/-- A rule that is put in its place is there, and no other rule comes to the ones that were. -/
theorem mem_of_mem_insert {rule r : StoredRule} {rules : List StoredRule}
    (h : r ∈ insert rule rules) : r = rule ∨ r ∈ rules := by
  induction rules with
  | nil => exact .inl (List.mem_singleton.1 h)
  | cons other rest ih =>
    rw [insert] at h
    split at h
    · exact List.mem_cons.1 h
    · split at h
      · exact (List.mem_cons.1 h).imp_right (List.mem_cons_of_mem other)
      · rcases List.mem_cons.1 h with rfl | hrest
        · exact .inr List.mem_cons_self
        · exact (ih hrest).imp_right (List.mem_cons_of_mem other)

theorem mem_insert_self (rule : StoredRule) (rules : List StoredRule) :
    rule ∈ insert rule rules := by
  induction rules with
  | nil => exact List.mem_singleton_self rule
  | cons other rest ih =>
    rw [insert]
    split_ifs
    · exact List.mem_cons_self
    · exact List.mem_cons_self
    · exact List.mem_cons_of_mem other ih

/-- Putting a rule in its place keeps the order of the numbers. -/
theorem pairwise_insert (rule : StoredRule) {rules : List StoredRule}
    (h : rules.Pairwise (·.id < ·.id)) : (insert rule rules).Pairwise (·.id < ·.id) := by
  induction rules with
  | nil => exact List.pairwise_singleton _ _
  | cons other rest ih =>
    obtain ⟨hother, hrest⟩ := List.pairwise_cons.1 h
    rw [insert]
    split_ifs with hlt heq
    · refine List.pairwise_cons.2 ⟨List.forall_mem_cons.2 ⟨hlt, fun r hr => ?_⟩, h⟩
      exact Nat.lt_trans hlt (hother r hr)
    · exact List.pairwise_cons.2 ⟨heq ▸ hother, hrest⟩
    · refine List.pairwise_cons.2 ⟨fun r hr => ?_, ih hrest⟩
      rcases mem_of_mem_insert hr with rfl | hr
      · omega
      · exact hother r hr

/-- A rule with a number above all others is put behind them. -/
theorem insert_of_forall_lt {rule : StoredRule} {rules : List StoredRule}
    (h : ∀ r ∈ rules, r.id < rule.id) : insert rule rules = rules ++ [rule] := by
  induction rules with
  | nil => rfl
  | cons other rest ih =>
    obtain ⟨hother, hrest⟩ := List.forall_mem_cons.1 h
    rw [insert, if_neg (by omega), if_neg (by omega), ih hrest, List.cons_append]

/-! ### Looking up -/

theorem get_eq_ok_iff {store : Store} {id : Nat} {rule : StoredRule} :
    store.get id = .ok rule ↔ store.rules.find? (·.id = id) = some rule := by
  rw [get]
  cases store.rules.find? (·.id = id) <;> simp

theorem get_eq_error_iff {store : Store} {id : Nat} {failure : Failure} :
    store.get id = .error failure ↔
      store.rules.find? (·.id = id) = none ∧ failure = .notFound id := by
  rw [get]
  cases store.rules.find? (·.id = id) <;> simp [eq_comm]

/-- The rule of a number is the only one of its number, if the rules are in order. -/
theorem exists_split_of_find? {rules : List StoredRule} (h : rules.Pairwise (·.id < ·.id))
    {id : Nat} {rule : StoredRule} (hfind : rules.find? (·.id = id) = some rule) :
    rule.id = id ∧ ∃ front back, rules = front ++ rule :: back ∧
      rules.filter (·.id ≠ id) = front ++ back := by
  obtain ⟨hid, front, back, rfl, hfront⟩ := List.find?_eq_some_iff_append.1 hfind
  obtain rfl : rule.id = id := by simpa using hid
  obtain ⟨-, hback, -⟩ := List.pairwise_append.1 h
  refine ⟨rfl, front, back, rfl, ?_⟩
  rw [List.filter_append, List.filter_cons_of_neg (by simp), List.filter_eq_self.2,
    List.filter_eq_self.2]
  · exact fun r hr => by simpa using Nat.ne_of_gt ((List.pairwise_cons.1 hback).1 r hr)
  · exact fun r hr => by simpa using hfront r hr

/-! ### Operations -/

/-- A way to reach a store: the handle it came with, or a copy of a handle. -/
inductive Handle where
  | original
  | copy (source : Handle)

/-- The store that a handle reaches. A copy has an engine of its own, the one of its source; the
rules and the counter are shared. -/
def through (store : Store) : Handle → Store
  | .original => store
  | .copy source => { store with engine := (store.through source).engine }

/-- All handles of a store reach the same one. -/
@[simp] theorem through_eq (store : Store) (handle : Handle) : store.through handle = store := by
  induction handle with
  | original => rfl
  | copy source ih => rw [through, ih]

/-- What may be called on a store. -/
inductive Operation where
  /-- Stores a rule at a time. -/
  | create (now name rule : String)
  /-- Looks up the rule of a number. -/
  | get (id : Nat)
  /-- Deletes the rule of a number. -/
  | delete (id : Nat)
  /-- Lists the stored rules. -/
  | list
  /-- Counts the stored rules. -/
  | size
  /-- Tells whether there are no stored rules. -/
  | isEmpty

/-- What an operation gives. -/
inductive Answer where
  | rule (rule : StoredRule)
  | rules (rules : List StoredRule)
  | size (count : Nat)
  | isEmpty (flag : Bool)

/-- Performs an operation. -/
def perform (store : Store) : Operation → Transaction Answer
  | .create now name rule =>
    let t := store.create now name rule
    ⟨t.result.map .rule, t.store, t.events⟩
  | .get id => ⟨(store.get id).map .rule, store, []⟩
  | .delete id =>
    let t := store.delete id
    ⟨t.result.map .rule, t.store, t.events⟩
  | .list => ⟨.ok (.rules store.list), store, []⟩
  | .size => ⟨.ok (.size store.size), store, []⟩
  | .isEmpty => ⟨.ok (.isEmpty store.isEmpty), store, []⟩

/-- A rule under the next number. -/
def next (store : Store) (now name rule : String) : StoredRule := ⟨store.nextId, name, rule, now⟩

/-- A store with a rule more, under the next number. -/
def adding (store : Store) (now name rule : String) : Store :=
  { store with
    nextId := (store.nextId + 1) % wordBound
    rules := insert (store.next now name rule) store.rules }

/-- A store without the rule of a number. -/
def removing (store : Store) (id : Nat) : Store :=
  { store with rules := store.rules.filter (·.id ≠ id) }

/-- What an operation can do. -/
inductive Step (store : Store) : Operation → Transaction Answer → Prop
  /-- A rule that may be stored gets the next number. -/
  | created {now name rule : String} (h : store.engine.Accepts name rule) :
      Step store (.create now name rule) ⟨.ok (.rule (store.next now name rule)),
        store.adding now name rule, [.rulesStored (store.adding now name rule).size]⟩
  | refused {now name rule : String} {failure : Failure} {events : List Metric}
      (h : store.engine.Refuses name rule failure events) :
      Step store (.create now name rule) ⟨.error failure, store, events⟩
  | found {id : Nat} {rule : StoredRule} (h : store.rules.find? (·.id = id) = some rule) :
      Step store (.get id) ⟨.ok (.rule rule), store, []⟩
  | missing {id : Nat} (h : store.rules.find? (·.id = id) = none) :
      Step store (.get id) ⟨.error (.notFound id), store, []⟩
  /-- The rule of a number is given back, and no rule of the number is left. -/
  | deleted {id : Nat} {rule : StoredRule} (h : store.rules.find? (·.id = id) = some rule) :
      Step store (.delete id) ⟨.ok (.rule rule), store.removing id,
        [.rulesStored (store.removing id).size]⟩
  | undeleted {id : Nat} (h : store.rules.find? (·.id = id) = none) :
      Step store (.delete id) ⟨.error (.notFound id), store, []⟩
  | listed : Step store .list ⟨.ok (.rules store.rules), store, []⟩
  | counted : Step store .size ⟨.ok (.size store.rules.length), store, []⟩
  | emptiness : Step store .isEmpty ⟨.ok (.isEmpty store.rules.isEmpty), store, []⟩

/-- A rule that may be stored gets the next number. -/
theorem create_of_accepts {store : Store} {name rule : String} (h : store.engine.Accepts name rule)
    (now : String) : store.create now name rule =
      ⟨.ok (store.next now name rule), store.adding now name rule,
        [.rulesStored (store.adding now name rule).size]⟩ := by
  obtain ⟨tree, htree⟩ := h.compiles
  have hnone : store.refusal? name rule = none := by
    simp [refusal?, h.name_ne, h.rule_ne, htree]
  rw [create, hnone]
  rfl

/-- The rule of a number is deleted and given back. -/
theorem delete_of_find? {store : Store} {id : Nat} {rule : StoredRule}
    (h : store.rules.find? (·.id = id) = some rule) : store.delete id =
      ⟨.ok rule, store.removing id, [.rulesStored (store.removing id).size]⟩ := by
  rw [delete, h]
  rfl

/-- A rule that may be stored gets the next number; any other is refused. -/
theorem create_cases (store : Store) (now name rule : String) :
    (store.engine.Accepts name rule ∧ store.create now name rule =
      ⟨.ok (store.next now name rule), store.adding now name rule,
        [.rulesStored (store.adding now name rule).size]⟩) ∨
      ∃ failure events, store.engine.Refuses name rule failure events ∧
        store.create now name rule = ⟨.error failure, store, events⟩ := by
  rcases store.refusal?_cases name rule with ⟨haccepts, -⟩ | ⟨failure, events, hrefuses, hsome⟩
  · exact .inl ⟨haccepts, create_of_accepts haccepts now⟩
  · rw [create, hsome]
    exact .inr ⟨failure, events, hrefuses, rfl⟩

/-- The rule of a number is deleted, if there is one. -/
theorem delete_cases (store : Store) (id : Nat) :
    (∃ rule, store.rules.find? (·.id = id) = some rule ∧ store.delete id =
      ⟨.ok rule, store.removing id, [.rulesStored (store.removing id).size]⟩) ∨
      store.rules.find? (·.id = id) = none ∧
        store.delete id = ⟨.error (.notFound id), store, []⟩ := by
  cases h : store.rules.find? (·.id = id) with
  | some rule => exact .inl ⟨rule, rfl, delete_of_find? h⟩
  | none =>
    rw [delete, h]
    exact .inr ⟨rfl, rfl⟩

/-- An operation does nothing but what it can do. -/
theorem step_perform (store : Store) (operation : Operation) :
    Step store operation (store.perform operation) := by
  cases operation with
  | create now name rule =>
    rcases store.create_cases now name rule with ⟨haccepts, h⟩ | ⟨_, _, hrefuses, h⟩
    · rw [perform, h]
      exact .created haccepts
    · rw [perform, h]
      exact .refused hrefuses
  | get id =>
    rw [perform, get]
    cases h : store.rules.find? (·.id = id) with
    | some rule => exact .found h
    | none => exact .missing h
  | delete id =>
    rcases store.delete_cases id with ⟨rule, hfind, h⟩ | ⟨hfind, h⟩
    · rw [perform, h]
      exact .deleted hfind
    · rw [perform, h]
      exact .undeleted hfind
  | list => exact .listed
  | size => exact .counted
  | isEmpty =>
    have h : store.isEmpty = store.rules.isEmpty := by
      rw [isEmpty, size]
      cases store.rules <;> rfl
    rw [perform, h]
    exact .emptiness

/-- An operation that fails leaves the store as it is. -/
theorem perform_store_of_error {store : Store} {operation : Operation} {failure : Failure}
    (h : (store.perform operation).result = .error failure) :
    (store.perform operation).store = store := by
  have hstep := store.step_perform operation
  generalize store.perform operation = t at h hstep
  cases hstep with
  | created _ => cases h
  | deleted _ => cases h
  | _ => rfl

/-! ### Runs -/

/-- An operation that is called through a handle. -/
structure Call where
  handle : Handle
  operation : Operation

/-- A call with its answer. -/
structure Entry where
  call : Call
  answer : Except Failure Answer

/-- Calls operations one after the other; the log of the calls comes with the store that is left. -/
def run (store : Store) : List Call → List Entry × Store
  | [] => ([], store)
  | call :: calls =>
    let t := (store.through call.handle).perform call.operation
    let (log, final) := t.store.run calls
    (⟨call, t.result⟩ :: log, final)

@[simp] theorem run_nil (store : Store) : store.run [] = ([], store) := rfl

theorem run_cons (store : Store) (call : Call) (calls : List Call) :
    store.run (call :: calls) =
      (⟨call, (store.perform call.operation).result⟩ ::
          ((store.perform call.operation).store.run calls).1,
        ((store.perform call.operation).store.run calls).2) := by
  rw [run, through_eq]

/-- The log has an entry for each call. -/
theorem map_call_run (store : Store) (calls : List Call) :
    (store.run calls).1.map Entry.call = calls := by
  induction calls generalizing store with
  | nil => rfl
  | cons call calls ih => rw [run_cons, List.map_cons, ih]

/-- What every operation keeps, every run keeps. -/
theorem run_induction {p : Store → Prop}
    (hstep : ∀ store operation, p store → p (store.perform operation).store)
    {store : Store} (h : p store) (calls : List Call) : p (store.run calls).2 := by
  induction calls generalizing store with
  | nil => exact h
  | cons call calls ih =>
    rw [run_cons]
    exact ih (hstep store call.operation h)

end Store

end Criteria
