import Criteria.Proofs.StoreRun
import Mathlib.Data.List.Perm.Basic

/-!
# Stored rules in a table

A store has its rules in the order of their numbers. Nothing depends on it: the rules may as well be
in a table, in any order that may change at any time, with one entry for each number. Rules are
looked up, put in and taken out by their numbers, and only to be listed they are sorted. This file
shows that the calls on such a table have the answers that they have on the store of its rules.

## Main definitions

* `Store.Table`: rules in no order, with the engine and the next number.
* `Store.Table.sorted`, `Store.Table.put`: entries in the order of their numbers, and with one more.
* `Store.Table.store`: the store that has the rules of a table.
* `Store.Table.perform`, `Store.Table.run`: calls on a table.

## Main results

* `Store.Table.sorted_eq_of_perm`: rules in order are what any order of them is sorted to.
* `Store.Table.perform_eq`: an operation on a table is that on its store.
* `Store.Table.run_eq`: so are any calls, however the table is reordered between them.
-/

namespace Criteria.Store

/-- Rules by their numbers, in no order. -/
structure Table where
  engine : Engine
  nextId : Nat
  entries : List StoredRule

namespace Table

/-- The entries in the order of their numbers. -/
def sorted (entries : List StoredRule) : List StoredRule :=
  entries.mergeSort fun a b => a.id ≤ b.id

/-- The entries with one more, in place of any other one of its number. -/
def put (rule : StoredRule) (entries : List StoredRule) : List StoredRule :=
  rule :: entries.filter (·.id ≠ rule.id)

/-- There is one entry for each number at most. -/
def IsKeyed (entries : List StoredRule) : Prop := entries.Pairwise (·.id ≠ ·.id)

/-- The store that has the rules of a table. -/
def store (table : Table) : Store := ⟨table.engine, table.nextId, sorted table.entries⟩

/-- A table without entries. -/
def empty (engine : Engine) : Table := ⟨engine, 1, []⟩

/-- A table whose entries are put into another order. -/
def reordered (table : Table) (reorder : List StoredRule → List StoredRule) : Table :=
  { table with entries := reorder table.entries }

/-- Performs an operation: what it gives, the table that is left, and the events. -/
def perform (table : Table) : Operation → Except Failure Answer × Table × List Metric
  | .create now name rule => match table.store.refusal? name rule with
    | some (failure, events) => (.error failure, table, events)
    | none =>
      let stored : StoredRule := ⟨table.nextId, name, rule, now⟩
      let entries := put stored table.entries
      (.ok (.rule stored),
        { table with nextId := (table.nextId + 1) % wordBound, entries := entries },
        [.rulesStored entries.length])
  | .get id => match table.entries.find? (·.id = id) with
    | some rule => (.ok (.rule rule), table, [])
    | none => (.error (.notFound id), table, [])
  | .delete id => match table.entries.find? (·.id = id) with
    | some rule =>
      let entries := table.entries.filter (·.id ≠ id)
      (.ok (.rule rule), { table with entries := entries }, [.rulesStored entries.length])
    | none => (.error (.notFound id), table, [])
  | .list => (.ok (.rules (sorted table.entries)), table, [])
  | .size => (.ok (.size table.entries.length), table, [])
  | .isEmpty => (.ok (.isEmpty table.entries.isEmpty), table, [])

/-- Calls operations one after the other. After each of them the entries are reordered. -/
def run (reorder : List StoredRule → List StoredRule) (table : Table) :
    List Call → List Entry × Table
  | [] => ([], table)
  | call :: calls =>
    let (result, next, _) := table.perform call.operation
    let (log, final) := run reorder (next.reordered reorder) calls
    (⟨call, result⟩ :: log, final)

/-! ### Sorting -/

variable {entries rules : List StoredRule}

theorem IsKeyed.perm {others : List StoredRule} (h : IsKeyed entries) (hperm : others.Perm entries) :
    IsKeyed others := (hperm.pairwise_iff Ne.symm).2 h

theorem sorted_perm (entries : List StoredRule) : (sorted entries).Perm entries :=
  List.mergeSort_perm entries _

/-- Entries with different numbers are sorted to rules in order. -/
theorem pairwise_sorted (h : IsKeyed entries) : (sorted entries).Pairwise (·.id < ·.id) := by
  have hle : (sorted entries).Pairwise fun a b => decide (a.id ≤ b.id) = true :=
    List.pairwise_mergeSort (fun a b c => by simpa using Nat.le_trans)
      (fun a b => by simpa using Nat.le_total a.id b.id) entries
  have hne : IsKeyed (sorted entries) := h.perm (sorted_perm entries)
  exact hle.imp₂ (fun a b hab hne => Nat.lt_of_le_of_ne (by simpa using hab) hne) hne

/-- Rules in order are what any order of them is sorted to. -/
theorem sorted_eq_of_perm (h : rules.Pairwise (·.id < ·.id)) (hperm : entries.Perm rules) :
    sorted entries = rules := by
  have hkeyed : IsKeyed entries := IsKeyed.perm (h.imp fun hlt => Nat.ne_of_lt hlt) hperm
  exact ((sorted_perm entries).trans hperm).eq_of_pairwise
    (fun _ _ _ _ hab hba => absurd hab (Nat.lt_asymm hba)) (pairwise_sorted hkeyed) h

/-- A rule that is put in its place takes the place of any other one of its number. -/
theorem insert_perm (rule : StoredRule) (h : rules.Pairwise (·.id < ·.id)) :
    (insert rule rules).Perm (put rule rules) := by
  induction rules with
  | nil => exact .refl _
  | cons other rest ih =>
    obtain ⟨hother, hrest⟩ := List.pairwise_cons.1 h
    rw [insert, put]
    split_ifs with hlt heq
    · have hkept : (other :: rest).filter (·.id ≠ rule.id) = other :: rest :=
        List.filter_eq_self.2 (List.forall_mem_cons.2 ⟨by simpa using Nat.ne_of_gt hlt,
          fun r hr => by simpa using Nat.ne_of_gt (Nat.lt_trans hlt (hother r hr))⟩)
      rw [hkept]
    · have hkept : rest.filter (·.id ≠ rule.id) = rest :=
        List.filter_eq_self.2 fun r hr => by simpa [heq] using Nat.ne_of_gt (hother r hr)
      rw [List.filter_cons_of_neg (by simpa using heq.symm), hkept]
    · rw [List.filter_cons_of_pos (by simpa using Ne.symm heq)]
      exact ((ih hrest).cons other).trans (.swap ..)

theorem sorted_put (rule : StoredRule) (h : IsKeyed entries) :
    sorted (put rule entries) = insert rule (sorted entries) := by
  have hsorted := pairwise_sorted h
  refine sorted_eq_of_perm (pairwise_insert rule hsorted) (.trans ?_ (insert_perm rule hsorted).symm)
  exact ((sorted_perm entries).symm.filter _).cons rule

theorem sorted_filter (p : StoredRule → Bool) (h : IsKeyed entries) :
    sorted (entries.filter p) = (sorted entries).filter p :=
  sorted_eq_of_perm ((pairwise_sorted h).filter p) ((sorted_perm entries).symm.filter p)

/-- The entry of a number is the only one of its number. -/
theorem find?_eq_some_iff (h : IsKeyed entries) {id : Nat} {rule : StoredRule} :
    entries.find? (·.id = id) = some rule ↔ rule ∈ entries ∧ rule.id = id := by
  constructor
  · intro hfind
    exact ⟨List.mem_of_find?_eq_some hfind, by simpa using List.find?_some hfind⟩
  · rintro ⟨hmem, rfl⟩
    obtain ⟨front, back, rfl⟩ := List.append_of_mem hmem
    obtain ⟨-, -, hfront⟩ := List.pairwise_append.1 h
    refine List.find?_eq_some_iff_append.2 ⟨by simp, front, back, rfl, fun r hr => ?_⟩
    simpa using hfront r hr rule List.mem_cons_self

theorem find?_sorted (h : IsKeyed entries) (id : Nat) :
    (sorted entries).find? (·.id = id) = entries.find? (·.id = id) := by
  have hsorted : IsKeyed (sorted entries) := (pairwise_sorted h).imp fun hlt => Nat.ne_of_lt hlt
  refine Option.ext fun rule => ?_
  rw [find?_eq_some_iff hsorted, find?_eq_some_iff h, (sorted_perm entries).mem_iff]

/-! ### Calls -/

variable {table : Table}

/-- An operation on a table is that on its store, and leaves one entry for each number at most. -/
theorem perform_eq (h : IsKeyed table.entries) (operation : Operation) :
    let t := table.store.perform operation
    (table.perform operation).1 = t.result ∧ (table.perform operation).2.1.store = t.store ∧
      (table.perform operation).2.2 = t.events ∧
      IsKeyed (table.perform operation).2.1.entries := by
  have hlength (entries : List StoredRule) : (sorted entries).length = entries.length :=
    (sorted_perm entries).length_eq
  cases operation with
  | create now name rule =>
    rw [perform, Store.perform, Store.create]
    cases table.store.refusal? name rule with
    | some refusal => exact ⟨rfl, rfl, rfl, h⟩
    | none =>
      have hput := sorted_put ⟨table.nextId, name, rule, now⟩ h
      refine ⟨rfl, ?_, ?_, List.pairwise_cons.2 ⟨fun r hr => ?_, h.filter _⟩⟩
      · simp only [store, hput]
      · simp only [store, ← hput, hlength]
      · exact Ne.symm (by simpa using (List.mem_filter.1 hr).2)
  | get id =>
    rw [perform, Store.perform, Store.get, store, find?_sorted h]
    cases table.entries.find? (·.id = id) with
    | some rule => exact ⟨rfl, rfl, rfl, h⟩
    | none => exact ⟨rfl, rfl, rfl, h⟩
  | delete id =>
    rw [perform, Store.perform, Store.delete, store, find?_sorted h]
    cases table.entries.find? (·.id = id) with
    | some rule =>
      have hfilter := sorted_filter (·.id ≠ id) h
      refine ⟨rfl, ?_, ?_, h.filter _⟩
      · simp only [store, hfilter]
      · simp only [← hfilter, hlength]
    | none => exact ⟨rfl, rfl, rfl, h⟩
  | list => exact ⟨rfl, rfl, rfl, h⟩
  | size => exact ⟨by rw [perform, Store.perform, Store.size, store, hlength], rfl, rfl, h⟩
  | isEmpty =>
    have hempty : table.store.isEmpty = table.entries.isEmpty := by
      rw [Store.isEmpty, Store.size, store, hlength]
      cases table.entries <;> rfl
    exact ⟨by rw [perform, Store.perform, hempty], rfl, rfl, h⟩

/-- The order of a table makes no difference to its store. -/
theorem store_reordered {reorder : List StoredRule → List StoredRule} (h : IsKeyed table.entries)
    (hperm : (reorder table.entries).Perm table.entries) :
    (table.reordered reorder).store = table.store := by
  have hsorted := sorted_eq_of_perm (pairwise_sorted h) (hperm.trans (sorted_perm _).symm)
  simp only [store, reordered, hsorted]

/-- **Calls on a table have the answers that they have on the store of its rules**, and leave the
rules of that store, however the table is reordered between them. -/
theorem run_eq {reorder : List StoredRule → List StoredRule}
    (hreorder : ∀ entries, (reorder entries).Perm entries) (h : IsKeyed table.entries)
    (calls : List Call) :
    (table.run reorder calls).1 = (table.store.run calls).1 ∧
      (table.run reorder calls).2.store = (table.store.run calls).2 := by
  induction calls generalizing table with
  | nil => exact ⟨rfl, rfl⟩
  | cons call calls ih =>
    obtain ⟨hresult, hstore, -, hkeyed⟩ := perform_eq h call.operation
    have hperm := hreorder (table.perform call.operation).2.1.entries
    have hreordered : IsKeyed ((table.perform call.operation).2.1.reordered reorder).entries :=
      hkeyed.perm hperm
    obtain ⟨hlog, hfinal⟩ := ih hreordered
    rw [store_reordered hkeyed hperm, hstore] at hlog hfinal
    rw [run_cons, run, ← hresult]
    exact ⟨congrArg (_ :: ·) hlog, hfinal⟩

/-- So have calls on a table without entries and on a store without rules. -/
theorem run_empty_eq {reorder : List StoredRule → List StoredRule}
    (hreorder : ∀ entries, (reorder entries).Perm entries) (engine : Engine) (calls : List Call) :
    ((empty engine).run reorder calls).1 = ((Store.empty engine).run calls).1 ∧
      sorted ((empty engine).run reorder calls).2.entries =
        ((Store.empty engine).run calls).2.list := by
  have hstore : (empty engine).store = Store.empty engine := by
    rw [store, empty, sorted, List.mergeSort_nil]
    rfl
  have hkeyed : IsKeyed (empty engine).entries := .nil
  obtain ⟨hlog, hfinal⟩ := run_eq hreorder hkeyed calls
  rw [hstore] at hlog hfinal
  exact ⟨hlog, congrArg Store.list hfinal⟩

end Table

end Criteria.Store
