import Criteria.Proofs.StoredRules
import Criteria.Proofs.ToldNumbers

/-!
# Stores that are reached

Operations and requests lead from the empty store to others. Whatever they are, the rules of a
reached store compile and are in the order of their numbers, so that a number stands for one rule
at most, and the numbers of all rules, as they are listed, stand for all rules.

## Main definitions

* `Store.Reachable`: the stores that are reached from the empty one.
* `Store.Ordered`: the rules are in order, and all numbers have 64 bits.

## Main results

* `Store.Reachable.ordered`, `Store.Reachable.sound`: the invariants of reached stores.
* `Store.Ordered.resolve_list`: the numbers of all rules stand for all rules.
* `Store.resolve_of_missing`, `Store.resolve_of_has`: what other numbers stand for.
-/

namespace Criteria

namespace Store

/-- The stores of an engine that operations and requests, in whatever order, lead to from the empty
one. -/
inductive Reachable (engine : Engine) : Store → Prop
  | empty : Reachable engine (.empty engine)
  | perform {store : Store} (h : Reachable engine store) (call : Call) :
      Reachable engine ((store.through call.handle).perform call.operation).store
  | service {store : Store} (h : Reachable engine store) (occasion : Occasion)
      (request : Request) : Reachable engine (ruleSite.service occasion request store).state

/-- The rules are in the order of their numbers, and all numbers have 64 bits. -/
structure Ordered (store : Store) : Prop where
  pairwise : store.rules.Pairwise (·.id < ·.id)
  nextId_lt : store.nextId < wordBound
  id_lt : ∀ rule ∈ store.rules, rule.id < wordBound

namespace Ordered

variable {store : Store}

theorem empty (engine : Engine) : Ordered (.empty engine) where
  pairwise := .nil
  nextId_lt := Nat.lt_of_sub_eq_succ rfl
  id_lt := by simp [Store.empty]

/-- Operations keep the rules in order. -/
theorem perform (h : store.Ordered) (operation : Operation) :
    (store.perform operation).store.Ordered := by
  have hstep := store.step_perform operation
  generalize store.perform operation = t at hstep
  cases hstep with
  | created =>
    refine ⟨pairwise_insert _ h.pairwise, Nat.mod_lt _ (by decide), fun rule hrule => ?_⟩
    rcases mem_of_mem_insert hrule with rfl | hrule
    · exact h.nextId_lt
    · exact h.id_lt rule hrule
  | deleted =>
    exact ⟨h.pairwise.filter _, h.nextId_lt,
      fun rule hrule => h.id_lt rule (List.mem_of_mem_filter hrule)⟩
  | _ => exact h

/-- A rule is the one of its number. -/
theorem get_id (h : store.Ordered) {rule : StoredRule} (hrule : rule ∈ store.list) :
    store.get rule.id = .ok rule := by
  obtain ⟨front, back, hrules⟩ := List.append_of_mem hrule
  have hfront : ∀ r ∈ front, r.id < rule.id := by
    have hpairwise := h.pairwise
    rw [show store.rules = front ++ rule :: back from hrules, List.pairwise_append] at hpairwise
    exact fun r hr => hpairwise.2.2 r hr rule List.mem_cons_self
  rw [get_eq_ok_iff, List.find?_eq_some_iff_append]
  exact ⟨by simp, front, back, hrules, fun r hr => by simpa using Nat.ne_of_lt (hfront r hr)⟩

/-- The numbers of all rules, as they are listed, stand for all rules. -/
theorem resolve_list (h : store.Ordered) :
    store.resolve (store.list.map (·.id)) = .ok store.list := by
  rw [resolve, mapM_eq_ok_iff, List.forall₂_map_left_iff, List.forall₂_same]
  exact fun rule hrule => h.get_id hrule

end Ordered

namespace Reachable

variable {engine : Engine} {store : Store}

theorem ordered (h : Reachable engine store) : store.Ordered := by
  induction h with
  | empty => exact .empty engine
  | perform _ call ih =>
    rw [through_eq]
    exact ih.perform call.operation
  | @service store _ occasion request ih =>
    obtain ⟨operation, hstate⟩ :=
      RuleSite.exists_operation_service occasion request store
    exact hstate ▸ ih.perform operation

theorem sound (h : Reachable engine store) : store.Sound engine := by
  induction h with
  | empty => exact .empty engine
  | perform _ call ih =>
    rw [through_eq]
    exact ih.perform call.operation
  | service _ occasion request ih => exact ih.service occasion request

end Reachable

/-! ### Numbers and the rules that they stand for -/

section

variable {store : Store}

/-- A number stands for a rule if there is one. -/
theorem exists_get_iff {id : Nat} : (∃ rule, store.get id = .ok rule) ↔ store.Has id := by
  simp only [get_eq_ok_iff, ← Option.isSome_iff_exists, List.find?_isSome, decide_eq_true_eq, Has]

/-- The first number without a rule is the one that fails. -/
theorem resolve_of_missing {ids : List Nat} {id : Nat}
    (h : IsFirst (fun id => ¬ store.Has id) ids id) :
    store.resolve ids = .error (.notFound id) := by
  refine (mapM_eq_error_iff store.get (.notFound id) ids).2 ⟨id, h.congr fun id _ => ?_, ?_⟩
  · rw [← exists_get_iff, not_exists]
  · refine get_eq_error_iff.2 ⟨List.find?_eq_none.2 fun rule hrule => ?_, rfl⟩
    simpa using fun hid => h.holds ⟨rule, hrule, hid⟩

/-- If there is a rule of each number, these are the rules, in the order of the numbers. -/
theorem resolve_of_has {ids : List Nat} (h : ∀ id ∈ ids, store.Has id) :
    ∃ rules, store.resolve ids = .ok rules ∧
      List.Forall₂ (fun id rule => rule ∈ store.list ∧ rule.id = id) ids rules := by
  cases hrules : store.resolve ids with
  | error failure =>
    obtain ⟨id, hfirst, -⟩ := (mapM_eq_error_iff _ _ _).1 hrules
    obtain ⟨rule, hrule⟩ := exists_get_iff.2 (h id hfirst.mem)
    exact absurd hrule (hfirst.holds rule)
  | ok rules =>
    refine ⟨rules, rfl, ((mapM_eq_ok_iff _ _ _).1 hrules).imp fun id rule hget => ?_⟩
    have hfind := get_eq_ok_iff.1 hget
    exact ⟨List.mem_of_find?_eq_some hfind, by simpa using List.find?_some hfind⟩

end

end Store

end Criteria
