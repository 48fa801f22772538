import Criteria.Failure
import Criteria.Metric
import Criteria.Rule.Engine
import Criteria.Text.Blank

/-!
# The store of rules

Rules are kept as text, in increasing order of their numbers. A rule is compiled when it is
stored, and refused if that fails; the tree is not kept. Numbers are given out in sequence and not
used again when a rule is deleted. A table in which the rules are in no order, and are sorted to be
listed, has the same answers (`Criteria.Proofs.RuleTable`).

## Main definitions

* `StoredRule`: a rule with its number, name and time.
* `Store`: the stored rules and the next number.
* `Transaction`: what an operation gives, leaves behind and records.
* `Store.create`, `Store.list`, `Store.get`, `Store.delete`, `Store.size`: the operations.
-/

namespace Criteria

/-- A rule that is stored. -/
structure StoredRule where
  id : Nat
  name : String
  /-- The text of the rule, as it was given. -/
  rule : String
  /-- When it was stored. -/
  createdAt : String
deriving DecidableEq, Inhabited

/-- The stored rules, and what is needed to store more. -/
structure Store where
  /-- The engine that has to accept a rule. -/
  engine : Engine
  /-- The number of the next rule. -/
  nextId : Nat
  /-- The stored rules in increasing order of their numbers. -/
  rules : List StoredRule
deriving DecidableEq, Inhabited

/-- What an operation gives, which store it leaves behind, and which events it records. -/
structure Transaction (α : Type) where
  result : Except Failure α
  store : Store
  events : List Metric

namespace Store

/-- A store without rules; the first one will have number 1. -/
def empty (engine : Engine) : Store := ⟨engine, 1, []⟩

/-- Puts a rule in its place among rules in increasing order, for one of the same number. -/
def insert (rule : StoredRule) : List StoredRule → List StoredRule
  | [] => [rule]
  | other :: rest =>
    if rule.id < other.id then rule :: other :: rest
    else if rule.id = other.id then rule :: rest
    else other :: insert rule rest

/-- The stored rules, in increasing order of their numbers. -/
def list (store : Store) : List StoredRule := store.rules

/-- The number of stored rules. -/
def size (store : Store) : Nat := store.rules.length

/-- There are no stored rules. -/
def isEmpty (store : Store) : Bool := store.size == 0

/-- The rule of a number. -/
def get (store : Store) (id : Nat) : Except Failure StoredRule :=
  match store.rules.find? (·.id = id) with
  | some rule => .ok rule
  | none => .error (.notFound id)

/-- Why a rule is not stored, with the events to record; none if it is acceptable. The name is
looked at first, then the text, and only then is the rule compiled. -/
def refusal? (store : Store) (name rule : String) : Option (Failure × List Metric) :=
  if Text.isAllBlank name then some (.invalid "规则名称不能为空", [])
  else if Text.isAllBlank rule then some (.invalid "规则字符串不能为空", [])
  else match store.engine.compile rule with
    | .ok _ => none
    | .error cause => some (.parse cause, [.compileFailure cause.code])

/-- Stores a rule under the next number. Numbers fit 64 bits and begin anew behind the last one. -/
def create (store : Store) (now name rule : String) : Transaction StoredRule :=
  match store.refusal? name rule with
  | some (failure, events) => ⟨.error failure, store, events⟩
  | none =>
    let stored : StoredRule := ⟨store.nextId, name, rule, now⟩
    let rules := insert stored store.rules
    ⟨.ok stored, { store with nextId := (store.nextId + 1) % wordBound, rules := rules },
      [.rulesStored rules.length]⟩

/-- Deletes the rule of a number and gives it back. -/
def delete (store : Store) (id : Nat) : Transaction StoredRule :=
  match store.rules.find? (·.id = id) with
  | some removed =>
    let rules := store.rules.filter (·.id ≠ id)
    ⟨.ok removed, { store with rules := rules }, [.rulesStored rules.length]⟩
  | none => ⟨.error (.notFound id), store, []⟩

end Store

end Criteria
