import Criteria.Execution

/-!
# Inquiries

An inquiry asks whether a record satisfies stored rules: those that it names, or all of them.

## Main definitions

* `Inquiry`: the rules that are meant, and the data.
* `Store.resolve`: the rules that numbers stand for.
* `Store.inquire`: executes the rules that are meant.
-/

namespace Criteria

/-- Asks whether data satisfies stored rules. -/
structure Inquiry where
  /-- The numbers of the rules that are meant; none if all of them are. -/
  ruleIds : Option (List Nat)
  /-- What should be a record. -/
  data : Json
deriving Inhabited

/-- An inquiry that is being read. -/
structure Inquiry.Draft where
  ruleIds : Option (Option (List Nat)) := none
  data : Option Json := none

/-- Reads an inquiry; the numbers may be missing. -/
def Inquiry.reader : Json.Reader Inquiry := .record {
  fields := [
    .of "ruleIds" Inquiry.Draft.ruleIds (fun l d => { d with ruleIds := some l })
      (.orNull (.listOf (.natural wordBound))),
    .of "data" Inquiry.Draft.data (fun value d => { d with data := some value }) .value]
  blank := {}
  finish := fun d => do return ⟨d.ruleIds.getD none, ← d.data⟩ }

namespace Store

/-- The rules that numbers stand for, in the order of the numbers; the first number without a rule
fails. -/
def resolve (store : Store) (ids : List Nat) : Except Failure (List StoredRule) :=
  ids.mapM store.get

/-- The rules that an inquiry means. -/
def rulesFor (store : Store) (inquiry : Inquiry) : Except Failure (List StoredRule) :=
  match inquiry.ruleIds with
  | some ids => store.resolve ids
  | none => .ok store.list

/-- Executes the rules that an inquiry means on its data. The data is looked at first, then the
rules. -/
def inquire (store : Store) (elapsed : Elapsed) (inquiry : Inquiry) : Transaction Outcome :=
  match (do return (← Record.read inquiry.data, ← store.rulesFor inquiry)) with
  | .error failure => ⟨.error failure, store, []⟩
  | .ok (record, rules) =>
    let (result, events) := store.engine.execute record elapsed rules
    ⟨result, store, events⟩

end Store

end Criteria
