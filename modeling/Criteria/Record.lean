import Criteria.Json.Reader

/-!
# Data records

A record is what a rule is held against: fields with JSON values, listed by name in increasing
order, each name once.

## Main definitions

* `Record`: the fields of a record, `Record.get?` the value of one.
* `Record.ofMembers`: the last of several fields with one name counts.
* `Record.ofJson?`: a record is a JSON object.
-/

namespace Criteria

/-- A data record. -/
structure Record where
  /-- The fields in increasing order of their names. -/
  fields : List (String × Json)
deriving BEq, Inhabited

namespace Record

/-- The value of a field; none if there is no such field. -/
def get? (record : Record) (name : String) : Option Json := record.fields.lookup name

/-- The number of fields. -/
def size (record : Record) : Nat := record.fields.length

/-- The names of the fields, in increasing order. -/
def names (record : Record) : List String := record.fields.map (·.1)

/-- The record with the given fields; the last of several with one name counts. -/
def ofMembers (members : List (String × Json)) : Record := ⟨Json.arrange members⟩

/-- Why a JSON value is no record. -/
def refusal (value : Json) : String := "数据记录必须是 JSON 对象，实际为 " ++ value.kind

/-- The record that a JSON value is: its members, if it is an object; else the reason why not. -/
def ofJson (value : Json) : Except String Record :=
  match value with
  | .object members => .ok (ofMembers members)
  | value => .error (refusal value)

@[simp] theorem get?_ofMembers_nil (name : String) : (ofMembers []).get? name = none := rfl

end Record

end Criteria
