import Criteria.Number.Double

/-!
# JSON values

Numbers come in two kinds: integers, kept exactly, and finite doubles. The members of an object
are listed in the order in which the value holds them; `Json.arrange` gives the order of a
free-form object, sorted by name with the last of several equal names kept.

## Main definitions

* `Json.Number`, `Json`: numbers and values.
* `Json.kind`: the name of a value's type.
* `Json.setMember`, `Json.arrange`: sorted objects.

## Main results

* `Json.lookup_setMember_self`, `Json.lookup_setMember_of_ne`: setting a member changes the value
  under its own name and under no other.
-/

namespace Criteria

/-- A JSON number: an integer, or a finite double. -/
inductive Json.Number where
  /-- An integer, exactly. -/
  | integer (value : Int)
  /-- A finite double. -/
  | real (negative : Bool) (magnitude : Magnitude)
deriving DecidableEq, Inhabited

/-- The double nearest to a JSON number. -/
def Json.Number.toDouble : Json.Number → Double
  | .integer value => .ofInt value
  | .real negative magnitude => .finite negative magnitude

/-- A JSON value. -/
inductive Json where
  | null
  | boolean (value : Bool)
  | number (value : Json.Number)
  | text (value : String)
  | array (items : List Json)
  | object (members : List (String × Json))
deriving BEq, Inhabited

namespace Json

/-- An integer as a JSON value. -/
def int (value : Int) : Json := .number (.integer value)

/-- A natural number as a JSON value. -/
def nat (value : Nat) : Json := .int value

/-- A double as a JSON value; what is not finite has no JSON form. -/
def ofDouble : Double → Json
  | .finite negative magnitude => .number (.real negative magnitude)
  | _ => .null

/-- The name of the type of a value. -/
def kind : Json → String
  | .null => "null"
  | .boolean _ => "boolean"
  | .number _ => "number"
  | .text _ => "string"
  | .array _ => "array"
  | .object _ => "object"

/-! ### Members in order of their names -/

/-- Sets a member among members sorted by name, replacing one of the same name. -/
def setMember (name : String) (value : α) : List (String × α) → List (String × α)
  | [] => [(name, value)]
  | (other, held) :: rest =>
    match compare name other with
    | .lt => (name, value) :: (other, held) :: rest
    | .eq => (name, value) :: rest
    | .gt => (other, held) :: setMember name value rest

/-- The members sorted by name; of several with one name the last is kept. -/
def arrange (members : List (String × α)) : List (String × α) :=
  members.foldl (fun sorted member => setMember member.1 member.2 sorted) []

@[simp] theorem arrange_nil : arrange ([] : List (String × α)) = [] := rfl

theorem arrange_concat (members : List (String × α)) (name : String) (value : α) :
    arrange (members ++ [(name, value)]) = setMember name value (arrange members) := by
  simp [arrange]

@[simp] theorem lookup_setMember_self (name : String) (value : α) (members : List (String × α)) :
    (setMember name value members).lookup name = some value := by
  induction members with
  | nil => simp [setMember]
  | cons member rest ih =>
    obtain ⟨other, held⟩ := member
    simp only [setMember]
    split
    · simp
    · simp
    · next h =>
      have hne : (name == other) = false := by
        simp only [beq_eq_false_iff_ne, ne_eq]
        rintro rfl
        simp [Std.ReflCmp.compare_self] at h
      simp [List.lookup_cons, hne, ih]

theorem lookup_setMember_of_ne {name other : String} (h : other ≠ name) (value : α)
    (members : List (String × α)) :
    (setMember name value members).lookup other = members.lookup other := by
  induction members with
  | nil =>
    have hne : (other == name) = false := by simpa using h
    simp [setMember, List.lookup_cons, hne]
  | cons member rest ih =>
    obtain ⟨key, held⟩ := member
    have hne : (other == name) = false := by simpa using h
    simp only [setMember]
    split
    · simp [List.lookup_cons, hne]
    · next heq =>
      have : name = key := Std.LawfulEqOrd.eq_of_compare heq
      subst this
      simp [List.lookup_cons, hne]
    · simp [List.lookup_cons, ih]

end Json

end Criteria
