/-!
# Comparators and connectives

An operator is either one of the known ones or the text that stood in its place. Unknown text is
kept, so that it can be refused where the rule is evaluated rather than where it is read.

## Main definitions

* `Comparator`, `Connective`: the operators, `text` their spelling and `ofText` its reading.
* `IsCanonical`: an unknown operator does not hold the text of a known one.

## Main results

* `Comparator.text_ofText`, `Connective.text_ofText`: reading keeps the text.
* `Comparator.isCanonical_ofText`, `Connective.isCanonical_ofText`: reading gives a canonical
  operator.
-/

namespace Criteria

/-- How a field is compared with a literal. -/
inductive Comparator where
  | greater
  | less
  | equal
  | atLeast
  | atMost
  /-- Text that is no comparator. -/
  | unknown (text : String)
deriving DecidableEq, Inhabited

namespace Comparator

/-- The comparator that a text spells. -/
def ofText (text : String) : Comparator :=
  if text = ">" then .greater
  else if text = "<" then .less
  else if text = "=" then .equal
  else if text = ">=" then .atLeast
  else if text = "<=" then .atMost
  else .unknown text

/-- The spelling of a comparator. -/
def text : Comparator → String
  | .greater => ">"
  | .less => "<"
  | .equal => "="
  | .atLeast => ">="
  | .atMost => "<="
  | .unknown text => text

/-- It is one of the five comparators. -/
def isKnown : Comparator → Bool
  | .unknown _ => false
  | _ => true

/-- It is the comparator that its text spells. -/
def IsCanonical (c : Comparator) : Prop := ofText c.text = c

@[simp] theorem text_ofText (text : String) : (ofText text).text = text := by
  unfold ofText
  repeat' split
  all_goals simp_all [Comparator.text]

theorem isCanonical_ofText (text : String) : (ofText text).IsCanonical := by
  simp [IsCanonical]

theorem isCanonical_of_isKnown {c : Comparator} (h : c.isKnown = true) : c.IsCanonical := by
  cases c <;> first | rfl | cases h

end Comparator

/-- How two conditions are combined. -/
inductive Connective where
  | and
  | or
  /-- Text that is no connective. -/
  | unknown (text : String)
deriving DecidableEq, Inhabited

namespace Connective

/-- The connective that a text spells, in capital letters. -/
def ofText (text : String) : Connective :=
  if text = "AND" then .and
  else if text = "OR" then .or
  else .unknown text

/-- The spelling of a connective. -/
def text : Connective → String
  | .and => "AND"
  | .or => "OR"
  | .unknown text => text

/-- It is one of the two connectives. -/
def isKnown : Connective → Bool
  | .unknown _ => false
  | _ => true

/-- It is the connective that its text spells. -/
def IsCanonical (c : Connective) : Prop := ofText c.text = c

@[simp] theorem text_ofText (text : String) : (ofText text).text = text := by
  unfold ofText
  repeat' split
  all_goals simp_all [Connective.text]

theorem isCanonical_ofText (text : String) : (ofText text).IsCanonical := by
  simp [IsCanonical]

end Connective

end Criteria
