/-!
# Cutting texts

## Main definitions

* `Text.cutAt`: the parts of a text between the occurrences of a character.

## Main results

* `Text.cutAt_ne_nil`: there is always a part.
-/

namespace Criteria.Text

/-- Puts a character in front of the first of several parts. -/
def consFirst (c : Char) : List (List Char) → List (List Char)
  | [] => [[c]]
  | part :: rest => (c :: part) :: rest

/-- The parts of a text between the occurrences of a character. -/
def cutAt (separator : Char) : List Char → List (List Char)
  | [] => [[]]
  | c :: s => if c = separator then [] :: cutAt separator s else consFirst c (cutAt separator s)

@[simp] theorem consFirst_ne_nil (c : Char) (parts : List (List Char)) :
    consFirst c parts ≠ [] := by
  cases parts <;> simp [consFirst]

/-- There is always a part. -/
@[simp] theorem cutAt_ne_nil (separator : Char) (s : List Char) : cutAt separator s ≠ [] := by
  cases s with
  | nil => simp [cutAt]
  | cons c s =>
    rw [cutAt]
    split
    · simp
    · simp

end Criteria.Text
