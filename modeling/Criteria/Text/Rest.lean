/-!
# Rests of texts

Whoever takes something off the front of a text leaves a rest. Its length is known to be less, so
taking things off comes to an end.

## Main definitions

* `Text.Rest`: what is left after something was taken.
* `Text.Remaining`: what is left after something, or nothing, was taken.
-/

namespace Criteria.Text

/-- What is left of a text after something was taken off its front. -/
abbrev Rest (s : List Char) : Type := { rest : List Char // rest.length < s.length }

/-- What is left, seen from a longer text. -/
def Rest.after {s r : List Char} (h : r.length < s.length) (rest : Rest r) : Rest s :=
  ⟨rest.1, Nat.lt_trans rest.2 h⟩

/-- What is left of what is left. -/
def Rest.trans {s : List Char} (rest : Rest s) (inner : Rest rest.1) : Rest s :=
  inner.after rest.2

/-- What is left of a text is left of an equal one. -/
def Rest.ofEq {s t : List Char} (h : s = t) (rest : Rest t) : Rest s :=
  ⟨rest.1, by rw [h]; exact rest.2⟩

/-- What is left after one character. -/
def Rest.tail {c : Char} {s : List Char} : Rest (c :: s) := ⟨s, Nat.lt_succ_self _⟩

/-- What is left of a text, seen from that text with a character in front. -/
def Rest.cons {c : Char} {s : List Char} (rest : Rest s) : Rest (c :: s) :=
  rest.after (Nat.lt_succ_self _)

/-- What is left of a text behind its first character and those characters after it that have a
property. -/
def Rest.ofDropWhile {c : Char} {s : List Char} (p : Char → Bool) : Rest (c :: s) :=
  ⟨s.dropWhile p, Nat.lt_succ_of_le (List.dropWhile_suffix p).length_le⟩

/-- What is left of a text after something, or nothing, was taken off its front. -/
abbrev Remaining (s : List Char) : Type := { rest : List Char // rest.length ≤ s.length }

/-- The whole text is left. -/
def Remaining.all (s : List Char) : Remaining s := ⟨s, Nat.le_refl _⟩

/-- What is left of a text, seen from that text with a character in front. -/
def Remaining.cons {c : Char} {s : List Char} (rest : Remaining s) : Rest (c :: s) :=
  ⟨rest.1, Nat.lt_succ_of_le rest.2⟩

/-- What is left, if something was taken for sure. -/
def Rest.remaining {s : List Char} (rest : Rest s) : Remaining s := ⟨rest.1, Nat.le_of_lt rest.2⟩

/-- What is left of what is left, if nothing may have been taken from that. -/
def Rest.past {s : List Char} (rest : Rest s) (inner : Remaining rest.1) : Rest s :=
  ⟨inner.1, Nat.lt_of_le_of_lt inner.2 rest.2⟩

/-- What is left of what is left, if nothing may have been taken before. -/
def Rest.within {s : List Char} (part : Remaining s) (rest : Rest part.1) : Rest s :=
  ⟨rest.1, Nat.lt_of_lt_of_le rest.2 part.2⟩

theorem length_dropWhile_le (p : Char → Bool) (s : List Char) :
    (s.dropWhile p).length ≤ s.length :=
  (List.dropWhile_suffix p).length_le

theorem length_lt_of_dropWhile {p : Char → Bool} {s : List Char} {c : Char} {r : List Char}
    (h : s.dropWhile p = c :: r) : r.length < s.length := by
  have := length_dropWhile_le p s
  rw [h] at this
  exact this

end Criteria.Text
