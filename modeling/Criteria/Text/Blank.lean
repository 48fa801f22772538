/-!
# Blanks

The blanks of Unicode (the property `White_Space`), and trimming.

## Main definitions

* `Text.isBlank`: a character is a blank.
* `Text.trim`: a text without the blanks at its ends.
* `Text.isAllBlank`: a text holds nothing but blanks.

## Main results

* `Text.trim_eq_nil_iff`: just the texts of blanks are trimmed to nothing.
-/

namespace Criteria.Text

/-- A character with the property `White_Space`. -/
def isBlank (c : Char) : Bool :=
  let n := c.toNat
  (decide (0x09 ≤ n) && decide (n ≤ 0x0d)) || n == 0x20 || n == 0x85 || n == 0xa0 || n == 0x1680 ||
    (decide (0x2000 ≤ n) && decide (n ≤ 0x200a)) || n == 0x2028 || n == 0x2029 || n == 0x202f ||
    n == 0x205f || n == 0x3000

/-- A text without the blanks at its ends. -/
def trim (s : List Char) : List Char :=
  ((s.dropWhile isBlank).reverse.dropWhile isBlank).reverse

/-- A string without the blanks at its ends. -/
def trimmed (s : String) : String := String.ofList (trim s.toList)

/-- A string holds nothing but blanks. -/
def isAllBlank (s : String) : Bool := s.toList.all isBlank

@[simp] theorem trim_nil : trim [] = [] := rfl

private theorem dropWhile_eq_nil_iff_all (p : Char → Bool) (s : List Char) :
    s.dropWhile p = [] ↔ s.all p = true := by
  induction s with
  | nil => simp
  | cons c s ih =>
    rw [List.dropWhile_cons, List.all_cons]
    cases p c <;> simp [ih]

/-- Just the texts of blanks are trimmed to nothing. -/
theorem trim_eq_nil_iff (s : List Char) : trim s = [] ↔ s.all isBlank = true := by
  simp only [trim, List.reverse_eq_nil_iff, dropWhile_eq_nil_iff_all, List.all_reverse]
  constructor
  · intro h
    rw [← dropWhile_eq_nil_iff_all]
    cases hd : s.dropWhile isBlank with
    | nil => rfl
    | cons c r =>
      have hc : isBlank c = false := by
        have := List.head?_dropWhile_not isBlank s
        simpa [hd] using this
      simp [hd, hc] at h
  · intro h
    rw [(dropWhile_eq_nil_iff_all _ _).2 h]
    rfl

end Criteria.Text
