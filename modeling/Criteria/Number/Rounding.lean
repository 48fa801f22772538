/-!
# Rounding a quotient to a whole number

`roundHalfEven num den` is the whole number nearest to `num / den`, a half going to the even
neighbour. All rounding of the library goes through this one function.

## Main definitions

* `roundHalfEven`: nearest whole number, ties to even.

## Main results

* `roundHalfEven_mul_left`: an exact quotient is kept.
* `div_le_roundHalfEven`, `roundHalfEven_le_div_add_one`: the answer is one of the two neighbours
  of the quotient.
-/

namespace Criteria

/-- The whole number nearest to `num / den`; a half goes to the even neighbour. -/
def roundHalfEven (num den : Nat) : Nat :=
  let quotient := num / den
  let doubled := 2 * (num % den)
  if doubled < den then quotient
  else if den < doubled then quotient + 1
  else if quotient % 2 = 0 then quotient
  else quotient + 1

theorem div_le_roundHalfEven (num den : Nat) : num / den ≤ roundHalfEven num den := by
  simp only [roundHalfEven]
  split
  · exact Nat.le_refl _
  · split
    · exact Nat.le_succ _
    · split
      · exact Nat.le_refl _
      · exact Nat.le_succ _

theorem roundHalfEven_le_div_add_one (num den : Nat) :
    roundHalfEven num den ≤ num / den + 1 := by
  simp only [roundHalfEven]
  split
  · exact Nat.le_succ _
  · split
    · exact Nat.le_refl _
    · split
      · exact Nat.le_succ _
      · exact Nat.le_refl _

/-- A quotient without remainder is its own rounding. -/
@[simp] theorem roundHalfEven_mul_left (n : Nat) {den : Nat} (h : 0 < den) :
    roundHalfEven (n * den) den = n := by
  simp [roundHalfEven, Nat.mul_div_cancel n h, h]

end Criteria
