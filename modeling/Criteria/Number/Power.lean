/-!
# Powers of two and ten

## Main definitions

* `twoTo`, `tenTo`: powers of two and ten.

## Main results

* `twoTo_pos`, `tenTo_pos`: powers are not zero.
* `twoTo_add`: exponents add up.
-/

namespace Criteria

/-- A power of two. -/
def twoTo (exponent : Nat) : Nat := Nat.pow 2 exponent

/-- A power of ten. -/
def tenTo (exponent : Nat) : Nat := Nat.pow 10 exponent

theorem twoTo_pos (exponent : Nat) : 0 < twoTo exponent := Nat.two_pow_pos exponent

theorem tenTo_pos (exponent : Nat) : 0 < tenTo exponent :=
  Nat.pow_pos (Nat.succ_pos 9)

/-- Exponents add up. -/
theorem twoTo_add (a b : Nat) : twoTo (a + b) = twoTo a * twoTo b := Nat.pow_add 2 a b

end Criteria
