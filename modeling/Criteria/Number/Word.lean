/-!
# Words

Natural numbers of 64 bits.

## Main definitions

* `wordBound`: the first number that does not fit.
-/

namespace Criteria

/-- Natural numbers of 64 bits are below this bound. -/
def wordBound : Nat := 18446744073709551616

end Criteria
