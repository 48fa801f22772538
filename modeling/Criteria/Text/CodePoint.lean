import Criteria.Text.Digits
import Criteria.Text.Rest

/-!
# Characters given by number

## Main definitions

* `Text.charOfHex?`: the character whose number has given hexadecimal digits.
* `Text.codePoint?`: the character whose number stands in front of a text.
-/

namespace Criteria.Text

/-- The character whose number has these hexadecimal digits. -/
def charOfHex? (digits : List Nat) : Option Char :=
  let n := digits.foldl (fun n digit => 16 * n + digit) 0
  if n.isValidChar then some (Char.ofNat n) else none

/-- The character with a number given by that many hexadecimal digits. -/
def codePoint? (count : Nat) (s : List Char) : Option (Char × Remaining s) := do
  let digits := s.take count
  let c ← charOfHex? (← digits.mapM hexValue?)
  if digits.length = count then return (c, ⟨s.drop count, (List.drop_suffix count s).length_le⟩)
  else none

end Criteria.Text
