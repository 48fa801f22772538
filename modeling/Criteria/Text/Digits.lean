import Criteria.Number.Word

/-!
# Digits

## Main definitions

* `Text.digitsValue`: the number that decimal digits stand for.
* `Text.hexValue?`: the value of a hexadecimal digit.
* `Text.natural?`: the natural number that a text is, below a bound.
* `Text.integer?`: the 64-bit integer that a text is.
-/

namespace Criteria.Text

/-- The value of a decimal digit. -/
def digitValue (c : Char) : Nat := c.toNat - 48

/-- The value of a string of decimal digits. -/
def digitsValue (digits : List Char) : Nat := digits.foldl (fun n c => 10 * n + digitValue c) 0

/-- The value of a hexadecimal digit. -/
def hexValue? (c : Char) : Option Nat :=
  if '0' ≤ c ∧ c ≤ '9' then some (c.toNat - 48)
  else if 'a' ≤ c ∧ c ≤ 'f' then some (c.toNat - 87)
  else if 'A' ≤ c ∧ c ≤ 'F' then some (c.toNat - 55)
  else none

/-- The number that a non-empty text of decimal digits stands for. -/
def whole? (s : List Char) : Option Nat :=
  if !s.isEmpty && s.all Char.isDigit then some (digitsValue s) else none

/-- The natural number below a bound that a text stands for: digits, with a plus sign or without. -/
def natural? (bound : Nat) (s : List Char) : Option Nat :=
  (whole? (if s.head? = some '+' then s.drop 1 else s)).filter (· < bound)

/-- The 64-bit integer that a text stands for: digits, with a sign or without. -/
def integer? (s : List Char) : Option Int :=
  match s with
  | '-' :: digits => ((whole? digits).filter (· ≤ wordBound / 2)).map fun n => -(n : Int)
  | s => (natural? (wordBound / 2) s).map Int.ofNat

end Criteria.Text
