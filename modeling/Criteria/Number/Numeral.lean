import Criteria.Number.Decimal
import Criteria.Text.Digits

/-!
# Plain numerals

A number written in plain text: a sign, digits with a point among them, and an exponent; or a word
for an infinity or for what is not a number.

## Main definitions

* `Decimal.ofText?`: the decimal that a text without a sign stands for.
* `Double.ofText?`: the double nearest to what a text stands for.
-/

namespace Criteria

namespace Decimal

/-- The number that digits with a sign, or without one, stand for. -/
def signed? : List Char → Option Int
  | '-' :: digits => (Text.whole? digits).map fun n => -(n : Int)
  | '+' :: digits => (Text.whole? digits).map Int.ofNat
  | digits => (Text.whole? digits).map Int.ofNat

/-- The exponent that the end of a numeral stands for. -/
def exponent? : List Char → Option Int
  | [] => some 0
  | c :: s => if c = 'e' ∨ c = 'E' then signed? s else none

/-- The decimal that a text without a sign stands for. -/
def ofText? (s : List Char) : Option Decimal := do
  let whole := s.takeWhile Char.isDigit
  let (fraction, rest) := match s.dropWhile Char.isDigit with
    | '.' :: r => (r.takeWhile Char.isDigit, r.dropWhile Char.isDigit)
    | r => ([], r)
  if whole.isEmpty && fraction.isEmpty then none
  else return ⟨Text.digitsValue (whole ++ fraction), (← exponent? rest) - fraction.length⟩

/-- A decimal with an exponent that is not needlessly small: what is left out rounds to zero. -/
def clamped (d : Decimal) : Decimal :=
  { d with exponent := max d.exponent (-(d.digits.length + 400 : Nat)) }

end Decimal

namespace Double

/-- The double that a text without a sign stands for, with a sign. -/
def unsigned? (negative : Bool) (s : List Char) : Option Double :=
  let word := s.map Char.toLower
  if word = "inf".toList ∨ word = "infinity".toList then some (.infinite negative)
  else if word = "nan".toList then some .nan
  else (Decimal.ofText? s).map fun d => .ofMagnitude? negative d.clamped.magnitude?

/-- The double nearest to what a text stands for. -/
def ofText? : List Char → Option Double
  | '-' :: s => unsigned? true s
  | '+' :: s => unsigned? false s
  | s => unsigned? false s

/-- The nearest natural number, a half going up; what is below zero, or not a number, is zero. -/
def toNatural (ceiling : Nat) : Double → Nat
  | .nan => 0
  | .infinite negative => if negative then 0 else ceiling
  | .finite true _ => 0
  | .finite false m => min ceiling ((2 * m.quanta + quantaPerUnit) / (2 * quantaPerUnit))

end Double

end Criteria
