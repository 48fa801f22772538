import Criteria.Json.Basic
import Criteria.Number.Decimal
import Criteria.Text.Digits

/-!
# Numerals of JSON text

A numeral without a fraction and an exponent that fits 64 bits is an integer, and so is a negative
one of at least `-2 ^ 63`; every other numeral, `-0` included, is a double. Such a double is
computed in two roundings: the digits are gathered into a 64-bit whole number, digits that no
longer fit counting as zeros before the point and dropped behind it; that number is rounded to a
double; then it is multiplied or divided by one power of ten, in steps of at most `10 ^ 308`.

## Main definitions

* `Json.Numeral`: the parts of a numeral.
* `Json.Numeral.number?`: the number it denotes; none if that lies beyond the range of doubles.
-/

namespace Criteria.Json

/-- The parts of a numeral, digits as written. -/
structure Numeral where
  /-- It begins with a minus sign. -/
  negative : Bool
  /-- The digits before the point. -/
  whole : List Char
  /-- The digits behind the point, if there is one. -/
  fraction : Option (List Char)
  /-- The sign and digits of the exponent, if there is one. -/
  exponent : Option (Bool × List Char)
deriving DecidableEq, Inhabited

namespace Numeral

open Text (digitValue digitsValue)

/-- Appends digits to a 64-bit whole number while it still fits; gives the number and the digits
left over. -/
def gather (significand : Nat) : List Char → Nat × List Char
  | [] => (significand, [])
  | c :: rest =>
    let next := 10 * significand + digitValue c
    if next < wordBound then gather next rest else (significand, c :: rest)

/-- The 64-bit whole number made of the leading digits, and the power of ten it counts. -/
def significand (n : Numeral) : Nat × Int :=
  let (whole, dropped) := gather 0 n.whole
  let fraction := n.fraction.getD []
  let (digits, unused) := gather whole fraction
  (digits, (dropped.length : Int) - (fraction.length - unused.length : Nat))

/-- The written exponent. -/
def writtenExponent (n : Numeral) : Int :=
  match n.exponent with
  | none => 0
  | some (true, digits) => -(digitsValue digits : Int)
  | some (false, digits) => digitsValue digits

/-- A power of ten, as a double. -/
def power? (exponent : Nat) : Option Magnitude := Magnitude.ofNat? (tenTo exponent)

/-- Divides by a power of ten, in steps of at most `10 ^ 308`. -/
def scaleDown (m : Magnitude) (exponent : Nat) : Option Magnitude :=
  if m.quanta = 0 then some m
  else if exponent ≤ 308 then do m.div? (← power? exponent)
  else do scaleDown (← m.div? (← power? 308)) (exponent - 308)
termination_by exponent

/-- A double times a power of ten; none if it lies beyond the range. -/
def scale? (m : Magnitude) : Int → Option Magnitude
  | .ofNat exponent =>
    if m.quanta = 0 then some m
    else if exponent ≤ 308 then do m.mul? (← power? exponent)
    else none
  | .negSucc exponent => scaleDown m (exponent + 1)

/-- The size of the double that a numeral denotes. -/
def magnitude? (n : Numeral) : Option Magnitude := do
  let (digits, exponent) := n.significand
  scale? (← Magnitude.ofNat? digits) (exponent + n.writtenExponent)

/-- The integer that a numeral denotes, if it is read as one. -/
def integer? (n : Numeral) : Option Int :=
  if n.fraction.isSome || n.exponent.isSome then none
  else
    let value := digitsValue n.whole
    if n.negative then
      if 0 < value ∧ value ≤ wordBound / 2 then some (-(value : Int)) else none
    else if value < wordBound then some value
    else none

/-- The number that a numeral denotes; none if it lies beyond the range of doubles. -/
def number? (n : Numeral) : Option Number :=
  match n.integer? with
  | some value => some (.integer value)
  | none => n.magnitude?.map (.real n.negative)

end Numeral

end Criteria.Json
