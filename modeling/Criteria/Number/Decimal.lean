import Criteria.Number.Double

/-!
# Decimal notation of doubles

A decimal is a whole number times a power of ten. Reading one gives the nearest double; writing a
double gives the decimal on the coarsest grid of powers of ten that reads back to that very
double, and of two such neighbours the nearer. Two neighbours may be equally near; plain text takes
the larger then, and other notations may take the even one.

## Main definitions

* `Decimal`: a whole number times a power of ten.
* `Decimal.magnitude?`: the nearest double.
* `Tie`: which of two equally near neighbours counts.
* `Magnitude.shortest`: the decimal with the fewest digits that reads back.
* `Decimal.positional`: digits and at most a point, never an exponent.
* `Double.display`: the plain text of any double.

## Main results

* `Magnitude.neighbour?_eq_some`, `Magnitude.neighbour?_ofNat_ne_none`: the neighbours on a grid
  read back, and there is one if the multiple just below a double does.
-/

namespace Criteria

/-- The number `significand * 10 ^ exponent`. -/
structure Decimal where
  /-- The digits, as one whole number. -/
  significand : Nat
  /-- The power of ten that they are multiplied by. -/
  exponent : Int
deriving DecidableEq

namespace Decimal

/-- The double nearest to a decimal, ties to even; none if it lies beyond the range. A number of
at least `10 ^ 309` does, so larger powers of ten are never computed. -/
def magnitude? (d : Decimal) : Option Magnitude :=
  if d.significand = 0 then some .zero
  else match d.exponent with
    | .ofNat e => if 309 ≤ e then none else Magnitude.ofNat? (d.significand * tenTo e)
    | .negSucc e => Magnitude.ofQuotient? d.significand (tenTo (e + 1))

/-- The digits of the significand. -/
def digits (d : Decimal) : List Char := Nat.toDigits 10 d.significand

/-- The power of ten of the leading digit. -/
def leading (d : Decimal) : Int := d.exponent + d.digits.length - 1

/-- Digits and at most a point: zeros fill the places up to the point on either side. -/
def positional (d : Decimal) : List Char :=
  match d.exponent with
  | .ofNat e => if d.significand = 0 then ['0'] else d.digits ++ List.replicate e '0'
  | .negSucc e =>
    let places := e + 1
    let padded := List.replicate (places + 1 - d.digits.length) '0' ++ d.digits
    padded.take (padded.length - places) ++ '.' :: padded.drop (padded.length - places)

end Decimal

/-- Which of two equally near neighbours counts. -/
inductive Tie where
  /-- The even one. -/
  | even
  /-- The larger one. -/
  | up
deriving DecidableEq, Inhabited

/-- The lower one of two equally near neighbours counts. -/
def Tie.isLower (tie : Tie) (lower : Nat) : Bool :=
  match tie with
  | .even => lower % 2 == 0
  | .up => false

namespace Magnitude

/-- The multiple of `10 ^ exponent` just below or at a double, counted in that power of ten,
and what is left over, as a fraction. -/
private def onGrid (m : Magnitude) : Int → Nat × Nat × Nat
  | .ofNat e =>
    let den := quantaPerUnit * tenTo e
    (m.quanta / den, m.quanta % den, den)
  | .negSucc e =>
    let num := m.quanta * tenTo (e + 1)
    (num / quantaPerUnit, num % quantaPerUnit, quantaPerUnit)

/-- Of the two neighbours of a double on the grid of multiples of `10 ^ exponent`, the nearer one
that reads back to it. -/
def neighbour? (tie : Tie) (m : Magnitude) (exponent : Int) : Option Decimal :=
  let (count, excess, den) := m.onGrid exponent
  let below : Decimal := ⟨count, exponent⟩
  let above : Decimal := ⟨count + 1, exponent⟩
  match below.magnitude? == some m, above.magnitude? == some m with
  | true, true =>
    let isBelow := decide (2 * excess < den) || (2 * excess == den && tie.isLower count)
    some (if isBelow then below else above)
  | true, false => some below
  | false, true => some above
  | false, false => none

/-- A neighbour lies on the grid and reads back. -/
theorem neighbour?_eq_some {tie : Tie} {m : Magnitude} {exponent : Int} {d : Decimal}
    (h : m.neighbour? tie exponent = some d) :
    d.exponent = exponent ∧ d.magnitude? = some m := by
  rw [neighbour?] at h
  obtain ⟨count, excess, den⟩ := m.onGrid exponent
  simp only at h
  split at h
  · next hbelow habove =>
    rw [beq_iff_eq] at hbelow habove
    obtain rfl := Option.some.inj h
    split
    · exact ⟨rfl, hbelow⟩
    · exact ⟨rfl, habove⟩
  · next hbelow _ =>
    obtain rfl := Option.some.inj h
    exact ⟨rfl, beq_iff_eq.1 hbelow⟩
  · next _ habove =>
    obtain rfl := Option.some.inj h
    exact ⟨rfl, beq_iff_eq.1 habove⟩
  · cases h

/-- A double has a neighbour on a grid if the multiple just below it reads back. -/
theorem neighbour?_ofNat_ne_none (tie : Tie) {m : Magnitude} {e : Nat}
    (h : (⟨m.quanta / (quantaPerUnit * tenTo e), .ofNat e⟩ : Decimal).magnitude? = some m) :
    m.neighbour? tie (.ofNat e) ≠ none := by
  intro hnone
  rw [neighbour?, onGrid] at hnone
  simp only at hnone
  split at hnone
  · cases hnone
  · cases hnone
  · cases hnone
  · next hbelow _ => exact absurd (beq_iff_eq.2 h) (Bool.eq_false_iff.1 hbelow)

/-- The finest grid, `10 ^ -1074`, holds every double exactly. -/
def exact (m : Magnitude) : Decimal := ⟨m.quanta * Nat.pow 5 1074, -1074⟩

/-- The first hit among `steps` grids, from `10 ^ exponent` to finer ones. -/
def shortestFrom (tie : Tie) (m : Magnitude) (exponent : Int) : Nat → Decimal
  | 0 => m.exact
  | steps + 1 => match m.neighbour? tie exponent with
    | some d => d
    | none => m.shortestFrom tie (exponent - 1) steps

/-- The decimal with the fewest digits that reads back to this double. -/
def shortest (tie : Tie) (m : Magnitude) : Decimal :=
  if m.quanta = 0 then ⟨0, 0⟩
  else
    let places := (Nat.toDigits 10 (m.quanta / quantaPerUnit)).length
    m.shortestFrom tie places (places + 1074)

end Magnitude

/-- The plain text of a double: decimal digits without an exponent, the fewest that read back; a tie
goes up. -/
def Double.display : Double → List Char
  | .nan => "NaN".toList
  | .infinite negative => (if negative then ['-'] else []) ++ "inf".toList
  | .finite negative magnitude =>
    (if negative then ['-'] else []) ++ (magnitude.shortest .up).positional

end Criteria
