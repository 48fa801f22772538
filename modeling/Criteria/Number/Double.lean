import Criteria.Number.Power
import Criteria.Number.Rounding

/-!
# Double-precision numbers, exactly

A finite double is kept as a sign and a whole number of *quanta*, one quantum being the smallest
positive double, `2 ^ -1074`. In this unit every finite double is a natural number with at most 53
significant bits below `2 ^ 2098`, so comparison is comparison of integers and every rounding is
rounding to a multiple of a power of two.

## Main definitions

* `Magnitude`: the size of a finite double.
* `Magnitude.nearest?`: the double nearest to a quotient of quanta, ties to even.
* `Double`: a double-precision number, with both zeros, the infinities and "not a number".
* `Double.compare?`: numerical comparison, without an answer for "not a number".
* `Double.ofInt`: the double nearest to an integer.

## Main results

* `spacing_dvd_nearestQuanta`: rounding gives a number with at most 53 significant bits.
-/

namespace Criteria

/-- The number of quanta in one. -/
def quantaPerUnit : Nat := twoTo 1074

/-- The first power of two, in quanta, that lies beyond every finite double. -/
def quantaBound : Nat := twoTo 2098

theorem quantaPerUnit_pos : 0 < quantaPerUnit := twoTo_pos 1074

theorem quantaBound_pos : 0 < quantaBound := twoTo_pos 2098

/-- The distance, in quanta, between neighbouring doubles of this size. -/
def spacing (quanta : Nat) : Nat := twoTo (quanta.log2 - 52)

theorem spacing_pos (quanta : Nat) : 0 < spacing quanta := twoTo_pos _

/-- The multiple of the local spacing that is nearest to `num / den` quanta. -/
def nearestQuanta (num den : Nat) : Nat :=
  let unit := spacing (num / den)
  roundHalfEven num (den * unit) * unit

/-- A number of at most 53 significant bits is a multiple of its own spacing. -/
theorem spacing_dvd_mul_twoTo {r k : Nat} (h : r ≤ twoTo 53) :
    spacing (r * twoTo k) ∣ r * twoTo k := by
  rcases Nat.lt_or_eq_of_le h with h | h
  · rcases Nat.eq_zero_or_pos r with rfl | hr
    · simp
    · have hlt : r * twoTo k < twoTo (53 + k) := by
        rw [twoTo_add]
        exact Nat.mul_lt_mul_of_pos_right h (twoTo_pos k)
      have hlog := (Nat.log2_lt (Nat.ne_of_gt (Nat.mul_pos hr (twoTo_pos k)))).2 hlt
      exact Nat.dvd_trans (Nat.pow_dvd_pow 2 (by omega)) (Nat.dvd_mul_left _ _)
  · subst h
    rw [← twoTo_add]
    exact Nat.pow_dvd_pow 2 (by rw [twoTo, Nat.pow_eq, Nat.log2_two_pow]; omega)

/-- Counted in its own spacing, a number has at most 53 bits. -/
theorem div_spacing_lt (n : Nat) : n / spacing n < twoTo 53 := by
  apply (Nat.div_lt_iff_lt_mul (spacing_pos n)).2
  rw [spacing, ← twoTo_add]
  exact Nat.lt_of_lt_of_le Nat.lt_log2_self (Nat.pow_le_pow_right (by decide) (by omega))

/-- Rounding gives a number that is representable: a multiple of its own spacing. -/
theorem spacing_dvd_nearestQuanta (num den : Nat) :
    spacing (nearestQuanta num den) ∣ nearestQuanta num den := by
  apply spacing_dvd_mul_twoTo
  have hle := roundHalfEven_le_div_add_one num (den * spacing (num / den))
  rw [← Nat.div_div_eq_div_mul] at hle
  exact Nat.le_trans hle (div_spacing_lt _)

/-- The size of a finite double, as a whole number of quanta. -/
structure Magnitude where
  /-- How many quanta. -/
  quanta : Nat
  /-- It is within the range of finite doubles. -/
  lt_bound : quanta < quantaBound
  /-- It has at most 53 significant bits. -/
  spacing_dvd : spacing quanta ∣ quanta
deriving DecidableEq

namespace Magnitude

/-- The size of both zeros. -/
def zero : Magnitude := ⟨0, quantaBound_pos, Nat.dvd_zero _⟩

instance : Inhabited Magnitude := ⟨zero⟩

/-- The double nearest to `num / den` quanta, ties to even; none if that lies beyond the range. -/
def nearest? (num den : Nat) : Option Magnitude :=
  if h : nearestQuanta num den < quantaBound then
    some ⟨nearestQuanta num den, h, spacing_dvd_nearestQuanta num den⟩
  else none

/-- The double nearest to the quotient `num / den`. -/
def ofQuotient? (num den : Nat) : Option Magnitude :=
  nearest? (num * quantaPerUnit) den

/-- The double nearest to a natural number. -/
def ofNat? (n : Nat) : Option Magnitude := ofQuotient? n 1

/-- The product of two doubles, rounded. -/
def mul? (a b : Magnitude) : Option Magnitude := nearest? (a.quanta * b.quanta) quantaPerUnit

/-- The quotient of two doubles, rounded. -/
def div? (a b : Magnitude) : Option Magnitude := nearest? (a.quanta * quantaPerUnit) b.quanta

/-- The whole number it is, if it has no fraction. -/
def toNat? (m : Magnitude) : Option Nat :=
  if m.quanta % quantaPerUnit = 0 then some (m.quanta / quantaPerUnit) else none

end Magnitude

/-- A double-precision number. -/
inductive Double where
  /-- Not a number. -/
  | nan
  /-- One of the two infinities. -/
  | infinite (negative : Bool)
  /-- A finite number; zero comes with either sign. -/
  | finite (negative : Bool) (magnitude : Magnitude)
deriving DecidableEq

namespace Double

instance : Inhabited Double := ⟨.finite false .zero⟩

/-- A rounded size with a sign; a size beyond the range is infinite. -/
def ofMagnitude? (negative : Bool) : Option Magnitude → Double
  | some magnitude => .finite negative magnitude
  | none => .infinite negative

/-- The double nearest to an integer. -/
def ofInt (n : Int) : Double := ofMagnitude? (n < 0) (Magnitude.ofNat? n.natAbs)

/-- The place of a number on the number line, in quanta; the infinities lie just outside the
range and "not a number" has no place. -/
def position? : Double → Option Int
  | .nan => none
  | .infinite false => some quantaBound
  | .infinite true => some (-quantaBound)
  | .finite false magnitude => some magnitude.quanta
  | .finite true magnitude => some (-magnitude.quanta)

/-- Numerical comparison: the two zeros agree, and "not a number" compares with nothing. -/
def compare? (a b : Double) : Option Ordering := do
  return compare (← a.position?) (← b.position?)

/-- Numerical equality. -/
def same (a b : Double) : Bool := a.compare? b == some .eq

/-- It is neither infinite nor "not a number". -/
def isFinite : Double → Bool
  | .finite .. => true
  | _ => false

/-- The integer it is, if it is finite and has no fraction. -/
def toInt? : Double → Option Int
  | .finite false magnitude => magnitude.toNat?.map Int.ofNat
  | .finite true magnitude => magnitude.toNat?.map fun n => -(n : Int)
  | _ => none

end Double

end Criteria
