import Criteria.Number.Double
import Criteria.Number.Word
import Mathlib.Data.Nat.Dist

/-!
# Rounding to the nearest double

Doubles are, in quanta, the numbers of at most 53 significant bits below a bound. Rounding takes a
number to the nearest one of them, where of two that are equally near the one with an even
significand counts. No other number is nearest in this sense, and rounding keeps the order: it may
make unequal numbers equal and never swaps them.

## Main definitions

* `IsPrecise`: a number has at most 53 significant bits.
* `IsNearest`: a number is the rounding of another one.

## Main results

* `isNearest_nearestQuanta`: rounding gives the nearest number.
* `IsNearest.unique`, `IsNearest.mono`: it is the only one, and larger for larger numbers.
* `Magnitude.ofNat?_eq_some_iff`: the double of a natural number is the one nearest to it.
* `Double.nearestPlace_mono`, `Double.nearestPlace_of_le`: rounding integers keeps their order, and
  those up to `2 ^ 53` are kept themselves.
-/

namespace Criteria

/-- A number with at most 53 significant bits. -/
def IsPrecise (n : Nat) : Prop :=
  ∃ significand exponent, significand < twoTo 53 ∧ n = significand * twoTo exponent

/-- A number with at most 53 significant bits, the last of which is zero. -/
def HasEvenSignificand (n : Nat) : Prop :=
  ∃ significand exponent, 2 * significand < twoTo 53 ∧ n = 2 * significand * twoTo exponent

/-- The rounding of a number is the nearest one with at most 53 significant bits; if another such
number is as near, it has an even significand. -/
structure IsNearest (n rounded : Nat) : Prop where
  /-- It has at most 53 significant bits. -/
  isPrecise : IsPrecise rounded
  /-- No other number of this kind is nearer. -/
  dist_le : ∀ other, IsPrecise other → Nat.dist n rounded ≤ Nat.dist n other
  /-- It is even if another one is as near. -/
  even : ∀ other, IsPrecise other → other ≠ rounded → Nat.dist n other = Nat.dist n rounded →
    HasEvenSignificand rounded

/-! ### Numbers of 53 bits -/

/-- A power of two divides the larger ones. -/
theorem twoTo_dvd_twoTo {a b : Nat} (h : a ≤ b) : twoTo a ∣ twoTo b := Nat.pow_dvd_pow 2 h

/-- The numbers of 53 significant bits are the multiples of their own spacing. -/
theorem isPrecise_iff {n : Nat} : IsPrecise n ↔ spacing n ∣ n := by
  constructor
  · rintro ⟨significand, exponent, h, rfl⟩
    exact spacing_dvd_mul_twoTo (Nat.le_of_lt h)
  · intro h
    exact ⟨n / spacing n, n.log2 - 52, div_spacing_lt n, (Nat.div_mul_cancel h).symm⟩

/-- A precise number is a multiple of the spacing at a given size, or it lies below that size. -/
theorem IsPrecise.spacing_dvd_or_lt {other : Nat} (h : IsPrecise other) (n : Nat) :
    spacing n ∣ other ∨ 52 < n.log2 ∧ other < twoTo n.log2 := by
  by_cases hlog : n.log2 ≤ max 52 other.log2
  · have hdvd : spacing n ∣ spacing other := twoTo_dvd_twoTo (by omega)
    exact .inl (Nat.dvd_trans hdvd (isPrecise_iff.1 h))
  · refine .inr ⟨by omega, ?_⟩
    calc other < twoTo (other.log2 + 1) := Nat.lt_log2_self
      _ ≤ twoTo n.log2 := Nat.pow_le_pow_right (by decide) (by omega)

/-- Behind a number with an even significand the next precise one is at most one step away. -/
theorem isPrecise_succ_mul {significand : Nat} (h : 2 * significand < twoTo 53) (exponent : Nat) :
    IsPrecise (2 * significand * twoTo exponent + twoTo exponent) := by
  have htwo : twoTo 53 = 2 * twoTo 52 := by decide
  exact ⟨2 * significand + 1, exponent, by omega, (Nat.succ_mul _ _).symm⟩

/-- So is the one in front of it, unless the number is zero. -/
theorem isPrecise_pred_mul {significand : Nat} (h : 2 * significand < twoTo 53) (exponent : Nat) :
    IsPrecise (2 * significand * twoTo exponent - twoTo exponent) :=
  ⟨2 * significand - 1, exponent, by omega, by rw [Nat.sub_mul, Nat.one_mul]⟩

/-! ### Rounding to a grid -/

/-- A multiple is one of the two neighbours of a multiple and the one behind it, or beyond them. -/
private theorem multiple_cases (count other unit : Nat) :
    count * unit + unit ≤ other * unit ∨ count = other ∨ count = other + 1 ∨
      other * unit + 2 * unit ≤ count * unit := by
  rcases Nat.lt_or_ge count other with h | h
  · exact .inl (Nat.succ_mul count unit ▸ Nat.mul_le_mul_right unit h)
  · rcases Nat.lt_or_ge (other + 1) count with h' | h'
    · exact .inr (.inr (.inr (Nat.add_mul other 2 unit ▸ Nat.mul_le_mul_right unit h')))
    · omega

/-- Rounding to the multiples of a number: every other multiple is farther away, or as far, and
then the rounding is even. -/
theorem roundHalfEven_cases (n : Nat) {unit : Nat} (hunit : 0 < unit) (count : Nat) :
    Nat.dist n (roundHalfEven n unit * unit) < Nat.dist n (count * unit) ∨
      count = roundHalfEven n unit ∨
      Nat.dist n (count * unit) = Nat.dist n (roundHalfEven n unit * unit) ∧
        roundHalfEven n unit % 2 = 0 := by
  have hn := Nat.div_add_mod n unit
  have hlt := Nat.mod_lt n hunit
  have hsucc : (n / unit + 1) * unit = n / unit * unit + unit := Nat.succ_mul _ _
  rw [Nat.mul_comm] at hn
  simp only [roundHalfEven, Nat.dist]
  rcases multiple_cases count (n / unit) unit with h | rfl | rfl | h
  all_goals split_ifs <;> omega

/-! ### Rounding to 53 bits -/

/-- Rounding keeps what is a multiple of its own spacing. -/
theorem nearestQuanta_of_spacing_dvd {quanta : Nat} (h : spacing quanta ∣ quanta) :
    nearestQuanta quanta 1 = quanta := by
  obtain ⟨count, hcount⟩ := h
  rw [nearestQuanta, Nat.div_one, Nat.one_mul]
  calc roundHalfEven quanta (spacing quanta) * spacing quanta
      = roundHalfEven (count * spacing quanta) (spacing quanta) * spacing quanta := by
        rw [Nat.mul_comm count, ← hcount]
    _ = quanta := by
        rw [roundHalfEven_mul_left count (spacing_pos quanta), Nat.mul_comm, ← hcount]

theorem nearestQuanta_one (n : Nat) :
    nearestQuanta n 1 = roundHalfEven n (spacing n) * spacing n := by
  rw [nearestQuanta, Nat.div_one, Nat.one_mul]

/-- A rounding that is an even multiple of the spacing has an even significand; it may have reached
the next power of two. -/
theorem hasEvenSignificand_of_even {n : Nat} (h : roundHalfEven n (spacing n) % 2 = 0) :
    HasEvenSignificand (nearestQuanta n 1) := by
  have hle := roundHalfEven_le_div_add_one n (spacing n)
  have hlt := div_spacing_lt n
  have hhalf : 2 * (roundHalfEven n (spacing n) / 2) = roundHalfEven n (spacing n) := by omega
  rw [nearestQuanta_one]
  rcases Nat.lt_or_ge (roundHalfEven n (spacing n)) (twoTo 53) with hbits | hcarry
  · exact ⟨roundHalfEven n (spacing n) / 2, n.log2 - 52, by omega, by rw [hhalf, spacing]⟩
  · have hpower : roundHalfEven n (spacing n) = 2 * 1 * twoTo 52 :=
      Nat.le_antisymm (Nat.le_trans hle hlt) hcarry
    refine ⟨1, 52 + (n.log2 - 52), by decide, ?_⟩
    rw [hpower, twoTo_add, spacing, Nat.mul_assoc]

/-- Every other number of 53 bits is farther away than the rounding, or as far, and then the
rounding has an even significand. -/
theorem nearestQuanta_cases (n : Nat) {other : Nat} (h : IsPrecise other) :
    Nat.dist n (nearestQuanta n 1) < Nat.dist n other ∨ other = nearestQuanta n 1 ∨
      Nat.dist n other = Nat.dist n (nearestQuanta n 1) ∧
        HasEvenSignificand (nearestQuanta n 1) := by
  have hcases := roundHalfEven_cases n (spacing_pos n)
  rw [← nearestQuanta_one] at hcases
  rcases h.spacing_dvd_or_lt n with ⟨count, rfl⟩ | ⟨hlog, hlt⟩
  · rw [Nat.mul_comm]
    rcases hcases count with hfar | rfl | ⟨htie, heven⟩
    · exact .inl hfar
    · exact .inr (.inl (nearestQuanta_one n).symm)
    · exact .inr (.inr ⟨htie, hasEvenSignificand_of_even heven⟩)
  · -- the power of two between them is a multiple of the spacing
    have hpower : twoTo 52 * spacing n = twoTo n.log2 := by
      rw [spacing, ← twoTo_add, Nat.add_sub_cancel' (by omega)]
    have hle : twoTo n.log2 ≤ n := Nat.log2_self_le (by rintro rfl; simp at hlog)
    have hnear : Nat.dist n (nearestQuanta n 1) ≤ Nat.dist n (twoTo n.log2) := by
      rw [← hpower]
      rcases hcases (twoTo 52) with hfar | heq | ⟨htie, -⟩
      · exact Nat.le_of_lt hfar
      · rw [heq, ← nearestQuanta_one]
      · exact Nat.le_of_eq htie.symm
    refine .inl (Nat.lt_of_le_of_lt hnear ?_)
    rw [Nat.dist_eq_sub_of_le_right hle, Nat.dist_eq_sub_of_le_right (by omega)]
    omega

/-- **Rounding gives the nearest number of 53 bits**, one with an even significand if two are
equally near. -/
theorem isNearest_nearestQuanta (n : Nat) : IsNearest n (nearestQuanta n 1) where
  isPrecise := isPrecise_iff.2 (spacing_dvd_nearestQuanta n 1)
  dist_le other h := by
    rcases nearestQuanta_cases n h with hfar | rfl | ⟨htie, -⟩
    · exact Nat.le_of_lt hfar
    · exact Nat.le_refl _
    · exact Nat.le_of_eq htie.symm
  even other h hne htie := by
    rcases nearestQuanta_cases n h with hfar | heq | ⟨-, heven⟩
    · exact absurd htie (Nat.ne_of_gt hfar)
    · exact absurd heq hne
    · exact heven

/-! ### There is one nearest number -/

/-- Between two numbers with even significands there is a number of 53 bits. -/
theorem exists_isPrecise_between {a b : Nat} (ha : HasEvenSignificand a)
    (hb : HasEvenSignificand b) (h : a < b) : ∃ c, IsPrecise c ∧ a < c ∧ c < b := by
  have hgap {unit : Nat} (hunit : 0 < unit) (hdvda : 2 * unit ∣ a) (hdvdb : 2 * unit ∣ b) :
      a < a + unit ∧ a + unit < b := by
    have hle := Nat.le_of_dvd (by omega) (Nat.dvd_sub hdvdb hdvda)
    omega
  have hdvd (significand : Nat) {j k : Nat} (hjk : j ≤ k) :
      2 * twoTo j ∣ 2 * significand * twoTo k := by
    rw [Nat.mul_assoc]
    exact Nat.mul_dvd_mul_left 2 (Dvd.dvd.mul_left (twoTo_dvd_twoTo hjk) _)
  obtain ⟨c, j, hc, rfl⟩ := ha
  obtain ⟨d, k, hd, rfl⟩ := hb
  -- one step on the finer of the two grids does not reach the other number
  rcases Nat.le_total j k with hjk | hkj
  · exact ⟨_, isPrecise_succ_mul hc j, hgap (twoTo_pos j) (hdvd c (Nat.le_refl j)) (hdvd d hjk)⟩
  · obtain ⟨-, hlt⟩ := hgap (twoTo_pos k) (hdvd c hkj) (hdvd d (Nat.le_refl k))
    have hpos := twoTo_pos k
    exact ⟨_, isPrecise_pred_mul hd k, by omega, by omega⟩

namespace IsNearest

variable {m n a b : Nat}

/-- Of two roundings of a number neither is smaller. -/
private theorem not_lt (ha : IsNearest n a) (hb : IsNearest n b) : ¬ a < b := by
  intro h
  have htie : Nat.dist n a = Nat.dist n b :=
    Nat.le_antisymm (ha.dist_le b hb.isPrecise) (hb.dist_le a ha.isPrecise)
  -- both are even, and something between them is nearer
  have heven := ha.even b hb.isPrecise (Nat.ne_of_gt h) htie.symm
  have heven' := hb.even a ha.isPrecise (Nat.ne_of_lt h) htie
  obtain ⟨c, hc, hac, hcb⟩ := exists_isPrecise_between heven heven' h
  have hle := ha.dist_le c hc
  simp only [Nat.dist] at htie hle
  omega

/-- A number has one rounding. -/
theorem unique (ha : IsNearest n a) (hb : IsNearest n b) : a = b :=
  Nat.le_antisymm (Nat.le_of_not_lt (hb.not_lt ha)) (Nat.le_of_not_lt (ha.not_lt hb))

/-- Rounding keeps the order. -/
theorem mono (ha : IsNearest m a) (hb : IsNearest n b) (h : m ≤ n) : a ≤ b := by
  by_contra hlt
  -- the roundings could only change sides if the numbers were the same
  have hm := ha.dist_le b hb.isPrecise
  have hn := hb.dist_le a ha.isPrecise
  simp only [Nat.dist] at hm hn
  obtain rfl : m = n := by omega
  exact hlt (Nat.le_of_eq (ha.unique hb))

end IsNearest

theorem isNearest_iff {n rounded : Nat} : IsNearest n rounded ↔ rounded = nearestQuanta n 1 :=
  ⟨fun h => h.unique (isNearest_nearestQuanta n), fun h => h ▸ isNearest_nearestQuanta n⟩

/-! ### Natural numbers and integers -/

theorem nearestQuanta_mono {m n : Nat} (h : m ≤ n) : nearestQuanta m 1 ≤ nearestQuanta n 1 :=
  (isNearest_nearestQuanta m).mono (isNearest_nearestQuanta n) h

theorem twoTo_lt_twoTo {a b : Nat} (h : a < b) : twoTo a < twoTo b :=
  Nat.pow_lt_pow_right (by decide) h

/-- Powers of two are not rounded. -/
theorem nearestQuanta_twoTo (exponent : Nat) :
    nearestQuanta (twoTo exponent) 1 = twoTo exponent := by
  have hspacing : spacing (twoTo exponent) ∣ twoTo exponent := by
    rw [← Nat.one_mul (twoTo exponent)]
    exact spacing_dvd_mul_twoTo (by decide)
  exact nearestQuanta_of_spacing_dvd hspacing

namespace Magnitude

theorem nearest?_eq_some_iff {num den : Nat} {m : Magnitude} :
    nearest? num den = some m ↔ m.quanta = nearestQuanta num den := by
  obtain ⟨quanta, hbound, hspacing⟩ := m
  rw [nearest?]
  split_ifs with h
  · rw [Option.some.injEq, mk.injEq, eq_comm]
  · rw [false_iff]
    rintro rfl
    exact h hbound

/-- The double of a natural number is the one nearest to it. -/
theorem ofNat?_eq_some_iff {n : Nat} {m : Magnitude} :
    ofNat? n = some m ↔ IsNearest (n * quantaPerUnit) m.quanta := by
  rw [ofNat?, ofQuotient?, nearest?_eq_some_iff, isNearest_iff]

/-- The natural numbers of 64 bits are within the range of doubles. -/
theorem exists_ofNat? {n : Nat} (h : n ≤ wordBound) : ∃ m, ofNat? n = some m := by
  have hword : wordBound = twoTo 64 := by decide
  have hbound : nearestQuanta (n * quantaPerUnit) 1 < quantaBound := by
    refine Nat.lt_of_le_of_lt (nearestQuanta_mono (Nat.mul_le_mul_right _ h)) ?_
    rw [hword, quantaPerUnit, ← twoTo_add, nearestQuanta_twoTo, quantaBound]
    exact twoTo_lt_twoTo (by decide)
  rw [ofNat?, ofQuotient?, nearest?, dif_pos hbound]
  exact ⟨_, rfl⟩

end Magnitude

namespace Double

/-- The place of the double nearest to an integer, were there no largest double. -/
def nearestPlace (n : Int) : Int :=
  if n < 0 then -(nearestQuanta (n.natAbs * quantaPerUnit) 1 : Int)
  else nearestQuanta (n.natAbs * quantaPerUnit) 1

/-- Rounding integers keeps their order. -/
theorem nearestPlace_mono {a b : Int} (h : a ≤ b) : nearestPlace a ≤ nearestPlace b := by
  have hmono {m n : Int} (hle : m.natAbs ≤ n.natAbs) :
      nearestQuanta (m.natAbs * quantaPerUnit) 1 ≤ nearestQuanta (n.natAbs * quantaPerUnit) 1 :=
    nearestQuanta_mono (Nat.mul_le_mul_right _ hle)
  rw [nearestPlace, nearestPlace]
  split_ifs with ha hb hb
  · exact Int.neg_le_neg (Int.ofNat_le.2 (hmono (by omega)))
  · omega
  · omega
  · exact Int.ofNat_le.2 (hmono (by omega))

/-- So integers are in the order of their doubles unless these are equal. -/
theorem lt_of_nearestPlace_lt {a b : Int} (h : nearestPlace a < nearestPlace b) : a < b :=
  Int.lt_of_not_ge fun hle => Int.not_le_of_gt h (nearestPlace_mono hle)

/-- The integers up to `2 ^ 53` are doubles. -/
theorem nearestPlace_of_le {n : Int} (h : n.natAbs ≤ twoTo 53) :
    nearestPlace n = n * quantaPerUnit := by
  have hkept : nearestQuanta (n.natAbs * quantaPerUnit) 1 = n.natAbs * quantaPerUnit :=
    nearestQuanta_of_spacing_dvd (spacing_dvd_mul_twoTo h)
  rw [nearestPlace, hkept, Int.natCast_mul, ← Int.neg_mul, ← ite_mul]
  congr 1
  omega

/-- Up to `2 ^ 53` rounding keeps integers apart. -/
theorem nearestPlace_lt_iff {a b : Int} (ha : a.natAbs ≤ twoTo 53) (hb : b.natAbs ≤ twoTo 53) :
    nearestPlace a < nearestPlace b ↔ a < b := by
  have hpos : (0 : Int) < quantaPerUnit := Int.ofNat_lt.2 quantaPerUnit_pos
  rw [nearestPlace_of_le ha, nearestPlace_of_le hb, Int.mul_lt_mul_right hpos]

/-- The place of the double nearest to an integer. -/
theorem position?_ofInt {n : Int} {m : Magnitude} (h : Magnitude.ofNat? n.natAbs = some m) :
    (ofInt n).position? = some (nearestPlace n) := by
  have hquanta := isNearest_iff.1 (Magnitude.ofNat?_eq_some_iff.1 h)
  rw [ofInt, h, ofMagnitude?, nearestPlace, ← hquanta]
  by_cases hn : n < 0
  · simp [hn, position?]
  · simp [hn, position?]

end Double

end Criteria
