import Criteria.Proofs.NearestDouble
import Criteria.Rule.Literal
import Mathlib.Data.List.TakeWhile

/-!
# Whole numbers in rule text

Rule text has neither signs nor points, so a word that is read as a number is digits, or digits, the
letter `e` and digits, and denotes a double without a fraction. Such a double is its own whole part,
hence there is a decimal among the multiples of one that reads back to it, and its plain text is a
word of digits that denotes it.

## Main definitions

* `Magnitude.IsWhole`: a double without a fraction.
* `Literal.Denotes`: what number a word denotes, as digits and a power of ten.

## Main results

* `Decimal.magnitude?_ofNat`: a decimal without a point is a natural number, rounded once.
* `Magnitude.IsWhole.isSpeltBy_shortest`: the shortest decimal of a whole number has no point.
* `Decimal.ofText?_eq_some_iff`: a word is read as the decimal that it denotes.
* `Literal.numberOfWord?_eq_some_iff_denotes`: the number of a word is that of this decimal.
* `Literal.numberOfWord?_positional`: the plain text of a whole number denotes it.
* `Literal.isWhole_of_numberOfWord?`: words denote whole numbers.
-/

namespace Criteria

/-- A string of decimal digits that is not empty. -/
def Text.IsDigits (s : List Char) : Prop := s ≠ [] ∧ ∀ c ∈ s, c.isDigit = true

/-- Rounding a whole number gives a whole number: the spacing is finer than one, and nothing is
lost, or it is a whole number itself. -/
theorem quantaPerUnit_dvd_nearestQuanta (n : Nat) :
    quantaPerUnit ∣ nearestQuanta (n * quantaPerUnit) 1 := by
  rcases Nat.le_total ((n * quantaPerUnit).log2 - 52) 1074 with hfine | hcoarse
  · have hdvd : spacing (n * quantaPerUnit) ∣ n * quantaPerUnit :=
      Nat.dvd_trans (twoTo_dvd_twoTo hfine) (Nat.dvd_mul_left _ _)
    rw [nearestQuanta_of_spacing_dvd hdvd]
    exact Nat.dvd_mul_left _ _
  · have hdvd : quantaPerUnit ∣ spacing (n * quantaPerUnit) := twoTo_dvd_twoTo hcoarse
    rw [nearestQuanta, Nat.div_one]
    exact Nat.dvd_trans hdvd (Nat.dvd_mul_left _ _)

namespace Magnitude

/-- A double without a fraction. -/
def IsWhole (m : Magnitude) : Prop := quantaPerUnit ∣ m.quanta

theorem isWhole_of_toNat? {m : Magnitude} {n : Nat} (h : m.toNat? = some n) :
    m.IsWhole ∧ m.quanta = n * quantaPerUnit := by
  rw [toNat?] at h
  split at h
  · next hmod =>
    obtain rfl := Option.some.inj h
    have hdvd := Nat.dvd_of_mod_eq_zero hmod
    exact ⟨hdvd, (Nat.div_mul_cancel hdvd).symm⟩
  · cases h

theorem eq_zero_of_quanta {m : Magnitude} (h : m.quanta = 0) : m = zero := by
  obtain ⟨quanta, hbound, hspacing⟩ := m
  subst h
  rfl

theorem nearest?_quanta (m : Magnitude) : nearest? m.quanta 1 = some m :=
  nearest?_eq_some_iff.2 (nearestQuanta_of_spacing_dvd m.spacing_dvd).symm

theorem isWhole_of_ofNat? {n : Nat} {m : Magnitude} (h : ofNat? n = some m) : m.IsWhole := by
  have h : nearest? (n * quantaPerUnit) 1 = some m := h
  rw [IsWhole, nearest?_eq_some_iff.1 h]
  exact quantaPerUnit_dvd_nearestQuanta n

theorem ofNat?_zero : ofNat? 0 = some zero := by
  rw [ofNat?, ofQuotient?, Nat.zero_mul]
  exact nearest?_quanta zero

/-- A whole number is the double nearest to its whole part. -/
theorem IsWhole.ofNat?_div {m : Magnitude} (h : m.IsWhole) :
    ofNat? (m.quanta / quantaPerUnit) = some m := by
  rw [ofNat?, ofQuotient?, Nat.div_mul_cancel h]
  exact m.nearest?_quanta

end Magnitude

theorem tenTo_le_tenTo {a b : Nat} (h : a ≤ b) : tenTo a ≤ tenTo b :=
  Nat.pow_le_pow_right (Nat.succ_pos 9) h

namespace Decimal

/-- A decimal without a point is the natural number that it denotes. Where the power of ten is so
large that it is not computed, the number is beyond the range of doubles. -/
theorem magnitude?_ofNat (significand e : Nat) :
    (⟨significand, .ofNat e⟩ : Decimal).magnitude? = Magnitude.ofNat? (significand * tenTo e) := by
  rw [magnitude?]
  simp only
  split_ifs with hzero hlarge
  · rw [hzero, Nat.zero_mul, Magnitude.ofNat?_zero]
  · have hrange : twoTo 1024 ≤ tenTo 309 := by decide +kernel
    have hpower : tenTo 309 ≤ tenTo e := tenTo_le_tenTo hlarge
    have hle : twoTo 1024 ≤ significand * tenTo e :=
      Nat.le_trans (Nat.le_trans hrange hpower)
        (Nat.le_mul_of_pos_left _ (Nat.pos_of_ne_zero hzero))
    refine (Option.eq_none_iff_forall_ne_some.2 fun m hm => ?_).symm
    have hquanta := isNearest_iff.1 (Magnitude.ofNat?_eq_some_iff.1 hm)
    have hbound := nearestQuanta_mono (Nat.mul_le_mul_right quantaPerUnit hle)
    rw [quantaPerUnit, ← twoTo_add, nearestQuanta_twoTo, ← quantaPerUnit, ← hquanta] at hbound
    exact Nat.not_lt_of_le hbound m.lt_bound
  · rfl

theorem magnitude?_zero (n : Nat) : (⟨n, 0⟩ : Decimal).magnitude? = Magnitude.ofNat? n := by
  have hone : tenTo 0 = 1 := rfl
  have hzero := magnitude?_ofNat n 0
  rwa [hone, Nat.mul_one] at hzero

/-- The digits of a decimal without a point are digits. -/
theorem isDigit_of_mem_positional {significand e : Nat} {c : Char}
    (h : c ∈ (⟨significand, .ofNat e⟩ : Decimal).positional) : c.isDigit = true := by
  rw [positional] at h
  simp only at h
  split at h
  · rw [List.mem_singleton.1 h]
    rfl
  · rcases List.mem_append.1 h with hdigit | hzero
    · exact Nat.isDigit_of_mem_toDigits (by decide) (by decide) hdigit
    · rw [List.eq_of_mem_replicate hzero]
      rfl

theorem positional_ne_nil (significand e : Nat) :
    (⟨significand, .ofNat e⟩ : Decimal).positional ≠ [] := by
  rw [positional]
  simp only
  split
  · simp
  · simp [digits, Nat.toDigits_ne_nil]

theorem digitsValue_positional (significand e : Nat) :
    Text.digitsValue (⟨significand, .ofNat e⟩ : Decimal).positional = significand * tenTo e := by
  have hvalue (s : List Char) : Text.digitsValue s = Nat.ofDigitChars 10 s 0 := rfl
  rw [positional, hvalue]
  simp only
  split
  · next hzero =>
    rw [hzero, Nat.zero_mul]
    rfl
  · rw [Nat.ofDigitChars_append, digits, Nat.ofDigitChars_ten_toDigits,
      Nat.ofDigitChars_replicate_zero, Nat.mul_comm]
    rfl

end Decimal

namespace Magnitude

/-- The decimal has no point and reads back to the double. -/
def IsSpeltBy (m : Magnitude) (d : Decimal) : Prop :=
  ∃ e, d.exponent = .ofNat e ∧ d.magnitude? = some m

theorem isSpeltBy_of_neighbour? {tie : Tie} {m : Magnitude} {e : Nat} {d : Decimal}
    (h : m.neighbour? tie (.ofNat e) = some d) : m.IsSpeltBy d :=
  ⟨e, neighbour?_eq_some h⟩

/-- The multiples of one hold every whole number. -/
theorem IsWhole.neighbour?_ne_none {m : Magnitude} (h : m.IsWhole) (tie : Tie) :
    m.neighbour? tie (.ofNat 0) ≠ none := by
  have hone : tenTo 0 = 1 := rfl
  apply neighbour?_ofNat_ne_none
  rw [hone, Nat.mul_one]
  exact (Decimal.magnitude?_zero _).trans h.ofNat?_div

/-- The search for the shortest decimal of a whole number ends at the multiples of one at the
latest. -/
theorem IsWhole.isSpeltBy_shortestFrom {m : Magnitude} (h : m.IsWhole) (tie : Tie)
    {e steps : Nat} (hsteps : e < steps) :
    m.IsSpeltBy (m.shortestFrom tie (.ofNat e) steps) := by
  induction e generalizing steps with
  | zero =>
    obtain ⟨steps, rfl⟩ := Nat.exists_eq_succ_of_ne_zero (Nat.ne_of_gt hsteps)
    obtain ⟨d, hd⟩ := Option.ne_none_iff_exists'.1 (h.neighbour?_ne_none tie)
    rw [shortestFrom, hd]
    exact isSpeltBy_of_neighbour? hd
  | succ e ih =>
    obtain ⟨steps, rfl⟩ := Nat.exists_eq_succ_of_ne_zero (Nat.ne_of_gt (Nat.zero_lt_of_lt hsteps))
    rw [shortestFrom]
    split
    · next d hd => exact isSpeltBy_of_neighbour? hd
    · have hcoarser : (Int.ofNat (e + 1) - 1 : Int) = .ofNat e := by simp
      rw [hcoarser]
      exact ih (Nat.lt_of_succ_lt_succ hsteps)

/-- The shortest decimal of a whole number has no point. -/
theorem IsWhole.isSpeltBy_shortest {m : Magnitude} (h : m.IsWhole) (tie : Tie) :
    m.IsSpeltBy (m.shortest tie) := by
  rw [shortest]
  split
  · next hzero =>
    rw [eq_zero_of_quanta hzero]
    exact ⟨0, rfl, (Decimal.magnitude?_zero 0).trans ofNat?_zero⟩
  · exact h.isSpeltBy_shortestFrom tie (Nat.lt_add_of_pos_right (by decide))

end Magnitude

namespace Literal

open Text

/-- A word denotes a number: digits, or digits, the letter `e` and a power of ten. -/
inductive Denotes : List Char → Nat → Nat → Prop
  | digits {s : List Char} (h : IsDigits s) : Denotes s (digitsValue s) 0
  | power {s t : List Char} {e : Char} (hs : IsDigits s) (he : e = 'e' ∨ e = 'E')
      (ht : IsDigits t) : Denotes (s ++ e :: t) (digitsValue s) (digitsValue t)

namespace Denotes

variable {w : List Char} {significand exponent : Nat}

/-- A word that denotes a number begins with a digit. -/
theorem exists_isDigit (h : Denotes w significand exponent) :
    ∃ c ∈ w.head?, c.isDigit = true := by
  have hhead {s : List Char} (hs : IsDigits s) (t : List Char) :
      ∃ c ∈ (s ++ t).head?, c.isDigit = true := by
    obtain ⟨c, s, rfl⟩ := List.exists_cons_of_ne_nil hs.1
    exact ⟨c, rfl, hs.2 c List.mem_cons_self⟩
  cases h with
  | digits hs => simpa using hhead hs []
  | power hs _ _ => exact hhead hs _

/-- Digits denote the number that they make. -/
theorem eq_of_isDigits (h : Denotes w significand exponent) (hw : IsDigits w) :
    significand = digitsValue w ∧ exponent = 0 := by
  cases h with
  | digits => exact ⟨rfl, rfl⟩
  | power _ he _ =>
    have hdigit := hw.2 _ (List.mem_append_right _ List.mem_cons_self)
    rcases he with rfl | rfl <;> cases hdigit

end Denotes

end Literal

/-! ### Words as decimals -/

theorem Token.isWordChar_of_isDigit {c : Char} (h : c.isDigit = true) : isWordChar c = true := by
  simp [isWordChar, Char.isAlphanum, h]

theorem Text.whole?_eq_some_iff {s : List Char} {n : Nat} :
    whole? s = some n ↔ IsDigits s ∧ digitsValue s = n := by
  simp [whole?, IsDigits]

namespace Decimal

open Text

variable {w : List Char}

/-- A word has no sign. -/
theorem signed?_of_isWordChar (h : ∀ c ∈ w, Token.isWordChar c = true) :
    signed? w = (whole? w).map Int.ofNat := by
  rw [signed?.eq_def]
  split
  · exact absurd (h '-' List.mem_cons_self) (by decide)
  · exact absurd (h '+' List.mem_cons_self) (by decide)
  · rfl

/-- What follows the digits of a word is nothing, or the letter `e` and digits. -/
theorem exponent?_eq_some_iff (h : ∀ c ∈ w, Token.isWordChar c = true) {e : Int} :
    exponent? w = some e ↔ w = [] ∧ e = .ofNat 0 ∨ ∃ c digits, w = c :: digits ∧
      (c = 'e' ∨ c = 'E') ∧ IsDigits digits ∧ e = .ofNat (digitsValue digits) := by
  cases w with
  | nil => simp [exponent?, eq_comm]
  | cons c digits =>
    obtain ⟨-, hdigits⟩ := List.forall_mem_cons.1 h
    by_cases hc : c = 'e' ∨ c = 'E'
    · simp only [exponent?, hc, if_true, signed?_of_isWordChar hdigits, Option.map_eq_some_iff,
        whole?_eq_some_iff]
      simp [hc, eq_comm]
    · simp [exponent?, hc]

/-- A word has no point. -/
theorem ofText?_of_isWordChar (h : ∀ c ∈ w, Token.isWordChar c = true) :
    ofText? w = if (w.takeWhile Char.isDigit).isEmpty then none
      else (exponent? (w.dropWhile Char.isDigit)).map (⟨digitsValue (w.takeWhile Char.isDigit), ·⟩) := by
  rw [ofText?]
  cases hcut : w.dropWhile Char.isDigit with
  | nil => simp [exponent?]
  | cons c rest =>
    have hpoint : c ≠ '.' := by
      rintro rfl
      have hmem : '.' ∈ w := (List.dropWhile_suffix _).subset (hcut ▸ List.mem_cons_self)
      exact absurd (h '.' hmem) (by decide)
    simp [hpoint, Option.map_eq_bind]

/-- A word is read as the decimal that it denotes. -/
theorem ofText?_eq_some_iff (h : ∀ c ∈ w, Token.isWordChar c = true) {d : Decimal} :
    ofText? w = some d ↔ ∃ significand exponent,
      Literal.Denotes w significand exponent ∧ d = ⟨significand, .ofNat exponent⟩ := by
  have hrest : ∀ c ∈ w.dropWhile Char.isDigit, Token.isWordChar c = true := fun c hc =>
    h c ((List.dropWhile_suffix _).subset hc)
  rw [ofText?_of_isWordChar h]
  constructor
  · intro hd
    have happend := List.takeWhile_append_dropWhile (p := Char.isDigit) (l := w)
    split_ifs at hd with hempty
    have hdigits : IsDigits (w.takeWhile Char.isDigit) :=
      ⟨by simpa using hempty, fun _ => List.mem_takeWhile_imp⟩
    obtain ⟨e, he, rfl⟩ := Option.map_eq_some_iff.1 hd
    obtain ⟨hnil, rfl⟩ | ⟨c, digits, hcons, hc, hexponent, rfl⟩ :=
      (exponent?_eq_some_iff hrest).1 he
    · rw [hnil, List.append_nil] at happend
      rw [happend] at hdigits ⊢
      exact ⟨_, _, .digits hdigits, rfl⟩
    · have hdenotes := Literal.Denotes.power hdigits hc hexponent
      rw [← hcons, happend] at hdenotes
      exact ⟨_, _, hdenotes, rfl⟩
  · rintro ⟨_, _, hs | @⟨s, t, c, hs, hc, ht⟩, rfl⟩
    · rw [List.takeWhile_eq_self_iff.2 hs.2, List.dropWhile_eq_nil_iff.2 hs.2]
      simp [hs.1, exponent?]
    · have hdigit : c.isDigit = false := by
        rcases hc with rfl | rfl <;> rfl
      have htake : (s ++ c :: t).takeWhile Char.isDigit = s := by
        simp [List.takeWhile_append_of_pos hs.2, hdigit]
      have hdrop : (s ++ c :: t).dropWhile Char.isDigit = c :: t := by
        simp [List.dropWhile_append_of_pos hs.2, hdigit]
      rw [hdrop] at hrest
      rw [htake, hdrop, (exponent?_eq_some_iff hrest).2 (.inr ⟨c, t, rfl, hc, ht, rfl⟩)]
      simp [hs.1]

/-- Only decimals with a point are clamped. -/
theorem clamped_ofNat (significand e : Nat) :
    (⟨significand, .ofNat e⟩ : Decimal).clamped = ⟨significand, .ofNat e⟩ := by
  rw [clamped]
  congr 1
  simp only [Int.ofNat_eq_natCast]
  omega

end Decimal

/-! ### Words as doubles -/

theorem Text.toLower_of_isDigit {c : Char} (h : c.isDigit = true) : c.toLower = c := by
  obtain ⟨-, hle⟩ := Char.isDigit_iff_toNat.1 h
  have hupper : ¬ (c.val ≥ 'A'.val ∧ c.val ≤ 'Z'.val) := by
    rintro ⟨hge, -⟩
    have hlt : '9'.toNat < 'A'.toNat := by decide
    exact absurd (UInt32.le_iff_toNat_le.1 hge) (Nat.not_le_of_lt (Nat.lt_of_le_of_lt hle hlt))
  exact dif_neg hupper

namespace Double

variable {c : Char} {s : List Char} {negative : Bool} {x : Double}

/-- A size with a sign is a finite number just if it is within the range. -/
theorem ofMagnitude?_eq_and_isFinite_iff {size : Option Magnitude} :
    ofMagnitude? negative size = x ∧ x.isFinite = true ↔
      ∃ m, size = some m ∧ x = .finite negative m := by
  cases size with
  | none =>
    simp only [ofMagnitude?, reduceCtorEq, false_and, exists_false, iff_false]
    rintro ⟨rfl, h⟩
    cases h
  | some m =>
    simp only [ofMagnitude?, Option.some.injEq, exists_eq_left']
    exact ⟨fun h => h.1.symm, fun h => ⟨h.symm, h ▸ rfl⟩⟩

/-- What begins with a digit has no sign. -/
theorem ofText?_of_isDigit (h : c.isDigit = true) :
    ofText? (c :: s) = unsigned? false (c :: s) := by
  rw [ofText?.eq_def]
  split
  · next heq =>
    obtain ⟨rfl, -⟩ := List.cons.inj heq
    cases h
  · next heq =>
    obtain ⟨rfl, -⟩ := List.cons.inj heq
    cases h
  · rfl

/-- What begins with a digit is no word for an infinity or for what is not a number. -/
theorem unsigned?_of_isDigit (h : c.isDigit = true) : unsigned? negative (c :: s) =
    (Decimal.ofText? (c :: s)).map fun d => ofMagnitude? negative d.clamped.magnitude? := by
  have hword {word : String} (hword : word.toList.head?.any Char.isDigit = false) :
      (c :: s).map Char.toLower ≠ word.toList := by
    intro heq
    rw [← heq, List.map_cons, Text.toLower_of_isDigit h] at hword
    exact absurd h (Bool.eq_false_iff.1 hword)
  rw [unsigned?, if_neg (not_or.2 ⟨hword rfl, hword rfl⟩), if_neg (hword rfl)]

end Double

namespace Literal

open Text

variable {w : List Char} {x : Double}

theorem numberOfWord?_eq_some_iff_ofText? : numberOfWord? w = some x ↔
    (∃ c ∈ w.head?, c.isDigit = true) ∧ Double.ofText? w = some x ∧ x.isFinite = true := by
  rw [numberOfWord?]
  cases w with
  | nil => simp
  | cons c w => cases hc : c.isDigit <;> simp [hc, Option.filter_eq_some_iff]

/-- The number of a word is that of a decimal without a sign. -/
theorem numberOfWord?_eq_some_iff_decimal : numberOfWord? w = some x ↔
    (∃ c ∈ w.head?, c.isDigit = true) ∧ ∃ d m, Decimal.ofText? w = some d ∧
      d.clamped.magnitude? = some m ∧ x = .finite false m := by
  rw [numberOfWord?_eq_some_iff_ofText?]
  refine and_congr_right fun ⟨c, hhead, hc⟩ => ?_
  obtain ⟨s, rfl⟩ := List.head?_eq_some_iff.1 hhead
  rw [Double.ofText?_of_isDigit hc, Double.unsigned?_of_isDigit hc, Option.map_eq_some_iff]
  constructor
  · rintro ⟨⟨d, hd, hx⟩, hfinite⟩
    obtain ⟨m, hm, rfl⟩ := Double.ofMagnitude?_eq_and_isFinite_iff.1 ⟨hx, hfinite⟩
    exact ⟨d, m, hd, hm, rfl⟩
  · rintro ⟨d, m, hd, hm, hx⟩
    obtain ⟨hx, hfinite⟩ := Double.ofMagnitude?_eq_and_isFinite_iff.2 ⟨m, hm, hx⟩
    exact ⟨⟨d, hd, hx⟩, hfinite⟩

/-- The number of a word is that of the decimal that the word denotes. -/
theorem numberOfWord?_eq_some_iff_denotes (h : ∀ c ∈ w, Token.isWordChar c = true) :
    numberOfWord? w = some x ↔ ∃ significand exponent m, Denotes w significand exponent ∧
      Magnitude.ofNat? (significand * tenTo exponent) = some m ∧ x = .finite false m := by
  simp only [numberOfWord?_eq_some_iff_decimal, Decimal.ofText?_eq_some_iff h]
  constructor
  · rintro ⟨-, d, m, ⟨significand, exponent, hw, rfl⟩, hm, hx⟩
    rw [Decimal.clamped_ofNat, Decimal.magnitude?_ofNat] at hm
    exact ⟨significand, exponent, m, hw, hm, hx⟩
  · rintro ⟨significand, exponent, m, hw, hm, hx⟩
    rw [← Decimal.magnitude?_ofNat, ← Decimal.clamped_ofNat] at hm
    exact ⟨hw.exists_isDigit, _, m, ⟨significand, exponent, hw, rfl⟩, hm, hx⟩

/-- A word stands for no negative number. -/
theorem exists_finite_of_numberOfWord? (h : numberOfWord? w = some x) :
    ∃ m, x = .finite false m := by
  obtain ⟨-, -, m, -, -, hx⟩ := numberOfWord?_eq_some_iff_decimal.1 h
  exact ⟨m, hx⟩

/-- Digits denote the whole number that they make. -/
theorem numberOfWord?_digits (h : IsDigits w) :
    numberOfWord? w = (Magnitude.ofNat? (digitsValue w)).map fun m => .finite false m := by
  have hword : ∀ c ∈ w, Token.isWordChar c = true := fun c hc =>
    Token.isWordChar_of_isDigit (h.2 c hc)
  have hone : tenTo 0 = 1 := rfl
  refine Option.ext fun x => ?_
  rw [numberOfWord?_eq_some_iff_denotes hword, Option.map_eq_some_iff]
  constructor
  · rintro ⟨_, _, m, hdenotes, hm, rfl⟩
    obtain ⟨rfl, rfl⟩ := hdenotes.eq_of_isDigits h
    rw [hone, Nat.mul_one] at hm
    exact ⟨m, hm, rfl⟩
  · rintro ⟨m, hm, rfl⟩
    exact ⟨_, _, m, .digits h, by rwa [hone, Nat.mul_one], rfl⟩

/-- The plain text of a whole number denotes it. -/
theorem numberOfWord?_positional {m : Magnitude} {d : Decimal} (h : m.IsSpeltBy d) :
    numberOfWord? d.positional = some (.finite false m) := by
  obtain ⟨significand, exponent⟩ := d
  obtain ⟨e, rfl, hread⟩ := h
  rw [Decimal.magnitude?_ofNat] at hread
  rw [numberOfWord?_digits ⟨Decimal.positional_ne_nil significand e,
    fun _ => Decimal.isDigit_of_mem_positional⟩, Decimal.digitsValue_positional, hread,
    Option.map_some]

/-- Words denote whole numbers. -/
theorem isWhole_of_numberOfWord? (hword : ∀ c ∈ w, Token.isWordChar c = true)
    (h : numberOfWord? w = some x) : ∃ m : Magnitude, m.IsWhole ∧ x = .finite false m := by
  obtain ⟨_, _, m, -, hm, hx⟩ := (numberOfWord?_eq_some_iff_denotes hword).1 h
  exact ⟨m, Magnitude.isWhole_of_ofNat? hm, hx⟩

end Literal

namespace Double

/-- What is finite and has no fraction is a whole number with a sign. -/
theorem exists_of_toInt? {x : Double} {n : Int} (h : x.toInt? = some n) :
    ∃ negative m k, x = finite negative m ∧ m.toNat? = some k ∧
      n = if negative then -(k : Int) else k := by
  cases x with
  | nan => cases h
  | infinite negative => cases h
  | finite negative m =>
    cases negative with
    | false =>
      obtain ⟨k, hk, rfl⟩ := Option.map_eq_some_iff.1 h
      exact ⟨false, m, k, rfl, hk, rfl⟩
    | true =>
      obtain ⟨_, hint, rfl⟩ := Option.map_eq_some_iff.1 h
      obtain ⟨k, hk, hint⟩ := Option.bind_eq_some_iff.1 hint
      obtain rfl := Option.some.inj hint
      exact ⟨true, m, k, rfl, hk, rfl⟩

/-- A finite number without a fraction that is not below zero; the zero with the sign is one. -/
def IsNatural (x : Double) : Prop := ∃ n : Nat, x.toInt? = some (n : Int)

instance (x : Double) : Decidable x.IsNatural :=
  match h : x.toInt? with
  | some (.ofNat n) => .isTrue ⟨n, h⟩
  | some (.negSucc n) => .isFalse fun ⟨m, hm⟩ => by rw [h] at hm; cases hm
  | none => .isFalse fun ⟨m, hm⟩ => by rw [h] at hm; cases hm

theorem isNatural_finite {m : Magnitude} (h : m.IsWhole) : (finite false m).IsNatural := by
  refine ⟨m.quanta / quantaPerUnit, ?_⟩
  rw [toInt?, Magnitude.toNat?, if_pos (Nat.mod_eq_zero_of_dvd h)]
  rfl

/-- A natural number has no sign unless it is zero. -/
theorem IsNatural.exists_finite {x : Double} (h : x.IsNatural) :
    ∃ (negative : Bool) (m : Magnitude), x = finite negative m ∧ m.IsWhole ∧
      (negative = true → m = .zero) := by
  obtain ⟨n, hn⟩ := h
  obtain ⟨negative, m, k, rfl, hk, hkn⟩ := exists_of_toInt? hn
  obtain ⟨hwhole, hquanta⟩ := Magnitude.isWhole_of_toNat? hk
  refine ⟨negative, m, rfl, hwhole, ?_⟩
  rintro rfl
  have hzero : k = 0 := by
    simp only [if_true] at hkn
    omega
  rw [hzero, Nat.zero_mul] at hquanta
  exact Magnitude.eq_zero_of_quanta hquanta

end Double

end Criteria
