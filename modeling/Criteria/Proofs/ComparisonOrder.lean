import Criteria.Rule.Evaluation
import Mathlib.Data.String.Basic

/-!
# The order behind the comparators

Every comparator looks at one order of a field and a literal, which exists if both are numbers or
both are strings. So the comparators are never at odds with each other: a field is greater, less or
equal, and at most one of these; it is at least the literal if it is greater or equal, and at most
the literal if it is less or equal. Where there is no order no comparator is satisfied, those that
include equality no more than the others.

Strings are in the lexicographic order of their code points.

## Main definitions

* `Comparator.Holds`: a field satisfies a comparator and a literal.
* `Comparable`: a field and a literal are of one kind.
* `IsConsistent`: what the comparators say of a field and a literal fits together.
* `Text.codePoints`: the code points of a string.

## Main results

* `Text.lt_iff_codePoints_lt`: strings are in the order of their code points.
* `Comparator.holds_iff_order?`: which orders satisfy each comparator.
* `Comparator.holds_swap_iff`: comparing the other way round.
* `Comparator.consistent_order`: the comparators form one order.
-/

namespace Criteria

/-! ### Strings -/

/-- The numbers of the characters of a string. -/
def Text.codePoints (s : String) : List Nat := s.toList.map Char.toNat

/-- A lexicographic order stays the same under a map that keeps the order of the items. -/
theorem Text.map_lt_map_iff {α β : Type} [LinearOrder α] [LinearOrder β] {f : α → β}
    (hf : StrictMono f) {s t : List α} : s.map f < t.map f ↔ s < t := by
  induction s generalizing t with
  | nil => cases t <;> simp
  | cons a s ih =>
    cases t with
    | nil => simp
    | cons b t =>
      rw [List.map_cons, List.map_cons, List.cons_lt_cons_iff, List.cons_lt_cons_iff, hf.lt_iff_lt,
        hf.injective.eq_iff, ih]

/-- Strings are in the lexicographic order of their code points. -/
theorem Text.lt_iff_codePoints_lt {s t : String} : s < t ↔ codePoints s < codePoints t := by
  have hchar : StrictMono Char.toNat := fun _ _ h => h
  rw [String.lt_iff_toList_lt, codePoints, codePoints, map_lt_map_iff hchar]

/-! ### Numbers -/

/-- Numbers are compared by their places on the number line. -/
theorem Double.compare?_of_position? {a b : Double} {p q : Int} (ha : a.position? = some p)
    (hb : b.position? = some q) : a.compare? b = some (compare p q) := by
  rw [compare?, ha, hb]
  rfl

theorem Double.position?_eq_none_iff {x : Double} : x.position? = none ↔ x = .nan := by
  rw [position?.eq_def]
  cases x with
  | nan => simp only
  | infinite negative => cases negative <;> simp only [reduceCtorEq]
  | finite negative m => cases negative <;> simp only [reduceCtorEq]

/-- What is not a number is not compared, and everything else is. -/
theorem Double.compare?_eq_none_iff {a b : Double} :
    a.compare? b = none ↔ a = .nan ∨ b = .nan := by
  rw [← position?_eq_none_iff, ← position?_eq_none_iff, compare?]
  cases a.position? <;> cases b.position? <;> simp

/-- Comparing the other way round gives the opposite order. -/
theorem Double.compare?_swap (a b : Double) : (a.compare? b).map Ordering.swap = b.compare? a := by
  rw [compare?, compare?]
  cases a.position? <;> cases b.position? <;> simp [← Std.OrientedCmp.eq_swap]

/-- The numbers of JSON are numbers. -/
theorem Json.Number.toDouble_ne_nan (n : Json.Number) : n.toDouble ≠ .nan := by
  cases n with
  | integer value =>
    rw [toDouble, Double.ofInt]
    cases Magnitude.ofNat? value.natAbs <;> simp [Double.ofMagnitude?]
  | real negative m => simp [toDouble]

/-! ### One order -/

/-- A field and a literal are both numbers or both strings. -/
inductive Comparable : Option Json → Literal → Prop
  /-- The field is never "not a number", and the literal is not. -/
  | numbers (n : Json.Number) {value : Double} (h : value ≠ .nan) :
    Comparable (some (.number n)) (.number value)
  | texts (s value : String) : Comparable (some (.text s)) (.text value)

/-- There is an order just if both are of one kind. -/
theorem comparable_iff_order? {field : Option Json} {literal : Literal} :
    Comparable field literal ↔ ∃ order, literal.order? field = some order := by
  rw [← Option.ne_none_iff_exists']
  constructor
  · rintro (⟨n, hvalue⟩ | _)
    · simp [Literal.order?, Double.compare?_eq_none_iff, n.toDouble_ne_nan, hvalue]
    · simp [Literal.order?]
  · intro h
    rw [Literal.order?.eq_def] at h
    split at h
    · next n value =>
      rw [ne_eq, Double.compare?_eq_none_iff, not_or] at h
      exact .numbers n h.2
    · exact .texts _ _
    · exact absurd rfl h

namespace Comparator

/-- A field satisfies a comparator and a literal. -/
def Holds (c : Comparator) (field : Option Json) (literal : Literal) : Prop :=
  c.test field literal = .ok true

variable {field other : Option Json} {literal exchanged : Literal}

/-- What satisfies a comparator is an order that it accepts. -/
theorem holds_iff {c : Comparator} : c.Holds field literal ↔
    ∃ accepts order, c.accepts? = some accepts ∧ literal.order? field = some order ∧
      accepts order = true := by
  rw [Holds, test]
  cases c.accepts? <;> cases literal.order? field <;> simp

/-- Which orders satisfy each comparator. -/
theorem holds_iff_order? (field : Option Json) (literal : Literal) :
    (greater.Holds field literal ↔ literal.order? field = some .gt) ∧
      (less.Holds field literal ↔ literal.order? field = some .lt) ∧
      (equal.Holds field literal ↔ literal.order? field = some .eq) ∧
      (atLeast.Holds field literal ↔
        literal.order? field = some .gt ∨ literal.order? field = some .eq) ∧
      (atMost.Holds field literal ↔
        literal.order? field = some .lt ∨ literal.order? field = some .eq) := by
  simp only [holds_iff, accepts?]
  cases literal.order? field with
  | none => simp
  | some order => cases order <;> simp

/-- Without an order no comparator is satisfied. -/
theorem test_of_order?_eq_none {c : Comparator} (hc : c.isKnown = true)
    (h : literal.order? field = none) : c.test field literal = .ok false := by
  cases c with
  | unknown text => cases hc
  | _ => simp [test, accepts?, h]

/-- A known comparator never fails. -/
theorem exists_test_eq_ok {c : Comparator} (hc : c.isKnown = true) :
    ∃ result, c.test field literal = .ok result := by
  cases c with
  | unknown text => cases hc
  | _ => exact ⟨_, rfl⟩

/-- If the orders are opposite, so are the comparators. -/
theorem holds_swap_iff
    (h : (literal.order? field).map Ordering.swap = exchanged.order? other) :
    (greater.Holds field literal ↔ less.Holds other exchanged) ∧
      (less.Holds field literal ↔ greater.Holds other exchanged) ∧
      (equal.Holds field literal ↔ equal.Holds other exchanged) := by
  obtain ⟨hgreater, hless, hequal, -⟩ := holds_iff_order? field literal
  obtain ⟨hgreater', hless', hequal', -⟩ := holds_iff_order? other exchanged
  rw [hgreater, hless, hequal, hgreater', hless', hequal', ← h]
  cases literal.order? field with
  | none => simp
  | some order => cases order <;> simp

end Comparator

/-- What the comparators say of a field and a literal fits together. -/
structure IsConsistent (field : Option Json) (literal : Literal) : Prop where
  /-- Unknown text is refused, and named. -/
  unknown (text : String) :
    (Comparator.unknown text).test field literal = .error (.unknownOperator text)
  /-- A known comparator gives a truth value. -/
  known (c : Comparator) : c.isKnown = true → ∃ result, c.test field literal = .ok result
  /-- Greater and less exclude each other. -/
  not_greater_and_less :
    ¬ (Comparator.greater.Holds field literal ∧ Comparator.less.Holds field literal)
  /-- Greater and equal exclude each other. -/
  not_greater_and_equal :
    ¬ (Comparator.greater.Holds field literal ∧ Comparator.equal.Holds field literal)
  /-- Less and equal exclude each other. -/
  not_less_and_equal :
    ¬ (Comparator.less.Holds field literal ∧ Comparator.equal.Holds field literal)
  /-- At least is greater or equal. -/
  atLeast_iff : Comparator.atLeast.Holds field literal ↔
    Comparator.greater.Holds field literal ∨ Comparator.equal.Holds field literal
  /-- At most is less or equal. -/
  atMost_iff : Comparator.atMost.Holds field literal ↔
    Comparator.less.Holds field literal ∨ Comparator.equal.Holds field literal
  /-- One of the three holds just if both are numbers or both are strings. -/
  comparable_iff : Comparable field literal ↔ Comparator.greater.Holds field literal ∨
    Comparator.less.Holds field literal ∨ Comparator.equal.Holds field literal
  /-- No comparator is satisfied by any other pairing. -/
  false_of_not_comparable (c : Comparator) : c.isKnown = true → ¬ Comparable field literal →
    c.test field literal = .ok false

theorem isConsistent (field : Option Json) (literal : Literal) : IsConsistent field literal := by
  obtain ⟨hgreater, hless, hequal, hatLeast, hatMost⟩ := Comparator.holds_iff_order? field literal
  have hunique {a b : Ordering} (hne : a ≠ b) :
      ¬ (literal.order? field = some a ∧ literal.order? field = some b) :=
    fun h => hne (Option.some.inj (h.1.symm.trans h.2))
  exact {
    unknown := fun _ => rfl
    known := fun _ => Comparator.exists_test_eq_ok
    not_greater_and_less := by
      rw [hgreater, hless]
      exact hunique (by decide)
    not_greater_and_equal := by
      rw [hgreater, hequal]
      exact hunique (by decide)
    not_less_and_equal := by
      rw [hless, hequal]
      exact hunique (by decide)
    atLeast_iff := by rw [hatLeast, hgreater, hequal]
    atMost_iff := by rw [hatMost, hless, hequal]
    comparable_iff := by
      rw [comparable_iff_order?, hgreater, hless, hequal]
      constructor
      · rintro ⟨order, h⟩
        cases order <;> simp [h]
      · rintro (h | h | h) <;> exact ⟨_, h⟩
    false_of_not_comparable := fun c hc h => by
      rw [comparable_iff_order?, ← Option.ne_none_iff_exists', not_not] at h
      exact Comparator.test_of_order?_eq_none hc h }

/-! ### Fields and literals exchanged -/

namespace Literal

theorem order?_number_swap (a b : Json.Number) :
    ((number b.toDouble).order? (some (.number a))).map Ordering.swap =
      (number a.toDouble).order? (some (.number b)) :=
  Double.compare?_swap _ _

theorem order?_text_swap (s t : String) :
    ((text t).order? (some (.text s))).map Ordering.swap = (text s).order? (some (.text t)) := by
  simp [order?, ← Std.OrientedCmp.eq_swap]

end Literal

namespace Comparator

theorem less_text_iff {s t : String} : less.Holds (some (.text s)) (.text t) ↔ s < t := by
  have horder : (Literal.text t).order? (some (.text s)) = some (compare s t) := rfl
  rw [(holds_iff_order? _ _).2.1, horder, Option.some.injEq, compare_lt_iff_lt]

theorem equal_text_iff {s t : String} : equal.Holds (some (.text s)) (.text t) ↔ s = t := by
  have horder : (Literal.text t).order? (some (.text s)) = some (compare s t) := rfl
  rw [(holds_iff_order? _ _).2.2.1, horder, Option.some.injEq, compare_eq_iff_eq]

theorem atMost_text_iff {s t : String} : atMost.Holds (some (.text s)) (.text t) ↔ s ≤ t := by
  rw [(isConsistent _ _).atMost_iff, less_text_iff, equal_text_iff, le_iff_lt_or_eq]

/-- **The comparators form one order.** What they say of a field and a literal always fits together.
Two numbers, or two strings, may be exchanged: greater becomes less, and equal stays; any finite
double is the one of a field that holds it. Strings are in the lexicographic order of their code
points, which is linear and transitive. -/
theorem consistent_order :
    (∀ field literal, IsConsistent field literal) ∧
    (∀ a b : Json.Number,
      (greater.Holds (some (.number a)) (.number b.toDouble) ↔
        less.Holds (some (.number b)) (.number a.toDouble)) ∧
      (less.Holds (some (.number a)) (.number b.toDouble) ↔
        greater.Holds (some (.number b)) (.number a.toDouble)) ∧
      (equal.Holds (some (.number a)) (.number b.toDouble) ↔
        equal.Holds (some (.number b)) (.number a.toDouble))) ∧
    (∀ s t : String,
      (greater.Holds (some (.text s)) (.text t) ↔ less.Holds (some (.text t)) (.text s)) ∧
      (less.Holds (some (.text s)) (.text t) ↔ greater.Holds (some (.text t)) (.text s)) ∧
      (equal.Holds (some (.text s)) (.text t) ↔ equal.Holds (some (.text t)) (.text s))) ∧
    (∀ s t : String,
      (less.Holds (some (.text s)) (.text t) ↔ Text.codePoints s < Text.codePoints t) ∧
      (equal.Holds (some (.text s)) (.text t) ↔ s = t)) ∧
    (IsStrictTotalOrder String fun s t => less.Holds (some (.text s)) (.text t)) ∧
    IsLinearOrder String fun s t => atMost.Holds (some (.text s)) (.text t) := by
  refine ⟨isConsistent, fun a b => holds_swap_iff (Literal.order?_number_swap a b),
    fun s t => holds_swap_iff (Literal.order?_text_swap s t),
    fun s t => ⟨less_text_iff.trans Text.lt_iff_codePoints_lt, equal_text_iff⟩, ?_, ?_⟩
  · simp only [less_text_iff]
    infer_instance
  · simp only [atMost_text_iff]
    infer_instance

end Comparator

end Criteria
