import Criteria.Proofs.ComparisonOrder
import Criteria.Proofs.RuleSet
import Criteria.Proofs.Scanning
import Criteria.Proofs.WordNumeral

/-!
# Comparing integers

A rule that compares a field with digits compares doubles: the field is rounded to a double, and so
are the digits. Rounding may make two integers equal, but it never swaps them, so a strict
comparison that holds for the doubles holds for the integers. Digits beyond the range of doubles are
a string, which satisfies no comparison with a number. Up to `2 ^ 53` nothing is rounded.

## Main definitions

* `Comparator.rule`: the text of a rule that is one comparison.
* `IntegerAnswers`: truth values of comparisons that never invert the order of two integers.

## Main results

* `Engine.decides_rule_iff`: what is decided by a rule that is one comparison.
* `Literal.order?_digits`: the order of an integer and of digits.
* `Engine.integer_answers`: comparisons of integers are never inverted.
-/

namespace Criteria

open Text

/-! ### Rules that are one comparison -/

/-- The text of the rule that compares a field with a word. -/
def Comparator.rule (c : Comparator) (field word : String) : String :=
  field ++ " " ++ c.text ++ " " ++ word

section

variable {c : Comparator} {field word : String}

theorem Comparator.isLexeme_text (hc : c.isKnown = true) : (Token.symbol c.text).IsLexeme := by
  cases c with
  | unknown text => cases hc
  | _ => exact ⟨by decide, List.all_eq_true.1 (by decide)⟩

theorem Comparator.ofString_rule (hc : c.isKnown = true) (hfield : (Token.word field).IsLexeme)
    (hword : (Token.word word).IsLexeme) :
    Token.ofString (c.rule field word) = [.word field, .symbol c.text, .word word] := by
  have htokens : ∀ token ∈ [Token.word field, .symbol c.text, .word word], token.IsLexeme := by
    simp [hfield, hword, c.isLexeme_text hc]
  rw [Token.ofString, ← Token.scan_intercalate htokens]
  simp [rule, Token.text, List.intercalate_cons_cons]

namespace Engine

variable {engine : Engine}

/-- The tree of the rule is the comparison. -/
theorem compile_rule (hdepth : 0 < engine.dialect.maxDepth) (hc : c.isKnown = true)
    (hfield : (Token.word field).IsLexeme) (hword : (Token.word word).IsLexeme) :
    engine.compile (c.rule field word) = .ok (.leaf ⟨field, c, .ofToken (.word word)⟩) := by
  have hcanonical := Comparator.isCanonical_of_isKnown hc
  obtain ⟨depth, hdepth⟩ := Nat.exists_eq_succ_of_ne_zero (Nat.ne_of_gt hdepth)
  rw [compile, Dialect.compile, c.ofString_rule hc hfield hword, Dialect.parse, hdepth,
    Dialect.parseWithin_leaf (by simp), Dialect.operand_eq_ok_iff, Condition.ofTokens]
  simp only [Token.text]
  rw [hcanonical]
  exact ⟨rfl, fun _ => hc⟩

/-- The rule is decided as the comparison of the field with the literal of the word. -/
theorem decides_rule_iff (hdepth : 0 < engine.dialect.maxDepth) (hc : c.isKnown = true)
    (hfield : (Token.word field).IsLexeme) (hword : (Token.word word).IsLexeme)
    {record : Record} {result : Bool} :
    engine.Decides record (c.rule field word) result ↔
      c.test (record.get? field) (.ofToken (.word word)) = .ok result :=
  decides_iff_truth (compile_rule hdepth hc hfield hword) result

end Engine

end

/-! ### The order of an integer and of digits -/

namespace Literal

/-- The literal of digits is the double nearest to their number, or else they stay a string. -/
theorem ofToken_digits {digits : String} (h : IsDigits digits.toList) :
    ofToken (.word digits) = match Magnitude.ofNat? (digitsValue digits.toList) with
      | some _ => .number (.ofInt (digitsValue digits.toList))
      | none => .text digits := by
  have hofInt {d : Nat} {m : Magnitude} (hm : Magnitude.ofNat? d = some m) :
      Double.ofInt d = .finite false m := by
    have hd : ¬ (d : Int) < 0 := by omega
    rw [Double.ofInt, Int.natAbs_natCast, hm, Double.ofMagnitude?, decide_eq_false hd]
  rw [ofToken, numberOfWord?_digits h]
  cases hm : Magnitude.ofNat? (digitsValue digits.toList) with
  | none => simp only [Option.map_none]
  | some m => simp only [Option.map_some, hofInt hm]

/-- The order of an integer and of digits is that of the doubles nearest to them, if there are
such. -/
theorem order?_digits {n : Int} {m : Magnitude} (hn : Magnitude.ofNat? n.natAbs = some m)
    {digits : String} (h : IsDigits digits.toList) :
    (ofToken (.word digits)).order? (some (.int n)) =
      (Magnitude.ofNat? (digitsValue digits.toList)).map fun _ =>
        compare (Double.nearestPlace n) (Double.nearestPlace (digitsValue digits.toList)) := by
  rw [ofToken_digits h]
  cases hd : Magnitude.ofNat? (digitsValue digits.toList) with
  | none => rfl
  | some _ =>
    exact Double.compare?_of_position? (Double.position?_ofInt hn) (Double.position?_ofInt hd)

end Literal

/-- An integer of 64 bits has a nearest double. -/
theorem Json.Number.Fits.exists_ofNat? {n : Int} (h : (Json.Number.integer n).Fits) :
    ∃ m, Magnitude.ofNat? n.natAbs = some m := by
  obtain ⟨hmin, hmax⟩ := h
  exact Magnitude.exists_ofNat? (by omega)

/-! ### Answers -/

/-- Truth values of the comparisons of two integers, a field's and a rule's, that never invert their
order. -/
structure IntegerAnswers (answer : Comparator → Bool → Prop) (n d : Int) : Prop where
  /-- There is one for each comparator. -/
  existsUnique (c : Comparator) : c.isKnown = true → ∃! result, answer c result
  /-- If the field is said to be greater, it is. -/
  lt_of_greater : answer .greater true → d < n
  /-- If it is said to be less, it is. -/
  lt_of_less : answer .less true → n < d
  /-- If they are equal, they are said to be so. -/
  of_eq : n = d → answer .equal true ∧ answer .atLeast true ∧ answer .atMost true
  /-- Up to `2 ^ 53` every comparator is that of the integers. -/
  exact_of_le : n.natAbs ≤ twoTo 53 → d.natAbs ≤ twoTo 53 →
    (answer .greater true ↔ d < n) ∧ (answer .less true ↔ n < d) ∧ (answer .equal true ↔ n = d) ∧
      (answer .atLeast true ↔ d ≤ n) ∧ (answer .atMost true ↔ n ≤ d)

/-- Only the answers of known comparators matter. -/
theorem IntegerAnswers.congr {answer other : Comparator → Bool → Prop} {n d : Int}
    (h : IntegerAnswers other n d)
    (hsame : ∀ c, c.isKnown = true → ∀ result, answer c result ↔ other c result) :
    IntegerAnswers answer n d where
  existsUnique c hc := by
    simpa only [hsame c hc] using h.existsUnique c hc
  lt_of_greater := by
    rw [hsame .greater rfl]
    exact h.lt_of_greater
  lt_of_less := by
    rw [hsame .less rfl]
    exact h.lt_of_less
  of_eq := by
    rw [hsame .equal rfl, hsame .atLeast rfl, hsame .atMost rfl]
    exact h.of_eq
  exact_of_le := by
    rw [hsame .greater rfl, hsame .less rfl, hsame .equal rfl, hsame .atLeast rfl,
      hsame .atMost rfl]
    exact h.exact_of_le

section

variable {n : Int} {digits : String}

/-- The comparisons of an integer with digits are those of the doubles nearest to them, if there are
such. -/
theorem Comparator.holds_digits_iff {m m' : Magnitude} (hn : Magnitude.ofNat? n.natAbs = some m)
    (h : IsDigits digits.toList) (hd : Magnitude.ofNat? (digitsValue digits.toList) = some m') :
    let place := Double.nearestPlace n
    let other := Double.nearestPlace (digitsValue digits.toList)
    let literal := Literal.ofToken (.word digits)
    (greater.Holds (some (.int n)) literal ↔ other < place) ∧
      (less.Holds (some (.int n)) literal ↔ place < other) ∧
      (equal.Holds (some (.int n)) literal ↔ place = other) ∧
      (atLeast.Holds (some (.int n)) literal ↔ other ≤ place) ∧
      (atMost.Holds (some (.int n)) literal ↔ place ≤ other) := by
  intro place other literal
  have horder : literal.order? (some (.int n)) = some (compare place other) := by
    rw [Literal.order?_digits hn h, hd, Option.map_some]
  obtain ⟨hgreater, hless, hequal, hatLeast, hatMost⟩ :=
    Comparator.holds_iff_order? (some (.int n)) literal
  rw [hgreater, hless, hequal, hatLeast, hatMost, horder]
  simp only [Option.some.injEq, compare_gt_iff_gt, compare_lt_iff_lt, compare_eq_iff_eq]
  refine ⟨trivial, trivial, trivial, ?_, le_iff_lt_or_eq.symm⟩
  rw [le_iff_lt_or_eq, eq_comm]

/-- Digits beyond the range of doubles satisfy no comparison with an integer. -/
theorem Comparator.not_holds_digits {m : Magnitude} (hn : Magnitude.ofNat? n.natAbs = some m)
    (h : IsDigits digits.toList) (hd : Magnitude.ofNat? (digitsValue digits.toList) = none)
    (c : Comparator) : ¬ c.Holds (some (.int n)) (.ofToken (.word digits)) := by
  rw [holds_iff, Literal.order?_digits hn h, hd]
  simp

end

/-- The comparisons of an integer of 64 bits with digits never invert their order. -/
theorem Literal.integerAnswers {n : Int} (hn : (Json.Number.integer n).Fits) {digits : String}
    (h : IsDigits digits.toList) :
    IntegerAnswers (fun c result => c.test (some (.int n)) (.ofToken (.word digits)) = .ok result) n
      (digitsValue digits.toList) := by
  obtain ⟨m, hm⟩ := hn.exists_ofNat?
  have hknown (c : Comparator) (hc : c.isKnown = true) :
      ∃! result, c.test (some (.int n)) (.ofToken (.word digits)) = .ok result := by
    obtain ⟨result, hresult⟩ := Comparator.exists_test_eq_ok hc
    exact ⟨result, hresult, fun other hother => Except.ok.inj (hother.symm.trans hresult)⟩
  cases hd : Magnitude.ofNat? (digitsValue digits.toList) with
  | none =>
    have hfalse := Comparator.not_holds_digits hm h hd
    have hbeyond : wordBound < digitsValue digits.toList := by
      by_contra hle
      obtain ⟨m', hm'⟩ := Magnitude.exists_ofNat? (Nat.le_of_not_lt hle)
      rw [hd] at hm'
      cases hm'
    exact {
      existsUnique := hknown
      lt_of_greater := fun hgreater => absurd hgreater (hfalse _)
      lt_of_less := fun hless => absurd hless (hfalse _)
      of_eq := fun heq => by
        have hmax := hn.2
        omega
      exact_of_le := fun _ hle => by
        have htwo : twoTo 53 ≤ wordBound := by decide
        omega }
  | some m' =>
    obtain ⟨hgreater, hless, hequal, hatLeast, hatMost⟩ := Comparator.holds_digits_iff hm h hd
    exact {
      existsUnique := hknown
      lt_of_greater := fun h => Double.lt_of_nearestPlace_lt (hgreater.1 h)
      lt_of_less := fun h => Double.lt_of_nearestPlace_lt (hless.1 h)
      of_eq := fun heq => by
        rw [← heq] at hequal hatLeast hatMost
        exact ⟨hequal.2 rfl, hatLeast.2 le_rfl, hatMost.2 le_rfl⟩
      exact_of_le := fun hle hle' => by
        have hlt := Double.nearestPlace_lt_iff hle hle'
        have hgt := Double.nearestPlace_lt_iff hle' hle
        exact ⟨hgreater.trans hgt, hless.trans hlt, hequal.trans (by omega),
          hatLeast.trans (by omega), hatMost.trans (by omega)⟩ }

/-- **Comparisons of integers are never inverted.** An engine that may nest expressions at all reads
the rule that compares a field with digits as this comparison, and for a record whose field is an
integer of 64 bits every comparator has one truth value, however many digits there are. If the field
is said to be greater, or less, it is; if it is equal, it is said to be so. Up to `2 ^ 53` all
comparators are those of integers. -/
theorem Engine.integer_answers {engine : Engine} (hdepth : 0 < engine.dialect.maxDepth)
    {field digits : String} (hfield : (Token.word field).IsLexeme) (h : IsDigits digits.toList)
    {n : Int} (hn : (Json.Number.integer n).Fits) :
    IntegerAnswers
      (fun c => engine.Decides (Record.ofMembers [(field, .int n)]) (c.rule field digits)) n
      (digitsValue digits.toList) := by
  have hword : (Token.word digits).IsLexeme := by
    refine ⟨h.1, fun c hc => ?_⟩
    simp [Token.isWordChar, Char.isAlphanum, h.2 c hc]
  have hfound : (Record.ofMembers [(field, Json.int n)]).get? field = some (.int n) := by
    rw [Record.get?, Record.ofMembers, ← List.nil_append [_], Json.arrange_concat,
      Json.lookup_setMember_self]
  refine (Literal.integerAnswers hn h).congr fun c hc result => ?_
  rw [decides_rule_iff hdepth hc hfield hword, hfound]

/-- The theorem for the largest integer of 64 bits and digits with zeros in front; both are rounded,
to the same double. -/
theorem Engine.integer_answers_largest :
    0 < Engine.standard.dialect.maxDepth ∧ (Token.word "x").IsLexeme ∧
      IsDigits "0018446744073709551615".toList ∧
      (Json.Number.integer 18446744073709551615).Fits ∧
      Comparator.rule .atLeast "x" "0018446744073709551615" = "x >= 0018446744073709551615" ∧
      Engine.standard.Decides (Record.ofMembers [("x", .int 18446744073709551615)])
        (Comparator.rule .atLeast "x" "0018446744073709551615") true := by
  have hdepth : 0 < Engine.standard.dialect.maxDepth := by decide
  have hfield : (Token.word "x").IsLexeme := ⟨by decide, List.all_eq_true.1 (by decide)⟩
  have hdigits : IsDigits "0018446744073709551615".toList :=
    ⟨by decide, List.all_eq_true.1 (by decide)⟩
  have hfits : (Json.Number.integer 18446744073709551615).Fits := ⟨by decide, by decide⟩
  have hequal : (18446744073709551615 : Int) = digitsValue "0018446744073709551615".toList := by
    decide
  have hanswers := Engine.integer_answers hdepth hfield hdigits hfits
  exact ⟨hdepth, hfield, hdigits, hfits, by decide, (hanswers.of_eq hequal).2.1⟩

end Criteria
