import Criteria.Proofs.NearestDouble
import Criteria.Proofs.Spelling
import Criteria.Proofs.TreeJson

/-!
# Numbers and strings in rule text

A word stands for a number if it is made of digits, or of digits, the letter `e` and digits, and if
the number that these denote is within the range of doubles after rounding; it is rounded once, to
the nearest double. Every other word stands for itself, and a quoted string for what is between its
quotes. The text of such a literal is one token, which stands for the literal again.

## Main results

* `Literal.numberOfWord?_eq_some_iff`: the double of a word is the nearest to what it denotes.
* `Literal.literals_of_tokens`: what words and quoted strings stand for, and their texts.
-/

namespace Criteria

open Text

namespace Literal

/-- **The double of a word is the nearest one to what the word denotes.** -/
theorem numberOfWord?_eq_some_iff {w : List Char} (h : ∀ c ∈ w, Token.isWordChar c = true)
    {x : Double} : numberOfWord? w = some x ↔ ∃ significand exponent m,
      Denotes w significand exponent ∧
        IsNearest (significand * tenTo exponent * quantaPerUnit) m.quanta ∧ x = .finite false m := by
  simp only [numberOfWord?_eq_some_iff_denotes h, Magnitude.ofNat?_eq_some_iff]

variable {w : String}

theorem ofToken_word_eq_number_iff {x : Double} :
    ofToken (.word w) = .number x ↔ numberOfWord? w.toList = some x := by
  rw [ofToken]
  cases numberOfWord? w.toList <;> simp

/-- The text of the literal of a lexeme is one token, which stands for the same literal. -/
theorem exists_ofString_display {token : Token} (h : token.IsLexeme) :
    ∃ other, Token.ofString (String.ofList (ofToken token).display) = [other] ∧
      ofToken other = ofToken token := by
  have hreadable := isReadable_ofToken h
  refine ⟨(ofToken token).token, ?_, ?_⟩
  · rw [Token.ofString, String.toList_ofList, ← List.append_nil (ofToken token).display,
      hreadable.scan_display_append (Token.ends_nil _), Token.scan_nil]
  · have hunsigned := isUnsigned_ofToken token
    exact ((hunsigned.eq_of_same (isUnsigned_ofToken _) hreadable.same_reread)).symm

/-- **What tokens stand for as values.** A word stands for a number just if it is digits, or digits,
the letter `e` and digits, and if the number that these denote rounds to a finite double, which it
is then; so digits that denote zero stand for zero, with any power of ten. This is also what a
reader of numerals makes of the word, if it begins with a digit and the number is finite. Any other
word stands for itself. The text of what a word stands for is one token, which stands for the same.
A quoted string stands for what is between its quotes, whatever that is. -/
theorem literals_of_tokens (h : (Token.word w).IsLexeme) :
    (∀ x, ofToken (.word w) = .number x ↔ ∃ significand exponent m,
      Denotes w.toList significand exponent ∧
        IsNearest (significand * tenTo exponent * quantaPerUnit) m.quanta ∧ x = .finite false m) ∧
    (∀ exponent, Denotes w.toList 0 exponent →
      ofToken (.word w) = .number (.finite false .zero)) ∧
    (∀ x, ofToken (.word w) = .number x ↔ (∃ c ∈ w.toList.head?, c.isDigit = true) ∧
      Double.ofText? w.toList = some x ∧ x.IsFinite) ∧
    ((∀ x, ofToken (.word w) ≠ .number x) → ofToken (.word w) = .text w) ∧
    (∃ token, Token.ofString (String.ofList (ofToken (.word w)).display) = [token] ∧
      ofToken token = ofToken (.word w)) ∧
    ∀ content : String, '\'' ∉ content.toList →
      Token.ofString ("'" ++ content ++ "'") = [.quoted ("'" ++ content ++ "'")] ∧
        ofToken (.quoted ("'" ++ content ++ "'")) = .text content := by
  refine ⟨fun x => ofToken_word_eq_number_iff.trans (numberOfWord?_eq_some_iff h.2), ?_,
    fun x => ?_, ?_, exists_ofString_display h, fun content hcontent => ?_⟩
  · intro exponent hzero
    have hnearest : IsNearest (0 * tenTo exponent * quantaPerUnit) Magnitude.zero.quanta := by
      rw [Nat.zero_mul, ← Magnitude.ofNat?_eq_some_iff, Magnitude.ofNat?_zero]
    exact ofToken_word_eq_number_iff.2
      ((numberOfWord?_eq_some_iff h.2).2 ⟨0, exponent, .zero, hzero, hnearest, rfl⟩)
  · rw [ofToken_word_eq_number_iff, numberOfWord?_eq_some_iff_ofText?, Double.isFinite_eq_true_iff]
  · intro hnone
    rw [ofToken]
    split
    · next x hx => exact absurd (ofToken_word_eq_number_iff.2 hx) (hnone x)
    · rfl
  · have hquote : "'" ++ content ++ "'" = Token.quote content.toList :=
      String.toList_injective (by simp)
    have hlexeme : (Token.quoted (Token.quote content.toList)).IsLexeme := ⟨_, rfl, hcontent⟩
    have htokens := Token.ofString_text hlexeme
    rw [Token.text] at htokens
    rw [hquote, ofToken, unquoted_quote, String.ofList_toList]
    exact ⟨htokens, rfl⟩

/-- The theorem for a power of ten that is never computed, since it is multiplied by zero, and for
digits that are quoted. -/
theorem literals_of_tokens_zero :
    (Token.word "0e99999").IsLexeme ∧ Denotes "0e99999".toList 0 99999 ∧
      ofToken (.word "0e99999") = .number (.finite false .zero) ∧
      '\'' ∉ "007".toList ∧ Token.ofString "'007'" = [.quoted "'007'"] ∧
      ofToken (.quoted "'007'") = .text "007" := by
  have hlexeme : (Token.word "0e99999").IsLexeme := ⟨by decide, List.all_eq_true.1 (by decide)⟩
  have hdenotes : Denotes "0e99999".toList 0 99999 :=
    .power (s := ['0']) (t := ['9', '9', '9', '9', '9'])
      ⟨by decide, List.all_eq_true.1 (by decide)⟩ (.inl rfl)
      ⟨by decide, List.all_eq_true.1 (by decide)⟩
  have hquote : '\'' ∉ "007".toList := by decide
  obtain ⟨-, hzero, -, -, -, hquoted⟩ := literals_of_tokens hlexeme
  have htext : "'" ++ "007" ++ "'" = "'007'" := by decide
  exact ⟨hlexeme, hdenotes, hzero 99999 hdenotes, hquote, htext ▸ hquoted "007" hquote⟩

end Literal

end Criteria
