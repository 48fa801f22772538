import Criteria.Proofs.DepthLimit
import Criteria.Proofs.Lexeme

/-!
# Rules in parentheses

Parentheses around a rule are tokens of their own, whatever the rule ends with: its last token ends
where the closing one begins, and an apostrophe without a partner finds none behind it. If the
parentheses of the rule itself are balanced, those around it are a group, so that reading them takes
one level and comes to reading what is between them.

## Main results

* `Token.scan_concat_closing`: the tokens of a text with a closing parenthesis behind it.
* `Token.ofString_enclosed`: the tokens of a text in parentheses.
* `Engine.compile_enclosed`: a rule and the same rule in parentheses.
-/

namespace Criteria

open Token

namespace Token

/-- A run of characters ends in front of one that does not go on with it, and then that one is
left. -/
private theorem run_concat {p : Char → Bool} {c : Char} (hc : p c = false) (s : List Char) :
    (s ++ [c]).takeWhile p = s.takeWhile p ∧ (s ++ [c]).dropWhile p = s.dropWhile p ++ [c] := by
  induction s with
  | nil => simp [hc]
  | cons d s ih => cases hd : p d <;> simp [hd, ih]

/-- A closing parenthesis behind a text is one more token. -/
theorem scan_concat_closing (s : List Char) : scan (s ++ [')']) = scan s ++ [.closing] := by
  fun_induction scan s with
  | case1 => simp
  | case2 s ih => rw [List.cons_append, scan_opening, ih, List.cons_append]
  | case3 s _ ih => rw [List.cons_append, scan_closing, ih, List.cons_append]
  | case4 s content rest hcut _ _ _ ih =>
    -- the quoted string has its apostrophes in the text
    obtain ⟨rfl, hcontent⟩ := cutAtQuote_eq_some_iff.1 hcut
    have hcut' : cutAtQuote (content ++ '\'' :: rest ++ [')']) = some (content, rest ++ [')']) :=
      cutAtQuote_eq_some_iff.2 ⟨by simp, hcontent⟩
    rw [List.cons_append, scan_quote, hcut', List.cons_append, ← ih]
  | case5 s hcut _ _ ih =>
    -- the apostrophe has no partner, and the parenthesis is none
    have hcut' : cutAtQuote (s ++ [')']) = none := by
      rw [cutAtQuote_eq_none_iff] at hcut ⊢
      simpa using hcut
    rw [List.cons_append, scan_quote, hcut', ← ih]
  | case6 c s _ _ _ hc _ ih =>
    obtain ⟨htake, hdrop⟩ := run_concat (p := isSymbolChar) (c := ')') (by decide) s
    rw [List.cons_append, scan_symbol hc, htake, hdrop, ih, List.cons_append]
  | case7 c s _ _ _ _ hc _ ih =>
    obtain ⟨htake, hdrop⟩ := run_concat (p := isWordChar) (c := ')') (by decide) s
    rw [List.cons_append, scan_word hc, htake, hdrop, ih, List.cons_append]
  | case8 c s hopening hclosing hquote hsymbol hword ih =>
    rw [List.cons_append, scan_cons_of_skipped hopening hclosing hquote (by simpa using hsymbol)
      (by simpa using hword), ih]

/-- A text in parentheses has its tokens in parentheses. -/
theorem ofString_enclosed (s : String) :
    ofString ("(" ++ s ++ ")") = .opening :: (ofString s ++ [.closing]) := by
  have htext : ("(" ++ s ++ ")").toList = '(' :: (s.toList ++ [')']) := by simp
  rw [ofString, htext, scan_opening, scan_concat_closing, ofString]

end Token

namespace Engine

/-- **Parentheses around a rule cost one level and change nothing else.** Let the parentheses of a
rule be balanced. An engine that nests one more expression than another one gives the same tree for
the rule in parentheses as the other one gives for the rule, or refuses it for the same cause; only
a refusal for its depth names the limit of the engine, which is one more. -/
theorem compile_enclosed (strict : Bool) (maxDepth : Nat) {rule : String}
    (h : IsBalanced (ofString rule)) :
    ((ofDialect ⟨strict, maxDepth + 1⟩).compile ("(" ++ rule ++ ")") =
      match (ofDialect ⟨strict, maxDepth⟩).compile rule with
      | .error (.nestingTooDeep _) => .error (.nestingTooDeep (maxDepth + 1))
      | result => result) ∧
    ∀ limit, (ofDialect ⟨strict, maxDepth⟩).compile rule = .error (.nestingTooDeep limit) →
      limit = maxDepth := by
  obtain ⟨threshold, -, result, hsettles⟩ :=
    Dialect.settlesWithin_parseWithin strict (ofString rule)
  have henclosed : (ofDialect ⟨strict, maxDepth + 1⟩).compile ("(" ++ rule ++ ")") =
      (Dialect.mk strict (maxDepth + 1)).parseWithin maxDepth (ofString rule) := by
    change (Dialect.mk strict (maxDepth + 1)).parseWithin (maxDepth + 1) _ = _
    rw [ofString_enclosed, Dialect.parseWithin_group h]
  have hrule : (ofDialect ⟨strict, maxDepth⟩).compile rule =
      (Dialect.mk strict maxDepth).parseWithin maxDepth (ofString rule) := rfl
  rw [henclosed, hrule]
  rcases Nat.lt_or_ge maxDepth threshold with hbelow | habove
  · rw [hsettles.below hbelow, hsettles.below hbelow]
    exact ⟨rfl, fun limit hlimit => by cases hlimit; rfl⟩
  · rw [hsettles.above habove, hsettles.above habove]
    refine ⟨?_, fun limit hlimit => absurd hlimit (hsettles.ne_nestingTooDeep limit)⟩
    split
    · next limit => exact absurd rfl (hsettles.ne_nestingTooDeep limit)
    · rfl

/-- The theorem for a rule that ends behind an apostrophe without a partner, and that nests three
expressions. -/
theorem compile_enclosed_of_apostrophe :
    let rule := "(a = 1 OR b = 2) AND c = 'x"
    let tree : Expr := .both (.either (.condition "a" .equal (.number (.ofInt 1)))
      (.condition "b" .equal (.number (.ofInt 2)))) (.condition "c" .equal (.text "x"))
    IsBalanced (ofString rule) ∧
      (ofDialect ⟨true, 3⟩).compile ("(" ++ rule ++ ")") = .error (.nestingTooDeep 3) ∧
      (ofDialect ⟨true, 4⟩).compile ("(" ++ rule ++ ")") = .ok tree := by
  intro rule tree
  have hbalanced : IsBalanced (ofString rule) := by decide +kernel
  have hdeep : (ofDialect ⟨true, 2⟩).compile rule = .error (.nestingTooDeep 2) := by
    decide +kernel
  have htree : (ofDialect ⟨true, 3⟩).compile rule = .ok tree := by decide +kernel
  refine ⟨hbalanced, ?_, ?_⟩
  · rw [(compile_enclosed true 2 hbalanced).1, hdeep]
  · rw [(compile_enclosed true 3 hbalanced).1, htree]

end Engine

end Criteria
