import Criteria.Rule.Token
import Mathlib.Data.List.TakeWhile

/-!
# Lexemes

A lexeme is a token as the scanner finds it: a quoted string with no more apostrophes, or a run of
characters of one kind that is not empty. The scanner finds a lexeme again in its own spelling,
provided that what follows does not go on with it.

## Main definitions

* `Token.IsLexeme`: a token as the scanner finds it.
* `Token.Ends`: a token ends where a text begins.
* `Token.single`: the token that a text is.

## Main results

* `Token.isLexeme_of_mem_scan`: the scanner finds lexemes only.
* `Token.scan_text_append`: the scanner finds every lexeme.
* `Token.single_text`: the spelling of a lexeme is that lexeme.
-/

namespace Criteria.Token

/-- A token as the scanner finds it. -/
def IsLexeme : Token → Prop
  | .opening => True
  | .closing => True
  | .quoted text => ∃ content, text = quote content ∧ '\'' ∉ content
  | .symbol text => text.toList ≠ [] ∧ ∀ c ∈ text.toList, isSymbolChar c = true
  | .word text => text.toList ≠ [] ∧ ∀ c ∈ text.toList, isWordChar c = true

/-- A token ends where a text begins: the text does not go on with it. -/
def Ends : Token → List Char → Prop
  | .symbol _, c :: _ => isSymbolChar c = false
  | .word _, c :: _ => isWordChar c = false
  | _, _ => True

/-- The token that a text is. -/
def single (s : String) : Token := (ofString s).headD .opening

@[simp] theorem ends_nil (token : Token) : token.Ends [] := by
  cases token <;> exact trivial

/-- Every token ends before a character that no token goes on with. -/
theorem ends_cons (token : Token) {c : Char} (hsymbol : isSymbolChar c = false)
    (hword : isWordChar c = false) (rest : List Char) : token.Ends (c :: rest) := by
  cases token with
  | symbol _ => exact hsymbol
  | word _ => exact hword
  | _ => exact trivial

@[simp] theorem ends_space (token : Token) (rest : List Char) : token.Ends (' ' :: rest) :=
  ends_cons token rfl rfl rest

@[simp] theorem ends_closing (token : Token) (rest : List Char) : token.Ends (')' :: rest) :=
  ends_cons token rfl rfl rest

/-! ### Cutting at an apostrophe -/

/-- A text is cut at its first apostrophe. -/
theorem cutAtQuote_eq_some_iff {s content rest : List Char} :
    cutAtQuote s = some (content, rest) ↔ s = content ++ '\'' :: rest ∧ '\'' ∉ content := by
  have happend := List.takeWhile_append_dropWhile (p := (· ≠ '\'')) (l := s)
  constructor
  · intro h
    rw [cutAtQuote] at h
    split at h
    · cases h
    · next c r hd =>
      cases h
      have hc : c = '\'' := by
        have hhead := List.head?_dropWhile_not (· ≠ '\'') s
        rw [hd] at hhead
        simpa using hhead
      rw [hd, hc] at happend
      refine ⟨happend.symm, fun hmem => ?_⟩
      simpa using List.mem_takeWhile_imp hmem
  · rintro ⟨rfl, hcontent⟩
    have hall : ∀ c ∈ content, decide (c ≠ '\'') = true := by
      rintro c hc
      simp only [decide_eq_true_eq]
      rintro rfl
      exact hcontent hc
    rw [cutAtQuote, List.dropWhile_append_of_pos hall, List.takeWhile_append_of_pos hall]
    simp

/-- A text cannot be cut if it has no apostrophe. -/
theorem cutAtQuote_eq_none_iff {s : List Char} : cutAtQuote s = none ↔ '\'' ∉ s := by
  constructor
  · intro h hmem
    obtain ⟨content, rest, hs, hcontent⟩ := List.eq_append_cons_of_mem hmem
    rw [cutAtQuote_eq_some_iff.2 ⟨hs, hcontent⟩] at h
    cases h
  · intro h
    refine Option.eq_none_iff_forall_ne_some.2 fun cut hcut => h ?_
    rw [(cutAtQuote_eq_some_iff.1 hcut).1]
    simp

/-! ### What the scanner finds -/

@[simp] theorem scan_space (rest : List Char) : scan (' ' :: rest) = scan rest :=
  scan_cons_of_skipped (by decide) (by decide) (by decide) rfl rfl rest

/-- The scanner finds lexemes only. -/
theorem isLexeme_of_mem_scan {s : List Char} {token : Token} (h : token ∈ scan s) :
    token.IsLexeme := by
  -- the characters of a run, the first one included
  have hrun (p : Char → Bool) {c : Char} (hc : p c = true) (s : List Char) :
      ∀ x ∈ c :: s.takeWhile p, p x = true :=
    List.forall_mem_cons.2 ⟨hc, fun _ hx => List.mem_takeWhile_imp hx⟩
  fun_induction scan s with
  | case1 => simp at h
  | case2 s ih =>
    rcases List.mem_cons.1 h with rfl | h
    · exact trivial
    · exact ih h
  | case3 s _ ih =>
    rcases List.mem_cons.1 h with rfl | h
    · exact trivial
    · exact ih h
  | case4 s content rest hcut _ _ _ ih =>
    rcases List.mem_cons.1 h with rfl | h
    · exact ⟨content, rfl, (cutAtQuote_eq_some_iff.1 hcut).2⟩
    · exact ih h
  | case5 s _ _ _ ih => exact ih h
  | case6 c s _ _ _ hc _ ih =>
    rcases List.mem_cons.1 h with rfl | h
    · simpa [IsLexeme] using hrun isSymbolChar hc s
    · exact ih h
  | case7 c s _ _ _ _ hc _ ih =>
    rcases List.mem_cons.1 h with rfl | h
    · simpa [IsLexeme] using hrun isWordChar hc s
    · exact ih h
  | case8 c s _ _ _ _ _ ih => exact ih h

theorem isLexeme_of_mem_ofString {s : String} {token : Token} (h : token ∈ ofString s) :
    token.IsLexeme := isLexeme_of_mem_scan h

/-- A run of characters is one token where it ends, if the scanner takes characters of that kind
off in one go. -/
private theorem scan_run_append {p : Char → Bool} {token : String → Token}
    (hscan : ∀ {c : Char}, p c = true → ∀ s, scan (c :: s) =
      token (String.ofList (c :: s.takeWhile p)) :: scan (s.dropWhile p))
    {text : String} (hne : text.toList ≠ []) (hall : ∀ c ∈ text.toList, p c = true)
    {rest : List Char} (hrest : ∀ c ∈ rest.head?, p c = false) :
    scan (text.toList ++ rest) = token text :: scan rest := by
  obtain ⟨c, run, htext⟩ := List.exists_cons_of_ne_nil hne
  rw [htext, List.forall_mem_cons] at hall
  obtain ⟨hc, hrun⟩ := hall
  have hstop : rest.takeWhile p = [] ∧ rest.dropWhile p = rest := by
    cases rest with
    | nil => exact ⟨rfl, rfl⟩
    | cons d rest =>
      have hd : p d = false := hrest d rfl
      simp [hd]
  rw [htext, List.cons_append, hscan hc, List.takeWhile_append_of_pos hrun,
    List.dropWhile_append_of_pos hrun, hstop.1, hstop.2, List.append_nil, ← htext,
    String.ofList_toList]

/-- The scanner finds every lexeme in its own spelling. -/
theorem scan_text_append {token : Token} (h : token.IsLexeme) {rest : List Char}
    (hends : token.Ends rest) : scan (token.text.toList ++ rest) = token :: scan rest := by
  cases token with
  | opening => exact scan_opening rest
  | closing => exact scan_closing rest
  | quoted _ =>
    obtain ⟨content, rfl, hcontent⟩ := h
    have hcut : cutAtQuote (content ++ '\'' :: rest) = some (content, rest) :=
      cutAtQuote_eq_some_iff.2 ⟨rfl, hcontent⟩
    have htext : (quoted (quote content)).text.toList ++ rest =
        '\'' :: (content ++ '\'' :: rest) := by
      simp [text]
    rw [htext, scan_quote, hcut]
  | symbol text =>
    refine scan_run_append scan_symbol h.1 h.2 ?_
    cases rest with
    | nil => simp
    | cons c rest => simpa [Ends] using hends
  | word text =>
    refine scan_run_append scan_word h.1 h.2 ?_
    cases rest with
    | nil => simp
    | cons c rest => simpa [Ends] using hends

/-- The spelling of a lexeme is just that lexeme. -/
theorem ofString_text {token : Token} (h : token.IsLexeme) : ofString token.text = [token] := by
  have hscan := scan_text_append h (ends_nil token)
  rwa [List.append_nil, scan_nil] at hscan

theorem single_text {token : Token} (h : token.IsLexeme) : single token.text = token := by
  rw [single, ofString_text h, List.headD_cons]

end Criteria.Token
