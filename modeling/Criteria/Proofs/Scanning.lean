import Criteria.Proofs.Lexeme

/-!
# Cutting rule text

The scanner cuts a text into tokens and the gaps between them. A gap holds nothing that a token is
made of, and an apostrophe only if no other one follows it in the text; two words, or two runs of
comparison signs, never stand side by side without a gap. This file shows that these conditions
leave the scanner no choice: the tokens of a text are just those of any such cut, and there always
is one.

## Main definitions

* `Token.IsGap`: a gap, in front of the rest of a text.
* `Token.RunsInto`: two tokens that would be one if nothing stood between them.
* `Token.join`, `Token.IsCut`: the text of a gap and of tokens with a gap behind each of them, and
  when it is cut there.
* `Token.Cuts`: a text can be cut into tokens.

## Main results

* `Token.ends_join_iff`: where a token ends in front of a cut.
* `Token.IsCut.scan_join`: the scanner finds the tokens of every cut.
* `Token.cuts_scan`: the scanner cuts every text.
* `Token.IsCut.filter_join`, `Token.IsCut.count_skipped`: what a cut keeps, and what it skips.
* `Token.ofString_eq_iff_exists_cut`: the tokens of a string.
-/

namespace Criteria.Token

/-- A character that is part of a token wherever it stands: a parenthesis, a comparison sign, or a
character of words. -/
def isRecognized (c : Char) : Bool := c = '(' || c = ')' || isSymbolChar c || isWordChar c

theorem isRecognized_eq_false_iff {c : Char} :
    isRecognized c = false ↔
      c ≠ '(' ∧ c ≠ ')' ∧ isSymbolChar c = false ∧ isWordChar c = false := by
  simp [isRecognized, and_assoc]

theorem not_isSymbolChar_of_isWordChar {c : Char} (h : isWordChar c = true) :
    isSymbolChar c = false := by
  simp only [isSymbolChar, Bool.or_eq_false_iff, decide_eq_false_iff_not]
  refine ⟨⟨?_, ?_⟩, ?_⟩ <;> · rintro rfl; exact absurd h (by decide)

/-- A gap in front of the rest of a text. It holds no parenthesis, no comparison sign and no
character of words, and an apostrophe only if no other one follows, in the gap or behind it. -/
def IsGap : List Char → List Char → Prop
  | [], _ => True
  | c :: gap, rest => isRecognized c = false ∧ (c = '\'' → '\'' ∉ gap ++ rest) ∧ IsGap gap rest

/-- Two tokens that would be one token if nothing stood between them. -/
def RunsInto : Token → Token → Prop
  | .symbol _, .symbol _ => True
  | .word _, .word _ => True
  | _, _ => False

/-- The text of a gap and of tokens with a gap behind each of them. -/
def join (gap : List Char) : List (Token × List Char) → List Char
  | [] => gap
  | (token, next) :: pieces => gap ++ (token.text.toList ++ join next pieces)

/-- A text is cut into a gap and tokens with a gap behind each of them. Between tokens that would
run into each other the gap is not empty. -/
def IsCut (gap : List Char) : List (Token × List Char) → Prop
  | [] => IsGap gap []
  | (token, next) :: pieces =>
    IsGap gap (token.text.toList ++ join next pieces) ∧ token.IsLexeme ∧
      (next = [] → ∀ other ∈ (pieces.map Prod.fst).head?, ¬ token.RunsInto other) ∧
      IsCut next pieces

theorem join_cons_gap (c : Char) (gap : List Char) (pieces : List (Token × List Char)) :
    join (c :: gap) pieces = c :: join gap pieces := by
  cases pieces <;> rfl

/-- The first gap of a cut is a gap in front of the rest of the text. -/
theorem IsCut.exists_rest {gap : List Char} {pieces : List (Token × List Char)}
    (h : IsCut gap pieces) : ∃ rest, join gap pieces = gap ++ rest ∧ IsGap gap rest := by
  cases pieces with
  | nil => exact ⟨[], (List.append_nil gap).symm, h⟩
  | cons piece pieces => exact ⟨_, rfl, h.1⟩

/-- A gap may begin with one more character that is no part of a token. -/
theorem IsCut.cons_gap {c : Char} {gap : List Char} {pieces : List (Token × List Char)}
    (h : IsCut gap pieces) (hc : isRecognized c = false)
    (hquote : c = '\'' → '\'' ∉ join gap pieces) : IsCut (c :: gap) pieces := by
  cases pieces with
  | nil => exact ⟨hc, by simpa [join] using hquote, h⟩
  | cons piece pieces => exact ⟨⟨hc, hquote, h.1⟩, h.2⟩

/-! ### The scanner finds the tokens of a cut -/

/-- The scanner skips a gap. -/
theorem scan_gap_append {gap rest : List Char} (h : IsGap gap rest) :
    scan (gap ++ rest) = scan rest := by
  induction gap with
  | nil => rfl
  | cons c gap ih =>
    obtain ⟨hc, hquote, hgap⟩ := h
    rw [List.cons_append]
    by_cases hapostrophe : c = '\''
    · subst hapostrophe
      rw [scan_quote, cutAtQuote_eq_none_iff.2 (hquote rfl)]
      exact ih hgap
    · obtain ⟨hopening, hclosing, hsymbol, hword⟩ := isRecognized_eq_false_iff.1 hc
      rw [scan_cons_of_skipped hopening hclosing hapostrophe hsymbol hword]
      exact ih hgap

/-- A token ends in front of a lexeme just if it does not run into it. -/
theorem ends_text_append_iff {token other : Token} (h : other.IsLexeme) (rest : List Char) :
    token.Ends (other.text.toList ++ rest) ↔ ¬ token.RunsInto other := by
  -- the first character of a lexeme that is a run of characters of one kind
  have hrun {p : Char → Bool} {text : String} (hne : text.toList ≠ [])
      (hall : ∀ c ∈ text.toList, p c = true) :
      ∃ c run, text.toList = c :: run ∧ p c = true := by
    obtain ⟨c, run, htext⟩ := List.exists_cons_of_ne_nil hne
    exact ⟨c, run, htext, hall c (htext ▸ List.mem_cons_self)⟩
  cases other with
  | opening => cases token <;> simp [Ends, RunsInto, text, isSymbolChar, isWordChar]
  | closing => cases token <;> simp [Ends, RunsInto, text, isSymbolChar, isWordChar]
  | quoted _ =>
    obtain ⟨content, rfl, -⟩ := h
    cases token <;> simp [Ends, RunsInto, text, isSymbolChar, isWordChar]
  | symbol s =>
    obtain ⟨c, run, htext, hc⟩ := hrun h.1 h.2
    have hword : isWordChar c = false := by
      by_contra hword
      rw [not_isSymbolChar_of_isWordChar (by simpa using hword)] at hc
      cases hc
    cases token <;> simp [Ends, RunsInto, text, htext, hc, hword]
  | word s =>
    obtain ⟨c, run, htext, hc⟩ := hrun h.1 h.2
    have hsymbol := not_isSymbolChar_of_isWordChar hc
    cases token <;> simp [Ends, RunsInto, text, htext, hc, hsymbol]

/-- A token ends in front of a cut just if there is a gap or a token into which it does not run. -/
theorem ends_join_iff (token : Token) {gap : List Char} {pieces : List (Token × List Char)}
    (h : IsCut gap pieces) :
    token.Ends (join gap pieces) ↔
      (gap = [] → ∀ other ∈ (pieces.map Prod.fst).head?, ¬ token.RunsInto other) := by
  cases gap with
  | cons c gap =>
    obtain ⟨rest, hrest, hgap⟩ := h.exists_rest
    obtain ⟨-, -, hsymbol, hword⟩ := isRecognized_eq_false_iff.1 hgap.1
    rw [hrest]
    simpa using ends_cons token hsymbol hword (gap ++ rest)
  | nil =>
    cases pieces with
    | nil => simp [join]
    | cons piece pieces => simpa [join] using ends_text_append_iff h.2.1 _

/-- The scanner finds the tokens of every cut. -/
theorem IsCut.scan_join {gap : List Char} {pieces : List (Token × List Char)}
    (h : IsCut gap pieces) : scan (join gap pieces) = pieces.map Prod.fst := by
  induction pieces generalizing gap with
  | nil =>
    have hscan := scan_gap_append h
    rwa [List.append_nil, scan_nil] at hscan
  | cons piece pieces ih =>
    obtain ⟨token, next⟩ := piece
    obtain ⟨hgap, hlexeme, hnext, hrest⟩ := h
    have hends := (ends_join_iff token hrest).2 hnext
    rw [join, scan_gap_append hgap, scan_text_append hlexeme hends, ih hrest, List.map_cons]

/-! ### Every text can be cut -/

/-- A text can be cut into tokens and gaps. -/
def Cuts (s : List Char) (tokens : List Token) : Prop :=
  ∃ gap pieces, IsCut gap pieces ∧ s = join gap pieces ∧ pieces.map Prod.fst = tokens

/-- A token may stand in front of what it does not go on with. -/
theorem Cuts.cons_token {rest : List Char} {tokens : List Token} (h : Cuts rest tokens)
    (token : Token) (hlexeme : token.IsLexeme) (hends : token.Ends rest) :
    Cuts (token.text.toList ++ rest) (token :: tokens) := by
  obtain ⟨gap, pieces, hcut, rfl, rfl⟩ := h
  exact ⟨[], (token, gap) :: pieces, ⟨trivial, hlexeme, (ends_join_iff token hcut).1 hends, hcut⟩,
    rfl, rfl⟩

/-- A character that is no part of a token may stand in front. -/
theorem Cuts.cons_skipped {rest : List Char} {tokens : List Token} (h : Cuts rest tokens)
    {c : Char} (hc : isRecognized c = false) (hquote : c = '\'' → '\'' ∉ rest) :
    Cuts (c :: rest) tokens := by
  obtain ⟨gap, pieces, hcut, rfl, rfl⟩ := h
  exact ⟨c :: gap, pieces, hcut.cons_gap hc hquote, (join_cons_gap c gap pieces).symm, rfl⟩

/-- A run of characters of one kind is a token in front of what is behind the run. -/
private theorem Cuts.cons_run {p : Char → Bool} {c : Char} {s : List Char} {token : Token}
    {tokens : List Token} (h : Cuts (s.dropWhile p) tokens)
    (htext : token.text = String.ofList (c :: s.takeWhile p)) (hlexeme : token.IsLexeme)
    (hends : ∀ rest, (∀ d ∈ rest.head?, p d = false) → token.Ends rest) :
    Cuts (c :: s) (token :: tokens) := by
  have hhead : ∀ d ∈ (s.dropWhile p).head?, p d = false := fun d hd => by
    have hnot := List.head?_dropWhile_not p s
    rwa [Option.mem_def.1 hd] at hnot
  have hcut := h.cons_token token hlexeme (hends _ hhead)
  rwa [htext, String.toList_ofList, List.cons_append, List.takeWhile_append_dropWhile] at hcut

/-- The scanner cuts every text into its tokens. -/
theorem cuts_scan (s : List Char) : Cuts s (scan s) := by
  have hlexeme {s : List Char} {token : Token} {tokens : List Token}
      (h : scan s = token :: tokens) : token.IsLexeme :=
    isLexeme_of_mem_scan (h ▸ List.mem_cons_self)
  fun_induction scan s with
  | case1 => exact ⟨[], [], trivial, rfl, rfl⟩
  | case2 s ih => exact ih.cons_token .opening trivial trivial
  | case3 s _ ih => exact ih.cons_token .closing trivial trivial
  | case4 s content rest hcut _ _ _ ih =>
    obtain ⟨rfl, hcontent⟩ := cutAtQuote_eq_some_iff.1 hcut
    have hquoted := ih.cons_token (.quoted (quote content)) ⟨content, rfl, hcontent⟩ trivial
    simpa [text] using hquoted
  | case5 s hcut _ _ ih =>
    exact ih.cons_skipped (by decide) fun _ => cutAtQuote_eq_none_iff.1 hcut
  | case6 c s _ _ _ hc _ ih =>
    refine ih.cons_run rfl (hlexeme (scan_symbol hc s)) fun rest hrest => ?_
    cases rest with
    | nil => exact ends_nil _
    | cons d rest => exact hrest d rfl
  | case7 c s _ _ _ _ hc _ ih =>
    refine ih.cons_run rfl (hlexeme (scan_word hc s)) fun rest hrest => ?_
    cases rest with
    | nil => exact ends_nil _
    | cons d rest => exact hrest d rfl
  | case8 c s hopening hclosing hquote hsymbol hword ih =>
    refine ih.cons_skipped ?_ fun heq => absurd heq hquote
    exact isRecognized_eq_false_iff.2
      ⟨hopening, hclosing, by simpa using hsymbol, by simpa using hword⟩

/-- The tokens of a text are those of any cut. -/
theorem cuts_iff {s : List Char} {tokens : List Token} : Cuts s tokens ↔ scan s = tokens := by
  constructor
  · rintro ⟨gap, pieces, hcut, rfl, rfl⟩
    exact hcut.scan_join
  · rintro rfl
    exact cuts_scan s

/-! ### What a cut keeps -/

theorem IsGap.filter_isRecognized {gap rest : List Char} (h : IsGap gap rest) :
    gap.filter isRecognized = [] := by
  induction gap with
  | nil => rfl
  | cons c gap ih =>
    obtain ⟨hc, -, hgap⟩ := h
    rw [List.filter_cons_of_neg (by simp [hc]), ih hgap]

/-- What is recognized in a text is in its tokens, in the same order and as often. -/
theorem IsCut.filter_join {gap : List Char} {pieces : List (Token × List Char)}
    (h : IsCut gap pieces) :
    (join gap pieces).filter isRecognized =
      ((pieces.map Prod.fst).flatMap fun token => token.text.toList).filter isRecognized := by
  induction pieces generalizing gap with
  | nil => exact IsGap.filter_isRecognized h
  | cons piece pieces ih =>
    obtain ⟨token, next⟩ := piece
    obtain ⟨hgap, -, -, hrest⟩ := h
    rw [join, List.filter_append, hgap.filter_isRecognized, List.filter_append, ih hrest,
      List.map_cons, List.flatMap_cons, List.filter_append, List.nil_append]

/-- The characters in the gaps of a cut. -/
def skipped (gap : List Char) (pieces : List (Token × List Char)) : List Char :=
  gap ++ pieces.flatMap Prod.snd

/-- A gap has one apostrophe at most, and none if another one follows. -/
theorem IsGap.count_quote {gap rest : List Char} (h : IsGap gap rest) :
    gap.count '\'' = 0 ∨ gap.count '\'' = 1 ∧ rest.count '\'' = 0 := by
  induction gap with
  | nil => exact .inl rfl
  | cons c gap ih =>
    obtain ⟨-, hquote, hgap⟩ := h
    by_cases hc : c = '\''
    · have hnone := hquote hc
      simp only [List.mem_append, not_or] at hnone
      right
      rw [hc, List.count_cons_self, List.count_eq_zero.2 hnone.1, List.count_eq_zero.2 hnone.2]
      exact ⟨rfl, rfl⟩
    · rw [List.count_cons_of_ne hc]
      exact ih hgap

/-- The apostrophes of a lexeme are the pair around a quoted string. -/
theorem IsLexeme.count_quote_mod {token : Token} (h : token.IsLexeme) :
    token.text.toList.count '\'' % 2 = 0 := by
  -- runs of characters of one kind have none
  have hrun {p : Char → Bool} (hp : p '\'' = false) {text : String}
      (hall : ∀ c ∈ text.toList, p c = true) : text.toList.count '\'' = 0 :=
    List.count_eq_zero.2 fun hmem => by
      rw [hall _ hmem] at hp
      cases hp
  cases token with
  | opening => rfl
  | closing => rfl
  | quoted _ =>
    obtain ⟨content, rfl, hcontent⟩ := h
    have hnone : content.count '\'' = 0 := List.count_eq_zero.2 hcontent
    simp [text, hnone]
  | symbol s => rw [text, hrun (by decide) h.2]
  | word w => rw [text, hrun (by decide) h.2]

/-- One apostrophe stands in a gap if their number is odd, and none if it is even. -/
theorem IsCut.count_skipped {gap : List Char} {pieces : List (Token × List Char)}
    (h : IsCut gap pieces) :
    (skipped gap pieces).count '\'' = (join gap pieces).count '\'' % 2 := by
  induction pieces generalizing gap with
  | nil =>
    have hgap := IsGap.count_quote h
    rw [skipped, List.flatMap_nil, List.append_nil, join]
    omega
  | cons piece pieces ih =>
    obtain ⟨token, next⟩ := piece
    obtain ⟨hgap, hlexeme, -, hrest⟩ := h
    have hskipped : skipped gap ((token, next) :: pieces) = gap ++ skipped next pieces := rfl
    have hgap := hgap.count_quote
    have htoken := hlexeme.count_quote_mod
    have hrest := ih hrest
    rw [hskipped, join]
    simp only [List.count_append] at hgap ⊢
    omega

/-- Lexemes come back from their spellings, joined by spaces. -/
theorem scan_intercalate {tokens : List Token} (h : ∀ token ∈ tokens, token.IsLexeme) :
    scan ([' '].intercalate (tokens.map fun token => token.text.toList)) = tokens := by
  induction tokens with
  | nil => rw [List.map_nil, List.intercalate_nil, scan_nil]
  | cons token tokens ih =>
    obtain ⟨hlexeme, htokens⟩ := List.forall_mem_cons.1 h
    cases tokens with
    | nil =>
      rw [List.map_singleton, List.intercalate_singleton]
      exact ofString_text hlexeme
    | cons other tokens =>
      have hscan := ih htokens
      rw [List.map_cons] at hscan
      rw [List.map_cons, List.map_cons, List.intercalate_cons_cons, List.append_assoc,
        List.singleton_append, scan_text_append hlexeme (ends_space token _), scan_space, hscan]

/-- **The tokens of a string.** They are the given ones just if the string can be cut as a gap and
the spellings of these tokens with a gap behind each of them, where gaps hold nothing that a token
is made of and no apostrophe that has another one behind it, and where tokens do not run into each
other. So what is recognized is kept in its order, the last apostrophe stands in a gap if their
number is odd and no other one ever does, and the spellings joined by spaces have the same
tokens. -/
theorem ofString_eq_iff_exists_cut (s : String) :
    (∀ tokens, ofString s = tokens ↔ ∃ gap pieces,
      IsCut gap pieces ∧ s.toList = join gap pieces ∧ pieces.map Prod.fst = tokens) ∧
    ((ofString s).flatMap fun token => token.text.toList).filter isRecognized =
      s.toList.filter isRecognized ∧
    (∀ gap pieces, IsCut gap pieces → s.toList = join gap pieces →
      (skipped gap pieces).count '\'' = s.toList.count '\'' % 2) ∧
    ofString (" ".intercalate ((ofString s).map text)) = ofString s := by
  refine ⟨fun tokens => cuts_iff.symm, ?_, fun gap pieces hcut hs => ?_, ?_⟩
  · obtain ⟨gap, pieces, hcut, hs, htokens⟩ := cuts_scan s.toList
    rw [hs, hcut.filter_join, htokens]
    rfl
  · rw [hs, hcut.count_skipped]
  · have hlexemes : ∀ token ∈ ofString s, token.IsLexeme := fun _ => isLexeme_of_mem_ofString
    have hscan := scan_intercalate hlexemes
    rw [ofString, String.toList_intercalate, List.map_map]
    exact hscan

-- the apostrophe has no partner, and what follows it is a word
example : ofString "name = 'Bob" = [.word "name", .symbol "=", .word "Bob"] := by decide +kernel

end Criteria.Token
