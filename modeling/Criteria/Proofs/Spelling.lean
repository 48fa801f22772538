import Criteria.Proofs.Grammar
import Criteria.Proofs.Lexeme
import Criteria.Proofs.WholeNumber

/-!
# The tokens of rule texts

The rule text of a tree, cut into tokens again: fields, comparators and connectives come back if
each of them is one whole token, and a literal comes back as one token that is no parenthesis, even
if it is a string that spells a parenthesis. What the literals of the tokens are need not be the
same literals, since zero loses its sign; it is equal to them.

## Main definitions

* `Token.IsWhole`: a text is one token as a whole.
* `Expr.IsReadable`: the parts of a tree come back from its rule text.
* `Expr.tokens`, `Expr.childTokens`: the tokens of a rule text.
* `Expr.reread`: the tree with the literals of its rule text.

## Main results

* `Expr.IsReadable.ofString_render`: a rule text has the tokens of its tree.
* `Expr.IsReadable.same_reread`: the literals that come back are equal to the ones of the tree.
* `Writes.isReadable`: trees that are written by tokens come back from their rule texts.
-/

namespace Criteria

namespace Token

/-- A text is one token as a whole. -/
def IsWhole (s : String) : Prop := ofString s = [single s] ∧ (single s).text = s

instance (s : String) : Decidable (IsWhole s) := inferInstanceAs (Decidable (_ ∧ _))

theorem IsWhole.isLexeme {s : String} (h : IsWhole s) : (single s).IsLexeme :=
  isLexeme_of_mem_ofString (h.1 ▸ List.mem_singleton_self _)

theorem isWhole_text {token : Token} (h : token.IsLexeme) : IsWhole token.text := by
  rw [IsWhole, ofString_text h, single_text h]
  exact ⟨rfl, rfl⟩

theorem IsWhole.scan_append {s : String} (h : IsWhole s) {rest : List Char}
    (hends : (single s).Ends rest) : scan (s.toList ++ rest) = single s :: scan rest := by
  have hscan := scan_text_append h.isLexeme hends
  rwa [h.2] at hscan

end Token

open Token

/-! ### Literals -/

namespace Literal

/-- A literal that comes back from rule text: a natural number, or a string that ends at no
apostrophe of its own. -/
def IsReadable : Literal → Prop
  | .number value => value.IsNatural
  | .text value => '\'' ∉ value.toList

instance : DecidablePred IsReadable
  | .number value => inferInstanceAs (Decidable value.IsNatural)
  | .text value => inferInstanceAs (Decidable ('\'' ∉ value.toList))

/-- The token of a literal. -/
def token (literal : Literal) : Token := single (String.ofList literal.display)

/-- The literal that a literal comes back as. -/
def reread (literal : Literal) : Literal := ofToken literal.token

/-- Digits are a word. -/
theorem isLexeme_positional {m : Magnitude} {d : Decimal} (h : m.IsSpeltBy d) :
    (Token.word (String.ofList d.positional)).IsLexeme := by
  obtain ⟨significand, exponent⟩ := d
  obtain ⟨e, rfl, -⟩ := h
  rw [IsLexeme, String.toList_ofList]
  refine ⟨Decimal.positional_ne_nil significand e, fun c hc => ?_⟩
  have hdigit := Decimal.isDigit_of_mem_positional hc
  simp [isWordChar, Char.isAlphanum, hdigit]

/-- The text of a literal is one token that is no parenthesis and denotes an equal literal; the
sign of zero stands before it and is no token. -/
theorem IsReadable.exists_lexeme {literal : Literal} (h : literal.IsReadable) :
    ∃ (sign : List Char) (token : Token), literal.display = sign ++ token.text.toList ∧
      (∀ s, scan (sign ++ s) = scan s) ∧ token.IsLexeme ∧ token.weight = 0 ∧
      literal.same (ofToken token) = true := by
  cases literal with
  | text value =>
    refine ⟨[], .quoted (quote value.toList), ?_, fun _ => rfl, ⟨_, rfl, h⟩, rfl, ?_⟩
    · simp [display, Token.text]
    · simp [same, ofToken]
  | number value =>
    obtain ⟨negative, m, rfl, hwhole, hzero⟩ := Double.IsNatural.exists_finite h
    have hspelt := hwhole.isSpeltBy_shortest .up
    refine ⟨if negative then ['-'] else [], .word (String.ofList (m.shortest .up).positional),
      ?_, ?_, isLexeme_positional hspelt, rfl, ?_⟩
    · simp [display, Double.display, Token.text]
    · intro s
      split
      · exact scan_cons_of_skipped (by decide) (by decide) (by decide) rfl rfl s
      · rfl
    · have hofToken : ofToken (.word (String.ofList (m.shortest .up).positional)) =
          .number (.finite false m) := by
        rw [ofToken, String.toList_ofList, numberOfWord?_positional hspelt]
      rw [hofToken]
      cases negative with
      | false => simp [same, Double.same, Double.compare?, Double.position?]
      | true =>
        rw [hzero rfl]
        simp [same, Double.same, Double.compare?, Double.position?, Magnitude.zero]

private theorem IsReadable.token_spec {literal : Literal} (h : literal.IsReadable) :
    literal.token.IsLexeme ∧ literal.token.weight = 0 ∧ literal.same literal.reread = true ∧
      ∀ rest, literal.token.Ends rest →
        scan (literal.display ++ rest) = literal.token :: scan rest := by
  obtain ⟨sign, token, hdisplay, hsign, hlexeme, hweight, hsame⟩ := h.exists_lexeme
  have hscan (rest : List Char) (hends : token.Ends rest) :
      scan (literal.display ++ rest) = token :: scan rest := by
    rw [hdisplay, List.append_assoc, hsign, scan_text_append hlexeme hends]
  have htoken : literal.token = token := by
    have hall := hscan [] (ends_nil token)
    rw [List.append_nil, scan_nil] at hall
    rw [Literal.token, single, ofString, String.toList_ofList, hall, List.headD_cons]
  rw [reread, htoken]
  exact ⟨hlexeme, hweight, hsame, hscan⟩

theorem IsReadable.isLexeme_token {literal : Literal} (h : literal.IsReadable) :
    literal.token.IsLexeme := h.token_spec.1

/-- The token of a literal is no parenthesis. -/
theorem IsReadable.weight_token {literal : Literal} (h : literal.IsReadable) :
    literal.token.weight = 0 := h.token_spec.2.1

theorem IsReadable.same_reread {literal : Literal} (h : literal.IsReadable) :
    literal.same literal.reread = true := h.token_spec.2.2.1

/-- The scanner finds the token of a literal in its text, whatever follows. -/
theorem IsReadable.scan_display_append {literal : Literal} (h : literal.IsReadable)
    {rest : List Char} (hends : literal.token.Ends rest) :
    scan (literal.display ++ rest) = literal.token :: scan rest := h.token_spec.2.2.2 rest hends

/-- A literal without a sign, as tokens denote them. -/
def IsUnsigned : Literal → Prop
  | .number value => ∃ m, value = .finite false m
  | .text _ => True

/-- Equal literals without a sign are the same literal. -/
theorem IsUnsigned.eq_of_same {a b : Literal} (ha : a.IsUnsigned) (hb : b.IsUnsigned)
    (h : a.same b = true) : a = b := by
  cases a with
  | text s =>
    cases b with
    | text t => simpa [same] using h
    | number y => simp [same] at h
  | number x =>
    cases b with
    | text t => simp [same] at h
    | number y =>
      obtain ⟨m, rfl⟩ := ha
      obtain ⟨n, rfl⟩ := hb
      have hquanta : (m.quanta : Int) = n.quanta := by
        simpa [same, Double.same, Double.compare?, Double.position?, compare_eq_iff_eq] using h
      rw [Int.natCast_inj] at hquanta
      obtain ⟨quanta, _, _⟩ := m
      obtain ⟨quanta', _, _⟩ := n
      simp only at hquanta
      subst hquanta
      rfl

theorem isUnsigned_ofToken (token : Token) : (ofToken token).IsUnsigned := by
  cases token with
  | word w =>
    rw [ofToken]
    split
    · next x hx => exact exists_finite_of_numberOfWord? hx
    · exact trivial
  | _ => exact trivial

/-- Whatever a lexeme denotes comes back from rule text. -/
theorem isReadable_ofToken {token : Token} (h : token.IsLexeme) : (ofToken token).IsReadable := by
  -- the characters of symbols and of words are no apostrophes
  have hrun (p : Char → Bool) (hp : p '\'' = false) {s : String}
      (hall : ∀ c ∈ s.toList, p c = true) : '\'' ∉ s.toList := fun hmem => by
    rw [hall _ hmem] at hp
    cases hp
  cases token with
  | opening => exact (by decide : '\'' ∉ ['('])
  | closing => exact (by decide : '\'' ∉ [')'])
  | quoted _ =>
    obtain ⟨content, rfl, hcontent⟩ := h
    rw [ofToken, unquoted_quote, IsReadable, String.toList_ofList]
    exact hcontent
  | symbol s => exact hrun isSymbolChar (by decide) h.2
  | word w =>
    rw [ofToken]
    split
    · next x hx =>
      obtain ⟨m, hm, rfl⟩ := isWhole_of_numberOfWord? h.2 hx
      exact Double.isNatural_finite hm
    · exact hrun isWordChar (by decide) h.2

end Literal

/-! ### Conditions and trees -/

namespace Condition

/-- A condition that comes back from its rule text: its parts are whole tokens, the first one no
opening parenthesis. -/
structure IsReadable (c : Condition) : Prop where
  /-- The field is one token. -/
  field : IsWhole c.field
  /-- The field begins no group. -/
  field_ne : single c.field ≠ .opening
  /-- The comparator is one token. -/
  comparator : IsWhole c.comparator.text
  /-- The comparator is the one that its text spells. -/
  canonical : c.comparator.IsCanonical
  /-- The literal is one token. -/
  literal : c.literal.IsReadable

/-- The tokens of a condition. -/
def tokens (c : Condition) : List Token :=
  [single c.field, single c.comparator.text, c.literal.token]

/-- The condition with the literal that comes back from its rule text. -/
def reread (c : Condition) : Condition := { c with literal := c.literal.reread }

end Condition

namespace Expr

/-- The scanner finds the tokens of a condition in its rule text. -/
theorem scan_renderCondition_append {c : Condition} (h : c.IsReadable) {rest : List Char}
    (hrest : ∀ token : Token, token.Ends rest) :
    scan (renderCondition c ++ rest) = c.tokens ++ scan rest := by
  simp only [renderCondition, List.append_assoc, List.cons_append]
  rw [h.field.scan_append (ends_space _ _), scan_space,
    h.comparator.scan_append (ends_space _ _), scan_space,
    h.literal.scan_display_append (hrest _)]
  rfl

/-- A tree that comes back from its rule text. -/
def IsReadable : Expr → Prop :=
  Throughout Condition.IsReadable fun k => IsWhole k.text ∧ k.IsCanonical

/-- It is an inner node. -/
def isNode : Expr → Bool
  | .leaf _ => false
  | .node .. => true

/-- The tokens of the rule text of a subtree. -/
def childTokens : Expr → List Token
  | .leaf c => c.tokens
  | .node k left right =>
    .opening :: (left.childTokens ++ single k.text :: right.childTokens ++ [.closing])

/-- The tokens of the rule text of a tree. -/
def tokens : Expr → List Token
  | .leaf c => c.tokens
  | .node k left right => left.childTokens ++ single k.text :: right.childTokens

theorem childTokens_node (k : Connective) (left right : Expr) :
    (node k left right).childTokens = .opening :: ((node k left right).tokens ++ [.closing]) := by
  rw [childTokens, tokens]

theorem childTokens_of_isNode {e : Expr} (h : e.isNode = true) :
    e.childTokens = .opening :: (e.tokens ++ [.closing]) := by
  cases e with
  | leaf c => cases h
  | node k left right => exact childTokens_node k left right

/-- The tree with the literals that come back from its rule text. -/
def reread : Expr → Expr
  | .leaf c => .leaf c.reread
  | .node k left right => .node k left.reread right.reread

/-- The scanner finds the tokens of a subtree in its rule text. -/
theorem scan_renderChild_append : ∀ {e : Expr}, e.IsReadable → ∀ {rest : List Char},
    (∀ token : Token, token.Ends rest) →
      scan (renderChild e ++ rest) = e.childTokens ++ scan rest
  | .leaf c, h, rest, hrest => by
    rw [renderChild, childTokens]
    exact scan_renderCondition_append h hrest
  | .node k left right, ⟨hk, hleft, hright⟩, rest, hrest => by
    simp only [renderChild, childTokens, List.append_assoc, List.cons_append, List.nil_append]
    rw [scan_opening, scan_renderChild_append hleft (ends_space · _), scan_space,
      hk.1.scan_append (ends_space _ _), scan_space,
      scan_renderChild_append hright (ends_closing · _), scan_closing]

/-- A rule text has the tokens of its tree. -/
theorem IsReadable.ofString_render {e : Expr} (h : e.IsReadable) : ofString e.render = e.tokens := by
  have hnil (token : Token) : token.Ends [] := ends_nil token
  rw [ofString, render, String.toList_ofList]
  cases e with
  | leaf c =>
    rw [renderChars, tokens, ← List.append_nil (renderCondition c),
      scan_renderCondition_append h hnil, scan_nil, List.append_nil]
  | node k left right =>
    obtain ⟨hk, hleft, hright⟩ := h
    rw [renderChars, tokens, ← List.append_nil (renderChild right),
      scan_renderChild_append hleft (ends_space · _), scan_space,
      hk.1.scan_append (ends_space _ _), scan_space, scan_renderChild_append hright hnil,
      scan_nil, List.append_nil]

/-- The literals that come back are equal to the ones of the tree. -/
theorem IsReadable.same_reread : ∀ {e : Expr}, e.IsReadable → e.same e.reread = true
  | .leaf c, h => by
    have hsame := (Condition.IsReadable.literal h).same_reread
    simp [reread, same, Condition.reread, hsame]
  | .node k left right, ⟨_, hleft, hright⟩ => by
    simp [reread, same, IsReadable.same_reread hleft, IsReadable.same_reread hright]

/-- A tree whose literals have no sign. -/
def IsUnsigned : Expr → Prop :=
  Throughout (fun c => c.literal.IsUnsigned) fun _ => True

/-- Equal trees without signs are the same tree. -/
theorem IsUnsigned.eq_of_same : ∀ {e e' : Expr}, e.IsUnsigned → e'.IsUnsigned →
    e.same e' = true → e = e'
  | .leaf ⟨field, comparator, literal⟩, .leaf ⟨field', comparator', literal'⟩, h, h', hsame => by
    simp only [same, Bool.and_eq_true, beq_iff_eq] at hsame
    obtain ⟨⟨rfl, rfl⟩, hliteral⟩ := hsame
    obtain rfl : literal = literal' := Literal.IsUnsigned.eq_of_same h h' hliteral
    rfl
  | .node k left right, .node k' left' right', ⟨_, hl, hr⟩, ⟨_, hl', hr'⟩, hsame => by
    simp only [same, Bool.and_eq_true, beq_iff_eq] at hsame
    obtain ⟨⟨rfl, hleft⟩, hright⟩ := hsame
    rw [IsUnsigned.eq_of_same hl hl' hleft, IsUnsigned.eq_of_same hr hr' hright]
  | .leaf _, .node _ _ _, _, _, hsame => by simp [same] at hsame
  | .node _ _ _, .leaf _, _, _, hsame => by simp [same] at hsame

end Expr

/-! ### What is written -/

namespace Writes

theorem isUnsigned {tokens : List Token} {tree : Expr} (h : Writes tokens tree) :
    tree.IsUnsigned := by
  induction h with
  | leaf => exact Literal.isUnsigned_ofToken _
  | group _ _ ih => exact ih
  | link _ _ ih => exact ⟨trivial, Literal.isUnsigned_ofToken _, ih⟩
  | groupLink _ _ _ ihleft ihright => exact ⟨trivial, ihleft, ihright⟩

end Writes

/-- Three lexemes make a condition that comes back from its rule text. -/
theorem Condition.isReadable_ofTokens {field comparator value : Token}
    (hne : field ≠ .opening) (hfield : field.IsLexeme) (hcomparator : comparator.IsLexeme)
    (hvalue : value.IsLexeme) : (Condition.ofTokens field comparator value).IsReadable where
  field := isWhole_text hfield
  field_ne := by rwa [Condition.ofTokens, single_text hfield]
  comparator := by
    rw [Condition.ofTokens, Comparator.text_ofText]
    exact isWhole_text hcomparator
  canonical := Comparator.isCanonical_ofText _
  literal := Literal.isReadable_ofToken hvalue

theorem Connective.isReadable_ofText {connective : Token} (h : connective.IsLexeme) :
    IsWhole (Connective.ofText connective.text).text ∧
      (Connective.ofText connective.text).IsCanonical := by
  rw [Connective.text_ofText]
  exact ⟨isWhole_text h, Connective.isCanonical_ofText _⟩

/-- A tree that is written by lexemes comes back from its rule text. -/
theorem Writes.isReadable {tokens : List Token} {tree : Expr} (h : Writes tokens tree)
    (hlexemes : ∀ token ∈ tokens, token.IsLexeme) : tree.IsReadable := by
  induction h with
  | leaf hfield =>
    simp only [List.forall_mem_cons] at hlexemes
    obtain ⟨hf, hc, hv, -⟩ := hlexemes
    exact Condition.isReadable_ofTokens hfield hf hc hv
  | group _ _ ih =>
    simp only [List.forall_mem_cons, List.forall_mem_append] at hlexemes
    exact ih hlexemes.2.1
  | link hfield _ ih =>
    simp only [List.forall_mem_cons] at hlexemes
    obtain ⟨hf, hc, hv, hk, hrest⟩ := hlexemes
    exact ⟨Connective.isReadable_ofText hk, Condition.isReadable_ofTokens hfield hf hc hv,
      ih hrest⟩
  | groupLink _ _ _ ihleft ihright =>
    simp only [List.forall_mem_cons, List.forall_mem_append] at hlexemes
    obtain ⟨-, hinner, -, hk, hrest⟩ := hlexemes
    exact ⟨Connective.isReadable_ofText hk, ihleft hinner, ihright hrest⟩

end Criteria
