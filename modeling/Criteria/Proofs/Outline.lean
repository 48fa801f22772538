import Criteria.Proofs.Spelling

/-!
# Outlines of rule texts

Which tokens of a list belong to a tree, if the list is to write the tree? A token in the place of a
value may be a parenthesis, and where a group ends is found by counting, so the same tokens can
be grouped in several ways. Yet whatever writes a tree has at most as many tokens other than
parentheses as the rule text of the tree has. If it has as many, it also closes as many groups, and
nothing but closing parentheses follows the last token that is none. Two initial parts of
one list that agree in both numbers and end in this way are the same.

## Main definitions

* `Token.solid`: the number of tokens that are no parentheses.
* `Token.EndsSolid`: only closing parentheses follow the last token that is no parenthesis.
* `Token.Outlines`: how tokens compare with the ones of a rule text.
* `Token.leading`, `Expr.spine`: the opening parentheses at the beginning.

## Main results

* `Token.eq_of_append_eq_append`: initial parts of one list that agree are the same.
* `Writes.outlines`: tokens that write a tree outline its rule text.
* `Writes.spine_le_leading`: they begin with as many opening parentheses at least.
-/

namespace Criteria

namespace Token

/-- How many tokens are no parentheses. -/
def solid (tokens : List Token) : Nat := tokens.countP (·.weight = 0)

@[simp] theorem solid_nil : solid [] = 0 := rfl

@[simp] theorem solid_cons (token : Token) (tokens : List Token) :
    solid (token :: tokens) = solid tokens + if token.weight = 0 then 1 else 0 := by
  simp [solid, List.countP_cons]

@[simp] theorem solid_append (s t : List Token) : solid (s ++ t) = solid s + solid t := by
  simp [solid]

/-! ### The last token that is no parenthesis -/

/-- Only closing parentheses follow the last token that is no parenthesis, and there is one. -/
structure EndsSolid (tokens : List Token) : Prop where
  /-- There is a token that is no parenthesis. -/
  solid_pos : 0 < solid tokens
  /-- What follows the last one are closing parentheses. -/
  excess_eq {back : List Token} (h : back <:+ tokens) (hsolid : solid back = 0) :
    excess back = -back.length

theorem endsSolid_singleton {token : Token} (h : token.weight = 0) : EndsSolid [token] where
  solid_pos := by simp [h]
  excess_eq {back} hback hsolid := by
    rcases List.suffix_cons_iff.1 hback with rfl | hnil
    · simp [h] at hsolid
    · rw [List.suffix_nil.1 hnil]
      rfl

/-- What comes before does not matter. -/
theorem EndsSolid.append_left {t : List Token} (h : EndsSolid t) (s : List Token) :
    EndsSolid (s ++ t) where
  solid_pos := by
    have := h.solid_pos
    rw [solid_append]
    omega
  excess_eq {back} hback hsolid := by
    rcases List.suffix_or_suffix_of_suffix hback (List.suffix_append s t) with hshort | ⟨u, rfl⟩
    · exact h.excess_eq hshort hsolid
    · have := h.solid_pos
      rw [solid_append] at hsolid
      omega

theorem EndsSolid.concat_closing {tokens : List Token} (h : EndsSolid tokens) :
    EndsSolid (tokens ++ [.closing]) where
  solid_pos := by simpa using h.solid_pos
  excess_eq {back} hback hsolid := by
    rcases List.suffix_concat_iff.1 hback with rfl | ⟨rest, rfl, hrest⟩
    · rfl
    · have := h.excess_eq hrest (by simpa using hsolid)
      simp [this]
      omega

/-- Nothing can be added to tokens without adding a token that is no parenthesis or closing a
group. -/
theorem EndsSolid.eq_nil {s t : List Token} (h : EndsSolid (s ++ t)) (hsolid : solid t = 0)
    (hexcess : excess t = 0) : t = [] := by
  have := h.excess_eq (List.suffix_append s t) hsolid
  rw [hexcess] at this
  exact List.eq_nil_of_length_eq_zero (by omega)

/-- Initial parts of one list that have the same numbers of tokens other than parentheses and of
open groups, and nothing but closing parentheses behind the former, are the same. -/
theorem eq_of_append_eq_append {s t u v : List Token} (h : s ++ u = t ++ v) (hs : EndsSolid s)
    (ht : EndsSolid t) (hsolid : solid s = solid t) (hexcess : excess s = excess t) :
    s = t ∧ u = v := by
  rcases List.append_eq_append_iff.1 h with ⟨w, rfl, rfl⟩ | ⟨w, rfl, rfl⟩
  · rw [solid_append] at hsolid
    rw [excess_append] at hexcess
    obtain rfl := ht.eq_nil (t := w) (by omega) (by omega)
    simp
  · rw [solid_append] at hsolid
    rw [excess_append] at hexcess
    obtain rfl := hs.eq_nil (t := w) (by omega) (by omega)
    simp

/-! ### Outlines -/

/-- Tokens have at most as many tokens other than parentheses as others, and if they have as many,
they leave as many groups open and end in the same way. -/
structure Outlines (s t : List Token) : Prop where
  /-- There are at most as many tokens other than parentheses. -/
  solid_le : solid s ≤ solid t
  /-- If there are as many, the parentheses agree as well. -/
  of_le (h : solid t ≤ solid s) : excess s = excess t ∧ EndsSolid s

theorem Outlines.group_left {s t : List Token} (h : Outlines s t) :
    Outlines (.opening :: (s ++ [.closing])) t where
  solid_le := by simpa using h.solid_le
  of_le hle := by
    obtain ⟨hexcess, hends⟩ := h.of_le (by simpa using hle)
    exact ⟨by rw [excess_group, hexcess], hends.concat_closing.append_left [.opening]⟩

theorem Outlines.group_right {s t : List Token} (h : Outlines s t) :
    Outlines s (.opening :: (t ++ [.closing])) where
  solid_le := by simpa using h.solid_le
  of_le hle := by
    obtain ⟨hexcess, hends⟩ := h.of_le (by simpa using hle)
    exact ⟨by rw [excess_group, hexcess], hends⟩

theorem Outlines.link {s t u v : List Token} (h : Outlines s t) (h' : Outlines u v)
    (token : Token) : Outlines (s ++ token :: u) (t ++ token :: v) where
  solid_le := by
    have := h.solid_le
    have := h'.solid_le
    simp only [solid_append, solid_cons]
    omega
  of_le hle := by
    have := h.solid_le
    have := h'.solid_le
    simp only [solid_append, solid_cons] at hle
    obtain ⟨hexcess, -⟩ := h.of_le (by omega)
    obtain ⟨hexcess', hends⟩ := h'.of_le (by omega)
    exact ⟨by simp [hexcess, hexcess'], (hends.append_left [token]).append_left s⟩

/-- An initial part of a list that outlines another one is the same, unless it lacks tokens that
stand behind it. -/
theorem Outlines.eq_of_append_eq_append {s t u v : List Token} (h : Outlines s t)
    (happend : s ++ u = t ++ v) (ht : EndsSolid t) (hrest : solid u ≤ solid v) :
    s = t ∧ u = v := by
  have hsolid : solid s + solid u = solid t + solid v := by
    rw [← solid_append, happend, solid_append]
  have := h.solid_le
  obtain ⟨hexcess, hs⟩ := h.of_le (by omega)
  exact Token.eq_of_append_eq_append happend hs ht (by omega) hexcess

/-- Three tokens outline themselves with another last one that is no parenthesis. -/
theorem outlines_condition (field comparator value : Token) {value' : Token}
    (h : value'.weight = 0) :
    Outlines [field, comparator, value] [field, comparator, value'] where
  solid_le := by
    have hone : (if value.weight = 0 then 1 else 0) ≤ 1 := by split <;> decide
    simp only [solid_cons, solid_nil, if_pos h]
    omega
  of_le hle := by
    have hvalue : value.weight = 0 := by
      by_contra hne
      simp only [solid_cons, solid_nil, if_pos h, if_neg hne] at hle
      omega
    exact ⟨by simp [h, hvalue], (endsSolid_singleton hvalue).append_left [field, comparator]⟩

/-! ### The beginning -/

/-- How many opening parentheses tokens begin with. -/
def leading : List Token → Nat
  | .opening :: tokens => leading tokens + 1
  | _ => 0

theorem leading_opening (tokens : List Token) :
    leading (.opening :: tokens) = leading tokens + 1 := by rw [leading]

theorem leading_cons {token : Token} (h : token ≠ .opening) (tokens : List Token) :
    leading (token :: tokens) = 0 := by
  cases token <;> first | rfl | exact absurd rfl h

theorem leading_le_append : ∀ s t : List Token, leading s ≤ leading (s ++ t)
  | [], _ => Nat.zero_le _
  | token :: s, t => by
    rw [List.cons_append]
    by_cases h : token = .opening
    · rw [h, leading_opening, leading_opening]
      exact Nat.succ_le_succ (leading_le_append s t)
    · rw [leading_cons h]
      exact Nat.zero_le _

end Token

open Token

/-! ### Rule texts -/

/-- The tokens of a condition that three lexemes make are these but for the last one. -/
theorem Condition.tokens_ofTokens {field comparator value : Token} (hfield : field.IsLexeme)
    (hcomparator : comparator.IsLexeme) :
    (Condition.ofTokens field comparator value).tokens =
      [field, comparator, (Literal.ofToken value).token] := by
  rw [Condition.tokens, Condition.ofTokens, Comparator.text_ofText, single_text hfield,
    single_text hcomparator]

theorem Connective.single_text_ofText {connective : Token} (h : connective.IsLexeme) :
    single (Connective.ofText connective.text).text = connective := by
  rw [Connective.text_ofText, single_text h]

theorem Condition.IsReadable.endsSolid_tokens {c : Condition} (h : c.IsReadable) :
    EndsSolid c.tokens :=
  (endsSolid_singleton h.literal.weight_token).append_left
    [single c.field, single c.comparator.text]

namespace Expr

/-- Parentheses around a rule text do not change how it ends. -/
theorem endsSolid_childTokens {e : Expr} (h : EndsSolid e.tokens) : EndsSolid e.childTokens := by
  cases e with
  | leaf c => exact h
  | node k left right =>
    rw [childTokens_node]
    exact h.concat_closing.append_left [.opening]

/-- What outlines a rule text outlines it in parentheses. -/
theorem outlines_childTokens {tokens : List Token} {e : Expr} (h : Outlines tokens e.tokens) :
    Outlines tokens e.childTokens := by
  cases e with
  | leaf c => exact h
  | node k left right =>
    rw [childTokens_node]
    exact h.group_right

/-- A rule text ends with its last literal and the parentheses behind it. -/
theorem IsReadable.endsSolid_tokens : ∀ {e : Expr}, e.IsReadable → EndsSolid e.tokens
  | .leaf _, h => Condition.IsReadable.endsSolid_tokens h
  | .node k left _, ⟨_, _, hright⟩ =>
    ((endsSolid_childTokens (IsReadable.endsSolid_tokens hright)).append_left
      [single k.text]).append_left left.childTokens

/-- How many opening parentheses a rule text begins with. -/
def spine : Expr → Nat
  | .leaf _ => 0
  | .node _ left _ => if left.isNode then left.spine + 1 else 0

/-- The first field is no opening parenthesis. -/
theorem IsReadable.leading_tokens_append : ∀ {e : Expr}, e.IsReadable → ∀ rest,
    leading (e.tokens ++ rest) = e.spine
  | .leaf _, h, rest => leading_cons (Condition.IsReadable.field_ne h) _
  | .node _ (.leaf _) _, ⟨_, hleft, _⟩, _ => leading_cons (Condition.IsReadable.field_ne hleft) _
  | .node k (.node k' left' right') right, ⟨_, hleft, _⟩, rest => by
    rw [tokens, childTokens_node, List.cons_append, List.cons_append, leading_opening]
    simp only [List.append_assoc]
    rw [IsReadable.leading_tokens_append hleft]
    rfl

end Expr

/-! ### What is written -/

namespace Writes

/-- Tokens that write a tree outline its rule text: nothing in the place of a field, an operator or
a connective is lost, and a parenthesis in the place of a value becomes a string. -/
theorem outlines {tokens : List Token} {tree : Expr} (h : Writes tokens tree)
    (hlexemes : ∀ token ∈ tokens, token.IsLexeme) : Outlines tokens tree.tokens := by
  have hcondition {field comparator value : Token} (hf : field.IsLexeme)
      (hc : comparator.IsLexeme) (hv : value.IsLexeme) : Outlines [field, comparator, value]
        (Condition.ofTokens field comparator value).tokens := by
    rw [Condition.tokens_ofTokens hf hc]
    exact outlines_condition field comparator value (Literal.isReadable_ofToken hv).weight_token
  induction h with
  | leaf hfield =>
    simp only [List.forall_mem_cons] at hlexemes
    obtain ⟨hf, hc, hv, -⟩ := hlexemes
    exact hcondition hf hc hv
  | group _ _ ih =>
    simp only [List.forall_mem_cons, List.forall_mem_append] at hlexemes
    exact (ih hlexemes.2.1).group_left
  | link hfield _ ih =>
    simp only [List.forall_mem_cons] at hlexemes
    obtain ⟨hf, hc, hv, hk, hrest⟩ := hlexemes
    rw [Expr.tokens, Connective.single_text_ofText hk]
    exact (hcondition hf hc hv).link (Expr.outlines_childTokens (ih hrest)) _
  | @groupLink inner rest connective left right _ _ _ ihleft ihright =>
    simp only [List.forall_mem_cons, List.forall_mem_append] at hlexemes
    obtain ⟨-, hinner, -, hk, hrest⟩ := hlexemes
    have hgroup := (Expr.outlines_childTokens (ihleft hinner)).group_left
    rw [Expr.tokens, Connective.single_text_ofText hk]
    simpa using hgroup.link (Expr.outlines_childTokens (ihright hrest)) connective

/-- Tokens that write a tree begin with as many opening parentheses as its rule text at least. -/
theorem spine_le_leading {tokens : List Token} {tree : Expr} (h : Writes tokens tree) :
    tree.spine ≤ leading tokens := by
  induction h with
  | leaf => exact Nat.zero_le _
  | group _ _ ih =>
    rw [leading_opening]
    exact Nat.le_succ_of_le (Nat.le_trans ih (leading_le_append _ _))
  | link => exact Nat.zero_le _
  | groupLink _ _ _ ihleft _ =>
    rw [leading_opening, Expr.spine]
    split
    · exact Nat.succ_le_succ (Nat.le_trans ihleft (leading_le_append _ _))
    · exact Nat.zero_le _

end Writes

end Criteria
