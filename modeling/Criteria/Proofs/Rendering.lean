import Criteria.Proofs.Spelling
import Criteria.Rule.Engine

/-!
# Compiling rendered trees

The rule text of a tree compiles to the tree again if every group in it ends where it was meant to,
and if expressions may be nested deeply enough: one level for every group and for every link of a
chain, so that a right subtree needs one level more than a left one. Groups end where they were
meant to whenever no part of the tree spells a parenthesis, whatever the strings in it hold.

## Main definitions

* `Expr.need`: how many expressions are nested in the rule text of a tree.
* `Expr.IsBracketed`: the groups of the rule text are balanced.
* `Expr.IsPlain`: the parts of a tree are whole tokens and no parentheses.

## Main results

* `Dialect.parseWithin_tokens`: parsing the tokens of a rule text.
* `Engine.compile_render`: rendering is undone by compiling.
-/

namespace Criteria

open Token

namespace Expr

/-- How many expressions are nested in the rule text of a tree. -/
def need : Expr → Nat
  | .leaf _ => 1
  | .node _ left right =>
    max (if left.isNode then 1 + left.need else 1) (if right.isNode then 2 + right.need else 2)

/-- How many expressions are nested in the rule text of a subtree. -/
def childNeed (e : Expr) : Nat := if e.isNode then 1 + e.need else 1

theorem childNeed_node (k : Connective) (left right : Expr) :
    (node k left right).childNeed = (node k left right).need + 1 := Nat.add_comm 1 _

theorem childNeed_pos (e : Expr) : 0 < e.childNeed := by
  rw [childNeed]
  split <;> omega

theorem need_node (k : Connective) (left right : Expr) :
    (node k left right).need = max left.childNeed (right.childNeed + 1) := by
  have hright : (if right.isNode then 2 + right.need else 2) = right.childNeed + 1 := by
    rw [childNeed]
    split <;> omega
  rw [need, hright]
  rfl

theorem need_pos (e : Expr) : 0 < e.need := by
  cases e with
  | leaf c => exact Nat.one_pos
  | node k left right =>
    rw [need_node]
    omega

/-- The rule texts of all inner nodes below the outermost one are balanced. -/
def IsBracketed : Expr → Prop
  | .leaf _ => True
  | .node _ left right =>
    ((left.isNode = true → IsBalanced (ofString left.render)) ∧ left.IsBracketed) ∧
      ((right.isNode = true → IsBalanced (ofString right.render)) ∧ right.IsBracketed)

instance decidableIsBracketed : (e : Expr) → Decidable e.IsBracketed
  | .leaf _ => .isTrue trivial
  | .node _ left right =>
    have := decidableIsBracketed left
    have := decidableIsBracketed right
    inferInstanceAs (Decidable (_ ∧ _))

/-- All comparators and connectives are known. -/
def IsKnown : Expr → Prop :=
  Throughout (fun c => c.comparator.isKnown = true) fun k => k.isKnown = true

end Expr

namespace Dialect

variable {dialect : Dialect}

/-- A tree that needs so many nested expressions, where so many may be nested. -/
def readAt (dialect : Dialect) (need depth : Nat) (e : Expr) : Except ParseError Expr :=
  if need ≤ depth then .ok e else .error (.nestingTooDeep dialect.maxDepth)

theorem readAt_zero {need : Nat} (h : 0 < need) (e : Expr) :
    dialect.readAt need 0 e = .error (.nestingTooDeep dialect.maxDepth) := by
  rw [readAt, if_neg (Nat.not_le_of_gt h)]

theorem readAt_succ (need depth : Nat) (e : Expr) :
    dialect.readAt (need + 1) (depth + 1) e = dialect.readAt need depth e := by
  simp only [readAt, Nat.add_le_add_iff_right]

theorem operand_tokens {c : Condition} (h : c.IsReadable)
    (hknown : dialect.strict = true → c.comparator.isKnown = true) :
    dialect.operand (single c.field) (single c.comparator.text) c.literal.token =
      .ok (.leaf c.reread) := by
  rw [operand_eq_ok_iff, Condition.ofTokens, h.field.2, h.comparator.2, h.canonical]
  exact ⟨rfl, hknown⟩

theorem connective_single {k : Connective} (hwhole : IsWhole k.text) (hcanonical : k.IsCanonical)
    (hknown : dialect.strict = true → k.isKnown = true) :
    dialect.connective (single k.text) = .ok k := by
  rw [connective_eq_ok_iff, hwhole.2, hcanonical]
  exact ⟨rfl, hknown⟩

/-- A subtree, alone: its parentheses, if it has any, are one level more. -/
theorem parseWithin_childTokens {e : Expr} (hbalanced : e.isNode = true → IsBalanced e.tokens)
    (h : ∀ depth, dialect.parseWithin depth e.tokens = dialect.readAt e.need depth e.reread)
    (depth : Nat) :
    dialect.parseWithin depth e.childTokens = dialect.readAt e.childNeed depth e.reread := by
  cases e with
  | leaf c => exact h depth
  | node k left right =>
    cases depth with
    | zero => rw [parseWithin_zero, readAt_zero (Expr.childNeed_pos _)]
    | succ depth =>
      rw [Expr.childTokens_node, parseWithin_group (hbalanced rfl), h, Expr.childNeed_node,
        readAt_succ]

/-- A subtree with a connective and more behind it. -/
theorem parseWithin_childTokens_append {e : Expr} (hreadable : e.IsReadable)
    (hknown : dialect.strict = true → e.IsKnown)
    (hbalanced : e.isNode = true → IsBalanced e.tokens)
    (h : ∀ depth, dialect.parseWithin depth e.tokens = dialect.readAt e.need depth e.reread)
    (depth : Nat) (link : Token) (rest : List Token) :
    dialect.parseWithin (depth + 1) (e.childTokens ++ link :: rest) = (do
      let left ← dialect.readAt e.childNeed (depth + 1) e.reread
      let connective ← dialect.connective link
      return .node connective left (← dialect.parseWithin depth rest)) := by
  cases e with
  | leaf c =>
    have hread : dialect.readAt (Expr.leaf c).childNeed (depth + 1) (Expr.leaf c).reread =
        .ok (.leaf c.reread) := if_pos (Nat.succ_pos depth)
    rw [hread, Expr.childTokens, Condition.tokens]
    simp only [List.cons_append, List.nil_append]
    rw [parseWithin_link hreadable.field_ne, operand_tokens hreadable hknown]
  | node k left right =>
    rw [Expr.childTokens_node, List.cons_append, List.append_assoc, List.singleton_append,
      parseWithin_groupLink (hbalanced rfl), h, Expr.childNeed_node, readAt_succ]

/-- The tokens of a rule text are read as its tree if expressions may be nested deeply enough, and
that is all that may be wrong with them. -/
theorem parseWithin_tokens : ∀ {e : Expr}, e.IsReadable → e.IsBracketed →
    (dialect.strict = true → e.IsKnown) → ∀ depth,
      dialect.parseWithin depth e.tokens = dialect.readAt e.need depth e.reread
  | e, _, _, _, 0 => by rw [parseWithin_zero, readAt_zero e.need_pos]
  | .leaf c, hreadable, _, hknown, depth + 1 => by
    rw [Expr.tokens, Condition.tokens, parseWithin_leaf hreadable.field_ne,
      operand_tokens hreadable hknown]
    exact (if_pos (Nat.succ_pos depth)).symm
  | .node k left right, ⟨hk, hleft, hright⟩, ⟨⟨hbl, hl⟩, ⟨hbr, hr⟩⟩, hknown, depth + 1 => by
    have hknownleft (hstrict : dialect.strict = true) : left.IsKnown := (hknown hstrict).2.1
    have hknownright (hstrict : dialect.strict = true) : right.IsKnown := (hknown hstrict).2.2
    rw [Expr.IsReadable.ofString_render hleft] at hbl
    rw [Expr.IsReadable.ofString_render hright] at hbr
    rw [Expr.tokens, parseWithin_childTokens_append hleft hknownleft hbl
        (parseWithin_tokens hleft hl hknownleft),
      connective_single hk.1 hk.2 fun hstrict => (hknown hstrict).1,
      parseWithin_childTokens hbr (parseWithin_tokens hright hr hknownright), Expr.need_node]
    simp only [readAt, Expr.reread, Nat.max_le, Nat.add_le_add_iff_right]
    by_cases hl : left.childNeed ≤ depth + 1
    · by_cases hr : right.childNeed ≤ depth
      · simp [hl, hr, bind, Except.bind, pure, Except.pure]
      · simp [hl, hr, bind, Except.bind]
    · simp [hl, bind, Except.bind]

end Dialect

/-! ### Trees without parentheses of their own -/

/-- A text is one token as a whole, and no parenthesis. -/
def Token.IsPlain (s : String) : Prop :=
  IsWhole s ∧ single s ≠ .opening ∧ single s ≠ .closing

instance (s : String) : Decidable (Token.IsPlain s) := inferInstanceAs (Decidable (_ ∧ _ ∧ _))

theorem Token.IsPlain.weight_single {s : String} (h : IsPlain s) : (single s).weight = 0 := by
  obtain ⟨-, hopening, hclosing⟩ := h
  cases hs : single s with
  | opening => exact absurd hs hopening
  | closing => exact absurd hs hclosing
  | _ => rfl

/-- A condition whose parts are whole tokens and no parentheses. -/
structure Condition.IsPlain (c : Condition) : Prop where
  /-- The field is one token. -/
  field : Token.IsPlain c.field
  /-- The comparator is one token. -/
  comparator : Token.IsPlain c.comparator.text
  /-- The comparator is the one that its text spells. -/
  canonical : c.comparator.IsCanonical
  /-- The literal is a natural number or a string without apostrophes. -/
  literal : c.literal.IsReadable

theorem Condition.isPlain_iff (c : Condition) :
    c.IsPlain ↔ Token.IsPlain c.field ∧ Token.IsPlain c.comparator.text ∧
      c.comparator.IsCanonical ∧ c.literal.IsReadable :=
  ⟨fun ⟨hf, hc, hcanonical, hl⟩ => ⟨hf, hc, hcanonical, hl⟩,
    fun ⟨hf, hc, hcanonical, hl⟩ => ⟨hf, hc, hcanonical, hl⟩⟩

instance (c : Comparator) : Decidable c.IsCanonical := inferInstanceAs (Decidable (_ = _))

instance (k : Connective) : Decidable k.IsCanonical := inferInstanceAs (Decidable (_ = _))

instance (c : Condition) : Decidable c.IsPlain := decidable_of_iff _ c.isPlain_iff.symm

namespace Expr

/-- A tree whose parts are whole tokens and no parentheses. -/
def IsPlain : Expr → Prop :=
  Throughout Condition.IsPlain fun k => Token.IsPlain k.text ∧ k.IsCanonical

instance : DecidablePred IsPlain := decidableThroughout _ _

theorem IsPlain.isReadable {e : Expr} (h : e.IsPlain) : e.IsReadable :=
  h.imp
    (fun _ hc => ⟨hc.field.1, hc.field.2.1, hc.comparator.1, hc.canonical, hc.literal⟩)
    fun _ hk => ⟨hk.1.1, hk.2⟩

/-- Three tokens that are no parentheses are balanced. -/
theorem isBalanced_tokens_of_isPlain {c : Condition} (h : c.IsPlain) : IsBalanced c.tokens :=
  (isBalanced_singleton h.field.weight_single).append
    ((isBalanced_singleton h.comparator.weight_single).append
      (isBalanced_singleton h.literal.weight_token))

/-- The parentheses of a subtree keep it balanced. -/
theorem isBalanced_childTokens {e : Expr} (h : IsBalanced e.tokens) : IsBalanced e.childTokens := by
  cases e with
  | leaf c => exact h
  | node k left right =>
    rw [childTokens_node]
    exact h.group

theorem IsPlain.isBalanced_tokens : ∀ {e : Expr}, e.IsPlain → IsBalanced e.tokens
  | .leaf _, h => isBalanced_tokens_of_isPlain h
  | .node _ _ _, ⟨hk, hleft, hright⟩ =>
    (isBalanced_childTokens (IsPlain.isBalanced_tokens hleft)).append
      ((isBalanced_singleton hk.1.weight_single).append
        (isBalanced_childTokens (IsPlain.isBalanced_tokens hright)))

/-- Groups end where they were meant to if no part of a tree is a parenthesis. -/
theorem IsPlain.isBracketed : ∀ {e : Expr}, e.IsPlain → e.IsBracketed
  | .leaf _, _ => trivial
  | .node _ left right, ⟨_, hleft, hright⟩ => by
    have hbalanced {e : Expr} (h : e.IsPlain) : IsBalanced (ofString e.render) := by
      rw [h.isReadable.ofString_render]
      exact h.isBalanced_tokens
    exact ⟨⟨fun _ => hbalanced hleft, IsPlain.isBracketed hleft⟩,
      ⟨fun _ => hbalanced hright, IsPlain.isBracketed hright⟩⟩

end Expr

namespace Engine

variable {engine : Engine}

/-- The outcome of compiling the rule text of a tree whose groups end where they were meant to. -/
theorem compile_render_eq {t : Expr} (hreadable : t.IsReadable) (hbracketed : t.IsBracketed)
    (hknown : engine.dialect.strict = true → t.IsKnown) :
    engine.compile t.render = engine.dialect.readAt t.need engine.dialect.maxDepth t.reread := by
  rw [compile, Dialect.compile, Dialect.parse, hreadable.ofString_render,
    Dialect.parseWithin_tokens hreadable hbracketed hknown]

/-- Rendering is undone by compiling, if expressions may be nested as deeply as the rule text of the
tree needs, and refused for its depth otherwise. -/
theorem compile_render (hstrict : engine.dialect.strict = false) {t : Expr} (ht : t.IsPlain) :
    (t.need ≤ engine.dialect.maxDepth →
      ∃ t', engine.compile t.render = .ok t' ∧ t.same t' = true) ∧
    (engine.dialect.maxDepth < t.need →
      engine.compile t.render = .error (.nestingTooDeep engine.dialect.maxDepth)) := by
  have hknown : engine.dialect.strict = true → t.IsKnown := by simp [hstrict]
  rw [compile_render_eq ht.isReadable ht.isBracketed hknown]
  constructor
  · intro hneed
    exact ⟨t.reread, if_pos hneed, ht.isReadable.same_reread⟩
  · intro hneed
    exact if_neg (Nat.not_le_of_gt hneed)

/-- Brackets and connectives in a string stay in it, three levels are enough for a group before a
connective, and two are not. -/
theorem compile_render_of_group :
    let t : Expr := .both
      (.either (.condition "name" .equal (.text ") AND ("))
        (.condition "age" .atLeast (.number (.ofInt 18))))
      (.condition "score" .less (.number (.ofInt 100)))
    (∃ t', (ofDialect ⟨false, 3⟩).compile t.render = .ok t' ∧ t.same t' = true) ∧
      (ofDialect ⟨false, 2⟩).compile t.render = .error (.nestingTooDeep 2) := by
  intro t
  have ht : t.IsPlain := by decide +kernel
  exact ⟨(compile_render rfl ht).1 (by decide), (compile_render rfl ht).2 (by decide)⟩

end Engine

end Criteria
