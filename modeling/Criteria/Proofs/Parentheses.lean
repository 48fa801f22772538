import Criteria.Proofs.Recognition
import Criteria.Proofs.StoredRules

/-!
# The parentheses of rules

A rule that compiles need not have balanced parentheses. An expression is a chain of conditions and
groups. Where a group may begin, an opening parenthesis begins one, and it is closed behind balanced
tokens. But the tokens of a condition, and the connectives, are taken by their places, whatever they
are: `a > (` compares a field with a parenthesis.

Groups neither add to the excess of the tokens around them nor lower it anywhere. So the parentheses
of a rule are balanced just if those are that stand outside its groups, and these are not there to
group anything.

## Main definitions

* `Token.lowest`: the lowest excess of the tokens in front.
* `Chain.places`: the tokens outside the groups of a chain, with what they are taken for.
* `Engine.Places`: where the parentheses of a rule stand that compiles.

## Main results

* `Chain.IsWritten.isBalanced_iff`: tokens are balanced just if those outside their groups are.
* `Engine.places_of_compile`: every rule that compiles is made so, and every stored rule.
-/

namespace Criteria

open Token

/-! ### The lowest excess -/

namespace Token

/-- The lowest excess of the tokens in front; that of no tokens is none. -/
def lowest : List Token → Int
  | [] => 0
  | token :: tokens => min 0 (token.weight + lowest tokens)

@[simp] theorem lowest_nil : lowest [] = 0 := rfl

@[simp] theorem lowest_cons (token : Token) (tokens : List Token) :
    lowest (token :: tokens) = min 0 (token.weight + lowest tokens) := rfl

theorem lowest_le_zero (tokens : List Token) : lowest tokens ≤ 0 := by
  cases tokens with
  | nil => exact Int.le_refl 0
  | cons token tokens => exact Int.min_le_left 0 _

theorem lowest_append (s t : List Token) :
    lowest (s ++ t) = min (lowest s) (excess s + lowest t) := by
  induction s with
  | nil =>
    have := lowest_le_zero t
    simp only [List.nil_append, lowest_nil, excess_nil]
    omega
  | cons token s ih =>
    simp only [List.cons_append, lowest_cons, excess_cons, ih]
    omega

/-- Nothing in front of tokens has a lower excess than the lowest one. -/
theorem le_lowest_iff (bound : Int) (tokens : List Token) :
    bound ≤ lowest tokens ↔ ∀ front, front <+: tokens → bound ≤ excess front := by
  induction tokens generalizing bound with
  | nil =>
    constructor
    · intro h front hfront
      rwa [List.prefix_nil.1 hfront]
    · intro h
      exact h [] List.nil_prefix
  | cons token tokens ih =>
    have hrest : bound - token.weight ≤ lowest tokens ↔
        ∀ front, front <+: tokens → bound ≤ token.weight + excess front := by
      rw [ih]
      exact forall₂_congr fun _ _ => by omega
    constructor
    · intro h front hfront
      rw [lowest_cons] at h
      rcases List.prefix_cons_iff.1 hfront with rfl | ⟨front, rfl, htail⟩
      · rw [excess_nil]
        omega
      · exact hrest.1 (by omega) front htail
    · intro h
      have hnil : bound ≤ 0 := h [] List.nil_prefix
      have htail := hrest.2 fun front hfront =>
        h (token :: front) ((List.prefix_cons_inj _).2 hfront)
      rw [lowest_cons]
      omega

/-- Tokens are balanced if neither all of them nor any in front have an excess. -/
theorem isBalanced_iff_lowest (tokens : List Token) :
    IsBalanced tokens ↔ excess tokens = 0 ∧ lowest tokens = 0 := by
  have hle := lowest_le_zero tokens
  constructor
  · intro h
    have := (le_lowest_iff 0 tokens).2 fun _ hfront => h.initial hfront
    exact ⟨h.total, by omega⟩
  · rintro ⟨htotal, hlowest⟩
    exact ⟨htotal, fun {front} hfront => (le_lowest_iff 0 tokens).1 (by omega) front hfront⟩

/-- Balanced tokens in front change no excess. -/
theorem IsBalanced.lowest_append {s : List Token} (h : IsBalanced s) (t : List Token) :
    lowest (s ++ t) = lowest t := by
  have := lowest_le_zero t
  rw [Token.lowest_append, ((isBalanced_iff_lowest s).1 h).2, h.total]
  omega

/-- Tokens without parentheses are balanced. -/
theorem isBalanced_of_weight {tokens : List Token} (h : ∀ token ∈ tokens, token.weight = 0) :
    IsBalanced tokens := by
  induction tokens with
  | nil => exact (isBalanced_iff_lowest []).2 ⟨rfl, rfl⟩
  | cons token tokens ih =>
    obtain ⟨htoken, htokens⟩ := List.forall_mem_cons.1 h
    exact (isBalanced_singleton htoken).append (ih htokens)

end Token

/-! ### Tokens outside of groups -/

/-- What a token outside of groups is taken for. -/
inductive Place where
  | field
  | comparator
  | value
  | connective
deriving DecidableEq

/-- The tokens of an operand that are taken by their places: all of a condition, none of a group. -/
def operandPlaces : List Token → List (Place × Token)
  | .opening :: _ => []
  | [field, comparator, value] =>
    [(.field, field), (.comparator, comparator), (.value, value)]
  | _ => []

theorem operandPlaces_condition {field : Token} (hfield : field ≠ .opening)
    (comparator value : Token) : operandPlaces [field, comparator, value] =
      [(.field, field), (.comparator, comparator), (.value, value)] := by
  cases field with
  | opening => exact absurd rfl hfield
  | _ => rfl

@[simp] theorem operandPlaces_group (tokens : List Token) :
    operandPlaces (.opening :: tokens) = [] := rfl

namespace Chain

/-- The tokens of a chain that are taken by their places. -/
def places : Chain → List (Place × Token)
  | .last tokens _ => operandPlaces tokens
  | .link tokens _ connective rest =>
    operandPlaces tokens ++ (.connective, connective) :: rest.places

/-- The tokens of a chain that stand outside its groups. -/
def loose (chain : Chain) : List Token := chain.places.map Prod.snd

end Chain

/-- An operand changes excesses as much as its tokens outside of groups do. -/
theorem Writes.Operand.lowest_append {tokens : List Token} {tree : Expr} (h : Operand tokens tree)
    {s t : List Token} (hexcess : excess s = excess t) (hlowest : lowest s = lowest t) :
    excess (tokens ++ s) = excess ((operandPlaces tokens).map Prod.snd ++ t) ∧
      lowest (tokens ++ s) = lowest ((operandPlaces tokens).map Prod.snd ++ t) := by
  cases h with
  | condition hfield =>
    simp [operandPlaces_condition hfield, hexcess, hlowest]
  | group hinner h =>
    have hgroup := hinner.group
    simp only [operandPlaces_group, List.map_nil, List.nil_append]
    refine ⟨?_, ?_⟩
    · rw [excess_append, hgroup.total, Int.zero_add, hexcess]
    · rw [hgroup.lowest_append, hlowest]

namespace Chain.IsWritten

variable {chain : Chain}

/-- The tokens of a chain outside its groups have the excesses of all its tokens. -/
theorem lowest_loose (h : chain.IsWritten) :
    excess chain.tokens = excess chain.loose ∧ lowest chain.tokens = lowest chain.loose := by
  induction chain with
  | last tokens tree =>
    have hlast := Writes.Operand.lowest_append h (s := []) (t := []) rfl rfl
    rwa [List.append_nil, List.append_nil] at hlast
  | link tokens tree connective rest ih =>
    obtain ⟨hexcess, hlowest⟩ := ih h.2
    have hloose : (link tokens tree connective rest).loose =
        (operandPlaces tokens).map Prod.snd ++ connective :: rest.loose := by
      simp [loose, places]
    rw [hloose]
    exact h.1.lowest_append (by simp [hexcess]) (by simp [hlowest])

/-- The tokens of a chain are balanced just if those outside its groups are. -/
theorem isBalanced_iff (h : chain.IsWritten) :
    IsBalanced chain.tokens ↔ IsBalanced chain.loose := by
  rw [isBalanced_iff_lowest, isBalanced_iff_lowest, h.lowest_loose.1, h.lowest_loose.2]

end Chain.IsWritten

/-! ### What the places admit -/

/-- What a dialect lets stand in a place. No group begins where a field is read, and a strict
dialect wants operators that it knows. -/
def Dialect.Admits (dialect : Dialect) : Place → Token → Prop
  | .field, token => token ≠ .opening
  | .comparator, token =>
    dialect.strict = true → (Comparator.ofText token.text).isKnown = true
  | .value, _ => True
  | .connective, token =>
    dialect.strict = true → (Connective.ofText token.text).isKnown = true

namespace Dialect

variable {dialect : Dialect}

/-- All operators of a tree are known, if the dialect is strict. -/
def Knows (dialect : Dialect) (tree : Expr) : Prop :=
  dialect.strict = true →
    tree.Throughout (fun c => c.comparator.isKnown = true) (fun k => k.isKnown = true)

/-- The tokens of an operand stand in places that admit them. -/
theorem admits_operandPlaces {tokens : List Token} {tree : Expr} (h : Writes.Operand tokens tree)
    (hknows : dialect.Knows tree) :
    ∀ entry ∈ operandPlaces tokens, dialect.Admits entry.1 entry.2 := by
  cases h with
  | condition hfield =>
    simp only [operandPlaces_condition hfield, List.forall_mem_cons]
    exact ⟨hfield, hknows, trivial, by simp⟩
  | group => simp

/-- So do the tokens of a chain. -/
theorem admits_places {chain : Chain} (h : chain.IsWritten) (hknows : dialect.Knows chain.tree) :
    ∀ entry ∈ chain.places, dialect.Admits entry.1 entry.2 := by
  induction chain with
  | last tokens tree => exact admits_operandPlaces h hknows
  | link tokens tree connective rest ih =>
    rw [Chain.places, List.forall_mem_append, List.forall_mem_cons]
    exact ⟨admits_operandPlaces h.1 fun hstrict => (hknows hstrict).2.1,
      fun hstrict => (hknows hstrict).1, ih h.2 fun hstrict => (hknows hstrict).2.2⟩

/-- A parenthesis that a place admits is a value, a closing one that is a field, or an operator that
is not checked. -/
theorem Admits.parenthesis {place : Place} {token : Token} (h : dialect.Admits place token)
    (hparenthesis : token.weight ≠ 0) :
    place = .value ∨ place = .field ∧ token = .closing ∨
      dialect.strict = false ∧ (place = .comparator ∨ place = .connective) := by
  have hunknown : (Comparator.ofText token.text).isKnown = false ∧
      (Connective.ofText token.text).isKnown = false := by
    cases token with
    | opening => decide
    | closing => decide
    | _ => exact absurd rfl hparenthesis
  cases place with
  | value => exact .inl rfl
  | field =>
    cases token with
    | opening => exact absurd rfl h
    | closing => exact .inr (.inl ⟨rfl, rfl⟩)
    | _ => exact absurd rfl hparenthesis
  | comparator =>
    refine .inr (.inr ⟨?_, .inl rfl⟩)
    by_contra hstrict
    simp [h (by simpa using hstrict)] at hunknown
  | connective =>
    refine .inr (.inr ⟨?_, .inr rfl⟩)
    by_contra hstrict
    simp [h (by simpa using hstrict)] at hunknown

end Dialect

/-! ### Rules that compile -/

namespace Engine

/-- A rule is a chain of conditions and groups; where its parentheses stand. -/
structure Places (engine : Engine) (rule : String) (tree : Expr) (chain : Chain) : Prop where
  /-- The operands are conditions, and groups that are closed behind balanced tokens. -/
  isWritten : chain.IsWritten
  tokens_eq : chain.tokens = ofString rule
  tree_eq : chain.tree = tree
  /-- The parentheses are balanced just if those outside of groups are. -/
  isBalanced_iff : IsBalanced (ofString rule) ↔ IsBalanced chain.loose
  /-- They are balanced if there are none outside of groups. -/
  isBalanced_of_loose :
    (∀ token ∈ chain.loose, token ≠ .opening ∧ token ≠ .closing) → IsBalanced (ofString rule)
  /-- A parenthesis outside of groups is a value, a closing one that is a field, or an operator that
  is not checked. -/
  places : ∀ place token, (place, token) ∈ chain.places → token = .opening ∨ token = .closing →
    place = .value ∨ place = .field ∧ token = .closing ∨
      engine.dialect.strict = false ∧ (place = .comparator ∨ place = .connective)

theorem exists_places {engine : Engine} {rule : String} {tree : Expr}
    (h : engine.compile rule = .ok tree) : ∃ chain, engine.Places rule tree chain := by
  obtain ⟨hwrites, hknows⟩ := Dialect.writes_of_parseWithin h
  obtain ⟨chain, hchain, htokens, rfl⟩ := writes_iff_chain.1 hwrites
  have hiff : IsBalanced (ofString rule) ↔ IsBalanced chain.loose := htokens ▸ hchain.isBalanced_iff
  refine ⟨chain, hchain, htokens, rfl, hiff, fun hloose => ?_, fun place token hmem htoken => ?_⟩
  · refine hiff.2 (isBalanced_of_weight fun token hmem => ?_)
    obtain ⟨hopening, hclosing⟩ := hloose token hmem
    cases token with
    | opening => exact absurd rfl hopening
    | closing => exact absurd rfl hclosing
    | _ => rfl
  · have hadmits := Dialect.admits_places hchain hknows _ hmem
    refine hadmits.parenthesis ?_
    rcases htoken with rfl | rfl <;> simp

/-- **The parentheses of a rule that compiles.** It is a chain of conditions and of groups that are
closed behind balanced tokens. All its parentheses are balanced just if those are that stand outside
its groups, and so if there are none. One that stands there is taken by its place: for a value, for
a field if it is a closing one, or for an operator if these are not checked. The same is true of all
rules of a store. -/
theorem places_of_compile (engine : Engine) :
    (∀ rule tree, engine.compile rule = .ok tree → ∃ chain, engine.Places rule tree chain) ∧
      ∀ calls : List Store.Call, ∀ rule ∈ ((Store.empty engine).run calls).2.list,
        ∃ tree chain, engine.compile rule.rule = .ok tree ∧ engine.Places rule.rule tree chain := by
  refine ⟨fun rule tree => exists_places, fun calls rule hrule => ?_⟩
  obtain ⟨tree, htree⟩ := ((Store.Sound.empty engine).run calls).compiles rule hrule
  obtain ⟨chain, hchain⟩ := exists_places htree
  exact ⟨tree, chain, htree, hchain⟩

/-- The theorem for a closing parenthesis that is a value, behind a group. -/
theorem places_of_group :
    let rule := "(a > 1 OR b = '(') AND c = )"
    ∃ tree, standard.compile rule = .ok tree ∧ ∃ chain, standard.Places rule tree chain := by
  intro rule
  have h : ∃ tree, standard.compile rule = .ok tree :=
    ⟨.both (.either (.condition "a" .greater (.number (.ofInt 1)))
      (.condition "b" .equal (.text "("))) (.condition "c" .equal (.text ")")), by decide +kernel⟩
  obtain ⟨tree, htree⟩ := h
  exact ⟨tree, htree, (places_of_compile standard).1 rule tree htree⟩

/-- Also a strict engine takes an opening parenthesis for a value, and nothing closes it. -/
theorem not_isBalanced_of_value :
    ¬ ∀ (engine : Engine) (rule : String) (tree : Expr), engine.compile rule = .ok tree →
      IsBalanced (ofString rule) := by
  intro hall
  have hunclosed : (ofDialect ⟨true, 1⟩).compile "a > (" =
    .ok (.condition "a" .greater (.text "(")) := by decide +kernel
  exact absurd (hall _ _ _ hunclosed) (by decide +kernel)

end Engine

end Criteria
