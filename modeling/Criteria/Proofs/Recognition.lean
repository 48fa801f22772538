import Criteria.Proofs.Grammar

/-!
# The parser recognizes the grammar

What is parsed is written by the tokens. Conversely, tokens that write a tree are parsed as that
tree if expressions may be nested deeply enough, and one expression for every two tokens is deep
enough: each group and each link of a chain takes two tokens away at least. As the parser gives one
tree, tokens write one tree at most.

An expression is a chain of operands, which are conditions and groups. The tree of a chain leans to
the right whatever its connectives are, so that none of them binds closer than another.

## Main definitions

* `Writes.Operand`: tokens are a condition or a group.
* `Chain`: operands joined by connectives, `Chain.tokens` its tokens and `Chain.tree` its tree.

## Main results

* `Dialect.parseWithin_of_writes`: tokens that write a tree are parsed as it.
* `Writes.unique`: tokens write one tree at most.
* `writes_iff_chain`: what tokens write is the tree of a chain.
* `Dialect.parse_eq_ok_iff_writes`: the parser accepts just what is written.
-/

namespace Criteria

open Token

/-! ### What is written is parsed -/

/-- Tokens that write a tree are parsed as it if operators are not checked and one expression may
be nested for every two tokens. -/
theorem Dialect.parseWithin_of_writes {dialect : Dialect} (hlenient : dialect.strict = false)
    {tokens : List Token} {tree : Expr} (h : Writes tokens tree) {depth : Nat}
    (hdepth : tokens.length ≤ 2 * depth + 1) : dialect.parseWithin depth tokens = .ok tree := by
  induction h generalizing depth with
  | leaf hfield =>
    simp only [List.length_cons, List.length_nil] at hdepth
    obtain ⟨depth, rfl⟩ := Nat.exists_eq_succ_of_ne_zero (n := depth) (by omega)
    rw [parseWithin_leaf hfield, operand_of_lenient hlenient]
  | group hinner _ ih =>
    -- the parentheses are two tokens
    simp only [List.length_cons, List.length_append, List.length_nil] at hdepth
    obtain ⟨depth, rfl⟩ := Nat.exists_eq_succ_of_ne_zero (n := depth) (by omega)
    rw [parseWithin_group hinner]
    exact ih (by omega)
  | link hfield _ ih =>
    -- the condition and the connective are four
    simp only [List.length_cons] at hdepth
    obtain ⟨depth, rfl⟩ := Nat.exists_eq_succ_of_ne_zero (n := depth) (by omega)
    rw [parseWithin_link hfield, operand_of_lenient hlenient, connective_of_lenient hlenient,
      ih (by omega)]
    rfl
  | groupLink hinner _ _ ihleft ihright =>
    simp only [List.length_cons, List.length_append] at hdepth
    obtain ⟨depth, rfl⟩ := Nat.exists_eq_succ_of_ne_zero (n := depth) (by omega)
    rw [parseWithin_groupLink hinner, ihleft (by omega), connective_of_lenient hlenient,
      ihright (by omega)]
    rfl

/-- Tokens write one tree at most. -/
theorem Writes.unique {tokens : List Token} {tree other : Expr} (h : Writes tokens tree)
    (hother : Writes tokens other) : tree = other := by
  have hdepth : tokens.length ≤ 2 * tokens.length + 1 := by omega
  have hparse (t : Expr) (ht : Writes tokens t) :
      (Dialect.mk false 0).parseWithin tokens.length tokens = .ok t :=
    Dialect.parseWithin_of_writes rfl ht hdepth
  exact Except.ok.inj ((hparse tree h).symm.trans (hparse other hother))

/-! ### Chains -/

/-- Tokens that are a condition, or a group, with the tree that they stand for. -/
inductive Writes.Operand : List Token → Expr → Prop
  | condition {field comparator value : Token} (hfield : field ≠ .opening) :
      Operand [field, comparator, value] (.leaf (.ofTokens field comparator value))
  | group {inner : List Token} {tree : Expr} (hinner : IsBalanced inner) (h : Writes inner tree) :
      Operand (.opening :: (inner ++ [.closing])) tree

/-- Operands joined by connectives, each operand given by its tokens and its tree. -/
inductive Chain where
  /-- A single operand. -/
  | last (tokens : List Token) (tree : Expr)
  /-- An operand, a connective, and the operands behind it. -/
  | link (tokens : List Token) (tree : Expr) (connective : Token) (rest : Chain)

namespace Chain

/-- The tokens of a chain. -/
def tokens : Chain → List Token
  | .last tokens _ => tokens
  | .link tokens _ connective rest => tokens ++ connective :: rest.tokens

/-- The tree of a chain. It leans to the right, whatever the connectives are. -/
def tree : Chain → Expr
  | .last _ tree => tree
  | .link _ tree connective rest => .node (.ofText connective.text) tree rest.tree

/-- All operands are conditions or groups, with their trees. -/
def IsWritten : Chain → Prop
  | .last tokens tree => Writes.Operand tokens tree
  | .link tokens tree _ rest => Writes.Operand tokens tree ∧ rest.IsWritten

end Chain

/-- An operand writes its tree. -/
theorem Writes.Operand.writes {tokens : List Token} {tree : Expr} (h : Operand tokens tree) :
    Writes tokens tree := by
  cases h with
  | condition hfield => exact .leaf hfield
  | group hinner h => exact .group hinner h

/-- An operand may stand in front of a connective and an expression. -/
theorem Writes.Operand.link {tokens rest : List Token} {tree right : Expr}
    (h : Operand tokens tree) (connective : Token) (hright : Writes rest right) :
    Writes (tokens ++ connective :: rest) (.node (.ofText connective.text) tree right) := by
  cases h with
  | condition hfield => exact .link hfield hright
  | @group inner tree hinner h =>
    have happend : (.opening :: (inner ++ [.closing])) ++ connective :: rest =
        .opening :: (inner ++ .closing :: connective :: rest) := by simp
    rw [happend]
    exact .groupLink hinner h hright

/-- A chain of operands writes its tree. -/
theorem Chain.IsWritten.writes {chain : Chain} (h : chain.IsWritten) :
    Writes chain.tokens chain.tree := by
  induction chain with
  | last tokens tree => exact Writes.Operand.writes h
  | link tokens tree connective rest ih => exact h.1.link connective (ih h.2)

/-- What tokens write is the tree of a chain of operands. -/
theorem writes_iff_chain {tokens : List Token} {tree : Expr} :
    Writes tokens tree ↔
      ∃ chain : Chain, chain.IsWritten ∧ chain.tokens = tokens ∧ chain.tree = tree := by
  constructor
  · intro h
    induction h with
    | leaf hfield => exact ⟨.last _ _, .condition hfield, rfl, rfl⟩
    | group hinner h => exact ⟨.last _ _, .group hinner h, rfl, rfl⟩
    | @link _ _ _ connective _ _ hfield _ ih =>
      obtain ⟨rest, hrest, rfl, rfl⟩ := ih
      exact ⟨.link _ _ connective rest, ⟨.condition hfield, hrest⟩, rfl, rfl⟩
    | @groupLink inner _ connective left _ hinner hleft _ _ ih =>
      obtain ⟨rest, hrest, rfl, rfl⟩ := ih
      refine ⟨.link (.opening :: (inner ++ [.closing])) left connective rest,
        ⟨.group hinner hleft, hrest⟩, ?_, rfl⟩
      simp [Chain.tokens]
  · rintro ⟨chain, hchain, rfl, rfl⟩
    exact hchain.writes

/-! ### The parser -/

namespace Dialect

/-- **The parser accepts just what is written.** If operators are not checked and more expressions
may be nested than half the number of tokens, tokens are parsed as a tree just if they write it.
No tokens write two trees. What they write is the tree of a chain of operands: it leans to the
right, and no connective binds closer than another. -/
theorem parse_eq_ok_iff_writes {maxDepth : Nat} {tokens : List Token}
    (hdepth : tokens.length / 2 < maxDepth) (tree : Expr) :
    ((Dialect.mk false maxDepth).parse tokens = .ok tree ↔ Writes tokens tree) ∧
      (∀ other, Writes tokens tree → Writes tokens other → tree = other) ∧
      (Writes tokens tree ↔
        ∃ chain : Chain, chain.IsWritten ∧ chain.tokens = tokens ∧ chain.tree = tree) := by
  refine ⟨⟨fun h => (writes_of_parseWithin h).1, fun h => ?_⟩, fun _ => Writes.unique,
    writes_iff_chain⟩
  have hlength : tokens.length ≤ 2 * maxDepth + 1 := by omega
  exact parseWithin_of_writes rfl h hlength

/-- A group, an unknown connective and a parenthesis in the place of a value, which is a string. -/
theorem writes_of_group :
    let tokens := ofString "(a > 1 OR b > 2) XOR c = ("
    tokens.length / 2 < 7 ∧ Writes tokens (.node (.unknown "XOR")
      (.either (.condition "a" .greater (.number (.ofInt 1)))
        (.condition "b" .greater (.number (.ofInt 2))))
      (.condition "c" .equal (.text "("))) := by
  intro tokens
  have hdepth : tokens.length / 2 < 7 := by decide +kernel
  exact ⟨hdepth, (parse_eq_ok_iff_writes hdepth _).1.1 (by decide +kernel)⟩

end Dialect

end Criteria
