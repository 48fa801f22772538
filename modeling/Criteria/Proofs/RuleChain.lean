import Criteria.Proofs.Combination
import Criteria.Proofs.Grammar
import Criteria.Proofs.TreeStatistics
import Mathlib.Algebra.GroupWithZero.Nat

/-!
# The size of combined rules

The tree of a set of rules is the chain of the trees of its rules. Joining trees to a chain keeps
all their conditions, and each tree that is joined lowers what was there by one level. The limit
on nested expressions is checked for each rule by itself, so that it is not met by combining.

## Main definitions

* `Expr.Joins`: the statistics of a tree are those of a chain of trees.
* `Unwrapped`: a computation does not fail with a wrapped cause.

## Main results

* `Expr.joins_chain`: the statistics of a chain.
* `Dialect.unwrapped_parseWithin`: no cause of the parser wraps another one.
* `Engine.combine_of_rules`: what combining rules gives, and how large it is.
-/

namespace Criteria

/-! ### Chains -/

namespace Expr

/-- The number of conditions of a chain is the sum of those of its trees. -/
theorem operandCount_chain (first : Expr) (others : List Expr) :
    (chain (first :: others)).operandCount = ((first :: others).map operandCount).sum := by
  induction others generalizing first with
  | nil => simp [chain]
  | cons second others ih =>
    rw [chain_cons_cons, ih, both, List.map_cons, List.sum_cons, operandCount_node]
    simp [Nat.add_assoc]

/-- The attributes of a chain are those of its trees. -/
theorem mem_attributes_chain {name : String} (first : Expr) (others : List Expr) :
    name ∈ (chain (first :: others)).attributes ↔ ∃ t ∈ first :: others, name ∈ t.attributes := by
  induction others generalizing first with
  | nil => simp [chain]
  | cons second others ih =>
    rw [chain_cons_cons, ih, both, List.exists_mem_cons_iff, List.exists_mem_cons_iff,
      List.exists_mem_cons_iff, mem_attributes_node, or_assoc]

/-- Each tree of a chain stands as many levels below the root as trees are joined from its own
place on. -/
theorem depth_chain (first : Expr) (others : List Expr) :
    (chain (first :: others)).depth =
      (others.mapIdx fun i t => t.depth + (others.length - i)).foldr max
        (first.depth + others.length) := by
  induction others generalizing first with
  | nil => simp [chain]
  | cons second others ih =>
    have hroot : (both first second).depth + others.length =
        max (first.depth + (others.length + 1)) (second.depth + (others.length + 1)) := by
      rw [both, depth_node]
      omega
    rw [chain_cons_cons, ih, hroot, List.foldr_assoc, List.mapIdx_cons, List.foldr_cons, max_comm]
    simp

/-- A tree has the statistics of the chain of several trees: all their conditions and attributes,
the attributes in increasing order, and the levels that joining them one by one gives. -/
structure Joins (tree first : Expr) (others : List Expr) : Prop where
  operandCount : tree.operandCount = ((first :: others).map Expr.operandCount).sum
  attributes (name : String) :
    name ∈ tree.attributes ↔ ∃ t ∈ first :: others, name ∈ t.attributes
  increasing : tree.attributes.Pairwise (· < ·)
  depth : tree.depth =
    (others.mapIdx fun i t => t.depth + (others.length - i)).foldr max
      (first.depth + others.length)

theorem joins_chain (first : Expr) (others : List Expr) :
    (chain (first :: others)).Joins first others where
  operandCount := operandCount_chain first others
  attributes _ := mem_attributes_chain first others
  increasing := pairwise_attributes _
  depth := depth_chain first others

end Expr

/-! ### Causes of the parser -/

/-- A computation that does not fail with a wrapped cause. -/
def Unwrapped {α : Type} (x : Except ParseError α) : Prop :=
  ∀ cause, x = .error cause → cause.rootCause = cause

namespace Unwrapped

variable {α β : Type}

theorem ok (a : α) : Unwrapped (.ok a) := nofun

theorem error {cause : ParseError} (h : cause.rootCause = cause) :
    Unwrapped (.error cause : Except ParseError α) := fun _ hcause => Except.error.inj hcause ▸ h

theorem bind {x : Except ParseError α} {f : α → Except ParseError β} (hx : Unwrapped x)
    (hf : ∀ a, Unwrapped (f a)) : Unwrapped (x >>= f) := fun cause hcause => by
  rcases bind_eq_error_iff.1 hcause with h | ⟨a, -, h⟩
  · exact hx cause h
  · exact hf a cause h

end Unwrapped

namespace Dialect

variable {dialect : Dialect}

theorem unwrapped_operand (field comparator value : Token) :
    Unwrapped (dialect.operand field comparator value) := fun cause hcause => by
  obtain ⟨rfl, -⟩ := operand_eq_error_iff.1 hcause
  rfl

theorem unwrapped_connective (token : Token) : Unwrapped (dialect.connective token) :=
  fun cause hcause => by
    obtain ⟨rfl, -⟩ := connective_eq_error_iff.1 hcause
    rfl

/-- The parser does not wrap causes. -/
theorem unwrapped_parseWithin (depth : Nat) (tokens : List Token) :
    Unwrapped (dialect.parseWithin depth tokens) := by
  induction depth generalizing tokens with
  | zero =>
    rw [parseWithin_zero]
    exact .error rfl
  | succ depth ih =>
    cases form tokens with
    | empty =>
      rw [parseWithin_nil]
      exact .error rfl
    | unclosed hnone =>
      rw [parseWithin_unclosed depth hnone]
      exact .error rfl
    | short hfield hrest =>
      rw [parseWithin_short hfield depth hrest]
      exact .error rfl
    | leaf hfield =>
      rw [parseWithin_leaf hfield]
      exact unwrapped_operand _ _ _
    | group hinner =>
      rw [parseWithin_group hinner]
      exact ih _
    | link hfield =>
      rw [parseWithin_link hfield]
      exact (unwrapped_operand _ _ _).bind fun _ => (unwrapped_connective _).bind fun _ =>
        (ih _).bind fun _ => .ok _
    | groupLink hinner =>
      rw [parseWithin_groupLink hinner]
      exact (ih _).bind fun _ => (unwrapped_connective _).bind fun _ => (ih _).bind fun _ => .ok _

theorem compile_ne_invalidRule (rule text : String) (source : ParseError) :
    dialect.compile rule ≠ .error (.invalidRule text source) := by
  intro h
  have hroot := unwrapped_parseWithin _ _ _ h
  exact ParseError.rootCause_ne_invalidRule _ text source hroot

end Dialect

/-! ### Combining rules -/

namespace Engine

/-- Rules are combined just if there are some and each of them compiles by itself. -/
theorem exists_combine_iff (engine : Engine) (rules : List String) :
    (∃ tree, engine.combine rules = .ok tree) ↔
      rules ≠ [] ∧ ∀ rule ∈ rules, ∃ tree, engine.compile rule = .ok tree := by
  rcases eq_or_ne rules [] with rfl | hne
  · exact ⟨fun ⟨tree, h⟩ => (nomatch h), fun h => absurd rfl h.1⟩
  constructor
  · rintro ⟨tree, h⟩
    obtain ⟨trees, htrees, -⟩ := (Dialect.combine_eq_ok_iff hne).1 h
    exact ⟨hne, exists_of_forall₂ htrees⟩
  · rintro ⟨-, hall⟩
    cases h : engine.combine rules with
    | ok tree => exact ⟨tree, rfl⟩
    | error cause =>
      obtain ⟨rule, hfirst, -⟩ := (Dialect.combine_eq_error_iff hne).1 h
      obtain ⟨tree, htree⟩ := hall rule hfirst.mem
      exact absurd htree (hfirst.holds tree)

theorem combine_eq_emptyRuleSet_iff (engine : Engine) (rules : List String) :
    engine.combine rules = .error .emptyRuleSet ↔ rules = [] := by
  constructor
  · intro h
    by_contra hne
    obtain ⟨rule, -, source, -, hcause⟩ := (Dialect.combine_eq_error_iff hne).1 h
    cases hcause
  · rintro rfl
    rfl

/-- **Combining rules.** There is no tree for no rules. Otherwise each rule is compiled by itself,
and rules are combined just if each of them compiles, however many they are; their tree is the
chain that leans to the left, and its statistics are those of their trees. If a rule does not
compile, the first one of these is named, with the cause why it does not compile by itself. -/
theorem combine_of_rules (engine : Engine) (rules : List String) :
    (engine.combine rules = .error .emptyRuleSet ↔ rules = []) ∧
    ((∃ tree, engine.combine rules = .ok tree) ↔
      rules ≠ [] ∧ ∀ rule ∈ rules, ∃ tree, engine.compile rule = .ok tree) ∧
    match engine.combine rules with
    | .ok tree => ∃ first others,
        List.Forall₂ (fun rule t => engine.compile rule = .ok t) rules (first :: others) ∧
          tree = others.foldl Expr.both first ∧ tree.Joins first others
    | .error cause => rules ≠ [] → ∃ rule source,
        IsFirst (fun r => ∀ tree, engine.compile r ≠ .ok tree) rules rule ∧
          engine.compile rule = .error source ∧ cause = .invalidRule rule source ∧
          cause.code = source.code ∧
          ∀ text inner, source ≠ .invalidRule text inner := by
  refine ⟨engine.combine_eq_emptyRuleSet_iff rules, engine.exists_combine_iff rules, ?_⟩
  cases h : engine.combine rules with
  | ok tree =>
    have hne : rules ≠ [] := ((engine.exists_combine_iff rules).1 ⟨tree, h⟩).1
    obtain ⟨trees, htrees, rfl⟩ := (Dialect.combine_eq_ok_iff hne).1 h
    cases trees with
    | nil => exact absurd (List.forall₂_nil_right_iff.1 htrees) hne
    | cons first others => exact ⟨first, others, htrees, rfl, Expr.joins_chain first others⟩
  | error cause =>
    intro hne
    obtain ⟨rule, hfirst, source, hsource, rfl⟩ := (Dialect.combine_eq_error_iff hne).1 h
    refine ⟨rule, source, hfirst, hsource, rfl, rfl, fun text inner => ?_⟩
    rintro rfl
    exact Dialect.compile_ne_invalidRule rule text inner hsource

end Engine

end Criteria
