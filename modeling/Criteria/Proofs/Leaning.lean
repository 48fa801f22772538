import Criteria.Proofs.Combination
import Criteria.Proofs.Recognition

/-!
# Chains that lean to either side

A rule whose operands are joined by one connective is read as a chain that leans to the right. Rules
that are combined make a chain that leans to the left. Both are bracketings of their operands, and
so are evaluated alike: they have the same truth value, or the same one of the operands fails first.

## Main definitions

* `Chain.operands`, `Chain.links`: the trees of a chain, and the tokens that join them.
* `Engine.JoinsRules`: a rule joins by `AND` what several rules compile to.

## Main results

* `Chain.brackets`: the tree of a chain is a bracketing of its operands.
* `Expr.evaluate_of_brackets`: bracketings of one sequence are evaluated alike.
-/

namespace Criteria

open Token

namespace Chain

/-- The trees of the operands of a chain. -/
def operands : Chain → List Expr
  | .last _ tree => [tree]
  | .link _ tree _ rest => tree :: rest.operands

/-- The tokens in the places of connectives between the operands of a chain. -/
def links : Chain → List Token
  | .last _ _ => []
  | .link _ _ connective rest => connective :: rest.links

/-- If all its connectives are the same one, the tree of a chain is the bracketing of its operands
that leans to the right. -/
theorem brackets {k : Connective} {chain : Chain}
    (h : ∀ token ∈ chain.links, Connective.ofText token.text = k) :
    Expr.Brackets k chain.operands chain.tree := by
  induction chain with
  | last tokens tree => exact .single tree
  | link tokens tree connective rest ih =>
    obtain ⟨rfl, hrest⟩ := List.forall_mem_cons.1 h
    exact (Expr.Brackets.single tree).join (ih hrest)

end Chain

/-- The operands of a rule are joined by `AND`, and they are the trees that several rules compile
to. -/
structure Engine.JoinsRules (engine : Engine) (rule : String) (rules : List String)
    (chain : Chain) : Prop where
  isWritten : chain.IsWritten
  tokens_eq : chain.tokens = ofString rule
  links : ∀ token ∈ chain.links, token.text = "AND"
  operands : List.Forall₂ (fun rule tree => engine.compile rule = .ok tree) rules chain.operands

namespace Engine.JoinsRules

variable {engine : Engine} {rule : String} {rules : List String} {chain : Chain}

/-- Such a rule compiles to a bracketing of its operands. -/
theorem brackets_compile (h : engine.JoinsRules rule rules chain) {tree : Expr}
    (htree : engine.compile rule = .ok tree) : Expr.Brackets .and chain.operands tree := by
  have hwrites : Writes chain.tokens tree := h.tokens_eq ▸ (Dialect.writes_of_parseWithin htree).1
  obtain rfl := h.isWritten.writes.unique hwrites
  refine Chain.brackets fun token htoken => ?_
  rw [h.links token htoken]
  rfl

/-- The rules are combined to a bracketing of them, too. -/
theorem exists_combine (h : engine.JoinsRules rule rules chain) :
    ∃ combined, engine.combine rules = .ok combined ∧
      Expr.Brackets .and chain.operands combined := by
  have htrees := h.operands
  cases hoperands : chain.operands with
  | nil => cases chain <;> cases hoperands
  | cons first others =>
    rw [hoperands] at htrees
    have hne : rules ≠ [] := by
      rintro rfl
      cases htrees
    exact ⟨_, (Dialect.combine_eq_ok_iff hne).2 ⟨_, htrees, rfl⟩, Expr.brackets_chain first others⟩

end Engine.JoinsRules

namespace Expr

/-- Two bracketings of one sequence have the same truth value, or the same error. -/
theorem Brackets.truth_eq_truth {k : Connective} (hk : k.isKnown = true) {trees : List Expr}
    {tree other : Expr} (h : Brackets k trees tree) (hother : Brackets k trees other)
    (record : Record) : tree.truth record = other.truth record := by
  rw [h.truth_eq hk, hother.truth_eq hk]

/-- **Brackets do not matter to an evaluation.** If two trees join the same sequence of trees by the
same known connective, with whatever brackets, they have the same truth value for every record, or
the same error. So let the operands of a rule be joined by `AND`, and let several rules compile to
these operands one by one. They can be combined, and the tree of the one rule, which leans to the
right, is evaluated as their tree is, which leans to the left. -/
theorem evaluate_of_brackets :
    (∀ (k : Connective) (trees : List Expr) (tree other : Expr), k.isKnown = true →
      Brackets k trees tree → Brackets k trees other → ∀ tracing record,
        (tree.evaluate tracing record).map Evaluation.result =
          (other.evaluate tracing record).map Evaluation.result) ∧
    ∀ (engine : Engine) (rule : String) (rules : List String) (chain : Chain) (tree : Expr),
      engine.JoinsRules rule rules chain → engine.compile rule = .ok tree →
      ∃ combined, engine.combine rules = .ok combined ∧ ∀ record,
        (engine.evaluate tree record).map Evaluation.result =
          (engine.evaluate combined record).map Evaluation.result := by
  refine ⟨fun k trees tree other hk h hother tracing record => ?_,
    fun engine rule rules chain tree h htree => ?_⟩
  · rw [map_result_evaluate, map_result_evaluate, h.truth_eq_truth hk hother]
  · obtain ⟨combined, hcombine, hcombined⟩ := h.exists_combine
    refine ⟨combined, hcombine, fun record => ?_⟩
    rw [Engine.evaluate, Engine.evaluate, map_result_evaluate, map_result_evaluate,
      (h.brackets_compile htree).truth_eq_truth rfl hcombined]

/-- The theorem for a rule with a group and two unknown comparators, and for its operands as rules.
The two trees differ in their brackets. -/
theorem evaluate_of_brackets_of_group :
    let rule := "a = 1 AND (b => 2 OR c = 3) AND d <> 4"
    let rules := ["a = 1", "b => 2 OR c = 3", "d <> 4"]
    ∃ tree combined, Engine.standard.compile rule = .ok tree ∧
      Engine.standard.combine rules = .ok combined ∧ tree ≠ combined ∧
      ∀ record, (Engine.standard.evaluate tree record).map Evaluation.result =
        (Engine.standard.evaluate combined record).map Evaluation.result := by
  intro rule rules
  let a : Condition := .ofTokens (.word "a") (.symbol "=") (.word "1")
  let d : Condition := .ofTokens (.word "d") (.symbol "<>") (.word "4")
  let either : Expr := .either (.condition "b" (.unknown "=>") (.number (.ofInt 2)))
    (.condition "c" .equal (.number (.ofInt 3)))
  let inner := ofString "b => 2 OR c = 3"
  let chain : Chain := .link [.word "a", .symbol "=", .word "1"] (.leaf a) (.word "AND")
    (.link (.opening :: (inner ++ [.closing])) either (.word "AND")
      (.last [.word "d", .symbol "<>", .word "4"] (.leaf d)))
  have hinner : Engine.standard.compile "b => 2 OR c = 3" = .ok either := by decide +kernel
  have hjoins : Engine.standard.JoinsRules rule rules chain := {
    isWritten := ⟨.condition (by decide), .group (by decide +kernel)
      (Dialect.writes_of_parseWithin hinner).1, .condition (by decide)⟩
    tokens_eq := by decide +kernel
    links := by simp [chain, Chain.links, text]
    operands := .cons (by decide +kernel) (.cons hinner (.cons (by decide +kernel) .nil)) }
  have htree : Engine.standard.compile rule = .ok (.both (.leaf a) (.both either (.leaf d))) := by
    decide +kernel
  have hcombine : Engine.standard.combine rules =
      .ok (.both (.both (.leaf a) either) (.leaf d)) := by decide +kernel
  obtain ⟨combined, hcombined, hrecord⟩ :=
    evaluate_of_brackets.2 Engine.standard rule rules chain _ hjoins htree
  obtain rfl := Except.ok.inj (hcombine.symm.trans hcombined)
  exact ⟨_, _, htree, hcombine, by simp [both], hrecord⟩

end Expr

end Criteria
