import Criteria.Proofs.Bracketing
import Criteria.Rule.Engine

/-!
# Combining rules

The rules of a set are compiled one after another, and their trees are joined to a chain that
leans to the left. The chain has a truth value just if all its trees have one, and then it is
their conjunction; otherwise its error is that of the first tree without a truth value.

## Main definitions

* `Expr.chain`: the chain of several trees.

## Main results

* `Dialect.combine_cons`: the tree of a set of rules is the chain of their trees.
* `Dialect.combine_eq_ok_iff`, `Dialect.combine_eq_error_iff`: when rules can be combined.
* `Expr.brackets_chain`: a chain is a bracketing of its trees.
* `Expr.truth_chain`: the truth value of a chain.
-/

namespace Criteria

namespace Expr

/-- The tree that demands several trees, leaning to the left. -/
def chain : List Expr → Expr
  | [] => default
  | first :: others => others.foldl both first

/-- The first two trees of a chain are joined first. -/
theorem chain_cons_cons (first second : Expr) (others : List Expr) :
    chain (first :: second :: others) = chain (both first second :: others) := rfl

/-- Trees that are joined one by one are a bracketing of what was joined before and of them. -/
theorem Brackets.foldl_both {front : List Expr} {tree : Expr} (h : Brackets .and front tree)
    (others : List Expr) : Brackets .and (front ++ others) (others.foldl both tree) := by
  induction others generalizing front tree with
  | nil => rwa [List.append_nil]
  | cons second others ih =>
    have hboth : Brackets .and (front ++ [second]) (both tree second) := h.join (.single second)
    simpa using ih hboth

/-- A chain is the bracketing of its trees that leans to the left. -/
theorem brackets_chain (first : Expr) (others : List Expr) :
    Brackets .and (first :: others) (chain (first :: others)) :=
  (Brackets.single first).foldl_both others

/-- The truth value of a chain is the conjunction of those of its trees, which are found one after
another. -/
theorem truth_chain (record : Record) (first : Expr) (others : List Expr) :
    (chain (first :: others)).truth record =
      ((first :: others).mapM (truth record)).map fun values => values.all id :=
  (brackets_chain first others).truth_eq rfl record

end Expr

namespace Dialect

variable (dialect : Dialect)

private theorem foldlM_compileNamed (rules : List String) (first : Expr) :
    rules.foldlM (fun tree rule => return .both tree (← dialect.compileNamed rule)) first =
      (rules.mapM dialect.compileNamed).map fun others => Expr.chain (first :: others) := by
  induction rules generalizing first with
  | nil => rfl
  | cons rule rules ih =>
    rw [List.foldlM_cons, List.mapM_cons]
    cases dialect.compileNamed rule with
    | error cause => rfl
    | ok second =>
      refine (ih (.both first second)).trans ?_
      cases rules.mapM dialect.compileNamed with
    | error cause => rfl
    | ok others => rfl

/-- The tree of a set of rules is the chain of the trees of the rules. -/
theorem combine_cons (rule : String) (rules : List String) :
    dialect.combine (rule :: rules) =
      ((rule :: rules).mapM dialect.compileNamed).map Expr.chain := by
  rw [combine, List.mapM_cons]
  cases dialect.compileNamed rule with
  | error cause => rfl
  | ok first =>
    refine (foldlM_compileNamed dialect rules first).trans ?_
    cases rules.mapM dialect.compileNamed with
    | error cause => rfl
    | ok others => rfl

variable {dialect} {rule : String} {rules : List String}

theorem compileNamed_eq_ok_iff {tree : Expr} :
    dialect.compileNamed rule = .ok tree ↔ dialect.compile rule = .ok tree :=
  mapError_eq_ok_iff

theorem compileNamed_eq_error_iff {cause : ParseError} :
    dialect.compileNamed rule = .error cause ↔
      ∃ source, dialect.compile rule = .error source ∧ .invalidRule rule source = cause :=
  mapError_eq_error_iff

/-- Rules are combined if each of them compiles, to the chain of their trees. -/
theorem combine_eq_ok_iff (hne : rules ≠ []) {tree : Expr} :
    dialect.combine rules = .ok tree ↔
      ∃ trees, List.Forall₂ (fun rule tree => dialect.compile rule = .ok tree) rules trees ∧
        Expr.chain trees = tree := by
  obtain ⟨rule, others, rfl⟩ := List.exists_cons_of_ne_nil hne
  simp only [combine_cons, map_eq_ok_iff, mapM_eq_ok_iff, compileNamed_eq_ok_iff]

/-- Rules are not combined if one of them does not compile; the first one of these is named. -/
theorem combine_eq_error_iff (hne : rules ≠ []) {cause : ParseError} :
    dialect.combine rules = .error cause ↔
      ∃ rule, IsFirst (fun r => ∀ tree, dialect.compile r ≠ .ok tree) rules rule ∧
        ∃ source, dialect.compile rule = .error source ∧ .invalidRule rule source = cause := by
  obtain ⟨rule, others, rfl⟩ := List.exists_cons_of_ne_nil hne
  simp only [combine_cons, map_eq_error_iff, mapM_eq_error_iff, ne_eq, compileNamed_eq_ok_iff,
    compileNamed_eq_error_iff]

end Dialect

end Criteria
