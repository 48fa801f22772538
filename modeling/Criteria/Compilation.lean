import Criteria.Rule.Expr.Json
import Criteria.Submission

/-!
# Compiled rules

What is told of a rule when it is compiled.

## Main definitions

* `Compilation`: a tree with its normal text and its measures.
* `Store.compile`: compiles a rule without storing it.
-/

namespace Criteria

/-- What is told of a compiled rule. -/
structure Compilation where
  tree : Expr
  /-- The text of the tree. -/
  normalized : String
  /-- The names of the fields that are read. -/
  attributes : List String
  operandCount : Nat
  depth : Nat
deriving DecidableEq, Inhabited

namespace Compilation

/-- What is told of a tree. -/
def ofExpr (e : Expr) : Compilation := ⟨e, e.render, e.attributes, e.operandCount, e.depth⟩

/-- A compilation as JSON. -/
def toJson (compilation : Compilation) : Json :=
  .object [("ast", compilation.tree.toJson), ("normalized", .text compilation.normalized),
    ("attributes", .array (compilation.attributes.map .text)),
    ("operandCount", .nat compilation.operandCount), ("depth", .nat compilation.depth)]

end Compilation

/-- Compiles a rule with the engine of a store, if its length is acceptable. -/
def Store.compile (store : Store) (rule : String) : Except Failure Compilation :=
  match Submission.ruleRefusal? rule with
  | some failure => .error failure
  | none => ((store.engine.compile rule).mapError Failure.parse).map Compilation.ofExpr

end Criteria
