import Criteria.Json.Reader
import Criteria.Rule.Dialect
import Criteria.Rule.Evaluation

/-!
# Engines

An engine reads rules in its dialect and evaluates trees, taking notes or not.

## Main definitions

* `Engine`: a dialect and whether notes are taken.
* `Engine.compile`, `Engine.combine`, `Engine.evaluate`: what it does.
* `Engine.reader`: reads an engine off a JSON text.
-/

namespace Criteria

/-- A dialect, and whether notes are taken while evaluating. -/
structure Engine where
  /-- How rules are read. -/
  dialect : Dialect
  /-- Notes are taken of every node. -/
  tracing : Bool
deriving DecidableEq, Inhabited

namespace Engine

/-- The standard dialect, without notes. -/
def standard : Engine := ⟨.standard, false⟩

/-- An engine for a dialect, without notes. -/
def ofDialect (dialect : Dialect) : Engine := ⟨dialect, false⟩

/-- The same engine, taking notes. -/
def withTrace (engine : Engine) : Engine := { engine with tracing := true }

/-- The tree of a rule. -/
def compile (engine : Engine) (rule : String) : Except ParseError Expr :=
  engine.dialect.compile rule

/-- The tree that demands every rule of a list. -/
def combine (engine : Engine) (rules : List String) : Except ParseError Expr :=
  engine.dialect.combine rules

/-- The truth value of a tree for a record. -/
def evaluate (engine : Engine) (e : Expr) (record : Record) : Except EvalError Evaluation :=
  e.evaluate engine.tracing record

end Engine

/-! ### As JSON -/

/-- An engine that is being read. -/
structure Engine.Draft where
  strict : Option Bool := none
  maxDepth : Option Nat := none
  tracing : Option Bool := none

/-- The engine of a draft; what is not given has its standard value. -/
def Engine.Draft.finish (draft : Engine.Draft) : Engine where
  dialect := {
    strict := draft.strict.getD Dialect.standard.strict
    maxDepth := draft.maxDepth.getD Dialect.standard.maxDepth }
  tracing := draft.tracing.getD Engine.standard.tracing

/-- Reads an engine. -/
def Engine.reader : Json.Reader Engine := .record {
  fields := [
    .of "strict_operators" Engine.Draft.strict (fun b d => { d with strict := some b }) .flag,
    .of "max_depth" Engine.Draft.maxDepth (fun n d => { d with maxDepth := some n })
      (.natural wordBound),
    .of "trace_enabled" Engine.Draft.tracing (fun b d => { d with tracing := some b }) .flag]
  blank := {}
  finish := fun draft => some draft.finish }

end Criteria
