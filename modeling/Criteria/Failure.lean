import Criteria.Record
import Criteria.Rule.Evaluation
import Criteria.Rule.ParseError

/-!
# Failures

What a request to store, look up or execute rules may come to instead of an answer.

## Main definitions

* `Failure`: the causes, with their codes and messages.
* `Record.read`, `Record.ofText`: records from JSON.
-/

namespace Criteria

/-- Why there is no answer. -/
inductive Failure where
  /-- Rule text is refused. -/
  | parse (cause : ParseError)
  /-- A rule has no truth value. -/
  | evaluation (cause : EvalError)
  /-- No rule has this number. -/
  | notFound (id : Nat)
  /-- A value is not acceptable. -/
  | invalid (reason : String)
  /-- A text is not JSON. -/
  | unreadable
deriving DecidableEq, Inhabited

namespace Failure

/-- The code of a failure; a refused rule and a failed evaluation keep theirs. -/
def code : Failure → String
  | .parse cause => cause.code
  | .evaluation cause => cause.code
  | .notFound _ => "RULE_NOT_FOUND"
  | .invalid _ => "VALIDATION_ERROR"
  | .unreadable => "JSON_ERROR"

/-- The message for a failure. -/
def message : Failure → String
  | .parse cause => "规则解析失败: " ++ cause.message
  | .evaluation cause => "规则执行失败: " ++ cause.message
  | .notFound id => "规则未找到: " ++ toString id
  | .invalid reason => "参数验证失败: " ++ reason
  | .unreadable => "JSON 序列化错误"

end Failure

/-- The record that a JSON value is. -/
def Record.read (value : Json) : Except Failure Record :=
  (Record.ofJson value).mapError .invalid

/-- The record that a JSON text holds. -/
def Record.ofText (s : String) : Except Failure Record :=
  match Json.Reader.run .value s with
  | .error _ => .error .unreadable
  | .ok value => Record.read value

end Criteria
