import Criteria.Failure
import Criteria.Http.Message

/-!
# Problems and envelopes

Every answer in JSON is an envelope: whether the request succeeded, a code, a message and the data.
A request that did not succeed has met a problem, and there is no data.

## Main definitions

* `Problem`: why a request does not succeed, with status, code and description.
* `Problem.ofFailure`: the problem that a failure is.
* `Problem.response`, `Response.success`: envelopes.
-/

namespace Criteria

/-- Why a request does not succeed. -/
inductive Problem where
  /-- Rule text is refused. -/
  | parse (cause : ParseError)
  /-- A value is not acceptable. -/
  | invalid (reason : String)
  /-- No rule has this number. -/
  | notFound (id : Nat)
  /-- A rule has no truth value for the data. -/
  | evaluation (cause : EvalError)
  /-- The service is at fault. -/
  | internal (detail : String)
deriving DecidableEq, Inhabited

namespace Problem

/-- The status of the response. -/
def status : Problem → Nat
  | .parse _ | .invalid _ => 400
  | .notFound _ => 404
  | .evaluation _ => 422
  | .internal _ => 500

/-- The code of a problem. -/
def code : Problem → String
  | .parse cause => cause.code
  | .invalid _ => "VALIDATION_ERROR"
  | .notFound _ => "RULE_NOT_FOUND"
  | .evaluation cause => cause.code
  | .internal _ => "INTERNAL_ERROR"

/-- The description of a problem, for those who run the service. -/
def description : Problem → String
  | .parse cause => "规则解析失败: " ++ cause.message
  | .invalid reason => "参数验证失败: " ++ reason
  | .notFound id => "规则不存在: " ++ toString id
  | .evaluation cause => "规则执行失败: " ++ cause.message
  | .internal detail => "内部错误: " ++ detail

/-- The message for a problem, for those who use the service: its description, unless the service
is at fault. -/
def message : Problem → String
  | .internal _ => "服务内部错误，请稍后重试"
  | problem => problem.description

/-- The problem that a failure is. -/
def ofFailure : Failure → Problem
  | .parse cause => .parse cause
  | .evaluation cause => .evaluation cause
  | .notFound id => .notFound id
  | .invalid reason => .invalid reason
  | .unreadable => .internal "JSON 处理错误"

/-- The response to a request that meets a problem. -/
def response (problem : Problem) : Response :=
  .ofJson problem.status (.object [("success", .boolean false), ("code", .text problem.code),
    ("message", .text problem.message), ("data", .null)])

end Problem

/-- The response to a request that succeeds. -/
def Response.success (message : String) (data : Json) : Response :=
  .ofJson 200 (.object [("success", .boolean true), ("code", .text "SUCCESS"),
    ("message", .text message), ("data", data)])

end Criteria
