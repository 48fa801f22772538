/-!
# Why rule text is refused

## Main definitions

* `ParseError`: the causes, with their codes and messages.
* `ParseError.rootCause`: the cause below any wrapping.

## Main results

* `ParseError.code_rootCause`: wrapping does not change the code.
-/

namespace Criteria

/-- Why rule text, or a set of rules, has no tree. -/
inductive ParseError where
  /-- No token is left where an expression has to begin. -/
  | emptyInput
  /-- There are no rules to combine. -/
  | emptyRuleSet
  /-- An opening parenthesis is never closed. -/
  | mismatchedParentheses
  /-- Fewer than three tokens are left for a comparison. -/
  | malformedOperand (remaining : Nat)
  /-- A text stands in the place of an operator and is none. -/
  | unknownOperator (text : String)
  /-- Expressions are nested deeper than the limit. -/
  | nestingTooDeep (limit : Nat)
  /-- One rule of a set is refused. -/
  | invalidRule (rule : String) (source : ParseError)
deriving DecidableEq, Inhabited

namespace ParseError

/-- The cause below any wrapping. -/
def rootCause : ParseError → ParseError
  | .invalidRule _ source => source.rootCause
  | cause => cause

/-- The code of a cause; a wrapped one keeps its code. -/
def code : ParseError → String
  | .emptyInput => "EMPTY_INPUT"
  | .emptyRuleSet => "EMPTY_RULE_SET"
  | .mismatchedParentheses => "MISMATCHED_PARENTHESES"
  | .malformedOperand _ => "MALFORMED_OPERAND"
  | .unknownOperator _ => "UNKNOWN_OPERATOR"
  | .nestingTooDeep _ => "NESTING_TOO_DEEP"
  | .invalidRule _ source => source.code

/-- The message for a cause. -/
def message : ParseError → String
  | .emptyInput => "规则字符串为空: 未识别到任何词法单元"
  | .emptyRuleSet => "没有提供需要合并的规则"
  | .mismatchedParentheses => "括号不匹配"
  | .malformedOperand remaining =>
    "操作数不完整: 需要 属性 比较符 值 三个词法单元, 实际剩余 " ++ toString remaining ++ " 个"
  | .unknownOperator text => "无效的操作符: " ++ text
  | .nestingTooDeep limit => "表达式嵌套过深: 超过上限 " ++ toString limit
  | .invalidRule rule source => "规则 '" ++ rule ++ "' 解析失败: " ++ source.message

/-- The cause below any wrapping is not wrapped. -/
theorem rootCause_ne_invalidRule (e : ParseError) (rule : String) (source : ParseError) :
    e.rootCause ≠ .invalidRule rule source := by
  induction e with
  | invalidRule _ _ ih => exact ih
  | _ => simp [rootCause]

/-- A wrapped cause keeps its code. -/
@[simp] theorem code_rootCause (e : ParseError) : e.rootCause.code = e.code := by
  induction e with
  | invalidRule rule source ih => simpa [rootCause, code] using ih
  | _ => rfl

end ParseError

end Criteria
