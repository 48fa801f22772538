import Criteria.Proofs.Balance
import Criteria.Proofs.FirstFailure

/-!
# The grammar of rules

What the parser accepts, as a relation between tokens and trees. A condition is three tokens, the
first one no opening parenthesis; a group is balanced tokens in parentheses; behind either of them
there may be a connective and a further expression. The tokens in the places of an operator or of
a value may be of any kind, parentheses included.

## Main definitions

* `Condition.ofTokens`: the comparison that three tokens make.
* `Writes`: tokens write a tree.
* `Form`: the forms that tokens may have where an expression begins.
* `Expr.Throughout`: a property of all conditions and connectives of a tree.

## Main results

* `Dialect.parseWithin_link`, `Dialect.parseWithin_group`, `Dialect.parseWithin_groupLink`: one
  step of the parser.
* `form`: there are no other forms.
* `Dialect.writes_of_parseWithin`: what is parsed is written, with known operators only if the
  dialect is strict.
-/

namespace Criteria

open Token

/-- The comparison that three tokens make by their places. -/
def Condition.ofTokens (field comparator value : Token) : Condition :=
  ⟨field.text, .ofText comparator.text, .ofToken value⟩

/-- Tokens write a tree. -/
inductive Writes : List Token → Expr → Prop
  /-- Three tokens are a condition. -/
  | leaf {field comparator value : Token} (hfield : field ≠ .opening) :
      Writes [field, comparator, value] (.leaf (.ofTokens field comparator value))
  /-- A group stands for what is in it. -/
  | group {inner : List Token} {tree : Expr} (hinner : IsBalanced inner)
      (h : Writes inner tree) : Writes (.opening :: (inner ++ [.closing])) tree
  /-- A condition, a connective and what follows. -/
  | link {field comparator value connective : Token} {rest : List Token} {right : Expr}
      (hfield : field ≠ .opening) (h : Writes rest right) :
      Writes (field :: comparator :: value :: connective :: rest)
        (.node (.ofText connective.text) (.leaf (.ofTokens field comparator value)) right)
  /-- A group, a connective and what follows. -/
  | groupLink {inner rest : List Token} {connective : Token} {left right : Expr}
      (hinner : IsBalanced inner) (hleft : Writes inner left) (hright : Writes rest right) :
      Writes (.opening :: (inner ++ .closing :: connective :: rest))
        (.node (.ofText connective.text) left right)

/-- What begins with an opening parenthesis is a group, alone or with more behind it. -/
theorem Writes.of_opening {tokens : List Token} {tree : Expr}
    (h : Writes (.opening :: tokens) tree) :
    (∃ inner, tokens = inner ++ [.closing] ∧ IsBalanced inner ∧ Writes inner tree) ∨
      ∃ inner connective rest left right, tokens = inner ++ .closing :: connective :: rest ∧
        tree = .node (.ofText connective.text) left right ∧ IsBalanced inner ∧
        Writes inner left ∧ Writes rest right := by
  cases h with
  | leaf hfield => exact absurd rfl hfield
  | link hfield => exact absurd rfl hfield
  | group hinner h => exact Or.inl ⟨_, rfl, hinner, h⟩
  | groupLink hinner hleft hright =>
    exact Or.inr ⟨_, _, _, _, _, rfl, rfl, hinner, hleft, hright⟩

/-- What begins with another token is a condition, alone or with more behind it. -/
theorem Writes.of_field {field : Token} (hfield : field ≠ .opening) {tokens : List Token}
    {tree : Expr} (h : Writes (field :: tokens) tree) :
    (∃ comparator value, tokens = [comparator, value] ∧
        tree = .leaf (.ofTokens field comparator value)) ∨
      ∃ comparator value connective rest right, tokens = comparator :: value :: connective :: rest ∧
        tree = .node (.ofText connective.text) (.leaf (.ofTokens field comparator value)) right ∧
        Writes rest right := by
  cases h with
  | leaf _ => exact Or.inl ⟨_, _, rfl, rfl⟩
  | link _ h => exact Or.inr ⟨_, _, _, _, _, rfl, rfl, h⟩
  | group _ _ => exact absurd rfl hfield
  | groupLink _ _ _ => exact absurd rfl hfield

/-- No tree is written by fewer than three tokens. -/
theorem Writes.three_le_length {tokens : List Token} {tree : Expr} (h : Writes tokens tree) :
    3 ≤ tokens.length := by
  induction h with
  | leaf => exact Nat.le_refl 3
  | group _ _ ih => simp only [List.length_cons, List.length_append]; omega
  | link _ _ ih => simp only [List.length_cons]; omega
  | groupLink _ _ _ ihleft ihright =>
    simp only [List.length_cons, List.length_append]
    omega

/-- The forms that tokens may have where an expression has to begin. -/
inductive Form : List Token → Prop
  | empty : Form []
  | unclosed {rest : List Token} (h : closingIndex? (.opening :: rest) = none) :
      Form (.opening :: rest)
  | group {inner : List Token} (hinner : IsBalanced inner) :
      Form (.opening :: (inner ++ [.closing]))
  | groupLink {inner : List Token} {connective : Token} {rest : List Token}
      (hinner : IsBalanced inner) : Form (.opening :: (inner ++ .closing :: connective :: rest))
  | short {field : Token} {rest : List Token} (hfield : field ≠ .opening)
      (hrest : rest.length < 2) : Form (field :: rest)
  | leaf {field comparator value : Token} (hfield : field ≠ .opening) :
      Form [field, comparator, value]
  | link {field comparator value connective : Token} {rest : List Token}
      (hfield : field ≠ .opening) : Form (field :: comparator :: value :: connective :: rest)

/-- All tokens have one of the forms. -/
theorem form (tokens : List Token) : Form tokens := by
  cases tokens with
  | nil => exact .empty
  | cons first tokens =>
    by_cases hfirst : first = .opening
    · subst hfirst
      cases h : closingIndex? (.opening :: tokens) with
      | none => exact .unclosed h
      | some i =>
        obtain ⟨inner, rest, rfl, hinner, -⟩ := (closingIndex?_eq_some_iff tokens i).1 h
        cases rest with
        | nil => exact .group hinner
        | cons connective rest => exact .groupLink hinner
    · match tokens with
      | [] => exact .short hfirst (by simp)
      | [_] => exact .short hfirst (by simp)
      | [_, _] => exact .leaf hfirst
      | _ :: _ :: _ :: _ => exact .link hfirst

/-- All conditions of a tree have a property, and all its connectives another one. -/
def Expr.Throughout (p : Condition → Prop) (q : Connective → Prop) : Expr → Prop
  | .leaf c => p c
  | .node k left right => q k ∧ left.Throughout p q ∧ right.Throughout p q

instance Expr.decidableThroughout (p : Condition → Prop) (q : Connective → Prop)
    [DecidablePred p] [DecidablePred q] : (e : Expr) → Decidable (e.Throughout p q)
  | .leaf c => inferInstanceAs (Decidable (p c))
  | .node k left right =>
    have := decidableThroughout p q left
    have := decidableThroughout p q right
    inferInstanceAs (Decidable (q k ∧ _ ∧ _))

theorem Expr.Throughout.imp {p p' : Condition → Prop} {q q' : Connective → Prop} {e : Expr}
    (h : e.Throughout p q) (hp : ∀ c, p c → p' c) (hq : ∀ k, q k → q' k) :
    e.Throughout p' q' := by
  induction e with
  | leaf c => exact hp c h
  | node k left right ihl ihr => exact ⟨hq k h.1, ihl h.2.1, ihr h.2.2⟩

namespace Dialect

variable {dialect : Dialect}

/-! ### One step of the parser -/

theorem operand_eq_ok_iff {field comparator value : Token} {tree : Expr} :
    dialect.operand field comparator value = .ok tree ↔
      .leaf (.ofTokens field comparator value) = tree ∧
        (dialect.strict = true → (Comparator.ofText comparator.text).isKnown = true) := by
  simp only [operand, Dialect.comparator]
  split <;> simp_all [bind, Except.bind, pure, Except.pure, Expr.condition, Condition.ofTokens]

theorem connective_eq_ok_iff {token : Token} {k : Connective} :
    dialect.connective token = .ok k ↔
      .ofText token.text = k ∧
        (dialect.strict = true → (Connective.ofText token.text).isKnown = true) := by
  simp only [connective]
  split <;> simp_all

/-- Three tokens are refused for an unknown comparator only. -/
theorem operand_eq_error_iff {field comparator value : Token} {cause : ParseError} :
    dialect.operand field comparator value = .error cause ↔
      .unknownOperator comparator.text = cause ∧ dialect.strict = true ∧
        (Comparator.ofText comparator.text).isKnown = false := by
  simp only [operand, Dialect.comparator, Comparator.text_ofText]
  split <;> simp_all [bind, Except.bind, pure, Except.pure]

/-- A token in the place of a connective is refused if it is none. -/
theorem connective_eq_error_iff {token : Token} {cause : ParseError} :
    dialect.connective token = .error cause ↔
      .unknownOperator token.text = cause ∧ dialect.strict = true ∧
        (Connective.ofText token.text).isKnown = false := by
  simp only [connective, Connective.text_ofText]
  split <;> simp_all

/-- Any three tokens are a comparison unless operators are checked. -/
theorem operand_of_lenient (hlenient : dialect.strict = false) (field comparator value : Token) :
    dialect.operand field comparator value = .ok (.leaf (.ofTokens field comparator value)) :=
  operand_eq_ok_iff.2 ⟨rfl, by simp [hlenient]⟩

/-- Any token is a connective unless operators are checked. -/
theorem connective_of_lenient (hlenient : dialect.strict = false) (token : Token) :
    dialect.connective token = .ok (.ofText token.text) :=
  connective_eq_ok_iff.2 ⟨rfl, by simp [hlenient]⟩

theorem parseWithin_zero (tokens : List Token) :
    dialect.parseWithin 0 tokens = .error (.nestingTooDeep dialect.maxDepth) := by
  rw [parseWithin]

theorem parseWithin_leaf {field : Token} (hfield : field ≠ .opening) (depth : Nat)
    (comparator value : Token) :
    dialect.parseWithin (depth + 1) [field, comparator, value] =
      dialect.operand field comparator value := by
  rw [parseWithin]
  simpa using hfield

theorem parseWithin_link {field : Token} (hfield : field ≠ .opening) (depth : Nat)
    (comparator value link : Token) (rest : List Token) :
    dialect.parseWithin (depth + 1) (field :: comparator :: value :: link :: rest) = (do
      let left ← dialect.operand field comparator value
      let connective ← dialect.connective link
      return .node connective left (← dialect.parseWithin depth rest)) := by
  rw [parseWithin]
  simpa using hfield

theorem parseWithin_group {inner : List Token} (hinner : IsBalanced inner) (depth : Nat) :
    dialect.parseWithin (depth + 1) (.opening :: (inner ++ [.closing])) =
      dialect.parseWithin depth inner := by
  rw [parseWithin, closingIndex?_group hinner]
  simp

theorem parseWithin_groupLink {inner : List Token} (hinner : IsBalanced inner) (depth : Nat)
    (link : Token) (rest : List Token) :
    dialect.parseWithin (depth + 1) (.opening :: (inner ++ .closing :: link :: rest)) = (do
      let left ← dialect.parseWithin depth inner
      let connective ← dialect.connective link
      return .node connective left (← dialect.parseWithin depth rest)) := by
  rw [parseWithin, closingIndex?_group hinner]
  simp

theorem parseWithin_nil (depth : Nat) :
    dialect.parseWithin (depth + 1) [] = .error .emptyInput := by
  rw [parseWithin]

/-- A group that is never closed is refused. -/
theorem parseWithin_unclosed {tokens : List Token} (depth : Nat)
    (h : closingIndex? (.opening :: tokens) = none) :
    dialect.parseWithin (depth + 1) (.opening :: tokens) = .error .mismatchedParentheses := by
  rw [parseWithin, h]

/-- One or two tokens are refused, unless a group begins with them. -/
theorem parseWithin_short {field : Token} (hfield : field ≠ .opening) (depth : Nat)
    {rest : List Token} (hrest : rest.length < 2) :
    dialect.parseWithin (depth + 1) (field :: rest) =
      .error (.malformedOperand (rest.length + 1)) := by
  match rest, hrest with
  | [], _ => rw [parseWithin] <;> simp [hfield]
  | [_], _ => rw [parseWithin] <;> simp [hfield]

/-! ### What is parsed is written -/

/-- Whatever is parsed is written by the tokens, and a strict dialect knows all its operators. -/
theorem writes_of_parseWithin {depth : Nat} {tokens : List Token} {tree : Expr}
    (h : dialect.parseWithin depth tokens = .ok tree) :
    Writes tokens tree ∧
      (dialect.strict = true →
        tree.Throughout (fun c => c.comparator.isKnown = true) (fun k => k.isKnown = true)) := by
  induction depth generalizing tokens tree with
  | zero =>
    rw [parseWithin_zero] at h
    cases h
  | succ depth ih =>
    cases form tokens with
    | empty =>
      rw [parseWithin_nil] at h
      cases h
    | unclosed hnone =>
      rw [parseWithin_unclosed depth hnone] at h
      cases h
    | short hfield hrest =>
      rw [parseWithin_short hfield depth hrest] at h
      cases h
    | leaf hfield =>
      rw [parseWithin_leaf hfield, operand_eq_ok_iff] at h
      obtain ⟨rfl, hknown⟩ := h
      exact ⟨.leaf hfield, hknown⟩
    | group hinner =>
      rw [parseWithin_group hinner] at h
      exact ⟨.group hinner (ih h).1, (ih h).2⟩
    | link hfield =>
      rw [parseWithin_link hfield] at h
      simp only [bind_eq_ok_iff, operand_eq_ok_iff, connective_eq_ok_iff] at h
      obtain ⟨left, ⟨rfl, hleft⟩, k, ⟨rfl, hk⟩, right, hright, h⟩ := h
      obtain rfl := Except.ok.inj h
      exact ⟨.link hfield (ih hright).1, fun hstrict =>
        ⟨hk hstrict, hleft hstrict, (ih hright).2 hstrict⟩⟩
    | groupLink hinner =>
      rw [parseWithin_groupLink hinner] at h
      simp only [bind_eq_ok_iff, connective_eq_ok_iff] at h
      obtain ⟨left, hleft, k, ⟨rfl, hk⟩, right, hright, h⟩ := h
      obtain rfl := Except.ok.inj h
      exact ⟨.groupLink hinner (ih hleft).1 (ih hright).1, fun hstrict =>
        ⟨hk hstrict, (ih hleft).2 hstrict, (ih hright).2 hstrict⟩⟩

end Dialect

end Criteria
