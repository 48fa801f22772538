import Criteria.Proofs.Grammar
import Criteria.Proofs.TreeStatistics
import Criteria.Rule.Engine

/-!
# The limit on nested expressions

The parser refuses to begin an expression when no more may be nested, whatever the tokens are. A
computation under such a limit *settles* if there is a threshold below which it is refused for its
depth and from which on it has one and the same result. Computations that do not look at the limit
settle at once, computations in a row settle at the larger threshold, and one that stands an
expression deeper settles one level later. So the parser settles on all tokens, and since each
group and each link of a chain takes two tokens at least, it does so at half their number.

## Main definitions

* `Settles`: below a threshold a computation is refused for its depth, and then no more.
* `SettlesWithin`: a computation settles at a threshold within a bound.

## Main results

* `SettlesWithin.bind`, `SettlesWithin.deeper`: how computations settle that are made of others.
* `Dialect.settlesWithin_parseWithin`: the parser settles.
* `Dialect.depth_le_of_parseWithin`: trees are not deeper than the limit.
* `Dialect.limit_only_cuts_off`: the limit does not change the results that it admits.
-/

namespace Criteria

variable {α β : Type}

/-- Below a threshold a computation is refused for its depth, whatever limit is named, and from the
threshold on it has one result, which is not refused for its depth. The computation is given the
limit and the number of expressions that may still be nested. -/
structure Settles (f : Nat → Nat → Except ParseError α) (threshold : Nat)
    (result : Except ParseError α) : Prop where
  below {limit depth : Nat} (h : depth < threshold) : f limit depth = .error (.nestingTooDeep limit)
  above {limit depth : Nat} (h : threshold ≤ depth) : f limit depth = result
  ne_nestingTooDeep (limit : Nat) : result ≠ .error (.nestingTooDeep limit)

/-- A computation settles at a threshold within a bound. -/
def SettlesWithin (bound : Nat) (f : Nat → Nat → Except ParseError α) : Prop :=
  ∃ threshold ≤ bound, ∃ result, Settles f threshold result

namespace Settles

variable {f : Nat → Nat → Except ParseError α} {g : α → Nat → Nat → Except ParseError β}

/-- What follows a failure does not matter. -/
theorem bind_error {threshold : Nat} {cause : ParseError}
    (h : Settles f threshold (.error cause)) :
    Settles (fun limit depth => f limit depth >>= fun a => g a limit depth) threshold
      (.error cause) where
  below hdepth := by
    rw [h.below hdepth]
    rfl
  above hdepth := by
    rw [h.above hdepth]
    rfl
  ne_nestingTooDeep limit hcause := by
    obtain rfl := Except.error.inj hcause
    exact h.ne_nestingTooDeep limit rfl

/-- A computation and what follows it settle at the larger of their thresholds. -/
theorem bind_ok {threshold next : Nat} {a : α} {result : Except ParseError β}
    (h : Settles f threshold (.ok a)) (hg : Settles (g a) next result) :
    Settles (fun limit depth => f limit depth >>= fun a => g a limit depth) (max threshold next)
      result where
  below {limit depth} hdepth := by
    rcases Nat.lt_or_ge depth threshold with hbelow | habove
    · rw [h.below hbelow]
      rfl
    · rw [h.above habove]
      exact hg.below (by omega)
  above hdepth := by
    rw [h.above (by omega)]
    exact hg.above (by omega)
  ne_nestingTooDeep := hg.ne_nestingTooDeep

end Settles

namespace SettlesWithin

variable {bound next : Nat} {f : Nat → Nat → Except ParseError α}

theorem mono (h : SettlesWithin bound f) (hle : bound ≤ next) : SettlesWithin next f := by
  obtain ⟨threshold, hthreshold, hresult⟩ := h
  exact ⟨threshold, hthreshold.trans hle, hresult⟩

/-- What does not look at the limit settles at once. -/
theorem const {result : Except ParseError α} (hf : ∀ limit depth, f limit depth = result)
    (hresult : ∀ limit, result ≠ .error (.nestingTooDeep limit)) : SettlesWithin 0 f :=
  ⟨0, Nat.le_refl 0, result, fun h => absurd h (Nat.not_lt_zero _), fun _ => hf _ _, hresult⟩

/-- Computations in a row settle within the larger of their bounds. -/
theorem bind {g : α → Nat → Nat → Except ParseError β} (h : SettlesWithin bound f)
    (hg : ∀ a, SettlesWithin next (g a)) :
    SettlesWithin (max bound next) fun limit depth =>
      f limit depth >>= fun a => g a limit depth := by
  obtain ⟨threshold, hthreshold, result, hf⟩ := h
  cases result with
  | error cause => exact ⟨threshold, by omega, .error cause, hf.bind_error⟩
  | ok a =>
    obtain ⟨threshold', hthreshold', result, hga⟩ := hg a
    exact ⟨max threshold threshold', by omega, result, hf.bind_ok hga⟩

/-- A computation that stands an expression deeper settles one level later. -/
theorem deeper {g : Nat → Nat → Except ParseError α} (h : SettlesWithin bound f)
    (hzero : ∀ limit, g limit 0 = .error (.nestingTooDeep limit))
    (hsucc : ∀ limit depth, g limit (depth + 1) = f limit depth) : SettlesWithin (bound + 1) g := by
  obtain ⟨threshold, hthreshold, result, hf⟩ := h
  refine ⟨threshold + 1, by omega, result, ?_, ?_, hf.ne_nestingTooDeep⟩
  · intro limit depth hdepth
    cases depth with
    | zero => exact hzero limit
    | succ depth =>
      rw [hsucc]
      exact hf.below (by omega)
  · intro limit depth hdepth
    obtain ⟨depth, rfl⟩ := Nat.exists_eq_succ_of_ne_zero (n := depth) (by omega)
    rw [hsucc]
    exact hf.above (by omega)

end SettlesWithin

namespace Dialect

/-! ### The parser settles -/

variable (strict : Bool)

theorem settlesWithin_operand (field comparator value : Token) :
    SettlesWithin 0 fun limit _ => (Dialect.mk strict limit).operand field comparator value := by
  have hsame (limit _depth : Nat) : (Dialect.mk strict limit).operand field comparator value =
      (Dialect.mk strict 0).operand field comparator value := rfl
  refine .const hsame fun limit h => ?_
  obtain ⟨hcause, -⟩ := operand_eq_error_iff.1 h
  cases hcause

theorem settlesWithin_connective (token : Token) :
    SettlesWithin 0 fun limit _ => (Dialect.mk strict limit).connective token := by
  have hsame (limit _depth : Nat) : (Dialect.mk strict limit).connective token =
      (Dialect.mk strict 0).connective token := rfl
  refine .const hsame fun limit h => ?_
  obtain ⟨hcause, -⟩ := connective_eq_error_iff.1 h
  cases hcause

/-- An inner node settles when both its subtrees do. -/
theorem settlesWithin_node {bound next : Nat} {left right : Nat → Nat → Except ParseError Expr}
    (hleft : SettlesWithin bound left) (hright : SettlesWithin next right) (link : Token) :
    SettlesWithin (max bound next) fun limit depth => (do
      let left ← left limit depth
      let connective ← (Dialect.mk strict limit).connective link
      return Expr.node connective left (← right limit depth)) := by
  have hnode (k : Connective) (e e' : Expr) :
      SettlesWithin 0 fun _ _ => (pure (Expr.node k e e') : Except ParseError Expr) :=
    .const (fun _ _ => rfl) (by simp [pure, Except.pure])
  have hrest (e : Expr) := (settlesWithin_connective strict link).bind fun k =>
    hright.bind fun e' => hnode k e e'
  exact (hleft.bind hrest).mono (by omega)

/-- The parser settles on all tokens, within half their number. -/
theorem settlesWithin_parseWithin (tokens : List Token) :
    SettlesWithin (1 + tokens.length / 2)
      fun limit depth => (Dialect.mk strict limit).parseWithin depth tokens := by
  -- tokens that are refused at once, whatever the limit, if it is not zero
  have hconst {tokens : List Token} {cause : ParseError}
      (hparse : ∀ limit depth,
        (Dialect.mk strict limit).parseWithin (depth + 1) tokens = .error cause)
      (hcause : ∀ limit, cause ≠ .nestingTooDeep limit) :
      SettlesWithin 1 fun limit depth => (Dialect.mk strict limit).parseWithin depth tokens :=
    (SettlesWithin.const (fun _ _ => rfl) fun limit h => hcause limit (Except.error.inj h)).deeper
      (fun _ => parseWithin_zero tokens) hparse
  induction hlength : tokens.length using Nat.strong_induction_on generalizing tokens with
  | _ n ih =>
    subst hlength
    cases form tokens with
    | empty => exact (hconst (fun _ _ => parseWithin_nil _) (by simp)).mono (by omega)
    | unclosed hnone =>
      exact (hconst (fun _ _ => parseWithin_unclosed _ hnone) (by simp)).mono (by omega)
    | short hfield hrest =>
      exact (hconst (fun _ _ => parseWithin_short hfield _ hrest) (by simp)).mono (by omega)
    | leaf hfield =>
      exact ((settlesWithin_operand strict _ _ _).deeper (fun _ => parseWithin_zero _)
        fun _ _ => parseWithin_leaf hfield _ _ _).mono (by omega)
    | @group inner hinner =>
      simp only [List.length_cons, List.length_append, List.length_nil] at ih ⊢
      exact ((ih inner.length (by omega) inner rfl).deeper (fun _ => parseWithin_zero _)
        fun _ _ => parseWithin_group hinner _).mono (by omega)
    | @link field comparator value connective rest hfield =>
      simp only [List.length_cons] at ih ⊢
      have hleft := settlesWithin_operand strict field comparator value
      have hrest := ih rest.length (by omega) rest rfl
      exact ((settlesWithin_node strict hleft hrest connective).deeper
        (fun _ => parseWithin_zero _) fun _ _ => parseWithin_link hfield _ _ _ _ _).mono (by omega)
    | @groupLink inner connective rest hinner =>
      simp only [List.length_cons, List.length_append] at ih ⊢
      have hleft := ih inner.length (by omega) inner rfl
      have hrest := ih rest.length (by omega) rest rfl
      exact ((settlesWithin_node strict hleft hrest connective).deeper
        (fun _ => parseWithin_zero _) fun _ _ => parseWithin_groupLink hinner _ _ _).mono (by omega)

/-! ### Trees within the limit -/

variable {dialect : Dialect}

/-- What is parsed is no deeper than expressions may be nested. -/
theorem depth_le_of_parseWithin {depth : Nat} {tokens : List Token} {tree : Expr}
    (h : dialect.parseWithin depth tokens = .ok tree) : tree.depth ≤ depth := by
  induction depth generalizing tokens tree with
  | zero =>
    rw [parseWithin_zero] at h
    cases h
  | succ depth ih =>
    cases form tokens with
    | empty =>
      rw [parseWithin_nil] at h
      cases h
    | unclosed hnone =>
      rw [parseWithin_unclosed depth hnone] at h
      cases h
    | short hfield hrest =>
      rw [parseWithin_short hfield depth hrest] at h
      cases h
    | leaf hfield =>
      rw [parseWithin_leaf hfield, operand_eq_ok_iff] at h
      obtain ⟨rfl, -⟩ := h
      rw [Expr.depth_leaf]
      omega
    | group hinner =>
      rw [parseWithin_group hinner] at h
      exact (ih h).trans (Nat.le_succ depth)
    | link hfield =>
      rw [parseWithin_link hfield] at h
      simp only [bind_eq_ok_iff, operand_eq_ok_iff] at h
      obtain ⟨left, ⟨rfl, -⟩, k, -, right, hright, h⟩ := h
      obtain rfl := Except.ok.inj h
      have hle := ih hright
      have := right.depth_pos
      rw [Expr.depth_node, Expr.depth_leaf]
      omega
    | groupLink hinner =>
      rw [parseWithin_groupLink hinner] at h
      simp only [bind_eq_ok_iff] at h
      obtain ⟨left, hleft, k, -, right, hright, h⟩ := h
      obtain rfl := Except.ok.inj h
      have hleft := ih hleft
      have hright := ih hright
      rw [Expr.depth_node]
      omega

/-- **The limit on nested expressions only cuts off.** For all tokens there is a threshold, at most
half their number and one, below which every limit refuses them for their depth, and from which on
every limit gives one and the same result, which is not refused for its depth. A tree is no deeper
than the threshold, and no engine compiles a tree that is deeper than its limit. -/
theorem limit_only_cuts_off :
    (∀ (strict : Bool) (tokens : List Token), ∃ threshold result,
      1 ≤ threshold ∧ threshold ≤ 1 + tokens.length / 2 ∧
      (∀ maxDepth < threshold,
        (Dialect.mk strict maxDepth).parse tokens = .error (.nestingTooDeep maxDepth)) ∧
      (∀ maxDepth, threshold ≤ maxDepth → (Dialect.mk strict maxDepth).parse tokens = result) ∧
      (∀ limit, result ≠ .error (.nestingTooDeep limit)) ∧
      ∀ tree, result = .ok tree → tree.depth ≤ threshold) ∧
    ∀ (engine : Engine) (rule : String) (tree : Expr),
      engine.compile rule = .ok tree → tree.depth ≤ engine.dialect.maxDepth := by
  refine ⟨fun strict tokens => ?_, fun engine rule tree h => depth_le_of_parseWithin h⟩
  obtain ⟨threshold, hle, result, hsettles⟩ := settlesWithin_parseWithin strict tokens
  refine ⟨threshold, result, ?_, hle, fun maxDepth h => hsettles.below h,
    fun maxDepth h => hsettles.above h, hsettles.ne_nestingTooDeep, ?_⟩
  · -- at depth zero the parser is refused
    by_contra hzero
    have habove : (Dialect.mk strict 0).parseWithin 0 tokens = result :=
      hsettles.above (by omega)
    exact hsettles.ne_nestingTooDeep 0 (habove.symm.trans (parseWithin_zero tokens))
  · rintro tree rfl
    have hparse : (Dialect.mk strict 0).parseWithin threshold tokens = .ok tree :=
      hsettles.above (Nat.le_refl threshold)
    exact depth_le_of_parseWithin hparse

-- the group and the chain in it need three levels, though the tree has two
example : (Dialect.mk false 2).parse (Token.ofString "(a = 1 OR b = 2)") =
    .error (.nestingTooDeep 2) := by decide +kernel

end Dialect

end Criteria
