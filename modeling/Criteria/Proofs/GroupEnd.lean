import Criteria.Proofs.Balance
import Mathlib.Order.Bounds.Basic

/-!
# Where a group ends

The search for the end of a group keeps the number of open groups, which each token changes by its
weight, and ends where none is left open. As one is open to begin with and a token closes at most
one, this is the first place up to which as many groups are closed as opened. If there is no such
place, groups are open wherever the tokens are cut.

## Main definitions

* `ClosesUpTo`: a place up to which as many groups are closed as opened.

## Main results

* `closingIndex?_eq_none_iff`: which groups are never closed.
* `closingIndex?_eq_some_iff_isLeast`: the end of a group as a least place.
-/

namespace Criteria

open Token

/-- The search finds no end just if groups stay open. -/
theorem closingFrom_eq_none_iff (index : Nat) {opened : Nat} (hopened : 0 < opened)
    (tokens : List Token) :
    closingFrom index opened tokens = none ↔ StaysOpen opened tokens := by
  induction tokens generalizing index opened with
  | nil => simp [closingFrom, staysOpen_nil_iff, hopened]
  | cons token tokens ih =>
    have hweight := neg_one_le_weight token
    rw [closingFrom_cons index hopened, staysOpen_cons_iff]
    by_cases hzero : opened + token.weight = 0
    · rw [if_pos hzero, hzero]
      have hclosed : ¬ StaysOpen 0 tokens := fun h => absurd h.opened_pos (by decide)
      simp [hclosed]
    · rw [if_neg hzero, ih (index + 1) (by omega), Int.toNat_of_nonneg (by omega)]
      exact (and_iff_right (by omega)).symm

/-- A group is never closed just if more groups are opened than closed wherever the tokens are cut
behind its parenthesis. -/
theorem closingIndex?_eq_none_iff (tokens : List Token) :
    closingIndex? (.opening :: tokens) = none ↔
      ∀ front, front <+: .opening :: tokens → front ≠ [] → 0 < excess front := by
  rw [closingIndex?, List.drop_succ_cons, List.drop_zero, closingFrom_eq_none_iff 1 Nat.one_pos]
  constructor
  · intro h front hfront hne
    rcases List.prefix_cons_iff.1 hfront with rfl | ⟨front, rfl, htail⟩
    · exact absurd rfl hne
    · exact h front htail
  · intro h front hfront
    exact h (.opening :: front) ((List.prefix_cons_inj _).2 hfront) (by simp)

/-- At a place of a list as many groups are closed as opened, up to the token there. -/
def ClosesUpTo (tokens : List Token) (i : Nat) : Prop :=
  i < tokens.length ∧ (tokens.take (i + 1)).count .opening = (tokens.take (i + 1)).count .closing

theorem closesUpTo_iff {tokens : List Token} {i : Nat} :
    ClosesUpTo tokens i ↔ i < tokens.length ∧ excess (tokens.take (i + 1)) = 0 := by
  rw [ClosesUpTo, excess_eq_count]
  omega

/-- The end of a group is the least place up to which as many groups are closed as opened. -/
theorem isLeast_of_group {inner : List Token} (h : IsBalanced inner) (rest : List Token) :
    IsLeast {i | ClosesUpTo (.opening :: (inner ++ .closing :: rest)) i} (inner.length + 1) := by
  refine ⟨closesUpTo_iff.2 ⟨by simp, ?_⟩, fun j hj => ?_⟩
  · have htake : (Token.opening :: (inner ++ .closing :: rest)).take (inner.length + 2) =
        .opening :: (inner ++ [.closing]) := by simp [List.take_append]
    rw [htake, excess_group, h.total]
  · -- in front of its end, the group itself is open
    by_contra hlt
    have htake : (Token.opening :: (inner ++ .closing :: rest)).take (j + 1) =
        .opening :: inner.take j := by
      rw [List.take_succ_cons, List.take_append_of_le_length (by omega)]
    have hexcess := (closesUpTo_iff.1 hj).2
    have := h.initial (List.take_prefix j inner)
    rw [htake, excess_cons, weight_opening] at hexcess
    omega

theorem closingIndex?_eq_some_iff_isLeast (tokens : List Token) (i : Nat) :
    closingIndex? (.opening :: tokens) = some i ↔
      IsLeast {i | ClosesUpTo (.opening :: tokens) i} i := by
  have hleast {j : Nat} (h : closingIndex? (.opening :: tokens) = some j) :
      IsLeast {i | ClosesUpTo (.opening :: tokens) i} j := by
    obtain ⟨inner, rest, rfl, hinner, rfl⟩ := (closingIndex?_eq_some_iff tokens j).1 h
    exact isLeast_of_group hinner rest
  refine ⟨hleast, fun h => ?_⟩
  cases hclosing : closingIndex? (.opening :: tokens) with
  | none =>
    have := (closingIndex?_eq_none_iff tokens).1 hclosing _ (List.take_prefix (i + 1) _) (by simp)
    rw [(closesUpTo_iff.1 h.1).2] at this
    exact absurd this (by decide)
  | some j => rw [(hleast hclosing).unique h]

end Criteria
