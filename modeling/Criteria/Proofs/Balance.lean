import Criteria.Rule.Dialect
import Mathlib.Data.List.Infix

/-!
# Balanced tokens

Tokens are balanced if they close as many groups as they open and close none before it was opened.
The group that begins with an opening parenthesis ends at the first closing one up to which the
tokens between are balanced.

## Main definitions

* `Token.excess`: how many more groups tokens open than they close.
* `Token.IsBalanced`: tokens close the groups that they open.

* `Token.StaysOpen`: behind so many open groups, some are open wherever tokens are cut.

## Main results

* `closingFrom_cons`: one step of the search for the end of a group.
* `closingIndex?_eq_some_iff`: where a group ends.
-/

namespace Criteria

namespace Token

/-- How many groups a token opens; a closing parenthesis closes one. -/
def weight : Token → Int
  | .opening => 1
  | .closing => -1
  | _ => 0

@[simp] theorem weight_opening : opening.weight = 1 := rfl

@[simp] theorem weight_closing : closing.weight = -1 := rfl

/-- A token closes one group at most. -/
theorem neg_one_le_weight (token : Token) : -1 ≤ token.weight := by
  cases token <;> simp [weight]

/-- The last open group is closed by a closing parenthesis. -/
theorem add_weight_eq_zero_iff (token : Token) {opened : Int} (hopened : 0 < opened) :
    opened + token.weight = 0 ↔ token = .closing ∧ opened = 1 := by
  cases token <;> simp [weight] <;> omega

/-- How many more groups tokens open than they close. -/
def excess : List Token → Int
  | [] => 0
  | token :: tokens => token.weight + excess tokens

@[simp] theorem excess_nil : excess [] = 0 := rfl

@[simp] theorem excess_cons (token : Token) (tokens : List Token) :
    excess (token :: tokens) = token.weight + excess tokens := rfl

@[simp] theorem excess_append (s t : List Token) : excess (s ++ t) = excess s + excess t := by
  induction s with
  | nil => simp
  | cons token s ih => rw [List.cons_append, excess_cons, excess_cons, ih, Int.add_assoc]

/-- A group opens and closes one more. -/
theorem excess_group (tokens : List Token) :
    excess (.opening :: (tokens ++ [.closing])) = excess tokens := by
  simp only [excess_cons, excess_append, excess_nil, weight_opening, weight_closing]
  omega

/-- The excess is the difference of the numbers of opening and of closing parentheses. -/
theorem excess_eq_count (tokens : List Token) :
    excess tokens = tokens.count .opening - tokens.count .closing := by
  induction tokens with
  | nil => rfl
  | cons token tokens ih =>
    rw [excess_cons, ih]
    cases token <;> simp [weight] <;> omega

/-- Tokens close as many groups as they open, and none before it was opened. -/
structure IsBalanced (tokens : List Token) : Prop where
  /-- All groups are closed at the end. -/
  total : excess tokens = 0
  /-- No more groups are closed than were opened. -/
  initial {front : List Token} (h : front <+: tokens) : 0 ≤ excess front

private theorem prefix_append_cases {front s t : List Token} (h : front <+: s ++ t) :
    front <+: s ∨ ∃ rest, front = s ++ rest ∧ rest <+: t := by
  rcases List.prefix_or_prefix_of_prefix h (List.prefix_append s t) with hs | ⟨rest, rfl⟩
  · exact Or.inl hs
  · exact Or.inr ⟨rest, rfl, (List.prefix_append_right_inj s).1 h⟩

theorem IsBalanced.append {s t : List Token} (hs : IsBalanced s) (ht : IsBalanced t) :
    IsBalanced (s ++ t) where
  total := by rw [excess_append, hs.total, ht.total]; rfl
  initial {front} h := by
    rcases prefix_append_cases h with hfront | ⟨rest, rfl, hrest⟩
    · exact hs.initial hfront
    · rw [excess_append, hs.total, Int.zero_add]
      exact ht.initial hrest

/-- A token that is no parenthesis is balanced. -/
theorem isBalanced_singleton {token : Token} (h : token.weight = 0) : IsBalanced [token] where
  total := by simp [h]
  initial {front} hfront := by
    rcases List.prefix_cons_iff.1 hfront with rfl | ⟨rest, rfl, hrest⟩
    · exact Int.le_refl 0
    · rw [List.prefix_nil.1 hrest]
      simp [h]

/-- A group is balanced if the tokens in it are. -/
theorem IsBalanced.group {inner : List Token} (h : IsBalanced inner) :
    IsBalanced (.opening :: (inner ++ [.closing])) where
  total := by rw [excess_group, h.total]
  initial {front} hfront := by
    rcases List.prefix_cons_iff.1 hfront with rfl | ⟨front, rfl, htail⟩
    · exact Int.le_refl 0
    rw [excess_cons, weight]
    rcases prefix_append_cases htail with hinner | ⟨rest, rfl, hrest⟩
    · have := h.initial hinner
      omega
    · rw [excess_append, h.total]
      rcases List.prefix_cons_iff.1 hrest with rfl | ⟨rest, rfl, hnil⟩
      · decide
      · rw [List.prefix_nil.1 hnil]
        decide

/-- Behind so many open groups, some are open wherever tokens are cut. -/
def StaysOpen (opened : Int) (tokens : List Token) : Prop :=
  ∀ front, front <+: tokens → 0 < opened + excess front

theorem StaysOpen.opened_pos {opened : Int} {tokens : List Token} (h : StaysOpen opened tokens) :
    0 < opened := by
  simpa using h [] List.nil_prefix

theorem staysOpen_nil_iff (opened : Int) : StaysOpen opened [] ↔ 0 < opened := by
  simp [StaysOpen]

theorem staysOpen_cons_iff (opened : Int) (token : Token) (tokens : List Token) :
    StaysOpen opened (token :: tokens) ↔
      0 < opened ∧ StaysOpen (opened + token.weight) tokens := by
  constructor
  · intro h
    refine ⟨h.opened_pos, fun front hfront => ?_⟩
    have := h (token :: front) ((List.prefix_cons_inj token).2 hfront)
    rw [excess_cons] at this
    omega
  · rintro ⟨hopened, h⟩ front hfront
    rcases List.prefix_cons_iff.1 hfront with rfl | ⟨front, rfl, htail⟩
    · simpa using hopened
    · have := h front htail
      rw [excess_cons]
      omega

/-- Behind so many open groups, tokens leave one of them open and never fewer. -/
def LeavesOne (opened : Int) (tokens : List Token) : Prop :=
  opened + excess tokens = 1 ∧ ∀ front, front <+: tokens → 0 < opened + excess front

theorem leavesOne_iff (opened : Int) (tokens : List Token) :
    LeavesOne opened tokens ↔ opened + excess tokens = 1 ∧ StaysOpen opened tokens := Iff.rfl

theorem leavesOne_one_iff (tokens : List Token) : LeavesOne 1 tokens ↔ IsBalanced tokens := by
  constructor
  · rintro ⟨htotal, hfront⟩
    refine ⟨by omega, fun h => ?_⟩
    have := hfront _ h
    omega
  · rintro ⟨htotal, hfront⟩
    refine ⟨by omega, fun front h => ?_⟩
    have := hfront h
    omega

theorem leavesOne_nil_iff (opened : Int) : LeavesOne opened [] ↔ opened = 1 := by
  rw [leavesOne_iff, staysOpen_nil_iff, excess_nil]
  omega

theorem leavesOne_cons_iff (opened : Int) (token : Token) (tokens : List Token) :
    LeavesOne opened (token :: tokens) ↔ 0 < opened ∧ LeavesOne (opened + token.weight) tokens := by
  rw [leavesOne_iff, leavesOne_iff, staysOpen_cons_iff, excess_cons, Int.add_assoc]
  exact and_left_comm

end Token

open Token

/-- Behind so many open groups, tokens go on to the parenthesis that closes the last of them. -/
def ClosesAfter (opened : Int) (tokens : List Token) (count : Nat) : Prop :=
  ∃ inner rest, tokens = inner ++ .closing :: rest ∧ count = inner.length ∧ LeavesOne opened inner

theorem not_closesAfter_nil (opened : Int) (count : Nat) : ¬ ClosesAfter opened [] count := by
  rintro ⟨inner, rest, h, -, -⟩
  simp at h

theorem closesAfter_cons_iff {opened : Int} (hopened : 0 < opened) (token : Token)
    (tokens : List Token) (count : Nat) :
    ClosesAfter opened (token :: tokens) count ↔
      token = .closing ∧ opened = 1 ∧ count = 0 ∨
      ∃ before, ClosesAfter (opened + token.weight) tokens before ∧ count = before + 1 := by
  constructor
  · rintro ⟨inner, rest, htokens, rfl, hinner⟩
    cases inner with
    | nil =>
      obtain ⟨rfl, -⟩ := List.cons.inj htokens
      exact Or.inl ⟨rfl, (leavesOne_nil_iff opened).1 hinner, rfl⟩
    | cons first inner =>
      obtain ⟨rfl, rfl⟩ := List.cons.inj htokens
      have hrest := ((leavesOne_cons_iff opened token inner).1 hinner).2
      exact Or.inr ⟨inner.length, ⟨inner, rest, rfl, rfl, hrest⟩, rfl⟩
  · rintro (⟨rfl, hone, rfl⟩ | ⟨_, ⟨inner, rest, rfl, rfl, hinner⟩, rfl⟩)
    · exact ⟨[], tokens, rfl, rfl, (leavesOne_nil_iff opened).2 hone⟩
    · exact ⟨token :: inner, rest, rfl, rfl, (leavesOne_cons_iff _ _ _).2 ⟨hopened, hinner⟩⟩

/-- One step of the search: the number of open groups is changed by the weight of a token, and the
search ends if none is left. -/
theorem closingFrom_cons (index : Nat) {opened : Nat} (hopened : 0 < opened) (token : Token)
    (tokens : List Token) :
    closingFrom index opened (token :: tokens) =
      if opened + token.weight = 0 then some index
      else closingFrom (index + 1) (opened + token.weight).toNat tokens := by
  cases token with
  | closing =>
    rw [closingFrom, weight_closing]
    by_cases hone : opened = 1
    · rw [if_pos hone, if_pos (by omega)]
    · rw [if_neg hone, if_neg (by omega)]
      congr 1
      omega
  | opening =>
    rw [closingFrom, weight_opening, if_neg (by omega)]
    rfl
  | _ =>
    rw [closingFrom, weight, if_neg (by omega), Int.add_zero, Int.toNat_natCast]
    all_goals simp

/-- The number of open groups comes down to none at the first closing parenthesis before which
just one was left open. -/
theorem closingFrom_eq_some_iff (index : Nat) {opened : Nat} (hopened : 0 < opened)
    (tokens : List Token) (i : Nat) :
    closingFrom index opened tokens = some i ↔
      ∃ count, ClosesAfter opened tokens count ∧ i = index + count := by
  induction tokens generalizing index opened with
  | nil => simp [closingFrom, not_closesAfter_nil]
  | cons token tokens ih =>
    have hopened' : (0 : Int) < opened := by omega
    have hlast := add_weight_eq_zero_iff token hopened'
    simp only [closesAfter_cons_iff hopened', closingFrom_cons index hopened]
    by_cases hzero : opened + token.weight = 0
    · -- the last group is closed here, and nothing behind it counts
      have hnone (count : Nat) : ¬ ClosesAfter (0 : Int) tokens count := by
        rintro ⟨inner, rest, -, -, hinner⟩
        exact absurd ((leavesOne_iff 0 inner).1 hinner).2.opened_pos (by decide)
      obtain ⟨hclosing, hone⟩ := hlast.1 hzero
      simp [hclosing, hone, hnone, eq_comm]
    · -- groups are left open, and the search goes on behind the token
      have hnot : ¬ (token = .closing ∧ (opened : Int) = 1) := hlast.not.1 hzero
      have hweight := neg_one_le_weight token
      rw [if_neg hzero, ih (index + 1) (by omega), Int.toNat_of_nonneg (by omega)]
      constructor
      · rintro ⟨before, hbefore, rfl⟩
        exact ⟨before + 1, Or.inr ⟨before, hbefore, rfl⟩, by omega⟩
      · rintro ⟨_, ⟨hclosing, hone, -⟩ | ⟨before, hbefore, rfl⟩, rfl⟩
        · exact absurd ⟨hclosing, hone⟩ hnot
        · exact ⟨before, hbefore, by omega⟩

/-- A group that begins a list of tokens ends behind balanced tokens. -/
theorem closingIndex?_eq_some_iff (tokens : List Token) (i : Nat) :
    closingIndex? (.opening :: tokens) = some i ↔
      ∃ inner rest, tokens = inner ++ .closing :: rest ∧ IsBalanced inner ∧
        i = inner.length + 1 := by
  rw [closingIndex?, List.drop_succ_cons, List.drop_zero, closingFrom_eq_some_iff 1 Nat.one_pos]
  constructor
  · rintro ⟨_, ⟨inner, rest, rfl, rfl, hinner⟩, rfl⟩
    exact ⟨inner, rest, rfl, (leavesOne_one_iff inner).1 hinner, by omega⟩
  · rintro ⟨inner, rest, rfl, hinner, rfl⟩
    exact ⟨_, ⟨inner, rest, rfl, rfl, (leavesOne_one_iff inner).2 hinner⟩, by omega⟩

/-- The group with balanced tokens in it ends behind them. -/
theorem closingIndex?_group {inner : List Token} (h : IsBalanced inner) (rest : List Token) :
    closingIndex? (.opening :: (inner ++ .closing :: rest)) = some (inner.length + 1) :=
  (closingIndex?_eq_some_iff _ _).2 ⟨inner, rest, rfl, h, rfl⟩

/-- Tokens are balanced if the parentheses around them are a group. -/
theorem isBalanced_iff_closingIndex? (tokens : List Token) :
    IsBalanced tokens ↔
      closingIndex? (.opening :: (tokens ++ [.closing])) = some (tokens.length + 1) := by
  constructor
  · intro h
    exact closingIndex?_group h []
  · intro h
    obtain ⟨inner, rest, happend, hinner, hlength⟩ := (closingIndex?_eq_some_iff _ _).1 h
    obtain ⟨rfl, -⟩ := List.append_inj happend (Nat.succ.inj hlength)
    exact hinner

instance (tokens : List Token) : Decidable (IsBalanced tokens) :=
  decidable_of_iff _ (isBalanced_iff_closingIndex? tokens).symm

end Criteria
