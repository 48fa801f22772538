import Criteria.Proofs.Grammar
import Criteria.Proofs.GroupEnd

/-!
# Reading by index

The parser can be written with every token and every part of a list asked for by its index. A reader
of this kind has more ways to stop: an index may lie beyond the list, a part may end before it
begins, a count may fall below none, and a part may be no shorter than the list that it is a part
of, so that the reader never ends. This file shows that none of this happens.

## Main definitions

* `Halt`: what stops a reader by index.
* `seekClosing`, `Dialect.readIndexed`: the search for the end of a group, and the parser, by index.

## Main results

* `seekClosing_eq`: the search never counts below none.
* `Dialect.readIndexed_eq`: the reader by index is the parser.
* `Dialect.reading_stays_inside`: where groups end, and that all indices are there.
-/

namespace Criteria

open Token

/-- What stops a reader that asks for tokens by index. -/
inductive Halt where
  /-- The tokens are refused. -/
  | refused (cause : ParseError)
  /-- One is taken from a count of none. -/
  | belowNone
  /-- There is no token at an index. -/
  | noToken (index : Nat)
  /-- There is no part from one index up to another. -/
  | noPart (start stop : Nat)
  /-- A part is no shorter than the list. -/
  | notShorter
deriving DecidableEq

/-- A count lowered by one. -/
def lowered : Nat → Except Halt Nat
  | 0 => .error .belowNone
  | count + 1 => .ok count

namespace Token

/-- The token at an index of a list. -/
def atIndex (tokens : List Token) (index : Nat) : Except Halt Token :=
  match tokens[index]? with
  | some token => .ok token
  | none => .error (.noToken index)

/-- The tokens from one index of a list up to another. -/
def part (tokens : List Token) (start stop : Nat) : Except Halt (List Token) :=
  if start ≤ stop ∧ stop ≤ tokens.length then .ok (tokens.extract start stop)
  else .error (.noPart start stop)

/-- A part of a list that is to be read next: it must be shorter. -/
def shorterPart (tokens : List Token) (start stop : Nat) :
    Except Halt { rest : List Token // rest.length < tokens.length } := do
  let rest ← part tokens start stop
  if h : rest.length < tokens.length then return ⟨rest, h⟩ else throw .notShorter

end Token

/-- The index of the token that brings the number of open groups down to none. -/
def seekFrom (index opened : Nat) : List Token → Except Halt Nat
  | [] => .error (.refused .mismatchedParentheses)
  | .opening :: tokens => seekFrom (index + 1) (opened + 1) tokens
  | .closing :: tokens => do
    let opened ← lowered opened
    if opened = 0 then return index else seekFrom (index + 1) opened tokens
  | _ :: tokens => seekFrom (index + 1) opened tokens

/-- The index of the parenthesis that closes the group opened by the first token. -/
def seekClosing (tokens : List Token) : Except Halt Nat := seekFrom 1 1 (tokens.drop 1)

namespace Dialect

variable (dialect : Dialect)

/-- The comparison that the first three tokens of a list make. -/
def operandIndexed (tokens : List Token) : Except Halt Expr := do
  let comparator ← (dialect.comparator (← atIndex tokens 1)).mapError .refused
  return .condition (← atIndex tokens 0).text comparator (.ofToken (← atIndex tokens 2))

/-- The connective at an index of a list. -/
def connectiveIndexed (tokens : List Token) (index : Nat) : Except Halt Connective := do
  (dialect.connective (← atIndex tokens index)).mapError .refused

/-- The tree of a list of tokens, expressions being counted from the outermost one inwards. -/
def readIndexed (depth : Nat) (tokens : List Token) : Except Halt Expr :=
  if dialect.maxDepth < depth then .error (.refused (.nestingTooDeep dialect.maxDepth))
  else match tokens.head? with
  | none => .error (.refused .emptyInput)
  | some first =>
    if first = .opening then do
      let closing ← seekClosing tokens
      let inner ← shorterPart tokens 1 closing
      let group ← readIndexed (depth + 1) inner
      let last ← lowered tokens.length
      if closing = last then return group
      else
        let connective ← dialect.connectiveIndexed tokens (closing + 1)
        let rest ← shorterPart tokens (closing + 2) tokens.length
        return .node connective group (← readIndexed (depth + 1) rest)
    else if tokens.length < 3 then .error (.refused (.malformedOperand tokens.length))
    else do
      let left ← dialect.operandIndexed (← part tokens 0 3)
      if tokens.length = 3 then return left
      else
        let connective ← dialect.connectiveIndexed tokens 3
        let rest ← shorterPart tokens 4 tokens.length
        return .node connective left (← readIndexed (depth + 1) rest)
termination_by tokens.length
decreasing_by exacts [inner.2, rest.2, rest.2]

end Dialect

/-! ### Places that are there -/

private theorem ok_bind {ε α β : Type} (a : α) (f : α → Except ε β) :
    (Except.ok a >>= f) = f a := rfl

private theorem mapError_bind {ε ε' α β : Type} (g : ε → ε') (x : Except ε α)
    (f : α → Except ε β) :
    (x >>= f).mapError g = x.mapError g >>= fun a => (f a).mapError g := by
  cases x <;> rfl

/-- The search never counts below none, as it ends before. -/
theorem seekFrom_eq (index : Nat) {opened : Nat} (hopened : 0 < opened) (tokens : List Token) :
    seekFrom index opened tokens =
      (closingFrom index opened tokens).elim (.error (.refused .mismatchedParentheses)) .ok := by
  induction tokens generalizing index opened with
  | nil => rfl
  | cons token tokens ih =>
    cases token with
    | closing =>
      obtain ⟨opened, rfl⟩ := Nat.exists_eq_succ_of_ne_zero hopened.ne'
      rw [seekFrom, closingFrom, lowered, ok_bind]
      by_cases hzero : opened = 0
      · rw [if_pos hzero, if_pos (by omega)]
        rfl
      · rw [if_neg hzero, if_neg (by omega), ih _ (by omega)]
        rfl
    | opening => exact ih (index + 1) (by omega)
    | _ => exact ih (index + 1) hopened

theorem seekClosing_eq (tokens : List Token) :
    seekClosing tokens =
      (closingIndex? tokens).elim (.error (.refused .mismatchedParentheses)) .ok :=
  seekFrom_eq 1 Nat.one_pos _

theorem seekClosing_group {inner : List Token} (h : IsBalanced inner) (rest : List Token) :
    seekClosing (.opening :: (inner ++ .closing :: rest)) = .ok (inner.length + 1) := by
  rw [seekClosing_eq, closingIndex?_group h]
  rfl

namespace Token

/-- The middle one of three parts is there, from the index where the first one ends. -/
theorem part_eq {tokens : List Token} (front inner back : List Token)
    (h : tokens = front ++ (inner ++ back)) {start stop : Nat} (hstart : front.length = start)
    (hstop : start + inner.length = stop) : part tokens start stop = .ok inner := by
  subst h hstart hstop
  rw [part, if_pos (by simp)]
  simp

theorem shorterPart_of_part {tokens inner : List Token} {start stop : Nat}
    (h : part tokens start stop = .ok inner) (hlt : inner.length < tokens.length) :
    shorterPart tokens start stop = .ok ⟨inner, hlt⟩ := by
  rw [shorterPart, h, ok_bind, dif_pos hlt]
  rfl

/-- What follows other tokens up to the end of a list is a part of it. -/
theorem shorterPart_rest {tokens : List Token} (front rest : List Token)
    (h : tokens = front ++ rest) {start : Nat} (hstart : front.length = start)
    (hlt : rest.length < tokens.length) :
    shorterPart tokens start tokens.length = .ok ⟨rest, hlt⟩ := by
  have hlength : start + rest.length = tokens.length := by rw [h, List.length_append, hstart]
  exact shorterPart_of_part (part_eq front rest [] (by rw [h, List.append_nil]) hstart hlength) _

/-- What is in a group is there to be read next. -/
theorem shorterPart_in_group (inner rest : List Token) :
    shorterPart (.opening :: (inner ++ .closing :: rest)) 1 (inner.length + 1) =
      .ok ⟨inner, by simp only [List.length_cons, List.length_append]; omega⟩ :=
  shorterPart_of_part (part_eq [.opening] inner _ rfl rfl (Nat.add_comm 1 _)) _

/-- What follows the connective behind a group is there to be read next. -/
theorem shorterPart_behind_group (inner : List Token) (link : Token) (rest : List Token) :
    shorterPart (.opening :: (inner ++ .closing :: link :: rest)) (inner.length + 1 + 2)
        (Token.opening :: (inner ++ .closing :: link :: rest)).length =
      .ok ⟨rest, by simp only [List.length_cons, List.length_append]; omega⟩ :=
  shorterPart_rest (.opening :: (inner ++ [.closing, link])) rest (by simp) (by simp) _

/-- What follows the connective behind a condition is there to be read next. -/
theorem shorterPart_behind_condition (field comparator value link : Token) (rest : List Token) :
    shorterPart (field :: comparator :: value :: link :: rest) 4
        (field :: comparator :: value :: link :: rest).length =
      .ok ⟨rest, by simp only [List.length_cons]; omega⟩ :=
  shorterPart_rest [field, comparator, value, link] rest rfl rfl _

end Token

namespace Dialect

variable {dialect : Dialect}

theorem operandIndexed_eq (field comparator value : Token) :
    dialect.operandIndexed [field, comparator, value] =
      (dialect.operand field comparator value).mapError .refused := by
  rw [operandIndexed, operand, mapError_bind]
  rfl

theorem connectiveIndexed_eq {tokens : List Token} (front : List Token) (link : Token)
    (rest : List Token) (h : tokens = front ++ link :: rest) {index : Nat}
    (hindex : front.length = index) :
    dialect.connectiveIndexed tokens index = (dialect.connective link).mapError .refused := by
  subst h hindex
  rw [connectiveIndexed, atIndex, List.getElem?_append_right (Nat.le_refl _)]
  simp [ok_bind]

/-- The connective behind a group. -/
theorem connectiveIndexed_behind_group (inner : List Token) (link : Token) (rest : List Token) :
    dialect.connectiveIndexed (.opening :: (inner ++ .closing :: link :: rest))
      (inner.length + 1 + 1) = (dialect.connective link).mapError .refused :=
  connectiveIndexed_eq (.opening :: (inner ++ [.closing])) link rest (by simp) (by simp)

/-- The connective behind a condition. -/
theorem connectiveIndexed_behind_condition (field comparator value link : Token)
    (rest : List Token) :
    dialect.connectiveIndexed (field :: comparator :: value :: link :: rest) 3 =
      (dialect.connective link).mapError .refused :=
  connectiveIndexed_eq [field, comparator, value] link rest rfl rfl

/-! ### One step of the reader -/

theorem readIndexed_deep {depth : Nat} (hdepth : dialect.maxDepth < depth) (tokens : List Token) :
    dialect.readIndexed depth tokens = .error (.refused (.nestingTooDeep dialect.maxDepth)) := by
  rw [readIndexed, if_pos hdepth]

section step

variable {depth : Nat} (hdepth : depth ≤ dialect.maxDepth)

include hdepth

theorem readIndexed_nil : dialect.readIndexed depth [] = .error (.refused .emptyInput) := by
  rw [readIndexed, if_neg hdepth.not_gt]
  rfl

theorem readIndexed_unclosed {tokens : List Token}
    (h : closingIndex? (.opening :: tokens) = none) :
    dialect.readIndexed depth (.opening :: tokens) = .error (.refused .mismatchedParentheses) := by
  rw [readIndexed, if_neg hdepth.not_gt, List.head?_cons, seekClosing_eq, h]
  rfl

theorem readIndexed_group {inner : List Token} (hinner : IsBalanced inner) :
    dialect.readIndexed depth (.opening :: (inner ++ [.closing])) =
      dialect.readIndexed (depth + 1) inner := by
  have hlast : lowered (Token.opening :: (inner ++ [.closing])).length =
      .ok (inner.length + 1) := by simp [lowered]
  rw [readIndexed, if_neg hdepth.not_gt, List.head?_cons, seekClosing_group hinner]
  simp only [if_true, ok_bind, shorterPart_in_group, hlast]
  cases dialect.readIndexed (depth + 1) inner <;> rfl

theorem readIndexed_groupLink {inner : List Token} (hinner : IsBalanced inner) (link : Token)
    (rest : List Token) :
    dialect.readIndexed depth (.opening :: (inner ++ .closing :: link :: rest)) = (do
      let group ← dialect.readIndexed (depth + 1) inner
      let connective ← (dialect.connective link).mapError .refused
      return .node connective group (← dialect.readIndexed (depth + 1) rest)) := by
  -- the group is not the whole list, so that a connective and the rest are behind it
  have hlast : lowered (Token.opening :: (inner ++ .closing :: link :: rest)).length =
      .ok (inner.length + (rest.length + 2)) := by
    simp only [List.length_cons, List.length_append, lowered]
  have hne : inner.length + 1 ≠ inner.length + (rest.length + 2) := by omega
  rw [readIndexed, if_neg hdepth.not_gt, List.head?_cons, seekClosing_group hinner]
  simp only [if_true, ok_bind, shorterPart_in_group, hlast, if_neg hne,
    connectiveIndexed_behind_group, shorterPart_behind_group]

theorem readIndexed_short {field : Token} (hfield : field ≠ .opening) {rest : List Token}
    (hrest : rest.length < 2) : dialect.readIndexed depth (field :: rest) =
      .error (.refused (.malformedOperand (rest.length + 1))) := by
  rw [readIndexed, if_neg hdepth.not_gt, List.head?_cons]
  simp only [if_neg hfield]
  exact if_pos (Nat.succ_lt_succ hrest)

theorem readIndexed_leaf {field : Token} (hfield : field ≠ .opening) (comparator value : Token) :
    dialect.readIndexed depth [field, comparator, value] =
      (dialect.operand field comparator value).mapError .refused := by
  have hpart : part [field, comparator, value] 0 3 = .ok [field, comparator, value] :=
    part_eq [] [field, comparator, value] [] rfl rfl rfl
  rw [readIndexed, if_neg hdepth.not_gt, List.head?_cons]
  simp only [if_neg hfield, hpart, ok_bind, operandIndexed_eq]
  cases dialect.operand field comparator value <;> rfl

theorem readIndexed_link {field : Token} (hfield : field ≠ .opening)
    (comparator value link : Token) (rest : List Token) :
    dialect.readIndexed depth (field :: comparator :: value :: link :: rest) = (do
      let left ← (dialect.operand field comparator value).mapError .refused
      let connective ← (dialect.connective link).mapError .refused
      return .node connective left (← dialect.readIndexed (depth + 1) rest)) := by
  have hpart : part (field :: comparator :: value :: link :: rest) 0 3 =
      .ok [field, comparator, value] :=
    part_eq [] [field, comparator, value] (link :: rest) rfl rfl rfl
  have hshort : ¬ (field :: comparator :: value :: link :: rest).length < 3 := by
    simp only [List.length_cons]
    omega
  have hthree : (field :: comparator :: value :: link :: rest).length ≠ 3 := by simp
  rw [readIndexed, if_neg hdepth.not_gt, List.head?_cons]
  simp only [if_neg hfield, if_neg hshort, if_neg hthree, hpart, ok_bind, operandIndexed_eq,
    connectiveIndexed_behind_condition, shorterPart_behind_condition]

end step

/-! ### The reader is the parser -/

/-- The reader at some level is the parser with the levels that are left. -/
theorem readIndexed_eq {depth left : Nat} (h : depth + left = dialect.maxDepth + 1)
    (tokens : List Token) :
    dialect.readIndexed depth tokens = (dialect.parseWithin left tokens).mapError .refused := by
  induction left generalizing depth tokens with
  | zero =>
    rw [parseWithin_zero, readIndexed_deep (by omega)]
    rfl
  | succ left ih =>
    have hdepth : depth ≤ dialect.maxDepth := by omega
    have hnext : depth + 1 + left = dialect.maxDepth + 1 := by omega
    cases form tokens with
    | empty =>
      rw [parseWithin_nil, readIndexed_nil hdepth]
      rfl
    | unclosed hnone =>
      rw [parseWithin_unclosed left hnone, readIndexed_unclosed hdepth hnone]
      rfl
    | short hfield hrest =>
      rw [parseWithin_short hfield left hrest, readIndexed_short hdepth hfield hrest]
      rfl
    | leaf hfield => rw [parseWithin_leaf hfield, readIndexed_leaf hdepth hfield]
    | group hinner => rw [parseWithin_group hinner, readIndexed_group hdepth hinner, ih hnext]
    | link hfield =>
      rw [parseWithin_link hfield, readIndexed_link hdepth hfield, ih hnext]
      simp only [mapError_bind]
      rfl
    | groupLink hinner =>
      rw [parseWithin_groupLink hinner, readIndexed_groupLink hdepth hinner, ih hnext, ih hnext]
      simp only [mapError_bind]
      rfl

/-- **Reading stays inside the list.** A group ends at the least place up to which as many groups are
closed as opened. There is a closing parenthesis at it, behind the opening one, and balanced tokens
stand between the two. A group is refused as unclosed just if more groups are opened than closed
wherever the tokens are cut. So the search that counts with indices never counts below none, and the
reader that asks for all tokens and parts by their indices stops for no other reason than the
parser: no index and no part lies outside a list, and every part that is read next is shorter. -/
theorem reading_stays_inside :
    (∀ rest : List Token,
      let tokens := .opening :: rest
      (∀ i, closingIndex? tokens = some i ↔ IsLeast {i | ClosesUpTo tokens i} i) ∧
      (∀ i, closingIndex? tokens = some i → 1 ≤ i ∧ i < tokens.length ∧
        tokens[i]? = some .closing ∧ IsBalanced (tokens.extract 1 i)) ∧
      (closingIndex? tokens = none ↔ ∀ front, front <+: tokens → front ≠ [] →
        front.count .closing < front.count .opening)) ∧
    (∀ tokens, seekClosing tokens =
      (closingIndex? tokens).elim (.error (.refused .mismatchedParentheses)) .ok) ∧
    ∀ (dialect : Dialect) (tokens : List Token),
      dialect.readIndexed 1 tokens = (dialect.parse tokens).mapError .refused := by
  refine ⟨fun rest => ⟨closingIndex?_eq_some_iff_isLeast rest, fun i h => ?_, ?_⟩, seekClosing_eq,
    fun dialect tokens => readIndexed_eq (Nat.add_comm 1 _) tokens⟩
  · obtain ⟨inner, rest, rfl, hinner, rfl⟩ := (closingIndex?_eq_some_iff rest i).1 h
    refine ⟨by omega, by simp, by simp, ?_⟩
    simpa using hinner
  · rw [closingIndex?_eq_none_iff]
    simp only [excess_eq_count, Int.sub_pos, Int.ofNat_lt]

/-- A group with a quoted parenthesis in it, and what follows. -/
theorem reading_stays_inside_of_group :
    let tokens := ofString "(a = ')') OR b = )"
    closingIndex? tokens = some 4 ∧ tokens[4]? = some .closing ∧
      IsBalanced (tokens.extract 1 4) ∧
      (Dialect.mk false 2).readIndexed 1 tokens =
        ((Dialect.mk false 2).parse tokens).mapError .refused := by
  intro tokens
  have htokens : tokens = .opening :: tokens.tail := by decide +kernel
  have hindex : closingIndex? tokens = some 4 := by decide +kernel
  obtain ⟨hgroups, -, hreading⟩ := reading_stays_inside
  have hplace := (hgroups tokens.tail).2.1 4
  rw [← htokens] at hplace
  obtain ⟨-, -, hclosing, hinner⟩ := hplace hindex
  exact ⟨hindex, hclosing, hinner, hreading _ tokens⟩

end Dialect

end Criteria
