import Criteria.Text.Pattern.Escape

/-!
# Classes in patterns

A class of characters stands in brackets: characters, ranges of them and classes, with operators
between them. In a pattern that speaks of bytes a class holds characters of ASCII only, so it cannot
be turned around.

## Main definitions

* `Text.Pattern.Parts`: how many parts there are, and how high they are.
* `Text.Pattern.range`: a member of a class, or a range.
* `Text.Pattern.bracketed`: a class.
-/

namespace Criteria.Text.Pattern

/-! ### Heights -/

/-- Parts that stand side by side: how many there are, and the height of the highest. -/
structure Parts where
  count : Nat := 0
  height : Nat := 0
deriving DecidableEq, Inhabited

namespace Parts

/-- One part more. -/
def add (parts : Parts) (height : Nat) : Parts := ⟨parts.count + 1, max parts.height height⟩

/-- The height of all parts together: several are one higher than the highest. -/
def total (parts : Parts) : Nat := if parts.count ≤ 1 then parts.height else parts.height + 1

end Parts

/-! ### Members -/

/-- A character may be a member of a class. -/
def mayHold (mode : Mode) (c : Char) : Bool := mode.unicode || decide (c.toNat < 128)

/-- A member of a class; it has a character if it is only one. -/
def member (mode : Mode) (s : List Char) : Option (Option Char × Rest s) :=
  match s with
  | [] => none
  | '\\' :: s => do
    match ← escape mode s with
    | (.char c _, rest) => if mayHold mode c then some (some c, rest.cons) else none
    | (.kind isNegated, rest) =>
      if mode.unicode || !isNegated then some (none, rest.cons) else none
    | (.category, rest) => if mode.unicode then some (none, rest.cons) else none
    | (.place, _) | (.edge, _) => none
  | c :: _ => if mayHold mode c then some (some c, .tail) else none

/-- The character that is next behind a dash: behind blanks and at most one mark of a comment, if
they do not count. -/
def peek? (mode : Mode) (s : List Char) : Option Char :=
  if mode.spaced then
    match s.dropWhile isBlank with
    | '#' :: r => (r.dropWhile isBlank).head?
    | r => r.head?
  else s.head?

/-- What is left behind a member of a class, or behind a range: two characters in their order, with
a dash between them. A dash in front of another one, or of the end, stands for itself. -/
def range (mode : Mode) (s : List Char) : Option (Rest s) := do
  let (first, rest) ← member mode s
  match next? mode rest.1 with
  | some ('-', after) =>
    if peek? mode after.1 = some ']' ∨ peek? mode after.1 = some '-' then return rest
    else do
      let (last, final) ← member mode (skipGap mode after.1).1
      match first, last with
      | some a, some b =>
        if a ≤ b then return (rest.trans after).trans (final.within (skipGap mode after.1)) else none
      | _, _ => none
  | _ => return rest

/-! ### Classes -/

/-- The names of classes of ASCII. -/
def classNames : List String :=
  ["alnum", "alpha", "ascii", "blank", "cntrl", "digit", "graph", "lower", "print", "punct",
    "space", "upper", "word", "xdigit"]

/-- What is left behind the name of a class between colons, with brackets around it, and whether it
is turned around; the opening bracket is taken already. -/
def namedClass? : (s : List Char) → Option (Bool × Rest s)
  | ':' :: s =>
    let turned : Bool × Remaining s := match s with
      | '^' :: _ => (true, Rest.tail.remaining)
      | s => (false, .all s)
    let name := turned.2.1.takeWhile (· ≠ ':')
    match h : turned.2.1.dropWhile (· ≠ ':') with
    | ':' :: ']' :: r =>
      if classNames.contains (String.ofList name) then
        some (turned.1, ⟨r, Nat.lt_succ_of_lt (Nat.lt_of_lt_of_le
          (Nat.lt_of_succ_lt (length_lt_of_dropWhile h)) turned.2.2)⟩)
      else none
    | _ => none
  | _ => none

/-- A class that is open: its members since the last operator, and the height of what stands in
front of that, if there is one. -/
structure OpenClass where
  before : Option Nat := none
  parts : Parts := {}
deriving DecidableEq, Inhabited

namespace OpenClass

/-- One member more. -/
def add (c : OpenClass) (height : Nat) : OpenClass := { c with parts := c.parts.add height }

/-- The height of all members. -/
def total (c : OpenClass) : Nat :=
  match c.before with
  | none => c.parts.total
  | some height => max height c.parts.total + 1

/-- An operator behind the members. -/
def operate (c : OpenClass) : OpenClass := { before := some c.total }

end OpenClass

/-- What is left behind dashes, which are members. -/
def dashes (mode : Mode) (parts : Parts) (s : List Char) : Parts × Remaining s :=
  match next? mode s with
  | some ('-', ⟨q, h⟩) =>
    let (parts, rest) := dashes mode (parts.add 0) q
    (parts, (Rest.past ⟨q, h⟩ rest).remaining)
  | _ => (parts, .all s)
termination_by s.length
decreasing_by exact h

/-- The front of a class, the opening bracket being taken already: a sign that turns it around, and
dashes, or else a closing bracket that is a member. -/
def classFront (mode : Mode) (s : List Char) : Option (OpenClass × Remaining s) := do
  let turned : Remaining s ← match next? mode s with
    | some ('^', rest) => if mode.unicode then some rest.remaining else none
    | _ => some (.all s)
  match next? mode turned.1 with
  | some (']', rest) =>
    return ({ parts := ⟨1, 0⟩ }, ⟨rest.1, Nat.le_trans (Nat.le_of_lt rest.2) turned.2⟩)
  | _ =>
    let (parts, rest) := dashes mode {} turned.1
    return ({ parts }, ⟨rest.1, Nat.le_trans rest.2 turned.2⟩)

/-- An operator between members. -/
def isOperator (c : Char) : Bool := c = '&' || c = '-' || c = '~'

/-- The height of a class, and what is left behind it, its front being taken already. Classes may
stand in one another, so others may be open around it. -/
def classEnd (mode : Mode) (inner : OpenClass) (outer : List OpenClass) (s : List Char) :
    Option (Nat × Rest s) :=
  match next? mode s with
  | none => none
  | some (']', ⟨r, h⟩) => match outer with
    | [] => some (inner.total + 1, ⟨r, h⟩)
    | around :: outer =>
      (classEnd mode (around.add (inner.total + 1)) outer r).map fun (height, rest) =>
        (height, rest.after h)
  | some (c, ⟨r, h⟩) =>
    if c = '[' then
      match namedClass? r with
      | some (isTurned, ⟨q, h'⟩) =>
        if mode.unicode || !isTurned then
          (classEnd mode (inner.add 0) outer q).map fun (height, rest) =>
            (height, rest.after (Nat.lt_trans h' h))
        else none
      | none => match classFront mode r with
        | some (front, ⟨q, h'⟩) =>
          (classEnd mode front (inner :: outer) q).map fun (height, rest) =>
            (height, rest.after (Nat.lt_of_le_of_lt h' h))
        | none => none
    else if isOperator c ∧ r.head? = some c then
      (classEnd mode inner.operate outer (r.drop 1)).map fun (height, rest) =>
        (height, rest.after (Nat.lt_of_le_of_lt (List.drop_suffix 1 r).length_le h))
    else match range mode (skipGap mode s).1 with
      | some ⟨q, h'⟩ =>
        (classEnd mode (inner.add 0) outer q).map fun (height, rest) =>
          (height, rest.after (Nat.lt_of_lt_of_le h' (skipGap mode s).2))
      | none => none
termination_by s.length
decreasing_by
  · exact h
  · exact Nat.lt_trans h' h
  · exact Nat.lt_of_le_of_lt h' h
  · exact Nat.lt_of_le_of_lt (List.drop_suffix 1 r).length_le h
  · exact Nat.lt_of_lt_of_le h' (skipGap mode s).2

/-- The height of a class, and what is left behind it, the opening bracket being taken already. -/
def bracketed (mode : Mode) (s : List Char) : Option (Nat × Rest s) := do
  let (front, rest) ← classFront mode s
  let (height, after) ← classEnd mode front [] rest.1
  return (height, after.within rest)

end Criteria.Text.Pattern
