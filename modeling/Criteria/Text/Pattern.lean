import Criteria.Text.Pattern.Class
import Criteria.Text.Pattern.Group

/-!
# Patterns

A pattern is a regular expression: characters, classes of characters, groups, alternatives and
repetitions. Here it is only told from other texts; what it matches plays no part. A pattern can be
turned into a machine that goes through a text once, byte by byte, so

* in a pattern that speaks of bytes nothing may match a part of a character;
* in a pattern that speaks of Unicode there is no sign for the edges of words.

Repetitions with counts in braces are not known.

## Main definitions

* `Text.Pattern.Level`: what is known of a group that is open.
* `Text.isPattern`: a text is a pattern.
-/

namespace Criteria.Text

namespace Pattern

/-! ### Levels -/

/-- What is known of a group that is open: the height of the alternatives that are complete, if
there are some, and of the one that is not, the parts before the last, and the height of the last
part, if that may be repeated. -/
structure Level where
  alternatives : Option Nat := none
  parts : Parts := {}
  last : Option Nat := none
deriving DecidableEq, Inhabited

namespace Level

/-- All parts of the alternative that is not complete. -/
def allParts (level : Level) : Parts :=
  match level.last with
  | none => level.parts
  | some height => level.parts.add height

/-- One part more. -/
def add (level : Level) (height : Nat) : Level :=
  { level with parts := level.allParts, last := some height }

/-- A part more that may not be repeated. -/
def addFlags (level : Level) : Level := { level with parts := level.allParts.add 0, last := none }

/-- The last part is repeated; none if there is nothing to repeat. -/
def repeat? (level : Level) : Option Level :=
  level.last.map fun height => { level with last := some (height + 1) }

/-- The alternative is complete, and another one begins. -/
def alternate (level : Level) : Level :=
  { alternatives := some (max (level.alternatives.getD 0) level.allParts.total) }

/-- The height of a group. -/
def total (level : Level) : Nat :=
  match level.alternatives with
  | none => level.allParts.total
  | some height => max height level.allParts.total + 1

end Level

/-! ### Patterns -/

/-- An escape may stand in a pattern, outside of classes. -/
def Escape.isAllowed (mode : Mode) : Escape → Bool
  | .char c isByte => mode.unicode || !isByte || decide (c.toNat < 128)
  | .kind isNegated => mode.unicode || !isNegated
  | .category => mode.unicode
  | .place => true
  | .edge => !mode.unicode

/-- A sign of repetition. -/
def isRepetition (c : Char) : Bool := c = '*' || c = '+' || c = '?'

/-- What is left behind a sign of repetition and the mark that it is to be brief. -/
def skipBrief : (s : List Char) → Remaining s
  | '?' :: _ => Rest.tail.remaining
  | s => .all s

/-- A pattern is at most so high. -/
def heightLimit : Nat := 250

/-- A text is the rest of a pattern, given the names of its groups so far, the groups that are open
around the innermost one, with the modes in which to go on behind them, that one itself and the mode
in it. -/
def isRest (names : List (List Char)) (outer : List (Level × Mode)) (level : Level) (mode : Mode)
    (s : List Char) : Bool :=
  match next? mode s with
  | none => outer.isEmpty && decide (level.total ≤ heightLimit)
  | some (c, ⟨r, _h⟩) =>
    if c = '|' then isRest names outer level.alternate mode r
    else if c = ')' then
      match outer with
      | [] => false
      | (around, mode) :: outer => isRest names outer (around.add (level.total + 1)) mode r
    else if c = '(' then
      match group mode r with
      | none => false
      | some (.flags flags, ⟨q, _h'⟩) => isRest names outer level.addFlags (mode.apply flags) q
      | some (.plain, ⟨q, _h'⟩) => isRest names ((level, mode) :: outer) {} mode q
      | some (.flagged flags, ⟨q, _h'⟩) =>
        isRest names ((level, mode) :: outer) {} (mode.apply flags) q
      | some (.named name, ⟨q, _h'⟩) =>
        !names.contains name && isRest (name :: names) ((level, mode) :: outer) {} mode q
    else if c = '[' then
      match bracketed mode r with
      | none => false
      | some (height, ⟨q, _h'⟩) => isRest names outer (level.add height) mode q
    else if c = '\\' then
      match escape mode r with
      | none => false
      | some (e, ⟨q, _h'⟩) => e.isAllowed mode && isRest names outer (level.add 0) mode q
    else if isRepetition c then
      match level.repeat? with
      | none => false
      | some level => isRest names outer level mode (skipBrief r).1
    else c != '{' && (c != '.' || mode.unicode) && isRest names outer (level.add 0) mode r
termination_by s.length
decreasing_by
  · exact _h
  · exact _h
  · exact Nat.lt_of_le_of_lt _h' _h
  · exact Nat.lt_of_le_of_lt _h' _h
  · exact Nat.lt_of_le_of_lt _h' _h
  · exact Nat.lt_of_le_of_lt _h' _h
  · exact Nat.lt_trans _h' _h
  · exact Nat.lt_trans _h' _h
  · exact Nat.lt_of_le_of_lt (skipBrief r).2 _h
  · exact _h

end Pattern

/-- A text is a pattern. -/
def isPattern (s : List Char) : Bool := Pattern.isRest [] [] {} {} s

end Criteria.Text
