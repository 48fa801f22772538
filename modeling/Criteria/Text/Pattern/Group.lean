import Criteria.Text.Letter
import Criteria.Text.Pattern.Escape

/-!
# Groups in patterns

A group stands in parentheses. It may have a name, or say how it is meant by flags; flags alone say
how the rest of the group around them is meant.

## Main definitions

* `Text.Pattern.Mode.apply`: how a pattern is meant after flags.
* `Text.Pattern.Group`, `Text.Pattern.group`: how a group begins.
-/

namespace Criteria.Text.Pattern

/-! ### Flags -/

/-- What a list of flags says of one: those in front of the dash are set, those behind it are
not. -/
def flag? (flags : List Char) (c : Char) : Option Bool :=
  if (flags.takeWhile (· ≠ '-')).contains c then some true
  else if flags.contains c then some false
  else none

/-- How a pattern is meant after flags. -/
def Mode.apply (mode : Mode) (flags : List Char) : Mode :=
  { unicode := (flag? flags 'u').getD mode.unicode
    spaced := (flag? flags 'x').getD mode.spaced }

/-- A text is a list of flags: none twice, and a dash nowhere but in front of one. -/
def isFlags (s : List Char) : Bool :=
  s.all "imsUuRx-".toList.contains && decide s.Nodup && s.getLast? != some '-'

/-! ### Groups -/

/-- How a group begins. -/
inductive Group where
  | plain
  | named (name : List Char)
  | flagged (flags : List Char)
  /-- It is no group: the flags are for what follows. -/
  | flags (flags : List Char)
deriving DecidableEq, Inhabited

/-- A text is the name of a group. -/
def isName : List Char → Bool
  | [] => false
  | c :: s => (c = '_' || isLetter c) &&
    s.all fun c => "_.[]".toList.contains c || isLetterOrNumeral c

/-- The beginning of a group with a name. -/
def named (s : List Char) : Option (Group × Rest s) :=
  let name := s.takeWhile (· ≠ '>')
  match h : s.dropWhile (· ≠ '>') with
  | _ :: r => if isName name then some (.named name, ⟨r, length_lt_of_dropWhile h⟩) else none
  | [] => none

/-- A character of a list of flags. -/
def isFlagChar (c : Char) : Bool := c ≠ ':' && c ≠ ')'

/-- The beginning of a group with flags, or flags alone; there must be some then. -/
def flagged (s : List Char) : Option (Group × Rest s) :=
  let flags := s.takeWhile isFlagChar
  match h : s.dropWhile isFlagChar with
  | c :: r =>
    let rest : Rest s := ⟨r, length_lt_of_dropWhile h⟩
    if !isFlags flags then none
    else if c = ':' then some (.flagged flags, rest)
    else if flags.isEmpty then none else some (.flags flags, rest)
  | [] => none

/-- The beginning of a group, the opening parenthesis and a gap being taken already. -/
def groupStart : (s : List Char) → Option (Group × Remaining s)
  | '?' :: 'P' :: '<' :: s => (named s).map fun (start, rest) =>
    (start, rest.cons.cons.cons.remaining)
  | '?' :: '<' :: s => (named s).map fun (start, rest) => (start, rest.cons.cons.remaining)
  | '?' :: s => (flagged s).map fun (start, rest) => (start, rest.cons.remaining)
  | s => some (.plain, .all s)

/-- The beginning of a group, the opening parenthesis being taken already. -/
def group (mode : Mode) (s : List Char) : Option (Group × Remaining s) :=
  (groupStart (skipGap mode s).1).map fun (start, rest) =>
    (start, ⟨rest.1, Nat.le_trans rest.2 (skipGap mode s).2⟩)

end Criteria.Text.Pattern
