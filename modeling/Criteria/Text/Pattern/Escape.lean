import Criteria.Text.Blank
import Criteria.Text.CodePoint

/-!
# Escapes in patterns

A backslash makes a letter a sign, and a sign a letter. What it may stand in front of depends on how
a pattern is meant: whether it speaks of the characters of Unicode or of bytes, and whether its
blanks and comments count.

## Main definitions

* `Text.Pattern.Mode`: how a pattern is meant.
* `Text.Pattern.skipGap`: what is left behind blanks and comments that do not count.
* `Text.Pattern.Escape`, `Text.Pattern.escape`: what stands behind a backslash.
-/

namespace Criteria.Text.Pattern

/-- How a pattern is meant. -/
structure Mode where
  /-- It speaks of the characters of Unicode, not of bytes. -/
  unicode : Bool := true
  /-- Its blanks do not count, nor do comments. -/
  spaced : Bool := false
deriving DecidableEq, Inhabited

/-! ### Gaps -/

/-- What is left behind a comment, its mark being taken already: the text behind its line. -/
def skipComment (s : List Char) : Remaining s :=
  match h : s.dropWhile (· ≠ '\n') with
  | _ :: r => ⟨r, Nat.le_of_lt (length_lt_of_dropWhile h)⟩
  | [] => ⟨[], Nat.zero_le _⟩

/-- What is left behind blanks and comments. -/
def skipSpace (s : List Char) : Remaining s :=
  match s with
  | [] => .all []
  | c :: r =>
    if isBlank c then (skipSpace r).cons.remaining
    else if c = '#' then
      let ⟨q, h⟩ := skipComment r
      let rest : Rest (c :: r) := ⟨q, Nat.lt_succ_of_le h⟩
      (rest.past (skipSpace q)).remaining
    else .all (c :: r)
termination_by s.length
decreasing_by
  · exact Nat.lt_succ_self _
  · exact Nat.lt_succ_of_le h

/-- What is left behind blanks and comments, if they do not count. -/
def skipGap (mode : Mode) (s : List Char) : Remaining s :=
  if mode.spaced then skipSpace s else .all s

/-- The first character behind a gap, with what is left behind it. -/
def next? (mode : Mode) (s : List Char) : Option (Char × Rest s) :=
  match h : (skipGap mode s).1 with
  | c :: _ => some (c, (Rest.ofEq h .tail).within (skipGap mode s))
  | [] => none

/-! ### Escapes -/

/-- What stands behind a backslash. -/
inductive Escape where
  /-- One character; it may be given as a byte. -/
  | char (c : Char) (isByte : Bool)
  /-- The digits, blanks or characters of words, or all other characters. -/
  | kind (isNegated : Bool)
  /-- A category of characters. -/
  | category
  /-- The front or the end of a text. -/
  | place
  /-- A place where a word begins or ends, or none does. -/
  | edge
deriving DecidableEq, Inhabited

/-- The character that a letter behind a backslash stands for. -/
def control? (c : Char) : Option Char :=
  [('a', '\x07'), ('f', '\x0c'), ('t', '\t'), ('n', '\n'), ('r', '\r'), ('v', '\x0b')].lookup c

/-- A sign that stands for itself behind a backslash: each of ASCII but the pointed brackets. -/
def isSign (c : Char) : Bool :=
  decide (c.toNat < 128) && !c.isAlphanum && c != '<' && c != '>'

/-- So many hexadecimal digits, with gaps between them. -/
def hexDigits (mode : Mode) : Nat → (s : List Char) → Option (List Nat × Remaining s)
  | 0, s => some ([], .all s)
  | count + 1, s => do
    let (c, rest) ← next? mode s
    let value ← hexValue? c
    let (values, after) ← hexDigits mode count rest.1
    return (value :: values, (rest.past after).remaining)

/-- The number of digits behind a letter that begins the number of a character. -/
def digitCount? (c : Char) : Option Nat := [('x', 2), ('u', 4), ('U', 8)].lookup c

/-- An escape, the backslash being taken already. -/
def escape (mode : Mode) : (s : List Char) → Option (Escape × Rest s)
  | [] => none
  | c :: s =>
    if isSign c then some (.char c false, .tail)
    else if "dsw".toList.contains c then some (.kind false, .tail)
    else if "DSW".toList.contains c then some (.kind true, .tail)
    else if "Az".toList.contains c then some (.place, .tail)
    else if "bB<>".toList.contains c then some (.edge, .tail)
    else if "pP".toList.contains c then do
      let (category, rest) ← next? mode s
      if "LMNPSZC".toList.contains category.toUpper then some (.category, rest.cons) else none
    else match control? c with
      | some value => some (.char value false, .tail)
      | none => do
        let (values, rest) ← hexDigits mode (← digitCount? c) s
        return (.char (← charOfHex? values) (c == 'x'), rest.cons)

end Criteria.Text.Pattern
