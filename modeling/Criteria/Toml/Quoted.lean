import Criteria.Text.CodePoint

/-!
# Strings of TOML text

A string stands between quotation marks or apostrophes, one or three of each. Between quotation
marks a backslash begins an escape; between apostrophes every character stands for itself. A line
may end only between three marks; its end, a line feed with a carriage return before it or without,
stands for itself too.

## Main definitions

* `Toml.Step`: the result of taking something off the front of a text.
* `Toml.lineFeed?`: what is left behind the end of a line.
* `Toml.escaped`: the character that an escape stands for.
* `Toml.basicString`, `Toml.literalString`: strings on one line.
* `Toml.basicLines`, `Toml.literalLines`: strings on several lines.
-/

namespace Criteria.Toml

open Text (Rest Remaining)

/-- What was taken off the front of a text, with the rest; none if the text does not begin so. -/
abbrev Step (α : Type) (s : List Char) : Type := Option (α × Rest s)

/-- The same step, seen from a longer text. -/
def Step.after {α : Type} {s r : List Char} (h : r.length < s.length) (step : Step α r) :
    Step α s :=
  step.map fun (value, rest) => (value, rest.after h)

/-- A space or a tab. -/
def isBlank (c : Char) : Bool := c = ' ' || c = '\t'

/-- The text behind its leading blanks. -/
def skipBlanks (s : List Char) : List Char := s.dropWhile isBlank

/-- The text behind its leading blanks, as what is left of the text. -/
def blankless (s : List Char) : Remaining s := ⟨skipBlanks s, Text.length_dropWhile_le isBlank s⟩

/-- A character that may stand in strings and comments: no control character but the tab. -/
def isPlain (c : Char) : Bool := c = '\t' || (decide (32 ≤ c.toNat) && c.toNat != 127)

/-- What is left behind the end of a line, if the text begins with one. -/
def lineFeed? : (s : List Char) → Option (Rest s)
  | '\n' :: _ => some .tail
  | '\r' :: '\n' :: _ => some Rest.tail.cons
  | _ => none

/-! ### Escapes -/

/-- The character that an escape stands for, the backslash being taken already. -/
def escaped : (s : List Char) → Step Char s
  | 'b' :: _ => some ('\x08', .tail)
  | 't' :: _ => some ('\t', .tail)
  | 'n' :: _ => some ('\n', .tail)
  | 'f' :: _ => some ('\x0c', .tail)
  | 'e' :: _ => some ('\x1b', .tail)
  | 'r' :: _ => some ('\r', .tail)
  | '"' :: _ => some ('"', .tail)
  | '\\' :: _ => some ('\\', .tail)
  | 'x' :: s => do
    let (c, rest) ← Text.codePoint? 2 s
    return (c, rest.cons)
  | 'u' :: s => do
    let (c, rest) ← Text.codePoint? 4 s
    return (c, rest.cons)
  | 'U' :: s => do
    let (c, rest) ← Text.codePoint? 8 s
    return (c, rest.cons)
  | _ => none

/-! ### Strings on one line -/

/-- A string up to its closing quotation mark, the opening one being taken already. -/
def basicString (s : List Char) : Step (List Char) s :=
  match s with
  | '"' :: _ => some ([], .tail)
  | '\\' :: s => do
    let (c, rest) ← escaped s
    have h := rest.2
    let (text, after) ← basicString rest.1
    return (c :: text, after.after (Nat.lt_succ_of_lt h))
  | c :: s =>
    if isPlain c then do
      let (text, after) ← basicString s
      return (c :: text, after.cons)
    else none
  | [] => none
termination_by s.length
decreasing_by all_goals (simp_wf <;> omega)

/-- A string up to its closing apostrophe, the opening one being taken already. -/
def literalString : (s : List Char) → Step (List Char) s
  | '\'' :: _ => some ([], .tail)
  | c :: s =>
    if isPlain c then do
      let (text, after) ← literalString s
      return (c :: text, after.cons)
    else none
  | [] => none

/-! ### Strings on several lines -/

/-- The text behind a line's end, if one follows the opening marks. -/
def skipLineEnd (s : List Char) : Remaining s :=
  match lineFeed? s with
  | some rest => rest.remaining
  | none => .all s

/-- How many times a mark stands at the front of a text. -/
def marksInFront (mark : Char) (s : List Char) : Nat := (s.takeWhile (· = mark)).length

theorem length_drop_lt_of_marksInFront {mark : Char} {s : List Char}
    (h : 3 ≤ marksInFront mark s) : (s.drop (min (marksInFront mark s) 5)).length < s.length := by
  have hs : marksInFront mark s ≤ s.length := (List.takeWhile_prefix _).length_le
  rw [List.length_drop]
  omega

/-- The text behind the marks that close a string, and the marks in front of them that belong to
the string: up to two. -/
def closing (mark : Char) (s : List Char) : Step (List Char) s :=
  if h : 3 ≤ marksInFront mark s then
    some (List.replicate (min (marksInFront mark s) 5 - 3) mark,
      ⟨s.drop (min (marksInFront mark s) 5), length_drop_lt_of_marksInFront h⟩)
  else none

/-- What is left behind all blanks and line ends. -/
def blankLines (s : List Char) : Remaining s :=
  match s with
  | [] => .all []
  | c :: r =>
    if isBlank c then (blankLines r).cons.remaining
    else match lineFeed? (c :: r) with
      | some ⟨q, h⟩ => (Rest.past ⟨q, h⟩ (blankLines q)).remaining
      | none => .all (c :: r)
termination_by s.length
decreasing_by
  · exact Nat.lt_succ_self _
  · exact h

/-- What is left behind a backslash that ends a line, and behind all blanks and line ends after it,
the backslash being taken already. -/
def continued? (s : List Char) : Option (Rest s) := do
  let rest ← lineFeed? (blankless s).1
  return (rest.past (blankLines rest.1)).within (blankless s)

/-- A string up to its three closing quotation marks, the opening ones being taken already. -/
def basicLines (s : List Char) : Step (List Char) s :=
  match closing '"' s with
  | some (text, rest) => some (text, rest)
  | none =>
    match s with
    | '\\' :: s =>
      match continued? s with
      | some rest => do
        have h := rest.2
        let (text, after) ← basicLines rest.1
        return (text, after.after (Nat.lt_succ_of_lt h))
      | none => do
        let (c, rest) ← escaped s
        have h := rest.2
        let (text, after) ← basicLines rest.1
        return (c :: text, after.after (Nat.lt_succ_of_lt h))
    | c :: s =>
      if isPlain c || (lineFeed? (c :: s)).isSome then do
        let (text, after) ← basicLines s
        return (c :: text, after.cons)
      else none
    | [] => none
termination_by s.length
decreasing_by all_goals (simp_wf <;> omega)

/-- A string up to its three closing apostrophes, the opening ones being taken already. -/
def literalLines (s : List Char) : Step (List Char) s :=
  match closing '\'' s with
  | some (text, rest) => some (text, rest)
  | none =>
    match s with
    | c :: s =>
      if isPlain c || (lineFeed? (c :: s)).isSome then do
        let (text, after) ← literalLines s
        return (c :: text, after.cons)
      else none
    | [] => none

end Criteria.Toml
