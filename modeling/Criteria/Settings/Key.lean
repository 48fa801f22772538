import Criteria.Settings.Tree
import Criteria.Text.Rest

/-!
# Keys of sources

A source gives settings under keys. A key may be a path: names with points between them, each with
positions in brackets behind it. A key of another form is a single name.

## Main definitions

* `Settings.Path.ofKey`: the path that a key stands for.
-/

namespace Criteria.Settings

/-- A character of a name in a path. -/
def isNameChar (c : Char) : Bool := c.isAlphanum || c = '_' || c = '-'

/-- A space or a tab. -/
def isGap (c : Char) : Bool := c = ' ' || c = '\t'

/-- The position that a text between brackets stands for: digits, with a minus sign or without, and
gaps around them. -/
def position? (s : List Char) : Option Int :=
  let word := ((s.dropWhile isGap).reverse.dropWhile isGap).reverse
  if word.head? = some '+' then none else Text.integer? word

/-- A character between brackets. -/
def isInside (c : Char) : Bool := c != ']'

namespace Path

/-- The steps of a text: a name behind each point, a position between each two brackets. -/
def steps? (s : List Char) : Option Path :=
  match s with
  | [] => some []
  | '.' :: r =>
    let name := r.takeWhile isNameChar
    have := Text.length_dropWhile_le isNameChar r
    if name.isEmpty then none
    else do return .name (String.ofList name) :: (← steps? (r.dropWhile isNameChar))
  | '[' :: r =>
    match h : r.dropWhile isInside with
    | [] => none
    | _ :: rest =>
      have := Text.length_lt_of_dropWhile h
      do return .item (← position? (r.takeWhile isInside)) :: (← steps? rest)
  | _ => none
termination_by s.length
decreasing_by all_goals (rw [List.length_cons]; omega)

/-- The path that a key stands for. -/
def ofKey (key : String) : Path := (steps? ('.' :: key.toList)).getD [.name key]

end Path

end Criteria.Settings
