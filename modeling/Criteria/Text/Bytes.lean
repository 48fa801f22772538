/-!
# Distances in texts

Places in a text are told by their distance from its front, counted in the bytes of UTF-8. A
distance that ends inside a character is none.

## Main definitions

* `Text.byteCount`: how many bytes a text has.
* `Text.behind?`, `Text.upTo?`, `Text.between?`: the parts of a text at distances.
-/

namespace Criteria.Text

/-- How many bytes a text has. -/
def byteCount : List Char → Nat
  | [] => 0
  | c :: s => c.utf8Size + byteCount s

/-- What lies behind so many bytes. -/
def behind? : Nat → List Char → Option (List Char)
  | 0, s => some s
  | _ + 1, [] => none
  | n + 1, c :: s => if c.utf8Size ≤ n + 1 then behind? (n + 1 - c.utf8Size) s else none

/-- What lies within so many bytes. -/
def upTo? : Nat → List Char → Option (List Char)
  | 0, _ => some []
  | _ + 1, [] => none
  | n + 1, c :: s =>
    if c.utf8Size ≤ n + 1 then (upTo? (n + 1 - c.utf8Size) s).map (c :: ·) else none

/-- What lies between two distances. -/
def between? (first last : Nat) (s : List Char) : Option (List Char) := do
  upTo? (last - first) (← behind? first s)

end Criteria.Text
