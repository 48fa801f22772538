import Criteria.Json.Basic
import Criteria.Number.Decimal

/-!
# Writing JSON text

Text is written compactly: no blanks, members in the order in which the value holds them. A
double always shows that it is one, by a point or by an exponent.

## Main definitions

* `Json.Number.digits`: the text of a number.
* `Json.escape`: the text of a string between its quotes.
* `Json.write`: a value in front of a text.
* `Json.print`: the text of a value.
-/

namespace Criteria.Json

/-! ### Numbers -/

/-- A double is written without an exponent while its leading digit stands in one of the places
`10 ^ -5` to `10 ^ 15`. -/
def isPositional (leading : Int) : Bool := decide (-5 ≤ leading) && decide (leading < 16)

/-- Scientific notation: one digit, the others behind a point, and a signed power of ten. -/
def scientific (d : Decimal) : List Char :=
  let fraction := d.digits.drop 1
  d.digits.take 1 ++ (if fraction.isEmpty then [] else '.' :: fraction) ++ 'e' ::
    (if d.leading < 0 then '-' else '+') :: Nat.toDigits 10 d.leading.natAbs

/-- The text of the size of a double: the fewest digits that read back, a tie going to the even
ones, with `.0` where they have neither a point nor an exponent. -/
def magnitudeText (m : Magnitude) : List Char :=
  let d := m.shortest .even
  if m.quanta = 0 then "0.0".toList
  else if isPositional d.leading then
    if 0 ≤ d.exponent then d.positional ++ ['.', '0'] else d.positional
  else scientific d

/-- The text of a number. -/
def Number.digits : Number → List Char
  | .integer value => (if value < 0 then ['-'] else []) ++ Nat.toDigits 10 value.natAbs
  | .real negative magnitude => (if negative then ['-'] else []) ++ magnitudeText magnitude

/-! ### Strings -/

/-- One lower-case hexadecimal digit. -/
def hexDigit (n : Nat) : Char := if n < 10 then Char.ofNat (48 + n) else Char.ofNat (87 + n)

/-- A character of a string, escaped where it has to be: the quote, the backslash and the control
characters. -/
def escapeChar (c : Char) : List Char :=
  if c = '"' then ['\\', '"']
  else if c = '\\' then ['\\', '\\']
  else if c = '\x08' then ['\\', 'b']
  else if c = '\x0c' then ['\\', 'f']
  else if c = '\n' then ['\\', 'n']
  else if c = '\r' then ['\\', 'r']
  else if c = '\t' then ['\\', 't']
  else if c.toNat < 32 then ['\\', 'u', '0', '0', hexDigit (c.toNat / 16), hexDigit (c.toNat % 16)]
  else [c]

/-- The text of a string between its quotes. -/
def escape (s : String) : List Char := s.toList.flatMap escapeChar

/-- A quoted string in front of a text. -/
def writeText (s : String) (rest : List Char) : List Char := '"' :: (escape s ++ '"' :: rest)

/-! ### Values -/

mutual

/-- The text of a value in front of a text. -/
def write : Json → List Char → List Char
  | .null, rest => "null".toList ++ rest
  | .boolean true, rest => "true".toList ++ rest
  | .boolean false, rest => "false".toList ++ rest
  | .number n, rest => n.digits ++ rest
  | .text s, rest => writeText s rest
  | .array [], rest => '[' :: ']' :: rest
  | .array (item :: items), rest => '[' :: write item (writeItems items (']' :: rest))
  | .object [], rest => '\x7b' :: '\x7d' :: rest
  | .object ((name, value) :: members), rest =>
    '\x7b' :: writeText name (':' :: write value (writeMembers members ('\x7d' :: rest)))

/-- The items after the first, each behind a comma. -/
def writeItems : List Json → List Char → List Char
  | [], rest => rest
  | item :: items, rest => ',' :: write item (writeItems items rest)

/-- The members after the first, each behind a comma. -/
def writeMembers : List (String × Json) → List Char → List Char
  | [], rest => rest
  | (name, value) :: members, rest =>
    ',' :: writeText name (':' :: write value (writeMembers members rest))

end

/-- The text of a value. -/
def print (value : Json) : String := String.ofList (write value [])

end Criteria.Json
