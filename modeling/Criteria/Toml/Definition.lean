import Criteria.Number.Numeral
import Criteria.Text.Cut
import Criteria.Toml.Moment
import Criteria.Toml.Quoted

/-!
# Definitions of TOML text

A TOML text is a list of lines. A line opens a table, alone or as the next one of an array of
tables, or it defines a key; a key may name inner tables on the way. The value of a key is a scalar,
an array, or a table written in place. The items of an array and the keys of such a table are taken
apart in the same way.

## Main definitions

* `Toml.Scalar`: values without parts.
* `Toml.Part`, `Toml.Path`: the places of values.
* `Toml.Definition`: what a text defines.
* `Toml.definitions?`: the definitions of a text, in order.
-/

namespace Criteria.Toml

open Text (Rest Remaining)

/-- A value without parts. -/
inductive Scalar where
  | text (s : String)
  | integer (n : Int)
  | real (x : Double)
  | flag (b : Bool)
  | moment (m : Moment)
deriving DecidableEq, Inhabited

/-- One part of a path: the name of a key, or the place of an item in an array, counted from
zero. -/
inductive Part where
  | name (name : String)
  | item (place : Nat)
deriving DecidableEq, Inhabited

/-- The parts that lead to a value. -/
abbrev Path : Type := List Part

/-- The path of names. -/
def Path.ofNames (names : List String) : Path := names.map .name

/-- A value without the parts that it has: these are defined one by one. -/
inductive Content where
  | table
  | array
  | scalar (value : Scalar)
deriving DecidableEq, Inhabited

/-- One definition. -/
inductive Definition where
  /-- A table is opened. -/
  | table (key : List String)
  /-- The next table of an array is opened. -/
  | tableItem (key : List String)
  /-- A key has a value. It stands behind the path that leads from the table that is open to the
  table, or to the array, in which it is written. -/
  | value (within key : Path) (content : Content)
deriving DecidableEq, Inhabited

/-! ### Keys -/

/-- A character of a key without quotes. -/
def isBare (c : Char) : Bool := c.isAlphanum || c = '_' || c = '-'

/-- One part of a key. -/
def keyPart : (s : List Char) → Step String s
  | '"' :: s => do
    let (text, rest) ← basicString s
    return (String.ofList text, rest.cons)
  | '\'' :: s => do
    let (text, rest) ← literalString s
    return (String.ofList text, rest.cons)
  | c :: s =>
    if isBare c then
      some (String.ofList (c :: s.takeWhile isBare), .ofDropWhile isBare)
    else none
  | [] => none

/-- A key: its parts with points between them. -/
def key (s : List Char) : Step (List String) s := do
  let (part, rest) ← keyPart s
  match h : skipBlanks rest.1 with
  | '.' :: r =>
    have h₁ := Text.length_lt_of_dropWhile h
    have h₂ := Text.length_dropWhile_le isBlank r
    have h₃ := rest.2
    let (parts, after) ← key (skipBlanks r)
    return (part :: parts, ⟨after.1, by have := after.2; simp only [skipBlanks] at *; omega⟩)
  | _ => return ([part], rest)
termination_by s.length
decreasing_by simp only [skipBlanks] at *; omega

/-! ### Scalars -/

/-- The number that digits of a radix stand for; single underscores may stand between digits. -/
def digitsOf? (radix : Nat) (s : List Char) : Option Nat := do
  let groups := Text.cutAt '_' s
  let values ← groups.flatten.mapM Text.hexValue?
  if groups.all (!·.isEmpty) && values.all (decide <| · < radix) then
    return values.foldl (fun n value => radix * n + value) 0
  else none

/-- The number that decimal digits stand for; none begin with a zero but zero itself. -/
def decimal? (s : List Char) : Option Nat :=
  if s.head? = some '0' ∧ s ≠ ['0'] then none else digitsOf? 10 s

/-- The integer that a word stands for, whatever its size. -/
def anyInteger? : List Char → Option Int
  | '0' :: 'x' :: s => (digitsOf? 16 s).map Int.ofNat
  | '0' :: 'o' :: s => (digitsOf? 8 s).map Int.ofNat
  | '0' :: 'b' :: s => (digitsOf? 2 s).map Int.ofNat
  | '+' :: s => (decimal? s).map Int.ofNat
  | '-' :: s => (decimal? s).map fun n => -(n : Int)
  | s => (decimal? s).map Int.ofNat

/-- Integers have 64 bits. -/
def isWord (n : Int) : Bool :=
  let half : Int := (wordBound / 2 : Nat)
  decide (-half ≤ n) && decide (n < half)

/-- A text without the sign in front of it. -/
def unsigned : List Char → List Char
  | '+' :: s => s
  | '-' :: s => s
  | s => s

/-- A character that does not begin an exponent. -/
def isMantissaChar (c : Char) : Bool := c ≠ 'e' && c ≠ 'E'

/-- A word without a sign is a number with a point, or with an exponent, or with both. Digits stand
on both sides of a point. -/
def isReal (s : List Char) : Bool :=
  let mantissa := s.takeWhile isMantissaChar
  let exponent := s.dropWhile isMantissaChar
  let fraction := mantissa.dropWhile (· ≠ '.')
  (decimal? (mantissa.takeWhile (· ≠ '.'))).isSome &&
    (fraction.isEmpty || (digitsOf? 10 (fraction.drop 1)).isSome) &&
    (exponent.isEmpty || (digitsOf? 10 (unsigned (exponent.drop 1))).isSome) &&
    !(fraction.isEmpty && exponent.isEmpty)

/-- The double that a word stands for; a number beyond all doubles is none. -/
def real? (word : List Char) : Option Double :=
  if ["inf", "nan"].any (·.toList = unsigned word) then Double.ofText? word
  else if isReal (unsigned word) then
    (Double.ofText? (word.filter (· ≠ '_'))).filter Double.isFinite
  else none

/-- The scalar that a word stands for. -/
def scalarOfWord? (word : List Char) : Option Scalar :=
  if word = "true".toList then some (.flag true)
  else if word = "false".toList then some (.flag false)
  else match anyInteger? word with
    | some n => if isWord n then some (.integer n) else none
    | none => match real? word with
      | some x => some (.real x)
      | none => (Moment.ofText? word).map .moment

/-- A character of a word. -/
def isWordChar (c : Char) : Bool := c.isAlphanum || "_+-.:".toList.contains c

/-- The word at the front of a text. A space may stand in it between a day and a time of that. -/
def word : (s : List Char) → Step (List Char) s
  | [] => none
  | c :: s =>
    if isWordChar c then
      let first := c :: s.takeWhile isWordChar
      match h : s.dropWhile isWordChar with
      | ' ' :: d :: r =>
        if (Moment.ofText? first).isSome && d.isDigit then
          have h₁ := Text.length_lt_of_dropWhile h
          have h₂ := Text.length_dropWhile_le isWordChar r
          some (first ++ ' ' :: d :: r.takeWhile isWordChar,
            ⟨r.dropWhile isWordChar, by simp only [List.length_cons] at *; omega⟩)
        else some (first, .ofDropWhile isWordChar)
      | _ => some (first, .ofDropWhile isWordChar)
    else none

/-- A scalar. -/
def scalar : (s : List Char) → Step Scalar s
  | '"' :: '"' :: '"' :: s => do
    let (text, rest) ← basicLines (skipLineEnd s).1
    return (.text (String.ofList text), (rest.within (skipLineEnd s)).cons.cons.cons)
  | '\'' :: '\'' :: '\'' :: s => do
    let (text, rest) ← literalLines (skipLineEnd s).1
    return (.text (String.ofList text), (rest.within (skipLineEnd s)).cons.cons.cons)
  | '"' :: s => do
    let (text, rest) ← basicString s
    return (.text (String.ofList text), rest.cons)
  | '\'' :: s => do
    let (text, rest) ← literalString s
    return (.text (String.ofList text), rest.cons)
  | s => do
    let (word, rest) ← word s
    return (← scalarOfWord? word, rest)

/-! ### Gaps -/

/-- The text behind a comment; its line's end is left. -/
def skipComment (s : List Char) : Remaining s :=
  match s with
  | '#' :: _ => (Rest.ofDropWhile isPlain).remaining
  | s => .all s

/-- The text behind blanks, line ends and comments. -/
def skipLines (s : List Char) : Remaining s :=
  match s with
  | [] => .all []
  | c :: r =>
    if isBlank c then (skipLines r).cons.remaining
    else if c = '#' then
      let ⟨q, h⟩ : Rest (c :: r) := .ofDropWhile isPlain
      (Rest.past ⟨q, h⟩ (skipLines q)).remaining
    else match lineFeed? (c :: r) with
      | some ⟨q, h⟩ => (Rest.past ⟨q, h⟩ (skipLines q)).remaining
      | none => .all (c :: r)
termination_by s.length
decreasing_by
  · exact Nat.lt_succ_self _
  · exact h
  · exact h

/-- The first character behind blanks, line ends and comments. -/
def mark? (s : List Char) : Option (Char × Rest s) :=
  match h : (skipLines s).1 with
  | c :: _ => some (c, (Rest.ofEq h .tail).within (skipLines s))
  | [] => none

/-- The text behind a gap between the parts of a definition: blanks, and in a table written in place
line ends and comments too. -/
def gap (inPlace : Bool) (s : List Char) : Remaining s :=
  if inPlace then skipLines s else blankless s

/-! ### Keys with values -/

/-- A key with the equals sign behind it, and the gaps around that. -/
def keyOf (inPlace : Bool) (s : List Char) : Step (List String) s := do
  let (path, rest) ← key s
  let part := gap inPlace rest.1
  match h : part.1 with
  | '=' :: r =>
    return (path, rest.trans ((Rest.ofEq h (gap inPlace r).cons).within part))
  | _ => none

/-- At most so many arrays and tables written in place may be open at a time. -/
def nestingLimit : Nat := 80

/-- What is written between brackets: the keys of a table, or the items of an array from a place
on. -/
inductive Bracket where
  | keys
  | items (place : Nat)

namespace Bracket

/-- The brackets that are opened by a character, with what is in them. -/
def openedBy? : Char → Option (Content × Bracket)
  | '\x7b' => some (.table, .keys)
  | '[' => some (.array, .items 0)
  | _ => none

/-- The character that closes brackets. -/
def close : Bracket → Char
  | .keys => '\x7d'
  | .items _ => ']'

/-- What is left between brackets behind an element. -/
def next : Bracket → Bracket
  | .keys => .keys
  | .items place => .items (place + 1)

end Bracket

/-- The key of an element between brackets: that with the equals sign behind it, or the place of an
item. -/
def elementKey (bracket : Bracket) (s : List Char) : Option (Path × Remaining s) :=
  match bracket with
  | .keys => (keyOf true s).map fun (key, rest) => (.ofNames key, rest.remaining)
  | .items place => some ([.item place], .all s)

mutual

/-- The value of a key, inside the table or the array at a path, with the values that are parts of
it; so many more brackets may be opened. -/
def value (depth : Nat) (within key : Path) (s : List Char) : Step (List Definition) s :=
  match s with
  | [] => none
  | c :: r => match Bracket.openedBy? c, depth with
    | some _, 0 => none
    | some (content, bracket), depth + 1 => do
      let (parts, rest) ← elements depth bracket (within ++ key) r
      return (.value within key content :: parts, rest.cons)
    | none, _ => do
      let (scalar, rest) ← scalar (c :: r)
      return ([.value within key (.scalar scalar)], rest)
termination_by (s.length, 0)
decreasing_by exact .left _ _ (Nat.lt_succ_self _)

/-- The elements between brackets, up to the closing one: with commas between them, and perhaps one
behind the last. -/
def elements (depth : Nat) (bracket : Bracket) (within : Path) (s : List Char) :
    Step (List Definition) s := do
  let front := skipLines s
  match mark? front.1 with
  | some (c, rest) =>
    if c = bracket.close then return ([], rest.within front)
    else
      let (key, behind) ← elementKey bracket front.1
      let (first, rest) ← value depth within key behind.1
      let (c, after) ← mark? rest.1
      let rest := ((rest.trans after).within behind).within front
      if c = bracket.close then return (first, rest)
      else if c = ',' then
        let (others, final) ← elements depth bracket.next within rest.1
        return (first ++ others, rest.trans final)
      else none
  | none => none
termination_by (s.length, 1)
decreasing_by
  · exact .right' _ (Nat.le_trans behind.2 front.2) Nat.zero_lt_one
  · exact .left _ _ rest.2

end

/-! ### Lines -/

/-- The text behind the end of a line, with nothing in front of it but blanks and a comment. -/
def lineEnd? (s : List Char) : Option (List Char) :=
  match (skipComment (skipBlanks s)).1 with
  | [] => some []
  | r => (lineFeed? r).map (·.1)

/-- The key of a line that opens a table, up to the closing bracket, the opening one being taken
already. -/
def headerKey (s : List Char) : Step (List String) s := do
  let (key, rest) ← key (skipBlanks s)
  match h : skipBlanks rest.1 with
  | ']' :: _ =>
    let behind : Rest rest.1 := (Rest.ofEq h .tail).within (blankless rest.1)
    return (key, (rest.trans behind).within (blankless s))
  | _ => none

/-- A line that opens a table, the opening bracket being taken already. Two brackets stand around
the key of an array of tables. -/
def header : (s : List Char) → Step Definition s
  | '[' :: s => do
    let (key, rest) ← headerKey s
    match h : rest.1 with
    | ']' :: _ => return (.tableItem key, (rest.trans (Rest.ofEq h .tail)).cons)
    | _ => none
  | s => do
    let (key, rest) ← headerKey s
    return (.table key, rest)

/-- The definitions of one line; an empty line has none. -/
def line (s : List Char) : Option (List Definition × Remaining s) :=
  match h : skipBlanks s with
  | '[' :: r => do
    let (definition, rest) ← header r
    return ([definition], ⟨rest.1,
      Nat.le_of_lt (Nat.lt_trans rest.2 (Text.length_lt_of_dropWhile h))⟩)
  | '#' :: _ => some ([], .all s)
  | '\r' :: _ => some ([], .all s)
  | '\n' :: _ => some ([], .all s)
  | [] => some ([], .all s)
  | q => do
    have h₁ : q.length ≤ s.length := h ▸ Text.length_dropWhile_le isBlank s
    let (key, rest) ← keyOf false q
    let (definitions, after) ← value nestingLimit [] (.ofNames key) rest.1
    return (definitions, ⟨after.1, Nat.le_trans (Nat.le_of_lt (rest.trans after).2) h₁⟩)

/-- The definitions of at most so many lines. -/
def lines : Nat → List Char → Option (List Definition)
  | 0, _ => some []
  | count + 1, s => do
    let (definitions, rest) ← line s
    match ← lineEnd? rest.1 with
    | [] => return definitions
    | r => return definitions ++ (← lines count r)

/-- A text without a mark of byte order in front. -/
def unmarked : List Char → List Char
  | '\uFEFF' :: s => s
  | s => s

/-- The definitions of a text. There are at most as many lines as characters, and one. -/
def definitions? (s : String) : Option (List Definition) :=
  let text := unmarked s.toList
  lines (text.length + 1) text

end Criteria.Toml
