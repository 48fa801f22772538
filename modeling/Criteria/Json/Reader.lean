import Criteria.Json.Numeral
import Criteria.Text.Rest

/-!
# Reading JSON text

A reader takes a value off the front of a text. Readers work from left to right and stop at the
first fault: text that is not JSON, or JSON that is not of the wanted shape. At most 127
containers may be open at a time; values that are only skipped have no such limit, may hold
numbers beyond the range of doubles and may hold escapes of single surrogates.

A free-form value may be given as text: an object with one member, of a reserved name, stands for
the value that its string is the text of.

## Main definitions

* `Json.Fault`: why a text was not read.
* `Json.Reader`: takes a value of some type off the front of a text.
* `Json.Reader.value`, `Json.Reader.written`, `Json.Reader.skip`: free-form values.
* `Json.textMember`: the name of the member that holds a value given as text.
* `Json.Reader.text`, `Json.Reader.flag`, `Json.Reader.natural`, `Json.Reader.orNull`,
  `Json.Reader.listOf`, `Json.Reader.record`: values of a given shape.
* `Json.Reader.run`: reads a whole text.
-/

namespace Criteria.Json

open Text (Rest Remaining hexValue?)

/-- Why a text was not read. -/
inductive Fault where
  /-- The text is not JSON, or is beyond the limits of the reader. -/
  | malformed
  /-- The text is JSON so far, but not of the wanted shape. -/
  | mismatched
deriving DecidableEq, Inhabited

/-- The result of taking something off the front of a text. -/
abbrev Step (α : Type) (s : List Char) : Type := Except Fault (α × Rest s)

/-- The same step, seen from a longer text. -/
def Step.after {s r : List Char} (h : r.length < s.length) (step : Step α r) : Step α s :=
  step.map fun (value, rest) => (value, rest.after h)

/-- The same step, seen from the text with a character in front. -/
def Step.cons {c : Char} {s : List Char} (step : Step α s) : Step α (c :: s) :=
  step.map fun (value, rest) => (value, rest.cons)

/-- A reader knows how many more containers it may open. -/
abbrev Reader (α : Type) : Type := Nat → (s : List Char) → Step α s

/-! ### Blanks -/

/-- The blanks of JSON text. -/
def isBlank (c : Char) : Bool := c = ' ' || c = '\n' || c = '\t' || c = '\r'

/-- The text behind its leading blanks. -/
def skipBlanks (s : List Char) : List Char := s.dropWhile isBlank

theorem length_skipBlanks_le (s : List Char) : (skipBlanks s).length ≤ s.length :=
  Text.length_dropWhile_le isBlank s

theorem length_lt_of_skipBlanks {s : List Char} {c : Char} {r : List Char}
    (h : skipBlanks s = c :: r) : r.length < s.length :=
  Text.length_lt_of_dropWhile h

/-! ### Strings -/

/-- One piece of a quoted string: a character, or an escaped 16-bit unit. -/
inductive Piece where
  | char (value : Char)
  | unit (value : Nat)
deriving DecidableEq, Inhabited

/-- The 16-bit unit written as four hexadecimal digits. -/
def unit? (a b c d : Char) : Option Nat := do
  return 4096 * (← hexValue? a) + 256 * (← hexValue? b) + 16 * (← hexValue? c) + (← hexValue? d)

/-- The character that a one-letter escape stands for. -/
def escaped? (c : Char) : Option Char :=
  if c = '"' then some '"'
  else if c = '\\' then some '\\'
  else if c = '/' then some '/'
  else if c = 'b' then some '\x08'
  else if c = 'f' then some '\x0c'
  else if c = 'n' then some '\n'
  else if c = 'r' then some '\r'
  else if c = 't' then some '\t'
  else none

/-- The pieces of a string up to its closing quote, the opening one being taken already. -/
def pieces : (s : List Char) → Step (List Piece) s
  | [] => .error .malformed
  | '"' :: _ => .ok ([], .tail)
  | '\\' :: 'u' :: a :: b :: c :: d :: s =>
    match unit? a b c d with
    | none => .error .malformed
    | some unit => do
      let (rest, after) ← pieces s
      return (.unit unit :: rest, after.after (by simp only [List.length_cons]; omega))
  | '\\' :: c :: s =>
    match escaped? c with
    | none => .error .malformed
    | some value => do
      let (rest, after) ← pieces s
      return (.char value :: rest, after.after (by simp only [List.length_cons]; omega))
  | c :: s =>
    if c.toNat < 32 ∨ c = '\\' then .error .malformed
    else do
      let (rest, after) ← pieces s
      return (.char c :: rest, after.cons)

/-- A 16-bit unit that begins a pair. -/
def isLeading (unit : Nat) : Bool := decide (0xD800 ≤ unit) && decide (unit < 0xDC00)

/-- A 16-bit unit that ends a pair. -/
def isTrailing (unit : Nat) : Bool := decide (0xDC00 ≤ unit) && decide (unit < 0xE000)

/-- The string made of its pieces; a unit of a pair must not stand alone. -/
def joinPieces : List Piece → Option (List Char)
  | [] => some []
  | .char c :: rest => (joinPieces rest).map (c :: ·)
  | .unit u :: .unit v :: rest =>
    if isLeading u then
      if isTrailing v then
        (joinPieces rest).map (Char.ofNat (0x10000 + 1024 * (u - 0xD800) + (v - 0xDC00)) :: ·)
      else none
    else if isTrailing u then none
    else (joinPieces (.unit v :: rest)).map (Char.ofNat u :: ·)
  | .unit u :: rest =>
    if isLeading u || isTrailing u then none
    else (joinPieces rest).map (Char.ofNat u :: ·)

/-- The string made of its pieces. -/
def textOfPieces (ps : List Piece) : Except Fault String :=
  match joinPieces ps with
  | some chars => .ok (String.ofList chars)
  | none => .error .malformed

/-! ### Numerals -/

/-- A non-empty run of digits. -/
def digitRun (s : List Char) : Step (List Char) s :=
  match h : s.takeWhile Char.isDigit with
  | [] => .error .malformed
  | c :: run => .ok (c :: run, ⟨s.dropWhile Char.isDigit, by
      have := congrArg List.length (@List.takeWhile_append_dropWhile _ Char.isDigit s)
      rw [h, List.length_append, List.length_cons] at this
      omega⟩)

/-- The digits before the point: no zero in front of another digit. -/
def wholeDigits (s : List Char) : Step (List Char) s :=
  match digitRun s with
  | .ok ('0' :: _ :: _, _) => .error .malformed
  | step => step

/-- The digits behind a point, if the text begins with one. -/
def fractionDigits : (s : List Char) → Except Fault (Option (List Char) × Remaining s)
  | '.' :: s => do
    let (run, rest) ← digitRun s
    return (some run, rest.cons.remaining)
  | s => .ok (none, .all s)

/-- The sign and digits behind the letter of an exponent. -/
def signedDigits : (s : List Char) → Step (Bool × List Char) s
  | '-' :: s => do
    let (run, rest) ← digitRun s
    return ((true, run), rest.cons)
  | '+' :: s => do
    let (run, rest) ← digitRun s
    return ((false, run), rest.cons)
  | s => do
    let (run, rest) ← digitRun s
    return ((false, run), rest)

/-- The exponent, if the text begins with one. -/
def exponentDigits : (s : List Char) → Except Fault (Option (Bool × List Char) × Remaining s)
  | c :: s =>
    if c = 'e' ∨ c = 'E' then do
      let (exponent, rest) ← signedDigits s
      return (some exponent, rest.cons.remaining)
    else .ok (none, .all (c :: s))
  | [] => .ok (none, .all [])

/-- A numeral without its sign. -/
def unsignedNumeral (negative : Bool) (s : List Char) : Step Numeral s := do
  let (whole, rest) ← wholeDigits s
  let (fraction, rest₁) ← fractionDigits rest.1
  let (exponent, rest₂) ← exponentDigits rest₁.1
  return (⟨negative, whole, fraction, exponent⟩,
    ⟨rest₂.1, Nat.lt_of_le_of_lt (Nat.le_trans rest₂.2 rest₁.2) rest.2⟩)

/-- A numeral. -/
def numeral : (s : List Char) → Step Numeral s
  | '-' :: s => (unsignedNumeral true s).cons
  | s => unsignedNumeral false s

/-! ### Lists of items and members -/

/-- The items of an array behind its first one, up to the closing bracket. -/
def itemsTail (item : (s : List Char) → Step α s) (s : List Char) : Step (List α) s :=
  match h : skipBlanks s with
  | ']' :: r => .ok ([], ⟨r, length_lt_of_skipBlanks h⟩)
  | ',' :: r => do
    have hr := length_lt_of_skipBlanks h
    let (first, rest) ← item r
    have := rest.2
    let (others, after) ← itemsTail item rest.1
    return (first :: others, after.after (Nat.lt_trans rest.2 hr))
  | _ => .error .malformed
termination_by s.length

/-- The items of an array, the opening bracket being taken already. -/
def items (item : (s : List Char) → Step α s) (s : List Char) : Step (List α) s :=
  match h : skipBlanks s with
  | ']' :: r => .ok ([], ⟨r, length_lt_of_skipBlanks h⟩)
  | _ => do
    let (first, rest) ← item s
    let (others, after) ← itemsTail item rest.1
    return (first :: others, after.after rest.2)

/-- A name and the colon behind it, the opening quote being taken already. -/
def memberName (s : List Char) : Step (List Piece) s := do
  let (name, rest) ← pieces s
  match h : skipBlanks rest.1 with
  | ':' :: r => return (name, ⟨r, Nat.lt_trans (length_lt_of_skipBlanks h) rest.2⟩)
  | _ => .error .malformed

/-- One member, the opening quote of its name being taken already. -/
def member (value : (s : List Char) → Step α s) (s : List Char) : Step (List Piece × α) s := do
  let (name, rest) ← memberName s
  let (held, after) ← value rest.1
  return ((name, held), after.after rest.2)

/-- The members of an object behind its first one, up to the closing brace. -/
def membersTail (value : (s : List Char) → Step α s) (s : List Char) :
    Step (List (List Piece × α)) s :=
  match h : skipBlanks s with
  | '\x7d' :: r => .ok ([], ⟨r, length_lt_of_skipBlanks h⟩)
  | ',' :: r =>
    have hr := length_lt_of_skipBlanks h
    match h' : skipBlanks r with
    | '"' :: q => do
      have hq := Nat.lt_trans (length_lt_of_skipBlanks h') hr
      let (first, rest) ← member value q
      have := rest.2
      let (others, after) ← membersTail value rest.1
      return (first :: others, after.after (Nat.lt_trans rest.2 hq))
    | _ => .error .malformed
  | _ => .error .malformed
termination_by s.length

/-- The members of an object, the opening brace being taken already. -/
def members (value : (s : List Char) → Step α s) (s : List Char) :
    Step (List (List Piece × α)) s :=
  match h : skipBlanks s with
  | '\x7d' :: r => .ok ([], ⟨r, length_lt_of_skipBlanks h⟩)
  | '"' :: q => do
    have hq := length_lt_of_skipBlanks h
    let (first, rest) ← member value q
    let (others, after) ← membersTail value rest.1
    return (first :: others, after.after (Nat.lt_trans rest.2 hq))
  | _ => .error .malformed

/-! ### Values -/

/-- What becomes of the parts of a value; a fault where a part has no meaning. -/
structure Meaning (α : Type) where
  null : α
  boolean : Bool → α
  numeral : Numeral → Option α
  text : List Piece → Option α
  array : List α → α
  object : List (List Piece × α) → Except Fault α

/-- Takes the answer, if there is one. -/
def orMalformed : Option α → Except Fault α
  | some value => .ok value
  | none => .error .malformed

/-- One value, given how to read the values inside it; none if no container may be opened. -/
def one (meaning : Meaning α) (inner : Option ((s : List Char) → Step α s)) (s : List Char) :
    Step α s :=
  match h : skipBlanks s with
  | 'n' :: 'u' :: 'l' :: 'l' :: r =>
    .ok (meaning.null, ⟨r, by have := length_lt_of_skipBlanks h; simp at this; omega⟩)
  | 't' :: 'r' :: 'u' :: 'e' :: r =>
    .ok (meaning.boolean true, ⟨r, by have := length_lt_of_skipBlanks h; simp at this; omega⟩)
  | 'f' :: 'a' :: 'l' :: 's' :: 'e' :: r =>
    .ok (meaning.boolean false, ⟨r, by have := length_lt_of_skipBlanks h; simp at this; omega⟩)
  | '"' :: r => do
    let (written, rest) ← pieces r
    return (← orMalformed (meaning.text written), rest.after (length_lt_of_skipBlanks h))
  | '[' :: r =>
    match inner with
    | none => .error .malformed
    | some inner => do
      let (written, rest) ← items inner r
      return (meaning.array written, rest.after (length_lt_of_skipBlanks h))
  | '\x7b' :: r =>
    match inner with
    | none => .error .malformed
    | some inner => do
      let (written, rest) ← members inner r
      return (← meaning.object written, rest.after (length_lt_of_skipBlanks h))
  | c :: r => do
    let (written, rest) ← numeral (c :: r)
    return (← orMalformed (meaning.numeral written), ⟨rest.1, by
      have := length_skipBlanks_le s
      have := rest.2
      rw [h] at *
      omega⟩)
  | [] => .error .malformed

/-- One value in which at most so many containers are open at a time. -/
def nested (meaning : Meaning α) : Reader α
  | 0 => one meaning none
  | open' + 1 => one meaning (some (nested meaning open'))

/-- The members under the names that their pieces make up. -/
def nameMembers (written : List (List Piece × α)) : Except Fault (List (String × α)) :=
  written.mapM fun (name, value) => do return (← textOfPieces name, value)

/-- Values as they are written: members in their order, with repetitions. -/
def asWritten : Meaning Json where
  null := .null
  boolean := .boolean
  numeral n := n.number?.map .number
  text ps := (joinPieces ps).map fun chars => .text (String.ofList chars)
  array := .array
  object ms := (nameMembers ms).map .object

/-- The name of the member that holds a value given as text. -/
def textMember : String := "$serde_json::private::RawValue"

/-- The object of given members: sorted by name, the last of several equal names kept. If the first
member has the reserved name, it holds the text of the value, and is the only one. -/
def objectOf (ofText : String → Except Fault Json) :
    List (String × Json) → Except Fault Json
  | (name, held) :: others =>
    if name = textMember then
      match held with
      | .text s => match ofText s with
        | .ok value => if others.isEmpty then .ok value else .error .malformed
        | .error _ => .error .mismatched
      | _ => .error .mismatched
    else .ok (.object (arrange ((name, held) :: others)))
  | [] => .ok (.object [])

/-- Free-form values, given how to read those that are given as text. -/
def freeForm (ofText : String → Except Fault Json) : Meaning Json where
  null := .null
  boolean := .boolean
  numeral n := n.number?.map .number
  text ps := (joinPieces ps).map fun chars => .text (String.ofList chars)
  array := .array
  object ms := do objectOf ofText (← nameMembers ms)

/-- Values of no interest. -/
def ignored : Meaning Unit where
  null := ()
  boolean _ := ()
  numeral _ := some ()
  text _ := some ()
  array _ := ()
  object _ := .ok ()

namespace Reader

/-- How many containers may be open at a time. -/
def nestingLimit : Nat := 127

/-- Reads a text that holds one value and nothing else but blanks. -/
def run (reader : Reader α) (s : String) : Except Fault α := do
  let (value, rest) ← reader nestingLimit s.toList
  match skipBlanks rest.1 with
  | [] => return value
  | _ => .error .malformed

/-- The free-form value of a text, in which texts of values stand in one another at most so deep. -/
def ofText : Nat → String → Except Fault Json
  | 0, _ => .error .malformed
  | depth + 1, s => run (nested (freeForm (ofText depth))) s

/-- A free-form value. A text inside it is shorter than the whole, so texts cannot stand in one
another deeper than the whole is long. -/
def value : Reader Json := fun limit s => nested (freeForm (ofText s.length)) limit s

/-- A value as it is written. -/
def written : Reader Json := nested asWritten

/-- Skips a value, however deep it is. -/
def skip : Reader Unit := fun _ s => nested ignored s.length s

/-- The fault of a value that is not of the wanted shape: a scalar has to be read first, a
container is refused at its opening. -/
def refuse (s : List Char) : Fault :=
  match skipBlanks s with
  | '[' :: _ => .mismatched
  | '\x7b' :: _ => .mismatched
  | _ => match one asWritten none s with
    | .ok _ => .mismatched
    | .error fault => fault

/-- A value of the wanted shape among the scalars and, with a limit, the containers. -/
def select (pick : Json → Option α) : Reader α := fun _ s =>
  match one asWritten none s with
  | .ok (value, rest) => match pick value with
    | some picked => .ok (picked, rest)
    | none => .error .mismatched
  | .error _ => .error (refuse s)

/-- A string. -/
def text : Reader String := select fun
  | .text s => some s
  | _ => none

/-- A truth value. -/
def flag : Reader Bool := select fun
  | .boolean b => some b
  | _ => none

/-- A natural number below a bound, written as an integer. -/
def natural (bound : Nat) : Reader Nat := select fun
  | .number (.integer (.ofNat n)) => if n < bound then some n else none
  | _ => none

/-- The value `null`, or a value of another shape. -/
def orNull (inner : Reader α) : Reader (Option α) := fun limit s =>
  match h : skipBlanks s with
  | 'n' :: r => match r, h with
    | 'u' :: 'l' :: 'l' :: r, h =>
      .ok (none, ⟨r, by have := length_lt_of_skipBlanks h; simp at this; omega⟩)
    | _, _ => .error .malformed
  | _ => do
    let (value, rest) ← inner limit s
    return (some value, rest)

/-- An array of values of one shape. -/
def listOf (inner : Reader α) : Reader (List α) := fun limit s =>
  match h : skipBlanks s with
  | '[' :: r => match limit with
    | 0 => .error .malformed
    | limit + 1 => (items (inner limit) r).after (length_lt_of_skipBlanks h)
  | _ => .error (refuse s)

/-! ### Records -/

/-- One field of a record that is being filled in. -/
structure Field (σ : Type) where
  /-- The name of the member that holds it. -/
  name : String
  /-- Whether it is filled in already. -/
  isFilled : σ → Bool
  /-- Reads the value and fills it in. -/
  fill : σ → Reader σ

/-- A field whose value is held in a place of its own. -/
def Field.of (name : String) (held : σ → Option α) (hold : α → σ → σ) (inner : Reader α) :
    Field σ where
  name := name
  isFilled state := (held state).isSome
  fill state limit s := do
    let (value, rest) ← inner limit s
    return (hold value state, rest)

/-- The shape of a record: fields in their order, the state in which none is filled in, and the
finished record; none if a field that must be given is missing. -/
structure Form (σ α : Type) where
  fields : List (Field σ)
  blank : σ
  finish : σ → Option α

/-- The finished record, or a fault. -/
def Form.close (form : Form σ α) (state : σ) : Except Fault α :=
  match form.finish state with
  | some record => .ok record
  | none => .error .mismatched

/-- One member of a record, the opening quote of its name being taken already. A field must not be
given twice; members of other names are skipped. -/
def memberOf (fields : List (Field σ)) (limit : Nat) (state : σ) (s : List Char) : Step σ s := do
  let (written, rest) ← pieces s
  let name ← textOfPieces written
  let field := fields.find? (·.name = name)
  if field.any (·.isFilled state) then .error .mismatched
  else match h : skipBlanks rest.1 with
    | ':' :: r => do
      have hr := Nat.lt_trans (length_lt_of_skipBlanks h) rest.2
      match field with
      | some field => do
        let (state, after) ← field.fill state limit r
        return (state, after.after hr)
      | none => do
        let (_, after) ← skip limit r
        return (state, after.after hr)
    | _ => .error .malformed

/-- The members of a record behind the first one, up to the closing brace. -/
def fieldsTail (fields : List (Field σ)) (limit : Nat) (state : σ) (s : List Char) : Step σ s :=
  match h : skipBlanks s with
  | '\x7d' :: r => .ok (state, ⟨r, length_lt_of_skipBlanks h⟩)
  | ',' :: r =>
    have hr := length_lt_of_skipBlanks h
    match h' : skipBlanks r with
    | '"' :: q => do
      have hq := Nat.lt_trans (length_lt_of_skipBlanks h') hr
      let (state, rest) ← memberOf fields limit state q
      have := rest.2
      (fieldsTail fields limit state rest.1).after (Nat.lt_trans rest.2 hq)
    | _ => .error .malformed
  | _ => .error .malformed
termination_by s.length

/-- The members of a record, the opening brace being taken already. -/
def fieldsOf (fields : List (Field σ)) (limit : Nat) (state : σ) (s : List Char) : Step σ s :=
  match h : skipBlanks s with
  | '\x7d' :: r => .ok (state, ⟨r, length_lt_of_skipBlanks h⟩)
  | '"' :: q => do
    have hq := length_lt_of_skipBlanks h
    let (state, rest) ← memberOf fields limit state q
    (fieldsTail fields limit state rest.1).after (Nat.lt_trans rest.2 hq)
  | _ => .error .malformed

/-- The fields of a record given as an array, in their order, behind the first one. -/
def slotsTail (form : Form σ α) (limit : Nat) : List (Field σ) → σ → (s : List Char) → Step α s
  | [], state, s =>
    match h : skipBlanks s with
    | ']' :: r => do return (← form.close state, ⟨r, length_lt_of_skipBlanks h⟩)
    | _ => do
      let _ ← form.close state
      .error .malformed
  | field :: fields, state, s =>
    match h : skipBlanks s with
    | ']' :: r => do return (← form.close state, ⟨r, length_lt_of_skipBlanks h⟩)
    | ',' :: r => do
      have hr := length_lt_of_skipBlanks h
      let (state, rest) ← field.fill state limit r
      (slotsTail form limit fields state rest.1).after (Nat.lt_trans rest.2 hr)
    | _ => .error .malformed

/-- The fields of a record given as an array, the opening bracket being taken already. -/
def slotsOf (form : Form σ α) (limit : Nat) (s : List Char) : Step α s :=
  match h : skipBlanks s with
  | ']' :: r => do return (← form.close form.blank, ⟨r, length_lt_of_skipBlanks h⟩)
  | _ => match form.fields with
    | [] => .error .malformed
    | field :: fields => do
      let (state, rest) ← field.fill form.blank limit s
      (slotsTail form limit fields state rest.1).after rest.2

/-- A record, given as an object or as an array of its fields in their order. -/
def record (form : Form σ α) : Reader α := fun limit s =>
  match h : skipBlanks s with
  | '[' :: r => match limit with
    | 0 => .error .malformed
    | limit + 1 => (slotsOf form limit r).after (length_lt_of_skipBlanks h)
  | '\x7b' :: r => match limit with
    | 0 => .error .malformed
    | limit + 1 => do
      let (state, rest) ← fieldsOf form.fields limit form.blank r
      return (← form.close state, rest.after (length_lt_of_skipBlanks h))
  | _ => .error (refuse s)

end Reader

end Criteria.Json
