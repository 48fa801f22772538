import Criteria.Number.Numeral
import Criteria.Text.Blank
import Criteria.Text.Bytes
import Criteria.Text.Cut
import Criteria.Text.Pattern

/-!
# Log directives

A directive lets events through up to a level: all of them, or those of a part of the program,
those inside a span of work, and those with a field.

The marks of a directive are looked for in its text without the blanks around it, and its parts are
cut out of the whole text at the distances of the marks. So a text without blanks in front is cut
at its marks, and any other one is cut too far in front.

## Main definitions

* `LogLevel`: how much is logged.
* `LogField`: a field, and the value that it must have.
* `LogDirective`, `LogDirective.ofText?`, `LogDirective.render`: directives and their texts.
* `LogDirective.order`: the order in which directives are asked.
-/

namespace Criteria

/-- How much is logged, from nothing to everything. -/
inductive LogLevel where
  | off
  | error
  | warn
  | info
  | debug
  | trace
deriving DecidableEq, Inhabited

namespace LogLevel

/-- The levels, from nothing to everything. -/
def all : List LogLevel := [.off, .error, .warn, .info, .debug, .trace]

/-- The name of a level. -/
def name : LogLevel → String
  | .off => "off"
  | .error => "error"
  | .warn => "warn"
  | .info => "info"
  | .debug => "debug"
  | .trace => "trace"

/-- The level that a text stands for: its name in letters of any size, or its number. -/
def ofText? (s : List Char) : Option LogLevel :=
  match Text.natural? wordBound s with
  | some n => all[n]?
  | none => all.find? fun level => level.name.toList = s.map Char.toLower

end LogLevel

/-! ### Fields -/

/-- What the value of a field is compared with. -/
inductive LogValue where
  | flag (b : Bool)
  | real (x : Double)
  | integer (n : Int)
  /-- A text that matches the pattern. -/
  | pattern (s : String)
deriving DecidableEq, Inhabited

namespace LogValue

/-- The value that a text stands for: a truth value, a number, or else a pattern. -/
def ofText? (s : List Char) : Option LogValue :=
  if s = "true".toList then some (.flag true)
  else if s = "false".toList then some (.flag false)
  else match (Text.natural? wordBound s).map Int.ofNat |>.or (Text.integer? s) with
    | some n => some (.integer n)
    | none => match Double.ofText? s with
      | some x => some (.real x)
      | none => if Text.isPattern s then some (.pattern (String.ofList s)) else none

/-- The text of a value. -/
def render : LogValue → String
  | .flag b => toString b
  | .real x => String.ofList x.display
  | .integer n => toString n
  | .pattern s => s

/-- The place of a kind of values among all of them. -/
def rank : LogValue → Nat
  | .flag _ => 0
  | .real .nan => 2
  | .real _ => 1
  | .integer n => if n < 0 then 3 else 4
  | .pattern _ => 5

/-- The order of values: by their kinds, then by what they are. -/
def order (a b : LogValue) : Ordering :=
  (compare a.rank b.rank).then <| match a, b with
    | .flag a, .flag b => compare a b
    | .real a, .real b => (a.compare? b).getD .eq
    | .integer a, .integer b => compare a b
    | .pattern a, .pattern b => compare a b
    | _, _ => .eq

end LogValue

/-- A field, and the value that it must have, if there is one. -/
structure LogField where
  name : String
  value : Option LogValue
deriving DecidableEq, Inhabited

namespace LogField

/-- The field of a text: its name, and its value behind an equals sign. What stands behind a second
one plays no part. The empty text is no field. -/
def ofText? (s : List Char) : Option LogField :=
  if s.isEmpty then none
  else match Text.cutAt '=' s with
    | name :: value :: _ => do return ⟨String.ofList name, some (← LogValue.ofText? value)⟩
    | name :: [] => some ⟨String.ofList name, none⟩
    | [] => none

/-- The text of a field. -/
def render (field : LogField) : String :=
  field.name ++ (field.value.map fun value => "=" ++ value.render).getD ""

/-- The order of fields: those without a value first, then by their names, then by their values. -/
def order (a b : LogField) : Ordering :=
  (compare a.value.isSome b.value.isSome).then <| (compare a.name b.name).then <|
    match a.value, b.value with
    | some a, some b => a.order b
    | _, _ => .eq

end LogField

/-! ### Directives -/

/-- Lets events through up to a level: those of a part of the program, inside a span and with a
field, each if it is given. -/
structure LogDirective where
  /-- The part of the program. -/
  target : Option String
  span : Option String
  field : Option LogField
  level : LogLevel
deriving DecidableEq, Inhabited

namespace LogDirective

/-- A character that a part of the program, or a level, may begin with. -/
def isFirst (c : Char) : Bool := Text.isLetterOrNumeral c || "-:_".toList.contains c

/-- A character of a target: neither the equals sign nor an opening bracket. -/
def isTargetChar (c : Char) : Bool := c ≠ '=' && c ≠ '['

/-- A character of a span: neither the closing bracket nor an opening brace. -/
def isSpanChar (c : Char) : Bool := c ≠ ']' && c ≠ '\x7b'

/-- A character of a field: not the closing brace. -/
def isFieldChar (c : Char) : Bool := c ≠ '\x7d'

/-- The level behind an equals sign at a distance; everything if nothing stands there, or if there
is no such sign. -/
def levelBehind? (whole : List Char) (distance : Nat) : List Char → Option LogLevel
  | [] => some .trace
  | '=' :: _ => do
    let word ← Text.behind? (distance + 1) whole
    if word.isEmpty then some .trace else LogLevel.ofText? word
  | _ => none

/-- A span in brackets, perhaps with a field in braces, and the level behind it; what is left begins
at a distance, behind the opening bracket. -/
def spanned? (whole : List Char) (target : Option String) (distance : Nat) (s : List Char) :
    Option LogDirective := do
  let stop := distance + Text.byteCount (s.takeWhile isSpanChar)
  let span := String.ofList (← Text.between? distance stop whole)
  match s.dropWhile isSpanChar with
  | ']' :: rest => return ⟨target, some span, none, ← levelBehind? whole (stop + 1) rest⟩
  | '\x7b' :: inner =>
    let close := stop + 1 + Text.byteCount (inner.takeWhile isFieldChar)
    let field ← LogField.ofText? (← Text.between? (stop + 1) close whole)
    match inner.dropWhile isFieldChar with
    | '\x7d' :: ']' :: rest =>
      return ⟨target, if span.isEmpty then none else some span, some field,
        ← levelBehind? whole (close + 2) rest⟩
    | _ => none
  | _ => none

/-- The directive that a text stands for. A text that is a level counts for all events; any other
text without marks names a part of the program, all of whose events are let through. -/
def ofText? (whole : List Char) : Option LogDirective :=
  match Text.trim whole with
  | [] => none
  | '[' :: rest => spanned? whole none 1 rest
  | first :: s =>
    if isFirst first then do
      let stop := Text.byteCount ((first :: s).takeWhile isTargetChar)
      match (first :: s).dropWhile isTargetChar with
      | [] => match LogLevel.ofText? whole with
        | some level => return ⟨none, none, none, level⟩
        | none => return ⟨some (String.ofList whole), none, none, .trace⟩
      | '[' :: rest =>
        let target := String.ofList (← Text.between? 0 stop whole)
        spanned? whole (some target) (stop + 1) rest
      | rest =>
        let target := String.ofList (← Text.between? 0 stop whole)
        return ⟨some target, none, none, ← levelBehind? whole stop rest⟩
    else none

/-- The text of a directive. -/
def render (directive : LogDirective) : String :=
  let field := (directive.field.map fun field => "\x7b" ++ field.render ++ "\x7d").getD ""
  let place := directive.target.getD "" ++
    if directive.span.isSome || directive.field.isSome then
      "[" ++ directive.span.getD "" ++ field ++ "]"
    else ""
  if directive.target.isSome || directive.span.isSome || directive.field.isSome then
    place ++ "=" ++ directive.level.name
  else directive.level.name

/-- A directive depends on the spans around an event, or on its fields. -/
def isInner (directive : LogDirective) : Bool := directive.span.isSome || directive.field.isSome

/-- A directive can be asked without knowing spans or the values of fields. -/
def isOuter (directive : LogDirective) : Bool :=
  directive.span.isNone && directive.field.all (·.value.isNone)

/-- How much a directive says: first the length of the target, then whether there is a span, and a
field; then by what they are. -/
def weight (a b : LogDirective) : Ordering :=
  let length (d : LogDirective) : Nat := (d.target.map fun s => s.utf8ByteSize + 1).getD 0
  (compare (length a) (length b)).then <| (compare a.span.isSome b.span.isSome).then <|
    (compare a.field.isSome b.field.isSome).then <| (compare a.target b.target).then <|
      (compare a.span b.span).then <| match a.field, b.field with
        | some a, some b => a.order b
        | _, _ => .eq

/-- The order of directives: those that say more come first. Directives for the same events are
equal. -/
def order (a b : LogDirective) : Ordering := b.weight a

end LogDirective

end Criteria
