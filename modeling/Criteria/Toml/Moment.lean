import Criteria.Text.Digits

/-!
# Moments in TOML text

A moment is a day, a time of day, or both. Behind both, the distance from universal time may stand.
The text of a moment is the same in all ways to write it: with a large `T` before the time, and with
no digits that do not count.

## Main definitions

* `Toml.Date`, `Toml.Clock`, `Toml.Offset`: days, times of day and distances from universal time.
* `Toml.Moment`, `Toml.Moment.ofText?`, `Toml.Moment.render`: moments and their texts.
-/

namespace Criteria.Toml

/-- The number that so many digits at the front of a text stand for, and the text behind them. -/
def digitsInFront? (count : Nat) (s : List Char) : Option (Nat × List Char) := do
  let digits := s.take count
  if digits.length = count then return (← Text.whole? digits, s.drop count) else none

/-- The text behind a mark. -/
def behindMark? (mark : Char) : List Char → Option (List Char)
  | c :: s => if c = mark then some s else none
  | [] => none

/-- The digits of a number, with zeros in front up to a width. -/
def paddedDigits (width n : Nat) : List Char := (Nat.toDigits 10 n).leftpad width '0'

/-! ### Days -/

/-- A day of the calendar. -/
structure Date where
  year : Nat
  month : Nat
  day : Nat
deriving DecidableEq, Inhabited

namespace Date

/-- A year has a day more than others. -/
def isLeapYear (year : Nat) : Bool := year % 4 == 0 && (year % 100 != 0 || year % 400 == 0)

/-- The number of days of a month. -/
def daysOfMonth (year month : Nat) : Nat :=
  if month = 2 then (if isLeapYear year then 29 else 28)
  else if [4, 6, 9, 11].contains month then 30
  else 31

/-- The calendar has such a day. -/
def isProper (date : Date) : Bool :=
  decide (1 ≤ date.month ∧ date.month ≤ 12 ∧ 1 ≤ date.day ∧
    date.day ≤ daysOfMonth date.year date.month)

/-- The day at the front of a text, and the text behind it. -/
def inFront? (s : List Char) : Option (Date × List Char) := do
  let (year, s) ← digitsInFront? 4 s
  let (month, s) ← digitsInFront? 2 (← behindMark? '-' s)
  let (day, s) ← digitsInFront? 2 (← behindMark? '-' s)
  let date : Date := ⟨year, month, day⟩
  if date.isProper then return (date, s) else none

/-- The text of a day. -/
def render (date : Date) : List Char :=
  paddedDigits 4 date.year ++ '-' :: paddedDigits 2 date.month ++ '-' :: paddedDigits 2 date.day

end Date

/-! ### Times of day -/

/-- A time of day. Its seconds may be missing; a part of a second has digits of its own. -/
structure Clock where
  hour : Nat
  minute : Nat
  second : Option (Nat × Option (List Char))
deriving DecidableEq, Inhabited

namespace Clock

/-- The digits that count of a part of a second: those down to billionths, without the zeros behind
them, and at least one. -/
def shortened (digits : List Char) : List Char :=
  match ((digits.take 9).reverse.dropWhile (· = '0')).reverse with
  | [] => ['0']
  | digits => digits

/-- The part of a second at the front of a text, if there is one, and the text behind it. -/
def partInFront? : List Char → Option (Option (List Char) × List Char)
  | '.' :: s =>
    let digits := s.takeWhile Char.isDigit
    if digits.isEmpty then none else some (some (shortened digits), s.dropWhile Char.isDigit)
  | s => some (none, s)

/-- The seconds at the front of a text, if there are any, and the text behind them. A minute may
have one second more than sixty. -/
def secondInFront? : List Char → Option (Option (Nat × Option (List Char)) × List Char)
  | ':' :: s => do
    let (second, s) ← digitsInFront? 2 s
    let (part, s) ← partInFront? s
    if second ≤ 60 then return (some (second, part), s) else none
  | s => some (none, s)

/-- The hour and the minute at the front of a text, and the text behind them. -/
def hourInFront? (s : List Char) : Option ((Nat × Nat) × List Char) := do
  let (hour, s) ← digitsInFront? 2 s
  let (minute, s) ← digitsInFront? 2 (← behindMark? ':' s)
  if hour < 24 ∧ minute < 60 then return ((hour, minute), s) else none

/-- The time of day at the front of a text, and the text behind it. -/
def inFront? (s : List Char) : Option (Clock × List Char) := do
  let ((hour, minute), s) ← hourInFront? s
  let (second, s) ← secondInFront? s
  return (⟨hour, minute, second⟩, s)

/-- The text of a number of hours and minutes. -/
def renderHour (hour minute : Nat) : List Char :=
  paddedDigits 2 hour ++ ':' :: paddedDigits 2 minute

/-- The text of seconds. -/
def renderSecond : Option (Nat × Option (List Char)) → List Char
  | none => []
  | some (second, none) => ':' :: paddedDigits 2 second
  | some (second, some part) => ':' :: paddedDigits 2 second ++ '.' :: part

/-- The text of a time of day. -/
def render (clock : Clock) : List Char :=
  renderHour clock.hour clock.minute ++ renderSecond clock.second

end Clock

/-! ### Moments -/

/-- A distance from universal time. -/
inductive Offset where
  | zero
  /-- So many minutes ahead. -/
  | ahead (minutes : Int)
deriving DecidableEq, Inhabited

namespace Offset

/-- The distance that a text stands for. -/
def ofText? : List Char → Option Offset
  | ['Z'] => some .zero
  | ['z'] => some .zero
  | '+' :: s => do
    let ((hours, minutes), []) ← Clock.hourInFront? s | none
    return .ahead (60 * hours + minutes : Nat)
  | '-' :: s => do
    let ((hours, minutes), []) ← Clock.hourInFront? s | none
    return .ahead (-(60 * hours + minutes : Nat))
  | _ => none

/-- The text of a distance. -/
def render : Offset → List Char
  | .zero => ['Z']
  | .ahead minutes => (if minutes < 0 then '-' else '+') ::
    Clock.renderHour (minutes.natAbs / 60) (minutes.natAbs % 60)

end Offset

/-- A day, a time of day, or a time of a day. -/
inductive Moment where
  | day (date : Date)
  | time (clock : Clock)
  | both (date : Date) (clock : Clock) (offset : Option Offset)
deriving DecidableEq, Inhabited

namespace Moment

/-- A mark between a day and a time of it. -/
def isBetween (c : Char) : Bool := c = 'T' || c = 't' || c = ' '

/-- A time of a day, given behind that. -/
def ofDate? (date : Date) : List Char → Option Moment
  | [] => some (.day date)
  | c :: s =>
    if isBetween c then do
      let (clock, s) ← Clock.inFront? s
      if s.isEmpty then return .both date clock none
      else return .both date clock (some (← Offset.ofText? s))
    else none

/-- The moment that a text stands for. -/
def ofText? (s : List Char) : Option Moment :=
  match Date.inFront? s with
  | some (date, s) => ofDate? date s
  | none => do
    let (clock, []) ← Clock.inFront? s | none
    return .time clock

/-- The text of a moment. -/
def render : Moment → String
  | .day date => String.ofList date.render
  | .time clock => String.ofList clock.render
  | .both date clock offset => String.ofList
    (date.render ++ 'T' :: clock.render ++ (offset.map Offset.render).getD [])

-- the same moment with another mark, with zeros that do not count, and just behind universal time
example : (ofText? "1979-05-27 07:32:00.500-00:00".toList).map render =
    some "1979-05-27T07:32:00.5+00:00" := by
  decide +kernel

end Moment

end Criteria.Toml
