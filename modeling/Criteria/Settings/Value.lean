import Criteria.Number.Numeral

/-!
# Values of settings

A value is read as what its setting needs: numbers and truth values have texts, and texts stand for
numbers and truth values.

## Main definitions

* `Settings.Value`: the values of settings.
* `Settings.Value.asText`, `Settings.Value.asFlag?`, `Settings.Value.asNatural?`: values read as
  texts, truth values and numbers.
* `Settings.Value.ofVariable`: the value that the text of an environment variable is.
-/

namespace Criteria.Settings

/-- The value of a setting. -/
inductive Value where
  | text (s : String)
  | integer (n : Int)
  | real (x : Double)
  | flag (b : Bool)
deriving DecidableEq, Inhabited

namespace Value

/-- A string in small letters. -/
def lowered (s : String) : List Char := s.toList.map Char.toLower

/-- The truth value that a word stands for. -/
def flagOfWord? (word : List Char) : Option Bool :=
  if ["true", "on", "yes"].any (·.toList = word) then some true
  else if ["false", "off", "no"].any (·.toList = word) then some false
  else none

/-- A value read as a text. -/
def asText : Value → String
  | .text s => s
  | .integer n => toString n
  | .real x => String.ofList x.display
  | .flag b => toString b

/-- A value read as a truth value: every number but zero is true. -/
def asFlag? : Value → Option Bool
  | .text s =>
    if lowered s = ['1'] then some true
    else if lowered s = ['0'] then some false
    else flagOfWord? (lowered s)
  | .integer n => some (n != 0)
  | .real x => some (!x.same (.ofInt 0))
  | .flag b => some b

/-- A value read as a number of 64 bits. -/
def asWord? : Value → Option Nat
  | .text s => match flagOfWord? (lowered s) with
    | some b => some b.toNat
    | none => Text.natural? wordBound s.toList
  | .integer n => if 0 ≤ n ∧ n < wordBound then some n.toNat else none
  | .real x => some (x.toNatural (wordBound - 1))
  | .flag b => some b.toNat

/-- A value read as a natural number below a bound. -/
def asNatural? (bound : Nat) (value : Value) : Option Nat := value.asWord?.filter (· < bound)

/-- The value that the text of an environment variable is: a truth value in letters of any size,
else an integer, else a number, else the text itself. -/
def ofVariable (s : String) : Value :=
  if lowered s = "true".toList then .flag true
  else if lowered s = "false".toList then .flag false
  else match Text.integer? s.toList with
    | some n => .integer n
    | none => match Double.ofText? s.toList with
      | some x => .real x
      | none => .text s

end Value

end Criteria.Settings
