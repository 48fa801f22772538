import Criteria.Http.Header

/-!
# Media types

A media type is a type and a subtype with a slash between them, followed by parameters. The part
of a subtype behind its last plus sign is its suffix. JSON is `application/json`, or any subtype
of `application` with the suffix `json`; letters may be large or small.

## Main definitions

* `MediaType`: type, subtype and suffix.
* `MediaType.ofString?`: the media type that a text names.
* `MediaType.isJson`: a media type is JSON.
-/

namespace Criteria

/-- A media type without its parameters, in small letters. -/
structure MediaType where
  /-- What stands before the slash. -/
  type : List Char
  /-- What stands behind the slash, up to the last plus sign. -/
  subtype : List Char
  /-- What stands behind the last plus sign, if there is one. -/
  suffix : Option (List Char)
deriving DecidableEq, Inhabited

namespace MediaType

/-- A character of a name. -/
def isTokenChar (c : Char) : Bool := c.isAlphanum || "!#$%&'+-.^_`|~".toList.contains c

/-- A character between the quotes of a parameter's value. -/
def isQuotedChar (c : Char) : Bool := decide (32 ≤ c.toNat) && c.toNat != 127

/-! ### Parameters -/

/-- How far a parameter has been read. -/
inductive ParameterState where
  /-- Nothing but blanks. -/
  | start
  /-- A part of the name. -/
  | name
  /-- The equals sign. -/
  | equals
  /-- A part of an unquoted value. -/
  | value
  /-- The opening quote. -/
  | opened
  /-- A part of a quoted value. -/
  | quoted
  /-- The closing quote. -/
  | closed
deriving DecidableEq, Inhabited

namespace ParameterState

/-- Reads one character more; none if it must not stand there. -/
def next? (state : ParameterState) (c : Char) : Option ParameterState :=
  match state with
  | .start => if c = ' ' then some .start else if isTokenChar c then some .name else none
  | .name => if c = '=' then some .equals else if isTokenChar c then some .name else none
  | .equals => if c = '"' then some .opened else if isTokenChar c then some .value else none
  | .value => if c = ';' then some .start else if isTokenChar c then some .value else none
  | .opened => if isQuotedChar c then some .quoted else none
  | .quoted => if c = '"' then some .closed else if isQuotedChar c then some .quoted else none
  | .closed => if c = ';' then some .start else if c = ' ' then some .closed else none

/-- The text may end here. -/
def isFinal : ParameterState → Bool
  | .start | .equals | .value | .closed => true
  | _ => false

end ParameterState

/-- A text is a list of parameters. -/
def areParameters (s : List Char) : Bool :=
  (s.foldlM ParameterState.next? ParameterState.start).any ParameterState.isFinal

/-! ### Types -/

/-- A subtype cut at its last plus sign; a plus sign that begins it does not count. -/
def cutSuffix (subtype : List Char) : List Char × Option (List Char) :=
  let suffix := (subtype.drop 1).reverse.takeWhile (· ≠ '+')
  if suffix.length = (subtype.drop 1).length then (subtype, none)
  else (subtype.take (subtype.length - suffix.length - 1), some suffix.reverse)

/-- The media type that a text names. -/
def ofString? (s : String) : Option MediaType :=
  let chars := s.toList.map Char.toLower
  let type := chars.takeWhile isTokenChar
  match chars.dropWhile isTokenChar with
  | '/' :: rest =>
    if type.isEmpty then none
    else
      let subtype := rest.takeWhile isTokenChar
      let named : MediaType := ⟨type, (cutSuffix subtype).1, (cutSuffix subtype).2⟩
      match rest.dropWhile isTokenChar with
      | [] => some named
      | ';' :: parameters =>
        if !subtype.isEmpty && areParameters parameters then some named else none
      | _ => none
  | _ => none

/-- A media type is JSON. -/
def isJson (m : MediaType) : Bool :=
  m.type == "application".toList &&
    (m.subtype == "json".toList || m.suffix == some "json".toList)

/-- A header value names JSON. -/
def namesJson (value : HeaderValue) : Bool :=
  (value.visible?.bind ofString?).any isJson

end MediaType

end Criteria
