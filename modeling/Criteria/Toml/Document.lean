import Criteria.Toml.Definition

/-!
# TOML documents

The definitions of a text make a document if no path is defined twice. A table may be opened once;
it may have been met before on the way to a table inside it. A table that keys made cannot be
opened, and the way of a key cannot lead through one that was opened. A table or an array that is
written in place is complete. An array of tables has a new table each time its key is opened, and
leads on to the last one.

## Main definitions

* `Toml.Origin`: how a path came to be defined.
* `Toml.Outline`: what is known of the paths so far.
* `Toml.document?`: the paths of a text with their contents, in order.
-/

namespace Criteria.Toml

/-- How a path came to be defined. -/
inductive Origin where
  /-- It is the path of a value. -/
  | complete
  /-- A table was opened there. -/
  | opened
  /-- An array of tables was begun there; its last table is at this place. -/
  | array (last : Nat)
  /-- A table farther inside was opened. -/
  | passed
  /-- A key goes through it. -/
  | keyed
deriving DecidableEq, Inhabited

/-- The table that is open, and the paths that are defined so far. -/
structure Outline where
  current : Path
  origins : List (Path × Origin)
deriving DecidableEq, Inhabited

namespace Outline

/-- A table is open, and nothing is defined. -/
def start : Outline := ⟨[], []⟩

/-- How a path came to be defined, if it is. -/
def origin? (outline : Outline) (path : Path) : Option Origin := outline.origins.lookup path

/-- Defines a path; this counts before what was known of it. -/
def mark (outline : Outline) (path : Path) (origin : Origin) : Outline :=
  { outline with origins := (path, origin) :: outline.origins }

/-! ### Tables that are opened -/

/-- Opens a table. -/
def openAt (outline : Outline) (path : Path) : Outline :=
  { outline.mark path .opened with current := path }

/-- Opens the table at a place of an array, which is the last one then. -/
def openItem (outline : Outline) (path : Path) (place : Nat) : Outline :=
  (outline.mark path (.array place)).openAt (path ++ [.item place])

/-- Passes a name behind a path, on the way to a table that is opened. -/
def pass? : Outline × Path → String → Option (Outline × Path)
  | (outline, base), name =>
    let path := base ++ [.name name]
    match outline.origin? path with
    | none => some (outline.mark path .passed, path)
    | some .complete => none
    | some (.array last) => some (outline, path ++ [.item last])
    | some _ => some (outline, path)

/-- The path that the key of an opened table leads to, all paths on the way being passed. -/
def reach? (outline : Outline) (key : List String) : Option (Outline × Path) := do
  let (outline, base) ← key.dropLast.foldlM pass? (outline, [])
  return (outline, base ++ [.name (← key.getLast?)])

/-- Opens the table of a key. -/
def open? (outline : Outline) (key : List String) :
    Option (Outline × List (Path × Content)) := do
  let (outline, path) ← outline.reach? key
  match outline.origin? path with
  | none | some .passed => return (outline.openAt path, [(path, .table)])
  | some _ => none

/-- Opens the next table of the array of a key. -/
def openNext? (outline : Outline) (key : List String) :
    Option (Outline × List (Path × Content)) := do
  let (outline, path) ← outline.reach? key
  match outline.origin? path with
  | none => return (outline.openItem path 0, [(path, .array), (path ++ [.item 0], .table)])
  | some (.array last) =>
    return (outline.openItem path (last + 1), [(path ++ [.item (last + 1)], .table)])
  | some _ => none

/-! ### Values -/

/-- The paths behind a base on the way to the end of a key, without the end. -/
def onTheWay (base key : Path) : List Path :=
  (List.range' 1 (key.length - 1)).map fun count => base ++ key.take count

/-- Lets a key go through a path. -/
def through? (outline : Outline) (path : Path) : Option Outline :=
  match outline.origin? path with
  | none => some (outline.mark path .keyed)
  | some .keyed | some .passed => some outline
  | some _ => none

/-- Defines a key behind a base. -/
def define? (outline : Outline) (base key : Path) : Option Outline := do
  let outline ← (onTheWay base key).foldlM through? outline
  match outline.origin? (base ++ key) with
  | none => return outline.mark (base ++ key) .complete
  | some _ => none

/-! ### Documents -/

/-- One definition more: the outline after it, and the paths that it defines with their contents. -/
def next? (outline : Outline) : Definition → Option (Outline × List (Path × Content))
  | .table key => outline.open? key
  | .tableItem key => outline.openNext? key
  | .value within key content => do
    let base := outline.current ++ within
    return (← outline.define? base key, [(base ++ key, content)])

/-- The paths that definitions define, with their contents. -/
def contents? (outline : Outline) : List Definition → Option (List (Path × Content))
  | [] => some []
  | definition :: rest => do
    let (outline, contents) ← outline.next? definition
    return contents ++ (← outline.contents? rest)

end Outline

/-- The paths of a text with their contents; none if it is no document. -/
def document? (s : String) : Option (List (Path × Content)) := do
  Outline.start.contents? (← definitions? s)

end Criteria.Toml
