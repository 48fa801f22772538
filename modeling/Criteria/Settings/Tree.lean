import Criteria.Settings.Value

/-!
# Trees of settings

Settings stand in sections, and sections in one another, so a path of names leads to each setting.
A path may also lead to the items of a row. Sources assign values to paths; what a later one
assigns counts.

## Main definitions

* `Settings.Tree`: a value, a section of named trees, or a row of trees.
* `Settings.Tree.get?`: what stands at a path of names.
* `Settings.Step`, `Settings.Path`: the paths that sources know.
* `Settings.Path.isBeside`: a path parts from another one.
* `Settings.Assignment`, `Settings.Tree.assign`: puts a value, a section or a row at a path.
* `Settings.Tree.overlay`: all assignments of a source.

## Main results

* `Settings.Tree.get?_update_self`, `Settings.Tree.get?_update_of_isBeside`: an assignment to a path
  of names changes what stands there, and nothing beside it.
-/

namespace Criteria.Settings

/-- A value, a section of named trees, or a row of trees; nothing stands where a row was made longer
than its items. -/
inductive Tree where
  | nothing
  | leaf (value : Value)
  | row (items : List Tree)
  | branch (members : List (String × Tree))
deriving Inhabited

/-- One step of a path: to a member of a section, or to an item of a row. -/
inductive Step where
  | name (name : String)
  /-- Items are counted from the front, beginning with zero, or with a negative number from the
  end. -/
  | item (position : Int)
deriving DecidableEq, Inhabited

/-- The steps that lead to a place in a tree. -/
abbrev Path : Type := List Step

/-- The path of names. -/
def Path.ofNames (names : List String) : Path := names.map .name

/-- A path leads beside another one: they part at some name. -/
def Path.isBeside : Path → List String → Bool
  | .name name :: path, other :: names => name != other || Path.isBeside path names
  | _, _ => false

@[simp] theorem Path.isBeside_nil (path : Path) : path.isBeside [] = false := by
  unfold Path.isBeside
  split
  · contradiction
  · rfl

namespace Tree

/-- The named trees of a section. -/
def members : Tree → List (String × Tree)
  | .branch members => members
  | _ => []

/-- The items of a row. -/
def items : Tree → List Tree
  | .row items => items
  | _ => []

/-- What stands at a path of names. -/
def get? : List String → Tree → Option Tree
  | [], tree => some tree
  | name :: path, tree => (tree.members.lookup name).bind (get? path)

/-- Members with one of a name put in place of any other. -/
def setMember (name : String) (tree : Tree) (members : List (String × Tree)) :
    List (String × Tree) :=
  (name, tree) :: members.filter (·.1 != name)

/-- Items made long enough to reach a position, at the end to which they are counted. -/
def extend (position : Int) (items : List Tree) : List Tree :=
  if 0 ≤ position then items ++ List.replicate (position.toNat + 1 - items.length) .nothing
  else List.replicate (position.natAbs - items.length) .nothing ++ items

/-- The place of a position among so many items. -/
def placeOf (position : Int) (count : Nat) : Nat :=
  if 0 ≤ position then position.toNat else count - position.natAbs

/-- Changes what stands at a path; whatever is missing on the way is made. -/
def update (change : Tree → Tree) : Path → Tree → Tree
  | [], tree => change tree
  | .name name :: path, tree =>
    let member := (tree.members.lookup name).getD .nothing
    .branch (setMember name (update change path member) tree.members)
  | .item position :: path, tree =>
    let items := extend position tree.items
    .row (items.modify (placeOf position items.length) (update change path))

/-- A section, in place of anything else. -/
def opened : Tree → Tree
  | .branch members => .branch members
  | _ => .branch []

@[simp] theorem members_branch (members : List (String × Tree)) :
    (Tree.branch members).members = members := rfl

@[simp] theorem lookup_setMember_self (name : String) (tree : Tree)
    (members : List (String × Tree)) : (setMember name tree members).lookup name = some tree := by
  simp [setMember]

theorem lookup_setMember_of_ne {name other : String} (h : other ≠ name) (tree : Tree)
    (members : List (String × Tree)) :
    (setMember name tree members).lookup other = members.lookup other := by
  have hne : (other == name) = false := by simpa using h
  simp only [setMember, List.lookup_cons, hne]
  induction members with
  | nil => rfl
  | cons member members ih =>
    obtain ⟨first, value⟩ := member
    by_cases hf : first = name
    · subst hf
      simpa [List.lookup_cons, hne] using ih
    · simp only [List.filter_cons, bne_iff_ne, ne_eq, hf, not_false_eq_true, if_true,
        List.lookup_cons]
      cases other == first
      · simpa using ih
      · rfl

/-- In a member, the change of a section is the change of that member. -/
theorem get?_update_cons (change : Tree → Tree) (name : String) (path : Path)
    (names : List String) (tree : Tree) :
    (tree.update change (.name name :: path)).get? (name :: names) =
      (((tree.members.lookup name).getD .nothing).update change path).get? names := by
  simp only [update, get?, members_branch, lookup_setMember_self, Option.bind_some]

/-- Nothing stands in a member that is missing. -/
theorem get?_member (name next : String) (names : List String) (tree : Tree) :
    ((tree.members.lookup name).getD .nothing).get? (next :: names) =
      tree.get? (name :: next :: names) := by
  change _ = (tree.members.lookup name).bind (get? (next :: names))
  cases tree.members.lookup name <;> rfl

/-- At the path of an assignment stands what was there before, changed. -/
@[simp] theorem get?_update_self (change : Tree → Tree) (path : List String) (tree : Tree) :
    (tree.update change (Path.ofNames path)).get? path =
      some (change ((tree.get? path).getD .nothing)) := by
  induction path generalizing tree with
  | nil => rfl
  | cons name path ih =>
    refine (get?_update_cons ..).trans ((ih _).trans ?_)
    cases path with
    | nil => cases h : tree.members.lookup name <;> simp [get?, h]
    | cons next path => rw [get?_member]

/-- Beside the path of an assignment nothing changes. -/
theorem get?_update_of_isBeside (change : Tree → Tree) {path : Path} {names : List String}
    (h : path.isBeside names = true) (tree : Tree) :
    (tree.update change path).get? names = tree.get? names := by
  induction names generalizing path tree with
  | nil => exact absurd h (by simp)
  | cons other names ih =>
    match path, h with
    | .name name :: path, h =>
      rw [Path.isBeside, Bool.or_eq_true, bne_iff_ne] at h
      by_cases hname : name = other
      · subst hname
        have hpath := h.resolve_left (not_not_intro rfl)
        rw [get?_update_cons, ih hpath]
        cases names with
        | nil => exact absurd hpath (by simp)
        | cons next names => exact get?_member ..
      · simp only [update, get?, members_branch, lookup_setMember_of_ne (Ne.symm hname)]

/-- A section that is opened at a path keeps what stands behind it. -/
theorem get?_update_opened (path : List String) (name : String) (rest : List String)
    (tree : Tree) : (tree.update opened (Path.ofNames path)).get? (path ++ name :: rest) =
      tree.get? (path ++ name :: rest) := by
  induction path generalizing tree with
  | nil => cases tree <;> rfl
  | cons first path ih =>
    refine (get?_update_cons ..).trans ((ih _).trans ?_)
    cases path <;> exact get?_member ..

end Tree

/-- What a source says of one path. -/
inductive Assignment where
  /-- A value stands there. -/
  | value (path : Path) (value : Value)
  /-- A section stands there. -/
  | branch (path : Path)
  /-- A row stands there; its items are assigned behind it. -/
  | row (path : Path)
deriving DecidableEq, Inhabited

namespace Tree

/-- Puts a value, a section or a row at a path. What a section holds already, it keeps. -/
def assign (tree : Tree) : Assignment → Tree
  | .value path value => tree.update (fun _ => .leaf value) path
  | .branch path => tree.update opened path
  | .row path => tree.update (fun _ => .row []) path

/-- Makes all assignments of a source, in order. -/
def overlay (tree : Tree) (source : List Assignment) : Tree := source.foldl assign tree

/-- No settings. -/
def empty : Tree := .branch []

end Tree

end Criteria.Settings
