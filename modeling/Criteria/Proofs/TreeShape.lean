import Criteria.Rule.Expr.Json
import Mathlib.Data.List.Basic

/-!
# The JSON values that encode a tree

A node is given as an object, whose members may come in any order and among members of other names,
or as an array of the same values. This file says once which JSON values encode which trees, so
that whatever holds of all of them is shown by cases.

## Main definitions

* `Expr.Holds`: an object holds given members, and no others of their names.
* `Expr.Gives`: a JSON value gives members, as an object or as an array.
* `Expr.Encodes`: a JSON value encodes a tree.

## Main results

* `Expr.holds_iff`: an object holds members just if each is the only one of its name.
* `Expr.ofJson?_eq_some_iff`: the tree that is read is the one that is encoded.
-/

namespace Criteria.Expr

/-! ### Members in any order -/

section

variable {α β : Type} {name : String} {value : α} {members members' wanted : List (String × α)}

theorem only?_eq_some_iff :
    only? name members = some value ↔ members.filter (·.1 == name) = [(name, value)] := by
  rw [only?]
  constructor
  · intro h
    split at h
    · next member heq =>
      obtain rfl := Option.some.inj h
      have hmem : member ∈ members.filter (·.1 == name) := by simp [heq]
      have hname : member.1 = name := by simpa using (List.mem_filter.1 hmem).2
      rw [heq, ← hname]
    · cases h
  · intro h
    rw [h]

/-- The order of the members makes no difference. -/
theorem only?_of_perm (h : members.Perm members') : only? name members = only? name members' := by
  have hfilter := h.filter (·.1 == name)
  ext value
  rw [only?_eq_some_iff, only?_eq_some_iff]
  constructor
  · intro heq
    rw [heq] at hfilter
    exact (List.singleton_perm.1 hfilter).symm
  · intro heq
    rw [heq] at hfilter
    exact List.perm_singleton.1 hfilter

theorem only?_map (f : α → β) :
    only? name (members.map fun member => (member.1, f member.2)) =
      (only? name members).map f := by
  have hfilter : (members.map fun member => (member.1, f member.2)).filter (·.1 == name) =
      (members.filter (·.1 == name)).map fun member => (member.1, f member.2) := by
    rw [List.filter_map]
    rfl
  rw [only?, only?, hfilter]
  cases members.filter (·.1 == name) with
  | nil => rfl
  | cons member rest => cases rest <;> rfl

/-- An object holds the wanted members, in any order among members of other names. -/
def Holds (wanted members : List (String × α)) : Prop :=
  ∃ others, members.Perm (wanted ++ others) ∧ ∀ member ∈ others, ∀ w ∈ wanted, member.1 ≠ w.1

/-- Among members of different names, each is the only one of its name. -/
theorem only?_of_nodup (hnodup : (wanted.map (·.1)).Nodup) {w : String × α} (hw : w ∈ wanted) :
    only? w.1 wanted = some w.2 := by
  rw [only?_eq_some_iff]
  induction wanted with
  | nil => cases hw
  | cons first rest ih =>
    obtain ⟨hfirst, hrest⟩ := List.nodup_cons.1 hnodup
    have hother {v : String × α} (hv : v ∈ rest) : first.1 ≠ v.1 := fun hname =>
      hfirst (List.mem_map.2 ⟨v, hv, hname.symm⟩)
    rcases List.mem_cons.1 hw with rfl | hw
    · rw [List.filter_cons_of_pos (by simp), List.filter_eq_nil_iff.2 fun v hv => ?_]
      simpa using (hother hv).symm
    · rw [List.filter_cons_of_neg (by simpa using hother hw), ih hrest hw]

/-- An object holds the wanted members just if each of them is the only one of its name. -/
theorem holds_iff (hnodup : (wanted.map (·.1)).Nodup) :
    Holds wanted members ↔ ∀ w ∈ wanted, only? w.1 members = some w.2 := by
  constructor
  · rintro ⟨others, hperm, hothers⟩ w hw
    have hnone : others.filter (·.1 == w.1) = [] :=
      List.filter_eq_nil_iff.2 fun member hmember => by simpa using hothers member hmember w hw
    rw [only?_of_perm hperm, only?_eq_some_iff, List.filter_append, hnone, List.append_nil]
    exact only?_eq_some_iff.1 (only?_of_nodup hnodup hw)
  · intro h
    induction wanted generalizing members with
    | nil => exact ⟨members, .refl _, by simp⟩
    | cons first wanted ih =>
      obtain ⟨hfirst, hnodup⟩ := List.nodup_cons.1 hnodup
      obtain ⟨honly, h⟩ := List.forall_mem_cons.1 h
      -- the other wanted members are those of the members of other names
      have hsplit := List.filter_append_perm (·.1 == first.1) members
      rw [only?_eq_some_iff.1 honly] at hsplit
      have hwanted : ∀ w ∈ wanted,
          only? w.1 (members.filter fun member => !(member.1 == first.1)) = some w.2 := by
        intro w hw
        have hne : w.1 ≠ first.1 := fun hname => hfirst (List.mem_map.2 ⟨w, hw, hname⟩)
        rw [only?_eq_some_iff, List.filter_filter, ← only?_eq_some_iff.1 (h w hw)]
        refine List.filter_congr fun member _ => ?_
        by_cases hname : member.1 = w.1 <;> simp [hname, hne]
      obtain ⟨others, hperm, hothers⟩ := ih hnodup hwanted
      refine ⟨others, hsplit.symm.trans (hperm.cons first), fun member hmember w hw => ?_⟩
      rcases List.mem_cons.1 hw with rfl | hw
      · have hrest := hperm.symm.subset (List.mem_append_right wanted hmember)
        simpa using (List.mem_filter.1 hrest).2
      · exact hothers member hmember w hw

end

/-! ### Parts -/

theorem memberParts_eq_map (members : List (String × Json)) :
    memberParts members = members.map fun member => (member.1, member.2, ofInner? member.2) := by
  induction members with
  | nil => rfl
  | cons member members ih =>
    obtain ⟨name, value⟩ := member
    rw [memberParts, ih, List.map_cons]

theorem itemParts_eq_map (items : List Json) :
    itemParts items = items.map fun value => (value, ofInner? value) := by
  induction items with
  | nil => rfl
  | cons value items ih => rw [itemParts, ih, List.map_cons]

theorem only?_memberParts (name : String) (members : List (String × Json)) :
    only? name (memberParts members) =
      (only? name members).map fun value => (value, ofInner? value) := by
  rw [memberParts_eq_map]
  exact only?_map fun value => (value, ofInner? value)

/-! ### Trees -/

/-- A JSON value gives members: as an object that holds them, or as an array of their values in
order. -/
inductive Gives : Json → List (String × Json) → Prop
  | object {members wanted : List (String × Json)} (h : Holds wanted members) :
      Gives (.object members) wanted
  | array (wanted : List (String × Json)) : Gives (.array (wanted.map (·.2))) wanted

/-- The members of a condition. -/
def leafMembers (kind : Json) (field operator : String) (value : Json) : List (String × Json) :=
  [("type", kind), ("attribute", .text field), ("operator", .text operator), ("value", value)]

/-- The members of an inner node. -/
def nodeMembers (kind : Json) (operator : String) (left right : Json) : List (String × Json) :=
  [("type", kind), ("operator", .text operator), ("left", left), ("right", right)]

/-- A JSON value encodes a tree, for a way to tell the type of the outermost node: it gives the
members of the node. -/
inductive Encodes : (Json → Option Kind) → Json → Expr → Prop
  | leaf {kindOf : Json → Option Kind} {whole kind value : Json} {field operator : String}
      {literal : Literal} (hkind : kindOf kind = some .operand)
      (hvalue : Literal.ofJson? value = some literal)
      (hgives : Gives whole (leafMembers kind field operator value)) :
      Encodes kindOf whole (.leaf ⟨field, .ofText operator, literal⟩)
  | node {kindOf : Json → Option Kind} {whole kind left right : Json} {operator : String}
      {l r : Expr} (hkind : kindOf kind = some .operator) (hleft : Encodes Kind.ofNumber? left l)
      (hright : Encodes Kind.ofNumber? right r)
      (hgives : Gives whole (nodeMembers kind operator left right)) :
      Encodes kindOf whole (.node (.ofText operator) l r)

/-- The tree that a JSON value encodes, for a way to tell the type of the outermost node. -/
def encoded? (kindOf : Json → Option Kind) : Json → Option Expr
  | .object members => ofMembers? kindOf (memberParts members)
  | .array items => ofItems? kindOf (itemParts items)
  | _ => none

theorem ofInner?_eq (value : Json) : ofInner? value = encoded? Kind.ofNumber? value := by
  cases value <;> rw [ofInner?] <;> first | rfl | simp

theorem ofJson?_eq (value : Json) : ofJson? value = encoded? Kind.ofName? value := by
  cases value <;> rfl

section

variable {kindOf : Json → Option Kind} {members : List (String × Json)} {e : Expr}

theorem holds_leafMembers_iff {kind value : Json} {field operator : String} :
    Holds (leafMembers kind field operator value) members ↔
      only? "type" members = some kind ∧ only? "attribute" members = some (.text field) ∧
        only? "operator" members = some (.text operator) ∧ only? "value" members = some value := by
  rw [holds_iff (by simp [leafMembers])]
  simp [leafMembers]

theorem holds_nodeMembers_iff {kind left right : Json} {operator : String} :
    Holds (nodeMembers kind operator left right) members ↔
      only? "type" members = some kind ∧ only? "operator" members = some (.text operator) ∧
        only? "left" members = some left ∧ only? "right" members = some right := by
  rw [holds_iff (by simp [nodeMembers])]
  simp [nodeMembers]

theorem textOf?_eq_some_iff {value : Json} {s : String} :
    textOf? value = some s ↔ value = .text s := by
  cases value <;> simp [textOf?]

theorem conditionOf?_eq_some_iff {name operator value : Json} :
    conditionOf? name operator value = some e ↔ ∃ field text literal, name = .text field ∧
      operator = .text text ∧ Literal.ofJson? value = some literal ∧
        e = .leaf ⟨field, .ofText text, literal⟩ := by
  simp only [conditionOf?, Option.bind_eq_bind, Option.bind_eq_some_iff, textOf?_eq_some_iff]
  constructor
  · rintro ⟨field, rfl, text, rfl, literal, hvalue, h⟩
    exact ⟨field, text, literal, rfl, rfl, hvalue, (Option.some.inj h).symm⟩
  · rintro ⟨field, text, literal, rfl, rfl, hvalue, rfl⟩
    exact ⟨field, rfl, text, rfl, literal, hvalue, rfl⟩

theorem nodeOf?_eq_some_iff {operator : Json} {left right : Option Expr} :
    nodeOf? operator left right = some e ↔ ∃ text l r, operator = .text text ∧ left = some l ∧
      right = some r ∧ e = .node (.ofText text) l r := by
  simp only [nodeOf?, Option.bind_eq_bind, Option.bind_eq_some_iff, textOf?_eq_some_iff]
  constructor
  · rintro ⟨text, rfl, l, rfl, r, rfl, h⟩
    exact ⟨text, l, r, rfl, rfl, rfl, (Option.some.inj h).symm⟩
  · rintro ⟨text, l, r, rfl, rfl, rfl, rfl⟩
    exact ⟨text, rfl, l, rfl, r, rfl, rfl⟩

theorem gives_object_iff {wanted : List (String × Json)} :
    Gives (.object members) wanted ↔ Holds wanted members :=
  ⟨fun | .object h => h, .object⟩

theorem gives_array_iff {items : List Json} {wanted : List (String × Json)} :
    Gives (.array items) wanted ↔ items = wanted.map (·.2) :=
  ⟨fun | .array _ => rfl, fun h => h ▸ .array wanted⟩

variable (kindOf) in
/-- A JSON value gives the members of the outermost node of a tree, and its subtrees are read from
the values in it. -/
inductive IsNode (whole : Json) : Expr → Prop
  | leaf {kind value : Json} {field operator : String} {literal : Literal}
      (hkind : kindOf kind = some .operand) (hvalue : Literal.ofJson? value = some literal)
      (hgives : Gives whole (leafMembers kind field operator value)) :
      IsNode whole (.leaf ⟨field, .ofText operator, literal⟩)
  | node {kind left right : Json} {operator : String} {l r : Expr}
      (hkind : kindOf kind = some .operator) (hleft : ofInner? left = some l)
      (hright : ofInner? right = some r)
      (hgives : Gives whole (nodeMembers kind operator left right)) :
      IsNode whole (.node (.ofText operator) l r)

/-- The tree of an object. -/
theorem ofMembers?_eq_some_iff :
    ofMembers? kindOf (memberParts members) = some e ↔ IsNode kindOf (.object members) e := by
  simp only [ofMembers?, only?_memberParts, Option.bind_eq_bind, Option.bind_eq_some_iff,
    Option.map_eq_some_iff]
  constructor
  · rintro ⟨_, ⟨kind, hkind, rfl⟩, shape, hshape, h⟩
    cases shape with
    | operand =>
      simp only [Option.bind_eq_some_iff, Option.map_eq_some_iff, conditionOf?_eq_some_iff] at h
      obtain ⟨_, ⟨_, hfield, rfl⟩, _, ⟨_, hoperator, rfl⟩, _, ⟨value, hvalue, rfl⟩, field, text,
        literal, rfl, rfl, hliteral, rfl⟩ := h
      exact .leaf hshape hliteral
        (.object (holds_leafMembers_iff.2 ⟨hkind, hfield, hoperator, hvalue⟩))
    | operator =>
      simp only [Option.bind_eq_some_iff, Option.map_eq_some_iff, nodeOf?_eq_some_iff] at h
      obtain ⟨_, ⟨_, hoperator, rfl⟩, _, ⟨left, hleft, rfl⟩, _, ⟨right, hright, rfl⟩, text, l, r,
        rfl, hl, hr, rfl⟩ := h
      exact .node hshape hl hr
        (.object (holds_nodeMembers_iff.2 ⟨hkind, hoperator, hleft, hright⟩))
  · intro h
    cases h with
    | @leaf kind value field operator literal hshape hliteral hgives =>
      obtain ⟨hkind, hfield, hoperator, hvalue⟩ :=
        holds_leafMembers_iff.1 (gives_object_iff.1 hgives)
      refine ⟨_, ⟨kind, hkind, rfl⟩, .operand, hshape, ?_⟩
      simp only [hfield, hoperator, hvalue, Option.map_some, Option.bind_some]
      exact conditionOf?_eq_some_iff.2 ⟨field, operator, literal, rfl, rfl, hliteral, rfl⟩
    | @node kind left right operator l r hshape hl hr hgives =>
      obtain ⟨hkind, hoperator, hleft, hright⟩ :=
        holds_nodeMembers_iff.1 (gives_object_iff.1 hgives)
      refine ⟨_, ⟨kind, hkind, rfl⟩, .operator, hshape, ?_⟩
      simp only [hoperator, hleft, hright, Option.map_some, Option.bind_some]
      exact nodeOf?_eq_some_iff.2 ⟨operator, l, r, rfl, hl, hr, rfl⟩

/-- The tree of an array. -/
theorem ofItems?_eq_some_iff {items : List Json} :
    ofItems? kindOf (itemParts items) = some e ↔ IsNode kindOf (.array items) e := by
  rw [itemParts_eq_map]
  constructor
  · intro h
    rw [ofItems?.eq_def] at h
    split at h
    · next hparts =>
      simp only [List.map_eq_cons_iff, List.map_eq_nil_iff] at hparts
      obtain ⟨kind, _, rfl, rfl, first, _, rfl, rfl, second, _, rfl, rfl, third, _, rfl, rfl,
        rfl⟩ := hparts
      obtain ⟨shape, hshape, h⟩ := Option.bind_eq_some_iff.1 h
      cases shape with
      | operand =>
        obtain ⟨field, text, literal, rfl, rfl, hliteral, rfl⟩ := conditionOf?_eq_some_iff.1 h
        exact .leaf hshape hliteral (gives_array_iff.2 rfl)
      | operator =>
        obtain ⟨text, l, r, rfl, hl, hr, rfl⟩ := nodeOf?_eq_some_iff.1 h
        exact .node hshape hl hr (gives_array_iff.2 rfl)
    · cases h
  · intro h
    cases h with
    | leaf hshape hliteral hgives =>
      obtain rfl := gives_array_iff.1 hgives
      exact Option.bind_eq_some_iff.2 ⟨.operand, hshape,
        conditionOf?_eq_some_iff.2 ⟨_, _, _, rfl, rfl, hliteral, rfl⟩⟩
    | node hshape hl hr hgives =>
      obtain rfl := gives_array_iff.1 hgives
      exact Option.bind_eq_some_iff.2 ⟨.operator, hshape,
        nodeOf?_eq_some_iff.2 ⟨_, _, _, rfl, hl, hr, rfl⟩⟩

/-- The tree of a JSON value. -/
theorem encoded?_eq_some_iff_isNode {whole : Json} :
    encoded? kindOf whole = some e ↔ IsNode kindOf whole e := by
  cases whole with
  | object members => exact ofMembers?_eq_some_iff
  | array items => exact ofItems?_eq_some_iff
  | _ =>
    constructor
    · exact nofun
    · rintro (⟨_, _, h⟩ | ⟨_, _, _, h⟩) <;> cases h

/-- The tree of a JSON value is the one that it encodes. -/
theorem encoded?_eq_some_iff {whole : Json} :
    encoded? kindOf whole = some e ↔ Encodes kindOf whole e := by
  constructor
  · intro h
    induction e generalizing kindOf whole with
    | leaf c =>
      cases encoded?_eq_some_iff_isNode.1 h with
      | leaf hkind hvalue hgives => exact .leaf hkind hvalue hgives
    | node k left right ihleft ihright =>
      cases encoded?_eq_some_iff_isNode.1 h with
      | node hkind hleft hright hgives =>
        rw [ofInner?_eq] at hleft hright
        exact .node hkind (ihleft hleft) (ihright hright) hgives
  · intro h
    induction h with
    | leaf hkind hvalue hgives =>
      exact encoded?_eq_some_iff_isNode.2 (.leaf hkind hvalue hgives)
    | node hkind _ _ hgives ihleft ihright =>
      rw [← ofInner?_eq] at ihleft ihright
      exact encoded?_eq_some_iff_isNode.2 (.node hkind ihleft ihright hgives)

/-- The tree that is read is the one that is encoded; the type of the outermost node is told by
its name. -/
theorem ofJson?_eq_some_iff {value : Json} :
    ofJson? value = some e ↔ Encodes Kind.ofName? value e := by
  rw [ofJson?_eq, encoded?_eq_some_iff]

end

end Criteria.Expr
