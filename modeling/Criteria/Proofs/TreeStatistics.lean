import Criteria.Rule.Expr.Basic
import Mathlib.Data.String.Basic

/-!
# Statistics of trees

The statistics of a tree are found by walking over it with a list of the subtrees still to visit.
Read off the tree itself, the number of conditions is the length of their list, the depth is the
height, and the attributes are the names of the fields that the conditions compare.

The walks are described for all pending subtrees at once: a walk folds over the nodes of the pending
subtrees in turn, each node before its subtrees, and the deepest level lies below a bound just if each
pending subtree stays above it.

## Main definitions

* `Expr.conditions`: the conditions of a tree, from left to right.
* `Expr.preorder`: the nodes of a tree, each before its subtrees.
* `Expr.height`: the number of levels, by recursion over the tree.

## Main results

* `Expr.foldNodes_eq_foldl_preorder`: a walk folds over the nodes.
* `Expr.foldNodes_eq_foldl_conditions`: walks that look at conditions only.
* `Expr.operandCount_node`, `Expr.depth_node`: the statistics of an inner node.
* `Expr.size_add_one`: the number of nodes, from that of conditions.
* `Expr.mem_attributes_node`, `Expr.pairwise_attributes`: the attributes are a set in increasing
  order, and those of an inner node are the ones of its subtrees.
-/

namespace Criteria.Expr

/-- The conditions of a tree, from left to right. -/
def conditions : Expr → List Condition
  | .leaf c => [c]
  | .node _ left right => left.conditions ++ right.conditions

/-- The nodes of a tree: each one before its subtrees, the left one before the right one. -/
def preorder : Expr → List Expr
  | .leaf c => [.leaf c]
  | .node k left right => .node k left right :: (left.preorder ++ right.preorder)

/-- The number of levels of a tree; a single condition has one. -/
def height : Expr → Nat
  | .leaf _ => 1
  | .node _ left right => max left.height right.height + 1

theorem height_pos (e : Expr) : 0 < e.height := by
  cases e with
  | leaf c => exact Nat.one_pos
  | node k left right => exact Nat.succ_pos _

/-! ### Walks -/

/-- A walk folds over the nodes of the pending subtrees in turn. -/
theorem foldNodes_eq_foldl_preorder {α : Type} (f : α → Expr → α) (acc : α)
    (pending : List Expr) :
    foldNodes f acc pending = (pending.flatMap preorder).foldl f acc := by
  fun_induction foldNodes f acc pending with
  | case1 acc => rfl
  | case2 acc c pending ih =>
    rw [ih]
    rfl
  | case3 acc k left right pending ih =>
    rw [ih]
    simp [preorder]

/-- A walk that passes inner nodes by folds over the conditions of the tree. -/
theorem foldNodes_eq_foldl_conditions {α : Type} {f : α → Expr → α} {g : α → Condition → α}
    (hleaf : ∀ acc c, f acc (.leaf c) = g acc c)
    (hnode : ∀ acc k left right, f acc (.node k left right) = acc) (acc : α) (e : Expr) :
    foldNodes f acc [e] = e.conditions.foldl g acc := by
  rw [foldNodes_eq_foldl_preorder, List.flatMap_singleton]
  induction e generalizing acc with
  | leaf c => exact hleaf acc c
  | node k left right ihleft ihright =>
    rw [preorder, List.foldl_cons, hnode, List.foldl_append, ihleft, ihright, conditions,
      List.foldl_append]

/-- The deepest level lies within a bound just if all pending subtrees do. -/
theorem deepest_le_iff (level bound : Nat) (pending : List (Expr × Nat)) :
    deepest level pending ≤ bound ↔
      level ≤ bound ∧ ∀ p ∈ pending, p.2 + p.1.height ≤ bound + 1 := by
  fun_induction deepest level pending with
  | case1 level => simp
  | case2 level c at' pending ih =>
    simp only [ih, List.forall_mem_cons, height]
    constructor
    · rintro ⟨h, hpending⟩
      exact ⟨by omega, by omega, hpending⟩
    · rintro ⟨h, hleaf, hpending⟩
      exact ⟨by omega, hpending⟩
  | case3 level k left right at' pending ih =>
    have := left.height_pos
    simp only [ih, List.forall_mem_cons, height]
    constructor
    · rintro ⟨h, hleft, hright, hpending⟩
      exact ⟨by omega, by omega, hpending⟩
    · rintro ⟨h, hnode, hpending⟩
      exact ⟨by omega, by omega, by omega, hpending⟩

/-! ### Depth -/

/-- The depth is the height. -/
theorem depth_eq_height (e : Expr) : e.depth = e.height := by
  refine eq_of_forall_ge_iff fun bound => ?_
  simp only [depth, deepest_le_iff, List.forall_mem_singleton]
  constructor
  · rintro ⟨-, h⟩
    omega
  · intro h
    exact ⟨Nat.zero_le _, by omega⟩

@[simp] theorem depth_leaf (c : Condition) : (leaf c).depth = 1 := depth_eq_height _

@[simp] theorem depth_node (k : Connective) (left right : Expr) :
    (node k left right).depth = max left.depth right.depth + 1 := by
  rw [depth_eq_height, depth_eq_height left, depth_eq_height right, height]

theorem depth_pos (e : Expr) : 0 < e.depth := by
  rw [depth_eq_height]
  exact e.height_pos

/-! ### Number of conditions -/

theorem operandCount_eq_length (e : Expr) : e.operandCount = e.conditions.length := by
  have hcount (conditions : List Condition) (n : Nat) :
      conditions.foldl (fun count _ => count + 1) n = n + conditions.length := by
    simp
  rw [operandCount, foldNodes_eq_foldl_conditions (g := fun count _ => count + 1)
    (fun _ _ => rfl) (fun _ _ _ _ => rfl), hcount, Nat.zero_add]

@[simp] theorem operandCount_node (k : Connective) (left right : Expr) :
    (node k left right).operandCount = left.operandCount + right.operandCount := by
  simp only [operandCount_eq_length, conditions, List.length_append]

/-- There is one inner node less than there are conditions. -/
theorem size_add_one (e : Expr) : e.size + 1 = 2 * e.operandCount := by
  induction e with
  | leaf c => simp [size, operandCount_eq_length, conditions]
  | node k left right ihleft ihright =>
    rw [operandCount_node, size]
    omega

/-! ### Attributes -/

/-- Inserting a name adds it and nothing else. -/
theorem mem_insertName {name other : String} {names : List String} :
    other ∈ insertName name names ↔ other = name ∨ other ∈ names := by
  induction names with
  | nil => simp [insertName]
  | cons first rest ih =>
    rw [insertName]
    cases h : compare name first with
    | lt => simp
    | eq =>
      obtain rfl := compare_eq_iff_eq.1 h
      simp
    | gt => simp only [List.mem_cons, ih, or_left_comm]

/-- Inserting a name keeps names in increasing order, each of them once. -/
theorem pairwise_insertName (name : String) {names : List String}
    (h : names.Pairwise (· < ·)) : (insertName name names).Pairwise (· < ·) := by
  induction names with
  | nil => simp [insertName]
  | cons first rest ih =>
    obtain ⟨hfirst, hrest⟩ := List.pairwise_cons.1 h
    rw [insertName]
    cases hcompare : compare name first with
    | lt =>
      have hlt := compare_lt_iff_lt.1 hcompare
      exact .cons (List.forall_mem_cons.2 ⟨hlt, fun x hx => hlt.trans (hfirst x hx)⟩) h
    | eq => exact h
    | gt =>
      refine .cons (fun x hx => ?_) (ih hrest)
      rcases mem_insertName.1 hx with rfl | hx
      · exact compare_gt_iff_gt.1 hcompare
      · exact hfirst x hx

private theorem attributes_eq_foldl (e : Expr) :
    e.attributes = e.conditions.foldl (fun names c => insertName c.field names) [] := by
  rw [attributes, foldNodes_eq_foldl_conditions (g := fun names c => insertName c.field names)
    (fun _ _ => rfl) (fun _ _ _ _ => rfl)]

/-- The attributes of a tree are the fields of its conditions. -/
theorem mem_attributes {name : String} {e : Expr} :
    name ∈ e.attributes ↔ ∃ c ∈ e.conditions, c.field = name := by
  have hfold (conditions : List Condition) (names : List String) :
      name ∈ conditions.foldl (fun names c => insertName c.field names) names ↔
        name ∈ names ∨ ∃ c ∈ conditions, c.field = name := by
    induction conditions generalizing names with
    | nil => simp
    | cons c conditions ih =>
      rw [List.foldl_cons, ih, mem_insertName, List.exists_mem_cons_iff, eq_comm, or_assoc,
        or_left_comm]
  rw [attributes_eq_foldl, hfold]
  simp

theorem mem_attributes_node {name : String} {k : Connective} {left right : Expr} :
    name ∈ (node k left right).attributes ↔ name ∈ left.attributes ∨ name ∈ right.attributes := by
  simp only [mem_attributes, conditions, List.mem_append, or_and_right, exists_or]

/-- The attributes of a tree are in increasing order, each of them once. -/
theorem pairwise_attributes (e : Expr) : e.attributes.Pairwise (· < ·) := by
  have hfold (conditions : List Condition) (names : List String) (h : names.Pairwise (· < ·)) :
      (conditions.foldl (fun names c => insertName c.field names) names).Pairwise (· < ·) := by
    induction conditions generalizing names with
    | nil => exact h
    | cons c conditions ih => exact ih _ (pairwise_insertName c.field h)
  rw [attributes_eq_foldl]
  exact hfold _ _ .nil

end Criteria.Expr
