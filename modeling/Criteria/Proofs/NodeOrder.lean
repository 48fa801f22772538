import Criteria.Proofs.ComparisonOrder
import Criteria.Proofs.TreeStatistics

/-!
# The order in which nodes are visited

A walk over a tree keeps a list of the subtrees still to visit. It visits every node once, each one
before its subtrees and the left subtree before the right one. To tell apart equal subtrees in
different places, the nodes are named by their addresses, the steps that lead to them from the root;
the order of the visits is then the lexicographic order of the addresses.

## Main definitions

* `Expr.at?`: the node at an address.
* `Expr.Enumerates`: a list holds every node once, in the order of the addresses.

## Main results

* `Expr.enumerates_preorder`: every node is visited once, in the order of the addresses.
* `Expr.depth_le_operandCount`, `Expr.two_mul_operandCount_le`: how the depth and the number of
  conditions bound each other.
* `Expr.statistics`: the statistics of a tree are those of its structure.
-/

namespace Criteria

/-- The left subtree comes before the right one. -/
inductive Side.Before : Side → Side → Prop
  | left_right : Before .left .right

namespace Expr

/-- The node at an address, which is the steps from the root, the first one in front. -/
def at? : Expr → List Side → Option Expr
  | e, [] => some e
  | .leaf _, _ :: _ => none
  | .node _ left _, .left :: address => left.at? address
  | .node _ _ right, .right :: address => right.at? address

/-- A list holds every node of a tree just once, in the lexicographic order of the addresses: a node
comes before what is under it, and what is to the left before what is to the right. -/
def Enumerates (e : Expr) (nodes : List Expr) : Prop :=
  ∃ addresses : List (List Side), addresses.map e.at? = nodes.map some ∧
    (∀ address, address ∈ addresses ↔ (e.at? address).isSome) ∧
    addresses.Pairwise (List.Lex Side.Before)

/-! ### The list of nodes -/

theorem nodes_eq_preorder (e : Expr) : e.nodes = e.preorder := by
  rw [nodes, foldNodes_eq_foldl_preorder]
  simp [List.foldl_flip_cons_eq_append]

theorem length_preorder (e : Expr) : e.preorder.length = e.size := by
  induction e with
  | leaf c => rfl
  | node k left right ihleft ihright =>
    rw [preorder, List.length_cons, List.length_append, ihleft, ihright, size]

/-! ### Addresses -/

/-- Addresses of the two subtrees make up those of the tree. -/
theorem Enumerates.node {left right : Expr} {nodes others : List Expr} (k : Connective)
    (hleft : left.Enumerates nodes) (hright : right.Enumerates others) :
    (node k left right).Enumerates (.node k left right :: (nodes ++ others)) := by
  obtain ⟨addresses, hnodes, hmem, hpairwise⟩ := hleft
  obtain ⟨addresses', hothers, hmem', hpairwise'⟩ := hright
  refine ⟨[] :: (addresses.map (.left :: ·) ++ addresses'.map (.right :: ·)), ?_, ?_, ?_⟩
  · rw [List.map_cons, List.map_append, List.map_map, List.map_map, List.map_cons, List.map_append,
      ← hnodes, ← hothers]
    rfl
  · intro address
    rcases address with _ | ⟨_ | _, address⟩
    · simp [at?]
    · simp [at?, hmem]
    · simp [at?, hmem']
  · refine .cons ?_ (List.pairwise_append.2 ⟨?_, ?_, ?_⟩)
    · -- the root comes first
      intro address haddress
      rcases List.mem_append.1 haddress with h | h
      · obtain ⟨_, -, rfl⟩ := List.mem_map.1 h
        exact .nil
      · obtain ⟨_, -, rfl⟩ := List.mem_map.1 h
        exact .nil
    · exact List.pairwise_map.2 (hpairwise.imp .cons)
    · exact List.pairwise_map.2 (hpairwise'.imp .cons)
    · intro address haddress address' haddress'
      obtain ⟨_, -, rfl⟩ := List.mem_map.1 haddress
      obtain ⟨_, -, rfl⟩ := List.mem_map.1 haddress'
      exact .rel .left_right

/-- **Every node is visited once**, in the order of the addresses. -/
theorem enumerates_preorder (e : Expr) : e.Enumerates e.preorder := by
  induction e with
  | leaf c =>
    refine ⟨[[]], rfl, fun address => ?_, List.pairwise_singleton _ _⟩
    cases address <;> simp [at?]
  | node k left right ihleft ihright => exact ihleft.node k ihright

/-! ### Depth and number of conditions -/

theorem operandCount_pos (e : Expr) : 0 < e.operandCount := by
  have hsize := e.size_add_one
  omega

/-- There is a condition for every level. -/
theorem depth_le_operandCount (e : Expr) : e.depth ≤ e.operandCount := by
  induction e with
  | leaf c => simp [operandCount_eq_length, conditions]
  | node k left right ihleft ihright =>
    have hleft := left.operandCount_pos
    have hright := right.operandCount_pos
    rw [depth_node, operandCount_node]
    omega

/-- Every level has at most twice as many nodes as the one above it. -/
theorem two_mul_operandCount_le (e : Expr) : 2 * e.operandCount ≤ 2 ^ e.depth := by
  induction e with
  | leaf c => simp [operandCount_eq_length, conditions]
  | node k left right ihleft ihright =>
    rw [operandCount_node, depth_node, Nat.mul_add, Nat.pow_succ, Nat.mul_two]
    exact Nat.add_le_add
      (Nat.le_trans ihleft (Nat.pow_le_pow_right (by decide) (Nat.le_max_left _ _)))
      (Nat.le_trans ihright (Nat.pow_le_pow_right (by decide) (Nat.le_max_right _ _)))

/-- **The statistics of a tree, found by walking over it, are those of its structure.** The number
of conditions and the depth are the length of the list of conditions and the height; the attributes
are the names of the fields that conditions compare, each of them once, in the order of their code
points; and the nodes are all nodes, each of them once, before its subtrees and the left one before
the right one. So there is one node less than twice the number of conditions, which lies between the
depth and the number of places on the lowest level. -/
theorem statistics (e : Expr) :
    e.operandCount = e.conditions.length ∧
    e.depth = e.height ∧
    (∀ name, name ∈ e.attributes ↔ ∃ c ∈ e.conditions, c.field = name) ∧
    e.attributes.Pairwise (fun a b => Text.codePoints a < Text.codePoints b) ∧
    e.nodes = e.preorder ∧
    e.Enumerates e.nodes ∧
    e.nodes.length = 2 * e.operandCount - 1 ∧
    e.depth ≤ e.operandCount ∧
    e.operandCount ≤ 2 ^ (e.depth - 1) := by
  have hsize := e.size_add_one
  have hcount := e.operandCount_pos
  have hbound := e.two_mul_operandCount_le
  obtain ⟨depth, hdepth⟩ := Nat.exists_eq_succ_of_ne_zero (Nat.ne_of_gt e.depth_pos)
  refine ⟨e.operandCount_eq_length, e.depth_eq_height, fun _ => mem_attributes,
    e.pairwise_attributes.imp Text.lt_iff_codePoints_lt.1, e.nodes_eq_preorder, ?_, ?_,
    e.depth_le_operandCount, ?_⟩
  · rw [nodes_eq_preorder]
    exact e.enumerates_preorder
  · rw [nodes_eq_preorder, length_preorder]
    omega
  · rw [hdepth, Nat.pow_succ] at hbound
    rw [hdepth, Nat.succ_sub_one]
    omega

end Expr

end Criteria
