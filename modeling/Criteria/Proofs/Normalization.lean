import Criteria.Proofs.Outline
import Criteria.Proofs.Rendering

/-!
# Compiling normalized rules

The rule text of a compiled rule has parentheses around every inner subtree. They may be too many
for the engine that compiled the rule, and they may end elsewhere if the rule had parentheses in
the places of fields, comparators or connectives. The text compiles to the same tree in exactly
the other cases: expressions may be nested deeply enough and every group is balanced.

## Main results

* `Writes.childTokens_of_node`: if a rule text writes its tree, the texts of the subtrees do.
* `Expr.isBracketed_of_writes`: then the groups in it are balanced.
* `Engine.recompile_iff`: when the rule text of a compiled rule compiles to the same tree.
-/

namespace Criteria

open Token

theorem Expr.IsReadable.isLexeme_of_mem_tokens {e : Expr} (h : e.IsReadable) :
    ∀ token ∈ e.tokens, token.IsLexeme := by
  rw [← h.ofString_render]
  exact fun _ => isLexeme_of_mem_ofString

namespace Writes

/-- A condition is not written by its own last two tokens and a closing parenthesis. -/
theorem not_of_shifted {c : Condition} (hc : c.IsReadable) (hfield : single c.field = .closing) :
    ¬ Writes [single c.comparator.text, c.literal.token, .closing] (.leaf c) := by
  intro h
  have hlexeme := hc.literal.isLexeme_token
  have hweight := hc.literal.weight_token
  by_cases hopening : single c.comparator.text = .opening
  · rw [hopening] at h
    obtain ⟨inner, hinner, -, hwrites⟩ | ⟨_, _, _, _, _, _, htree, _⟩ := h.of_opening
    · have hlength := congrArg List.length hinner
      have := hwrites.three_le_length
      simp only [List.length_cons, List.length_append, List.length_nil] at hlength
      omega
    · cases htree
  · obtain ⟨comparator, value, htokens, htree⟩ | ⟨_, _, _, _, _, _, htree, _⟩ :=
      h.of_field hopening
    · obtain ⟨rfl, -⟩ := List.cons.inj htokens
      have hc' : c = .ofTokens (single c.comparator.text) c.literal.token value :=
        Expr.leaf.inj htree
      -- the field and the comparator would be the token of the literal
      have hcomparator : single c.comparator.text = c.literal.token := by
        have htext : c.comparator.text = c.literal.token.text := by
          rw [congrArg Condition.comparator hc', Condition.ofTokens, Comparator.text_ofText]
        rw [htext, single_text hlexeme]
      have hclosing : c.literal.token = .closing := by
        have htext : c.field = (single c.comparator.text).text := congrArg Condition.field hc'
        rw [← hfield, htext, hcomparator, single_text hlexeme]
      rw [hclosing] at hweight
      cases hweight
    · cases htree

/-- If a rule text begins with a condition and writes its tree, so do the rule texts of the
subtrees. -/
private theorem childTokens_of_leaf_node {k : Connective} {c : Condition} {right : Expr}
    (hc : c.IsReadable) (h : Writes (Expr.node k (.leaf c) right).tokens (.node k (.leaf c) right)) :
    Writes c.tokens (.leaf c) ∧ Writes right.childTokens right := by
  obtain ⟨_, _, _, htree⟩ | ⟨comparator, value, connective, rest, right', htokens, htree, hrest⟩ :=
    Writes.of_field hc.field_ne h
  · cases htree
  · have htokens : single c.comparator.text :: c.literal.token :: single k.text ::
        right.childTokens = comparator :: value :: connective :: rest := htokens
    simp only [List.cons.injEq] at htokens
    obtain ⟨rfl, rfl, rfl, rfl⟩ := htokens
    obtain ⟨-, hleaf, rfl⟩ := Expr.node.inj htree
    have hcondition : Writes c.tokens
        (.leaf (.ofTokens (single c.field) (single c.comparator.text) c.literal.token)) :=
      .leaf hc.field_ne
    rw [← hleaf] at hcondition
    exact ⟨hcondition, hrest⟩

/-- If a rule text begins with a group and writes its tree, so do the rule texts of the
subtrees. -/
private theorem childTokens_of_node_node {k : Connective} {left right : Expr}
    (hnode : left.isNode = true) (hreadable : (Expr.node k left right).IsReadable)
    (h : Writes (Expr.node k left right).tokens (.node k left right)) :
    Writes left.childTokens left ∧ Writes right.childTokens right := by
  have ⟨_, (hleft : left.IsReadable), _⟩ := hreadable
  have hlexemes := hreadable.isLexeme_of_mem_tokens
  have htokens : (Expr.node k left right).tokens =
      .opening :: (left.tokens ++ .closing :: single k.text :: right.childTokens) := by
    rw [Expr.tokens, Expr.childTokens_of_isNode hnode]
    simp
  rw [htokens] at h hlexemes
  simp only [List.forall_mem_cons] at hlexemes
  obtain ⟨inner, hinner, -, hwrites⟩ |
    ⟨inner, connective, rest, _, _, hinner, htree, hbalanced, hwl, hwr⟩ := h.of_opening
  · -- a group around the whole tree would begin with one parenthesis more than the rule text
    have hspine := hwrites.spine_le_leading
    have hfront := leading_le_append inner [.closing]
    rw [← hinner, hleft.leading_tokens_append] at hfront
    rw [Expr.spine, if_pos hnode] at hspine
    omega
  · obtain ⟨rfl, rfl, rfl⟩ := Expr.node.inj htree
    rw [hinner] at hlexemes
    simp only [List.forall_mem_cons, List.forall_mem_append] at hlexemes
    obtain ⟨-, hli, -, hlk, hlr⟩ := hlexemes
    rw [Connective.single_text_ofText hlk] at hinner
    have hrest := Expr.outlines_childTokens (hwr.outlines hlr)
    obtain ⟨rfl, hsame⟩ := (hwl.outlines hli).eq_of_append_eq_append hinner.symm
      hleft.endsSolid_tokens (by
        have := hrest.solid_le
        simp only [solid_cons]
        omega)
    simp only [List.cons.injEq, true_and] at hsame
    rw [Expr.childTokens_of_isNode hnode, ← hsame]
    exact ⟨.group hbalanced hwl, hwr⟩

/-- If a rule text writes its tree, the rule texts of the subtrees write them. -/
theorem childTokens_of_node {k : Connective} {left right : Expr}
    (hreadable : (Expr.node k left right).IsReadable)
    (h : Writes (Expr.node k left right).tokens (.node k left right)) :
    Writes left.childTokens left ∧ Writes right.childTokens right := by
  cases left with
  | leaf c => exact childTokens_of_leaf_node hreadable.2.1 h
  | node k' left' right' => exact childTokens_of_node_node rfl hreadable h

/-- If the rule text of a subtree writes the subtree, its parentheses are a group around the rule
text of a tree. -/
theorem tokens_of_childTokens {e : Expr} (hnode : e.isNode = true) (hreadable : e.IsReadable)
    (h : Writes e.childTokens e) : IsBalanced e.tokens ∧ Writes e.tokens e := by
  rw [Expr.childTokens_of_isNode hnode] at h
  obtain ⟨inner, hinner, hbalanced, hwrites⟩ |
    ⟨inner, connective, rest, left, right, hinner, rfl, -, hwl, hwr⟩ := h.of_opening
  · obtain rfl := List.append_cancel_right hinner
    exact ⟨hbalanced, hwrites⟩
  · -- the first group would end before the last parenthesis, behind the left subtree
    exfalso
    have ⟨_, (hleft : left.IsReadable), (hright : right.IsReadable)⟩ := hreadable
    have hlexemes : ∀ token ∈ inner ++ .closing :: connective :: rest, token.IsLexeme := by
      rw [← hinner]
      simp only [List.forall_mem_append, List.forall_mem_singleton]
      exact ⟨hreadable.isLexeme_of_mem_tokens, trivial⟩
    simp only [List.forall_mem_cons, List.forall_mem_append] at hlexemes
    obtain ⟨hli, -, hlk, hlr⟩ := hlexemes
    rw [Expr.tokens, Connective.single_text_ofText hlk, List.append_assoc] at hinner
    have hrest := Expr.outlines_childTokens (hwr.outlines hlr)
    obtain ⟨-, hsame⟩ := (Expr.outlines_childTokens (hwl.outlines hli)).eq_of_append_eq_append
      hinner.symm (Expr.endsSolid_childTokens hleft.endsSolid_tokens) (by
        have := hrest.solid_le
        simp
        omega)
    -- the connective and the first token of the right subtree would be closing parentheses
    obtain ⟨rfl, hsame⟩ := List.cons.inj hsame
    cases right with
    | node k' left' right' => simp [Expr.childTokens_node] at hsame
    | leaf c =>
      obtain ⟨hfield, rfl⟩ := List.cons.inj hsame
      exact not_of_shifted hright hfield.symm hwr

end Writes

/-- If the rule text of a subtree writes the subtree, all groups in it are balanced. -/
theorem Expr.isBracketed_of_childTokens : ∀ {e : Expr}, e.IsReadable → Writes e.childTokens e →
    (e.isNode = true → IsBalanced (ofString e.render)) ∧ e.IsBracketed
  | .leaf _, _, _ => ⟨nofun, trivial⟩
  | .node k left right, hreadable, h => by
    obtain ⟨hbalanced, hwrites⟩ := Writes.tokens_of_childTokens rfl hreadable h
    obtain ⟨hleft, hright⟩ := hwrites.childTokens_of_node hreadable
    rw [← hreadable.ofString_render] at hbalanced
    exact ⟨fun _ => hbalanced, isBracketed_of_childTokens hreadable.2.1 hleft,
      isBracketed_of_childTokens hreadable.2.2 hright⟩

/-- If a rule text writes its tree, all groups in it are balanced. -/
theorem Expr.isBracketed_of_writes {e : Expr} (hreadable : e.IsReadable)
    (h : Writes e.tokens e) : e.IsBracketed := by
  cases e with
  | leaf c => exact trivial
  | node k left right =>
    obtain ⟨hleft, hright⟩ := h.childTokens_of_node hreadable
    exact ⟨isBracketed_of_childTokens hreadable.2.1 hleft,
      isBracketed_of_childTokens hreadable.2.2 hright⟩

namespace Engine

variable {engine : Engine}

/-- What is compiled is written by the tokens of the rule and comes back from its own rule text,
and a strict engine knows all its operators. -/
theorem readable_of_compile {rule : String} {t : Expr} (h : engine.compile rule = .ok t) :
    Writes (ofString rule) t ∧ t.IsReadable ∧ (engine.dialect.strict = true → t.IsKnown) := by
  obtain ⟨hwrites, hknown⟩ := Dialect.writes_of_parseWithin h
  exact ⟨hwrites, hwrites.isReadable fun _ => isLexeme_of_mem_ofString, hknown⟩

/-- The rule text of a compiled rule compiles to the same tree exactly if expressions may be nested
as deeply as it needs and all groups in it are balanced. -/
theorem recompile_iff {rule : String} {t : Expr} (h : engine.compile rule = .ok t) :
    (∃ t', engine.compile t.render = .ok t' ∧ t.same t' = true) ↔
      t.need ≤ engine.dialect.maxDepth ∧ t.IsBracketed := by
  obtain ⟨hwrites, hreadable, hknown⟩ := readable_of_compile h
  constructor
  · rintro ⟨t', hrender, hsame⟩
    obtain ⟨hwrites', -, -⟩ := readable_of_compile hrender
    obtain rfl := hwrites.isUnsigned.eq_of_same hwrites'.isUnsigned hsame
    rw [hreadable.ofString_render] at hwrites'
    have hbracketed := Expr.isBracketed_of_writes hreadable hwrites'
    rw [compile_render_eq hreadable hbracketed hknown, Dialect.readAt] at hrender
    split at hrender
    · next hneed => exact ⟨hneed, hbracketed⟩
    · cases hrender
  · rintro ⟨hneed, hbracketed⟩
    rw [compile_render_eq hreadable hbracketed hknown]
    exact ⟨t.reread, if_pos hneed, hreadable.same_reread⟩

-- a field that is a closing parenthesis ends the group around it
example : ¬ (Expr.both (.condition "a" .greater (.number (.ofInt 1)))
    (.both (.condition ")" .greater (.number (.ofInt 2)))
      (.condition "c" .greater (.number (.ofInt 3))))).IsBracketed := by decide +kernel

/-- The tree of a chain of three conditions. -/
def chainOfThree : Expr :=
  .both (.condition "a" .equal (.number (.ofInt 1)))
    (.both (.condition "b" .equal (.number (.ofInt 2)))
      (.condition "c" .equal (.number (.ofInt 3))))

/-- Four levels are enough for the rule text of a chain of three conditions. -/
theorem recompile_of_chain :
    (ofDialect ⟨false, 4⟩).compile "a = 1 AND b = 2 AND c = 3" = .ok chainOfThree ∧
      ∃ t', (ofDialect ⟨false, 4⟩).compile chainOfThree.render = .ok t' ∧
        chainOfThree.same t' = true := by
  have h : (ofDialect ⟨false, 4⟩).compile "a = 1 AND b = 2 AND c = 3" = .ok chainOfThree := by
    decide +kernel
  exact ⟨h, (recompile_iff h).2 (by decide +kernel)⟩

/-- Three levels are enough for a chain of three conditions, and not for its rule text. -/
theorem not_recompile_of_chain :
    ¬ ∀ (engine : Engine) (rule : String) (t : Expr), engine.compile rule = .ok t →
      ∃ t', engine.compile t.render = .ok t' ∧ t.same t' = true := by
  intro hall
  have h : (ofDialect ⟨false, 3⟩).compile "a = 1 AND b = 2 AND c = 3" = .ok chainOfThree := by
    decide +kernel
  have hdeep : (ofDialect ⟨false, 3⟩).compile chainOfThree.render = .error (.nestingTooDeep 3) := by
    decide +kernel
  obtain ⟨t', ht', -⟩ := hall _ _ _ h
  rw [hdeep] at ht'
  cases ht'

end Engine

end Criteria
