import Criteria.Proofs.RuleChain
import Criteria.Proofs.RuleSet
import Mathlib.Data.List.Nodup

/-!
# The notes of a set of rules

The notes of a set of rules are taken while the chain of their trees is evaluated. Each rule keeps in
them the lines that are noted of it alone, in their order, but below the address at which its tree
stands in the chain: the first rule stands so many steps to the left as rules are joined to it, and
every other one stands to the right of the node that joins it. Behind the lines of such a rule there
is one line for this node, with the conjunction of what came before.

The addresses of the lines tell the nodes apart, so that no condition can be taken for that of
another rule.

## Main definitions

* `jointAddress`: the address of a tree in a chain, from the number of trees joined to it.
* `relocate`, `lineAddress`: the address at the front of a line, replaced and read.
* `TraceLine.under`: a note of a tree as one of a larger tree.
* `Evaluation.join`: the evaluation of two trees that are both demanded.
* `Evaluation.linesOfAll`: the lines of several evaluations, tree by tree.

## Main results

* `Expr.notes_append`: the notes of a subtree are those of the subtree alone, moved.
* `Expr.evaluate_chain`: the evaluation of a chain.
* `Evaluation.lines_foldl_join`: its lines, tree by tree.
* `Engine.trace_of_rules`: the lines of a set of rules.
-/

namespace Criteria

/-! ### Addresses -/

namespace Side

/-- Read backwards, the text of a way tells its last step. -/
theorem append_render_inj {front front' : String} {side side' : Side}
    (h : front ++ side.render = front' ++ side'.render) : front = front' ∧ side = side' := by
  have hbackwards := congrArg (·.toList.reverse) h
  cases side <;> cases side' <;> simp [render, String.toList_inj] at hbackwards
  all_goals exact ⟨hbackwards, rfl⟩

/-- A way with a step in it does not end as the text of the root does. -/
theorem append_render_ne_root (side : Side) (front : String) : front ++ side.render ≠ "root" := by
  intro h
  have hbackwards := congrArg (·.toList.reverse) h
  cases side <;> simp [render] at hbackwards

end Side

namespace Path

/-- The text of a way behind the text of where it begins. -/
def steps (path : Path) : String := path.foldr (fun side text => text ++ side.render) ""

theorem render_cons (side : Side) (path : Path) :
    Path.render (side :: path) = path.render ++ side.render := rfl

/-- A way goes on from where another one ends. -/
theorem render_append (front path : Path) :
    Path.render (front ++ path) = path.render ++ front.steps := by
  induction front with
  | nil => exact String.append_empty.symm
  | cons side front ih =>
    rw [List.cons_append, render_cons, ih, String.append_assoc]
    rfl

theorem render_eq (path : Path) : path.render = "root" ++ path.steps := by
  have happend := render_append path []
  rwa [List.append_nil] at happend

/-- There is no colon in the text of a way. -/
theorem colon_not_mem_render (path : Path) : ':' ∉ path.render.toList := by
  induction path with
  | nil => decide
  | cons side path ih =>
    rw [render_cons, String.toList_append, List.mem_append, not_or]
    exact ⟨ih, by cases side <;> decide⟩

/-- Different ways have different texts. -/
theorem render_injective : ∀ {p q : Path}, p.render = q.render → p = q
  | [], [], _ => rfl
  | [], side :: q, h => absurd h.symm (Side.append_render_ne_root side (render q))
  | side :: p, [], h => absurd h (Side.append_render_ne_root side (render p))
  | side :: p, side' :: q, h => by
    obtain ⟨hrest, rfl⟩ := Side.append_render_inj h
    rw [render_injective hrest]

end Path

/-- The address, in a chain, of a tree to which so many trees are joined later. -/
def jointAddress : Nat → String
  | 0 => "root"
  | later + 1 => jointAddress later ++ ".left"

/-- A line with another address in the place of `root` at its front. -/
def relocate (address line : String) : String :=
  address ++ String.ofList (line.toList.drop "root".length)

/-- The address at the front of a line. -/
def lineAddress (line : String) : String := String.ofList (line.toList.takeWhile (· ≠ ':'))

theorem relocate_root (address rest : String) :
    relocate address ("root" ++ rest) = address ++ rest := by
  have hdrop : ("root" ++ rest).toList.drop "root".length = rest.toList := by
    rw [String.toList_append, ← String.length_toList, List.drop_left]
  rw [relocate, hdrop, String.ofList_toList]

/-- A line that is moved twice. -/
theorem relocate_relocate (address rest line : String) :
    relocate address (relocate ("root" ++ rest) line) = relocate (address ++ rest) line := by
  have hinner : relocate ("root" ++ rest) line =
      "root" ++ (rest ++ String.ofList (line.toList.drop "root".length)) := by
    rw [relocate, String.append_assoc]
  rw [hinner, relocate_root, relocate, String.append_assoc]

namespace TraceLine

/-- The text of a note behind its address. -/
def body : TraceLine → String
  | .leaf _ condition field result =>
    ": " ++ String.ofList (Expr.renderCondition condition) ++ " against " ++ renderField field ++
      " => " ++ (if result then "MATCHED" else "NOT_MATCHED")
  | .node _ left connective right result =>
    ": " ++ toString left ++ " " ++ connective.text ++ " " ++ toString right ++ " => " ++
      toString result

/-- A note of a tree as one of a larger tree, in which the tree stands at an address. -/
def under (path : Path) : TraceLine → TraceLine
  | .leaf front condition field result => .leaf (front ++ path) condition field result
  | .node front left connective right result => .node (front ++ path) left connective right result

theorem render_eq (line : TraceLine) : line.render = line.path.render ++ line.body := by
  cases line <;> simp only [render, body, path, String.append_assoc]

theorem path_under (path : Path) (line : TraceLine) :
    (line.under path).path = line.path ++ path := by
  cases line <;> rfl

theorem render_eq_root (line : TraceLine) :
    line.render = "root" ++ (line.path.steps ++ line.body) := by
  rw [render_eq, Path.render_eq, String.append_assoc]

/-- A note that is moved has another address in its text. -/
theorem render_under (path : Path) (line : TraceLine) :
    (line.under path).render = relocate path.render line.render := by
  have hbody : (line.under path).body = line.body := by cases line <;> rfl
  rw [render_eq, path_under, hbody, Path.render_append, render_eq_root, relocate_root,
    String.append_assoc]

/-- The address of a note can be read off its text. -/
theorem lineAddress_render (line : TraceLine) : lineAddress line.render = line.path.render := by
  have hbody : ∃ rest, line.body.toList = ':' :: rest := by cases line <;> simp [body]
  obtain ⟨rest, hrest⟩ := hbody
  have hcolon : ∀ c ∈ line.path.render.toList, decide (c ≠ ':') = true := by
    intro c hc
    simp only [decide_eq_true_eq]
    rintro rfl
    exact line.path.colon_not_mem_render hc
  rw [lineAddress, render_eq, String.toList_append, hrest, List.takeWhile_append_of_pos hcolon]
  simp

end TraceLine

/-! ### Notes of subtrees -/

namespace Expr

theorem map_takeNote (tracing : Bool) (note : Bool → TraceLine) (value : Except EvalError Bool)
    (earlier : List TraceLine) (f : TraceLine → TraceLine) :
    (takeNote tracing note value earlier).map f =
      takeNote tracing (fun result => f (note result)) value (earlier.map f) := by
  cases tracing <;> cases value <;> rfl

/-- The notes of a tree that stands at an address are those of the tree alone, moved there. -/
theorem notes_append (tracing : Bool) (record : Record) (e : Expr) (front path : Path) :
    e.notes tracing record (front ++ path) =
      (e.notes tracing record front).map (TraceLine.under path) := by
  induction e generalizing front with
  | leaf c =>
    rw [notes, notes, map_takeNote]
    rfl
  | node k left right ihleft ihright =>
    rw [notes, notes, map_takeNote, List.map_append, ← ihleft, ← ihright]
    rfl

/-- The notes of a subtree at one step from the root. -/
theorem notes_singleton (tracing : Bool) (record : Record) (e : Expr) (side : Side) :
    e.notes tracing record [side] = (e.notes tracing record []).map (TraceLine.under [side]) :=
  notes_append tracing record e [] [side]

/-- No two notes have the same address. -/
theorem nodup_path_notes (tracing : Bool) (record : Record) (e : Expr) :
    ((e.notes tracing record []).map TraceLine.path).Nodup := by
  -- a further note needs an address of its own
  have htake {note : Bool → TraceLine} {value : Except EvalError Bool} {earlier : List TraceLine}
      (hnew : ∀ result, (note result).path ∉ earlier.map TraceLine.path)
      (h : (earlier.map TraceLine.path).Nodup) :
      ((takeNote tracing note value earlier).map TraceLine.path).Nodup := by
    cases tracing <;> cases value <;> first | exact h | exact List.nodup_cons.2 ⟨hnew _, h⟩
  have hmove (path : Path) (notes : List TraceLine) :
      (notes.map (TraceLine.under path)).map TraceLine.path =
        (notes.map TraceLine.path).map (· ++ path) := by
    simp [TraceLine.path_under]
  induction e with
  | leaf c => exact htake (by simp) List.nodup_nil
  | node k left right ihleft ihright =>
    rw [notes, notes_singleton, notes_singleton]
    refine htake (fun _ => ?_) ?_ <;> rw [List.map_append, hmove, hmove]
    · -- the address of the node is shorter
      simp [noteNode, TraceLine.path]
    · -- the last steps tell the subtrees apart
      refine List.nodup_append.2 ⟨List.Nodup.map (List.append_left_injective _) ihright,
        List.Nodup.map (List.append_left_injective _) ihleft, ?_⟩
      simp only [List.forall_mem_map]
      intro a _ b _ h
      cases List.append_inj_right' h rfl

end Expr

namespace Evaluation

/-- The text of the notes. -/
def lines (evaluation : Evaluation) : List String := evaluation.trace.map TraceLine.render

/-- The evaluation of two trees that are both demanded, from those of the two. -/
def join (a b : Evaluation) : Evaluation where
  result := a.result && b.result
  trace := a.trace.map (TraceLine.under [.left]) ++ b.trace.map (TraceLine.under [.right]) ++
    [.node [] a.result .and b.result (a.result && b.result)]

/-- The lines of a tree that is joined to others, with so many trees joined to it later: its own
lines on the right, then that of the node that joins it. -/
def joinedLines (before : Bool) (evaluation : Evaluation) (later : Nat) : List String :=
  evaluation.lines.map (relocate (jointAddress later ++ ".right")) ++
    [jointAddress later ++ ": " ++ toString before ++ " AND " ++ toString evaluation.result ++
      " => " ++ toString (before && evaluation.result)]

/-- The lines of several trees that are all demanded, from those of each of them. -/
def linesOfAll (first : Evaluation) (others : List Evaluation) : List String :=
  first.lines.map (relocate (jointAddress others.length)) ++
    (others.mapIdx fun i evaluation =>
      joinedLines (((first :: others).take (i + 1)).all (·.result)) evaluation
        (others.length - (i + 1))).flatten

theorem relocate_root_lines (evaluation : Evaluation) :
    evaluation.lines.map (relocate "root") = evaluation.lines := by
  rw [lines, List.map_map]
  refine List.map_congr_left fun line _ => ?_
  rw [Function.comp_apply, TraceLine.render_eq_root, relocate_root]

/-- The lines of two trees that are both demanded. -/
theorem lines_join (a b : Evaluation) :
    (a.join b).lines = a.lines.map (relocate "root.left") ++ joinedLines a.result b 0 := by
  have hmove (side : Side) (notes : List TraceLine) :
      (notes.map (TraceLine.under [side])).map TraceLine.render =
        (notes.map TraceLine.render).map (relocate (Path.render [side])) := by
    simp [TraceLine.render_under]
  have hline (before result : Bool) :
      (TraceLine.node [] before .and result (before && result)).render =
        jointAddress 0 ++ ": " ++ toString before ++ " AND " ++ toString result ++ " => " ++
          toString (before && result) := by
    cases before <;> cases result <;> decide
  rw [lines, join, List.map_append, List.map_append, hmove, hmove, List.map_singleton, hline,
    List.append_assoc]
  rfl

/-- Lines that are moved below a node that is moved itself. -/
theorem map_relocate_relocate (lines : List String) (later : Nat) (rest : String) :
    (lines.map (relocate ("root" ++ rest))).map (relocate (jointAddress later)) =
      lines.map (relocate (jointAddress later ++ rest)) := by
  simp [relocate_relocate]

/-- The lines of a tree that is joined, if trees are joined later. -/
theorem map_relocate_joinedLines (before : Bool) (evaluation : Evaluation) (later : Nat) :
    (joinedLines before evaluation 0).map (relocate (jointAddress later)) =
      joinedLines before evaluation later := by
  rw [joinedLines, joinedLines, List.map_append, jointAddress, map_relocate_relocate,
    List.map_singleton]
  simp only [String.append_assoc, relocate_root]

/-- Joining two trees first does not change the lines of all. -/
theorem linesOfAll_join (first second : Evaluation) (others : List Evaluation) :
    linesOfAll (first.join second) others = linesOfAll first (second :: others) := by
  have hresult : (first.join second).result = (first.result && second.result) := rfl
  have hleft : first.lines.map (relocate (jointAddress (others.length + 1))) =
      (first.lines.map (relocate "root.left")).map (relocate (jointAddress others.length)) :=
    (map_relocate_relocate first.lines others.length ".left").symm
  rw [linesOfAll, linesOfAll, lines_join, List.map_append, map_relocate_joinedLines,
    List.mapIdx_cons, List.flatten_cons, List.length_cons, hleft]
  simp [hresult, Bool.and_assoc]

/-- The lines of trees that are joined one by one. -/
theorem lines_foldl_join (first : Evaluation) (others : List Evaluation) :
    (others.foldl join first).lines = linesOfAll first others := by
  induction others generalizing first with
  | nil => simp [linesOfAll, jointAddress, relocate_root_lines]
  | cons second others ih => rw [List.foldl_cons, ih, linesOfAll_join]

end Evaluation

/-! ### Evaluating a chain -/

namespace Expr

variable {record : Record}

theorem evaluate_eq_ok_iff {tracing : Bool} {e : Expr} {evaluation : Evaluation} :
    e.evaluate tracing record = .ok evaluation ↔
      e.truth record = .ok evaluation.result ∧
        evaluation.trace = (e.notes tracing record []).reverse := by
  rw [evaluate_eq, map_eq_ok_iff]
  constructor
  · rintro ⟨result, htruth, rfl⟩
    exact ⟨htruth, rfl⟩
  · rintro ⟨htruth, htrace⟩
    exact ⟨evaluation.result, htruth, by rw [← htrace]⟩

/-- Two trees that are both demanded are evaluated as each of them is. -/
theorem evaluate_both {left right : Expr} {a b : Evaluation}
    (hleft : left.evaluate true record = .ok a) (hright : right.evaluate true record = .ok b) :
    (both left right).evaluate true record = .ok (a.join b) := by
  obtain ⟨ha, hnotesa⟩ := evaluate_eq_ok_iff.1 hleft
  obtain ⟨hb, hnotesb⟩ := evaluate_eq_ok_iff.1 hright
  have htruth : truth record (.node .and left right) = .ok (a.result && b.result) := by
    rw [truth_node, ha, hb]
    rfl
  refine evaluate_eq_ok_iff.2 ⟨htruth, ?_⟩
  rw [both, notes, htruth, ha, hb, notes_singleton, notes_singleton, takeNote, List.reverse_cons,
    List.reverse_append, ← List.map_reverse, ← List.map_reverse, ← hnotesa, ← hnotesb]
  rfl

/-- A chain is evaluated as its trees are, joined one by one. -/
theorem evaluate_chain {tree : Expr} {trees : List Expr} {first : Evaluation}
    {others : List Evaluation} (hfirst : tree.evaluate true record = .ok first)
    (hothers : List.Forall₂ (fun t a => t.evaluate true record = .ok a) trees others) :
    (chain (tree :: trees)).evaluate true record = .ok (others.foldl Evaluation.join first) := by
  induction hothers generalizing tree first with
  | nil => exact hfirst
  | cons hsecond _ ih => exact ih (evaluate_both hfirst hsecond)

/-- There is a line for each node of a tree, and no two of them have the same address. -/
theorem lines_of_evaluate {e : Expr} {evaluation : Evaluation}
    (h : e.evaluate true record = .ok evaluation) :
    evaluation.lines.length + 1 = 2 * e.operandCount ∧
      (evaluation.lines.map lineAddress).Nodup := by
  obtain ⟨htruth, htrace⟩ := evaluate_eq_ok_iff.1 h
  constructor
  · rw [← size_add_one, ← length_postorder, Evaluation.lines, htrace,
      ← (describes_notes htruth []).length_eq]
  · have haddress : evaluation.lines.map lineAddress =
        (evaluation.trace.map TraceLine.path).map Path.render := by
      simp [Evaluation.lines, TraceLine.lineAddress_render]
    rw [haddress, htrace, List.map_reverse]
    exact List.Nodup.map (fun _ _ => Path.render_injective)
      (List.nodup_reverse.2 (nodup_path_notes true record e))

end Expr

namespace Engine

/-- **The notes of a set of rules are those of its rules.** Let notes be taken, and let the rules of
a set compile to trees that are evaluated one by one. Then the set has an outcome, and its lines are
the lines of the rules, one rule after the other, with the address of the rule in the place of `root`
at their front, and behind those of each further rule the line of the node that joins it. There are
as many lines as nodes, and no two of them have the same address. -/
theorem trace_of_rules {engine : Engine} (htracing : engine.tracing = true) {record : Record}
    {rules : List StoredRule} {trees : List Expr} {first : Evaluation} {others : List Evaluation}
    (htrees : List.Forall₂ (fun rule tree => engine.compile rule.rule = .ok tree) rules trees)
    (hevaluations : List.Forall₂ (fun tree evaluation => engine.evaluate tree record = .ok evaluation)
      trees (first :: others)) (elapsed : Elapsed) :
    ∃ outcome, (engine.execute record elapsed rules).1 = .ok outcome ∧
      outcome.trace = Evaluation.linesOfAll first others ∧
      (∀ evaluation ∈ first :: others, ∀ line ∈ evaluation.lines, ∃ rest, line = "root" ++ rest) ∧
      outcome.trace.length = 2 * (trees.map Expr.operandCount).sum - 1 ∧
      (outcome.trace.map lineAddress).Nodup := by
  obtain ⟨tree, trees, hfirst, hothers, rfl⟩ := List.forall₂_cons_right_iff.1 hevaluations
  have hne : rules ≠ [] := by
    rintro rfl
    cases htrees
  have hcombine : engine.combine (rules.map (·.rule)) = .ok (Expr.chain (tree :: trees)) :=
    (Dialect.combine_eq_ok_iff (by simpa using hne)).2
      ⟨tree :: trees, List.forall₂_map_left_iff.2 htrees, rfl⟩
  simp only [evaluate, htracing] at hfirst hothers
  have hchain := Expr.evaluate_chain hfirst hothers
  obtain ⟨hlength, hnodup⟩ := Expr.lines_of_evaluate hchain
  rw [Expr.operandCount_chain] at hlength
  have hdecides : ∀ rule ∈ rules, ∃ result, engine.Decides record rule.rule result := by
    intro rule hrule
    obtain ⟨t, ht, hcompile⟩ := exists_mem_of_forall₂ htrees rule hrule
    obtain ⟨evaluation, heval⟩ := exists_of_forall₂ hevaluations t ht
    exact ⟨evaluation.result, t, evaluation, hcompile, heval, rfl⟩
  obtain ⟨outcome, hexecute⟩ := exists_outcome_of_decides hne hdecides elapsed
  have htrace : outcome.trace = Evaluation.linesOfAll first others := by
    simp only [outcomeOf, bind_eq_ok_iff, mapError_eq_ok_iff, evaluate, htracing] at hexecute
    obtain ⟨combined, hcombined, evaluation, heval, _, -, houtcome⟩ := hexecute
    obtain rfl := Except.ok.inj (hcombine.symm.trans hcombined)
    obtain rfl := Except.ok.inj (hchain.symm.trans heval)
    obtain rfl := Except.ok.inj houtcome
    exact Evaluation.lines_foldl_join first others
  rw [Evaluation.lines_foldl_join, ← htrace] at hlength hnodup
  refine ⟨outcome, hexecute, htrace, fun evaluation _ line hline => ?_, by omega, hnodup⟩
  obtain ⟨note, -, rfl⟩ := List.mem_map.1 hline
  exact ⟨_, note.render_eq_root⟩

/-- The theorem for three rules, the first of which is a chain itself. -/
theorem trace_of_rules_of_three :
    let engine := standard.withTrace
    let record : Record := .ofMembers [("a", .text "x"), ("b", .text "z")]
    let rules : List StoredRule := [⟨1, "either", "a = x OR b = y", ""⟩, ⟨2, "low", "b < 'zz'", ""⟩,
      ⟨3, "missing", "(c = a)", ""⟩]
    engine.tracing = true ∧ ∃ outcome, (engine.execute record ⟨0⟩ rules).1 = .ok outcome ∧
      outcome.trace = [
        "root.left.left.left: a = 'x' against \"x\" => MATCHED",
        "root.left.left.right: b = 'y' against \"z\" => NOT_MATCHED",
        "root.left.left: true OR false => true",
        "root.left.right: b < 'zz' against \"z\" => MATCHED",
        "root.left: true AND true => true",
        "root.right: c = 'a' against undefined => NOT_MATCHED",
        "root: true AND false => false"] ∧
      outcome.trace.length = 7 ∧ (outcome.trace.map lineAddress).Nodup := by
  intro engine record rules
  let a : Condition := ⟨"a", .equal, .text "x"⟩
  let b : Condition := ⟨"b", .equal, .text "y"⟩
  let low : Condition := ⟨"b", .less, .text "zz"⟩
  let missing : Condition := ⟨"c", .equal, .text "a"⟩
  let first : Evaluation := ⟨true, [.leaf [.left] a (some (.text "x")) true,
    .leaf [.right] b (some (.text "z")) false, .node [] true .or false true]⟩
  let second : Evaluation := ⟨true, [.leaf [] low (some (.text "z")) true]⟩
  let third : Evaluation := ⟨false, [.leaf [] missing none false]⟩
  have htrees : List.Forall₂ (fun (rule : StoredRule) tree => engine.compile rule.rule = .ok tree)
      rules [.either (.leaf a) (.leaf b), .leaf low, .leaf missing] :=
    .cons (by decide +kernel) (.cons (by decide +kernel) (.cons (by decide +kernel) .nil))
  have hevaluations : List.Forall₂
      (fun tree evaluation => engine.evaluate tree record = .ok evaluation)
      [.either (.leaf a) (.leaf b), .leaf low, .leaf missing] [first, second, third] :=
    .cons ((Expr.evaluate_eq _ _ _).trans rfl) (.cons ((Expr.evaluate_eq _ _ _).trans rfl)
      (.cons ((Expr.evaluate_eq _ _ _).trans rfl) .nil))
  obtain ⟨outcome, houtcome, htrace, -, hlength, hnodup⟩ :=
    trace_of_rules rfl htrees hevaluations ⟨0⟩
  refine ⟨rfl, outcome, houtcome, htrace.trans ?_, hlength.trans ?_, hnodup⟩ <;> decide +kernel

end Engine

end Criteria
