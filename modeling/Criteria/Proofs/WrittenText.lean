import Criteria.Json.Printer
import Criteria.Json.Reader
import Mathlib.Tactic.SplitIfs

/-!
# Written strings are read back

A string is written with some of its characters escaped, and read in pieces that are put together
again. This file shows that the same string comes of it, and that an object whose members are
written one behind the other is read as the record that they make up, whatever follows.

## Main definitions

* `Json.Step.Takes`: a step takes a value off the front of a text and leaves a rest.

## Main results

* `Json.takes_pieces_escape`: the pieces of a written string.
* `Json.takes_text`: a written string is read as itself.
* `Json.takes_memberOf`, `Json.takes_record`: written members, and the record of them.
-/

namespace Criteria.Json

/-- A step takes a value off the front of a text and leaves a rest. -/
def Step.Takes {α : Type} {s : List Char} (step : Step α s) (value : α) (rest : List Char) : Prop :=
  ∃ h, step = .ok (value, ⟨rest, h⟩)

/-- A step takes what it takes before the next one goes on with the rest. -/
theorem Step.Takes.before {α β : Type} {s r t rest : List Char} {step : Step α r} {value : α}
    {next : α → (t : List Char) → Step β t} {result : β} (hstep : step.Takes value t)
    (hr : r.length < s.length) (hnext : (next value t).Takes result rest) :
    Step.Takes (s := s) (do
      let read ← step
      (next read.1 read.2.1).after (Nat.lt_trans read.2.2 hr)) result rest := by
  obtain ⟨ht, hstep⟩ := hstep
  obtain ⟨hrest, hnext⟩ := hnext
  refine ⟨Nat.lt_trans hrest (Nat.lt_trans ht hr), ?_⟩
  rw [hstep]
  change (next value t).after (Nat.lt_trans ht hr) = _
  rw [hnext]
  rfl

/-! ### Pieces -/

section

variable {s rest : List Char} {ps : List Piece}

theorem takes_pieces_escaped {letter c : Char} (hletter : letter ≠ 'u')
    (h : escaped? letter = some c) (hs : (pieces s).Takes ps rest) :
    (pieces ('\\' :: letter :: s)).Takes (.char c :: ps) rest := by
  obtain ⟨hlength, hs⟩ := hs
  refine ⟨Nat.lt_trans hlength (by simp only [List.length_cons]; omega), ?_⟩
  rw [pieces]
  · simp only [h, hs]
    rfl
  · intros
    simp_all

theorem takes_pieces_unit {a b c d : Char} {unit : Nat} (h : unit? a b c d = some unit)
    (hs : (pieces s).Takes ps rest) :
    (pieces ('\\' :: 'u' :: a :: b :: c :: d :: s)).Takes (.unit unit :: ps) rest := by
  obtain ⟨hlength, hs⟩ := hs
  refine ⟨Nat.lt_trans hlength (by simp only [List.length_cons]; omega), ?_⟩
  rw [pieces]
  simp only [h, hs]
  rfl

theorem takes_pieces_char {c : Char} (hquote : c ≠ '"') (hbackslash : c ≠ '\\') (h : 32 ≤ c.toNat)
    (hs : (pieces s).Takes ps rest) : (pieces (c :: s)).Takes (.char c :: ps) rest := by
  obtain ⟨hlength, hs⟩ := hs
  refine ⟨Nat.lt_succ_of_lt hlength, ?_⟩
  rw [pieces]
  · rw [if_neg (by simp [hbackslash, h]), hs]
    rfl
  all_goals simp_all

end

theorem joinPieces_char (c : Char) (ps : List Piece) :
    joinPieces (.char c :: ps) = (joinPieces ps).map (c :: ·) := rfl

/-- A unit below those of pairs stands for a character by itself. -/
theorem joinPieces_unit {unit : Nat} (h : unit < 0xD800) (ps : List Piece) :
    joinPieces (.unit unit :: ps) = (joinPieces ps).map (Char.ofNat unit :: ·) := by
  have hleading : isLeading unit = false := by simp [isLeading]; omega
  have htrailing : isTrailing unit = false := by simp [isTrailing]; omega
  cases ps with
  | nil => simp [joinPieces, hleading, htrailing]
  | cons p ps => cases p <;> simp [joinPieces, hleading, htrailing]

theorem unit?_hexDigit {n : Nat} (h : n < 32) :
    unit? '0' '0' (hexDigit (n / 16)) (hexDigit (n % 16)) = some n := by
  revert n
  decide

/-- The ways to write a character of a string. -/
theorem escapeChar_cases (c : Char) :
    (∃ letter, letter ≠ 'u' ∧ escaped? letter = some c ∧ escapeChar c = ['\\', letter]) ∨
    (c.toNat < 32 ∧ escapeChar c =
      ['\\', 'u', '0', '0', hexDigit (c.toNat / 16), hexDigit (c.toNat % 16)]) ∨
    (c ≠ '"' ∧ c ≠ '\\' ∧ 32 ≤ c.toNat ∧ escapeChar c = [c]) := by
  rw [escapeChar]
  split_ifs with hquote hbackslash hb hf hn hr ht hcontrol
  · exact .inl ⟨'"', by decide, by rw [hquote]; rfl, rfl⟩
  · exact .inl ⟨'\\', by decide, by rw [hbackslash]; rfl, rfl⟩
  · exact .inl ⟨'b', by decide, by rw [hb]; rfl, rfl⟩
  · exact .inl ⟨'f', by decide, by rw [hf]; rfl, rfl⟩
  · exact .inl ⟨'n', by decide, by rw [hn]; rfl, rfl⟩
  · exact .inl ⟨'r', by decide, by rw [hr]; rfl, rfl⟩
  · exact .inl ⟨'t', by decide, by rw [ht]; rfl, rfl⟩
  · exact .inr (.inl ⟨hcontrol, rfl⟩)
  · exact .inr (.inr ⟨hquote, hbackslash, Nat.le_of_not_lt hcontrol, rfl⟩)

/-- What is written for a character is read as one piece, which stands for the character. -/
theorem exists_piece (c : Char) : ∃ piece,
    (∀ s ps rest, (pieces s).Takes ps rest →
      (pieces (escapeChar c ++ s)).Takes (piece :: ps) rest) ∧
    ∀ ps, joinPieces (piece :: ps) = (joinPieces ps).map (c :: ·) := by
  rcases escapeChar_cases c with
    ⟨letter, hletter, hescaped, h⟩ | ⟨hcontrol, h⟩ | ⟨hquote, hbackslash, hge, h⟩
  · exact ⟨.char c, fun _ _ _ => h ▸ takes_pieces_escaped hletter hescaped, joinPieces_char c⟩
  · refine ⟨.unit c.toNat, fun _ _ _ => h ▸ takes_pieces_unit (unit?_hexDigit hcontrol),
      fun ps => ?_⟩
    rw [joinPieces_unit (by omega), Char.ofNat_toNat]
  · exact ⟨.char c, fun _ _ _ => h ▸ takes_pieces_char hquote hbackslash hge, joinPieces_char c⟩

/-- The pieces of written characters make up the characters. -/
theorem takes_pieces_flatMap (s rest : List Char) : ∃ ps,
    (pieces (s.flatMap escapeChar ++ '"' :: rest)).Takes ps rest ∧ joinPieces ps = some s := by
  induction s with
  | nil => exact ⟨[], ⟨_, rfl⟩, rfl⟩
  | cons c s ih =>
    obtain ⟨ps, htakes, hjoin⟩ := ih
    obtain ⟨piece, hpiece, hpieces⟩ := exists_piece c
    rw [List.flatMap_cons, List.append_assoc]
    exact ⟨piece :: ps, hpiece _ _ _ htakes, by rw [hpieces, hjoin]; rfl⟩

/-- The pieces of a written string make up the string. -/
theorem takes_pieces_escape (s : String) (rest : List Char) : ∃ ps,
    (pieces (escape s ++ '"' :: rest)).Takes ps rest ∧ joinPieces ps = some s.toList :=
  takes_pieces_flatMap s.toList rest

/-! ### Strings -/

theorem one_quote {α : Type} (meaning : Meaning α)
    (inner : Option ((s : List Char) → Step α s)) (s : List Char) :
    one meaning inner ('"' :: s) = (do
      let read ← pieces s
      return (← orMalformed (meaning.text read.1), read.2.cons)) := rfl

/-- A value that a reader picks is read. -/
theorem takes_select {α : Type} {pick : Json → Option α} {s rest : List Char} {value : Json}
    {picked : α} (hone : (one asWritten none s).Takes value rest) (hpick : pick value = some picked)
    (limit : Nat) : (Reader.select pick limit s).Takes picked rest := by
  obtain ⟨hlength, hone⟩ := hone
  refine ⟨hlength, ?_⟩
  rw [Reader.select, hone]
  simp only [hpick]

/-- A written string is read as itself. -/
theorem takes_text (s : String) (limit : Nat) (rest : List Char) :
    (Reader.text limit (writeText s rest)).Takes s rest := by
  obtain ⟨ps, ⟨hlength, htakes⟩, hjoin⟩ := takes_pieces_escape s rest
  have hone : (one asWritten none (writeText s rest)).Takes (.text s) rest := by
    refine ⟨Nat.lt_succ_of_lt hlength, ?_⟩
    change one asWritten none ('"' :: (escape s ++ '"' :: rest)) = _
    rw [one_quote, htakes]
    simp only [bind, Except.bind, asWritten, hjoin, orMalformed, Option.map_some,
      String.ofList_toList]
    rfl
  rw [Reader.text]
  exact takes_select hone (by rfl) limit

/-! ### Records -/

section

variable {σ α β : Type} {fields : List (Reader.Field σ)} {limit : Nat} {state state' state'' : σ}
  {s t rest : List Char}

theorem takes_fill {name : String} {held : σ → Option β} {hold : β → σ → σ} {inner : Reader β}
    {value : β} (h : (inner limit s).Takes value rest) (state : σ) :
    ((Reader.Field.of name held hold inner).fill state limit s).Takes (hold value state) rest := by
  obtain ⟨hlength, h⟩ := h
  refine ⟨hlength, ?_⟩
  change (do let read ← inner limit s; return (hold read.1 state, read.2)) = _
  rw [h]
  rfl

/-- A written member fills in the field of its name, if it is not filled in already. -/
theorem takes_memberOf {name : String} {field : Reader.Field σ}
    (hfield : fields.find? (·.name = name) = some field) (hfree : field.isFilled state = false)
    (hfill : (field.fill state limit s).Takes state' rest) :
    (Reader.memberOf fields limit state (escape name ++ '"' :: ':' :: s)).Takes state' rest := by
  obtain ⟨ps, ⟨hlength, htakes⟩, hjoin⟩ := takes_pieces_escape name (':' :: s)
  obtain ⟨hrest, hfill⟩ := hfill
  refine ⟨Nat.lt_trans (Nat.lt_succ_of_lt hrest) hlength, ?_⟩
  rw [Reader.memberOf, htakes]
  simp only [bind, Except.bind, textOfPieces, hjoin, String.ofList_toList, hfield, Option.any,
    hfree, Bool.false_eq_true, if_false]
  split
  · next r heq =>
    obtain rfl := (List.cons.inj heq).2
    rw [hfill]
    rfl
  · next hne => exact absurd rfl (hne s)

theorem takes_fieldsTail_nil :
    (Reader.fieldsTail fields limit state ('\x7d' :: s)).Takes state s := by
  refine ⟨Nat.lt_succ_self _, ?_⟩
  rw [Reader.fieldsTail]
  rfl

theorem takes_fieldsTail_cons (hmember : (Reader.memberOf fields limit state s).Takes state' t)
    (htail : (Reader.fieldsTail fields limit state' t).Takes state'' rest) :
    (Reader.fieldsTail fields limit state (',' :: '"' :: s)).Takes state'' rest := by
  have hlength : s.length < (',' :: '"' :: s).length := by simp only [List.length_cons]; omega
  rw [Reader.fieldsTail]
  exact hmember.before hlength htail

theorem takes_fieldsOf (hmember : (Reader.memberOf fields limit state s).Takes state' t)
    (htail : (Reader.fieldsTail fields limit state' t).Takes state'' rest) :
    (Reader.fieldsOf fields limit state ('"' :: s)).Takes state'' rest :=
  hmember.before (Nat.lt_succ_self _) htail

/-- A written object is read as the record that its members make up. -/
theorem takes_record {form : Reader.Form σ α} {record : α}
    (hfields : (Reader.fieldsOf form.fields limit form.blank s).Takes state rest)
    (hfinish : form.finish state = some record) :
    (Reader.record form (limit + 1) ('\x7b' :: s)).Takes record rest := by
  obtain ⟨hlength, hfields⟩ := hfields
  refine ⟨Nat.lt_succ_of_lt hlength, ?_⟩
  change (do
    let read ← Reader.fieldsOf form.fields limit form.blank s
    return (← form.close read.1, read.2.after (Nat.lt_succ_self _))) = _
  rw [hfields]
  change (do return (← form.close state, _)) = _
  rw [Reader.Form.close, hfinish]
  rfl

/-- A text that is read to its end is read. -/
theorem run_of_takes {reader : Reader α} {text : String} {value : α}
    (h : (reader Reader.nestingLimit text.toList).Takes value []) :
    reader.run text = .ok value := by
  obtain ⟨hlength, h⟩ := h
  rw [Reader.run, h]
  rfl

end

end Criteria.Json
