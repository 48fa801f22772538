import Criteria.Proofs.Grammar
import Criteria.Proofs.JsonRange
import Criteria.Proofs.TreeShape
import Criteria.Proofs.WholeNumber

/-!
# Trees as JSON are read back

A tree is written as JSON with its numbers as integers where integers are exact, and its operators
as text. This file shows that reading gives an equal tree back, and that a tree that was read, from
whatever JSON encodes it, can be written and read again.

## Main definitions

* `Expr.IsFinite`: all numbers of a tree are finite.
* `Expr.IsCanonical`: no unknown operator of a tree holds the text of a known one.

## Main results

* `Literal.exists_ofJson?_toJson`: a finite literal is read back.
* `Literal.isFinite_of_ofJson?`: literals that are read are finite.
* `Expr.json_round_trip`: trees are read back.
-/

namespace Criteria

/-! ### Numbers -/

namespace Double

/-- A number that is neither infinite nor "not a number". -/
def IsFinite (x : Double) : Prop := ∃ negative m, x = finite negative m

theorem isFinite_eq_true_iff {x : Double} : x.isFinite = true ↔ x.IsFinite := by
  cases x <;> simp [isFinite, IsFinite]

/-- Equal numbers have the same place on the number line. -/
theorem same_of_position? {x y : Double} {place : Int} (hx : x.position? = some place)
    (hy : y.position? = some place) : x.same y = true := by
  simp [same, compare?, hx, hy]

theorem IsFinite.same_self {x : Double} (h : x.IsFinite) : x.same x = true := by
  obtain ⟨negative, m, rfl⟩ := h
  cases negative <;> exact same_of_position? rfl rfl

theorem position?_finite (negative : Bool) (m : Magnitude) : (finite negative m).position? =
    some (if negative then -(m.quanta : Int) else m.quanta) := by
  cases negative <;> rfl

/-- A double without a fraction is the one nearest to the integer that it is, but for the sign of
zero. -/
theorem same_ofInt {x : Double} {n : Int} (h : x.toInt? = some n) : x.same (ofInt n) = true := by
  obtain ⟨negative, m, k, rfl, hk, rfl⟩ := exists_of_toInt? h
  obtain ⟨hwhole, hquanta⟩ := Magnitude.isWhole_of_toNat? hk
  have hofNat : Magnitude.ofNat? k = some m := by
    rw [← hwhole.ofNat?_div, hquanta, Nat.mul_div_cancel _ quantaPerUnit_pos]
  have hofInt (n : Int) (hn : n.natAbs = k) : ofInt n = finite (n < 0) m := by
    rw [ofInt, hn, hofNat, ofMagnitude?]
  cases negative with
  | false =>
    rw [hofInt _ rfl]
    exact same_of_position? (position?_finite ..) (position?_finite ..)
  | true =>
    rw [hofInt _ (by simp)]
    refine same_of_position? (position?_finite ..) ((position?_finite ..).trans ?_)
    -- without the sign of zero, the place is that of the whole number
    rcases Nat.eq_zero_or_pos k with rfl | hpos
    · simp [hquanta]
    · simp [hpos]

/-- The integers of 64 bits are within the range of doubles. -/
theorem isFinite_ofInt {n : Int} (h : n.natAbs ≤ wordBound) : (ofInt n).IsFinite := by
  obtain ⟨m, hm⟩ := Magnitude.exists_ofNat? h
  exact ⟨n < 0, m, by rw [ofInt, hm, ofMagnitude?]⟩

end Double

/-! ### Literals -/

namespace Literal

/-- A string, or a finite number. -/
def IsFinite : Literal → Prop
  | .number x => x.IsFinite
  | .text _ => True

/-- A finite literal is read back: a number without a fraction from an integer or from a double, any
other number from itself, and a string as a string, whatever it looks like. -/
theorem exists_ofJson?_toJson {literal : Literal} (h : literal.IsFinite) :
    ∃ literal', ofJson? literal.toJson = some literal' ∧ literal.same literal' = true := by
  cases literal with
  | text s => exact ⟨.text s, rfl, by simp [same]⟩
  | number x =>
    have hself : ∃ literal', ofJson? (Json.ofDouble x) = some literal' ∧
        (number x).same literal' = true := by
      have hsame := Double.IsFinite.same_self h
      obtain ⟨negative, m, rfl⟩ := h
      exact ⟨_, rfl, hsame⟩
    rw [toJson]
    split
    · next n hn =>
      split
      · exact ⟨_, rfl, Double.same_ofInt hn⟩
      · exact hself
    · exact hself

/-- Literals that are read are finite. -/
theorem isFinite_of_ofJson? {value : Json} {literal : Literal} (hfits : value.Fits)
    (h : ofJson? value = some literal) : literal.IsFinite := by
  cases value with
  | text s =>
    obtain rfl := Option.some.inj h
    trivial
  | number n =>
    obtain rfl := Option.some.inj h
    cases hfits with
    | number hfits =>
      cases n with
      | real negative m => exact ⟨negative, m, rfl⟩
      | integer n =>
        refine Double.isFinite_ofInt ?_
        obtain ⟨hge, hlt⟩ := hfits
        omega
  | _ => cases h

end Literal

/-! ### Trees -/

namespace Expr

/-- All numbers of a tree are finite. -/
def IsFinite : Expr → Prop := Throughout (fun c => c.literal.IsFinite) fun _ => True

/-- No unknown operator of a tree holds the text of a known one. -/
def IsCanonical : Expr → Prop :=
  Throughout (fun c => c.comparator.IsCanonical) fun k => k.IsCanonical

/-- An object holds the members that it is made of, if there are no others. -/
theorem holds_self {α : Type} (members : List (String × α)) : Holds members members :=
  ⟨[], by rw [List.append_nil], by simp⟩

/-- A tree is encoded by the JSON that is written for it, but for the sign of zero. -/
theorem exists_encodes_toJson {kindOf : Json → Option Kind}
    (hkind : ∀ kind : Kind, kindOf (.text kind.name) = some kind) {e : Expr} (hfinite : e.IsFinite)
    (hcanonical : e.IsCanonical) : ∃ e', Encodes kindOf e.toJson e' ∧ e.same e' = true := by
  induction e generalizing kindOf with
  | leaf c =>
    obtain ⟨literal, hliteral, hsame⟩ := Literal.exists_ofJson?_toJson hfinite
    refine ⟨_, .leaf (hkind .operand) hliteral (.object (holds_self _)), ?_⟩
    rw [show Comparator.ofText c.comparator.text = c.comparator from hcanonical]
    simpa [same] using hsame
  | node k left right ihleft ihright =>
    have hnumber : ∀ kind : Kind, Kind.ofNumber? (.text kind.name) = some kind := by
      intro kind
      cases kind <;> decide
    obtain ⟨l, hl, hsamel⟩ := ihleft hnumber hfinite.2.1 hcanonical.2.1
    obtain ⟨r, hr, hsamer⟩ := ihright hnumber hfinite.2.2 hcanonical.2.2
    refine ⟨_, .node (hkind .operator) hl hr (.object (holds_self _)), ?_⟩
    rw [show Connective.ofText k.text = k from hcanonical.1]
    simp [same, hsamel, hsamer]

variable {kindOf : Json → Option Kind} {value : Json} {e : Expr}

/-- What is encoded has canonical operators, since they are read from their text. -/
theorem Encodes.isCanonical (h : Encodes kindOf value e) : e.IsCanonical := by
  induction h with
  | leaf => exact Comparator.isCanonical_ofText _
  | node _ _ _ _ ihleft ihright => exact ⟨Connective.isCanonical_ofText _, ihleft, ihright⟩

/-- If the integers of a JSON value have 64 bits, those of the members that it gives have. -/
theorem Gives.fits {wanted : List (String × Json)} (h : Gives value wanted) (hfits : value.Fits) :
    ∀ w ∈ wanted, w.2.Fits := by
  cases h with
  | object h =>
    obtain ⟨others, hperm, -⟩ := h
    cases hfits with
    | object hmembers =>
      exact fun w hw => hmembers w (hperm.symm.subset (List.mem_append_left others hw))
  | array =>
    cases hfits with
    | array hitems => exact fun w hw => hitems w.2 (List.mem_map_of_mem hw)

/-- What is encoded has finite numbers. -/
theorem Encodes.isFinite (h : Encodes kindOf value e) (hfits : value.Fits) : e.IsFinite := by
  induction h with
  | leaf _ hvalue hgives =>
    have hmembers := hgives.fits hfits
    simp only [leafMembers, List.forall_mem_cons] at hmembers
    exact Literal.isFinite_of_ofJson? hmembers.2.2.2.1 hvalue
  | node _ _ _ hgives ihleft ihright =>
    have hmembers := hgives.fits hfits
    simp only [nodeMembers, List.forall_mem_cons] at hmembers
    exact ⟨trivial, ihleft hmembers.2.2.1, ihright hmembers.2.2.2.1⟩

/-- A tree that is written is read back. -/
theorem exists_ofJson?_toJson (hfinite : e.IsFinite) (hcanonical : e.IsCanonical) :
    ∃ e', ofJson? e.toJson = some e' ∧ e.same e' = true := by
  simp only [ofJson?_eq_some_iff]
  exact exists_encodes_toJson (fun kind => by cases kind <;> decide) hfinite hcanonical

/-- A tree that is read from text is encoded by JSON whose integers have 64 bits. -/
theorem exists_encodes_of_run {text : String} (h : reader.run text = .ok e) :
    ∃ value : Json, value.Fits ∧ Encodes Kind.ofName? value e := by
  obtain ⟨⟨tree, rest⟩, hread, hrun⟩ := bind_eq_ok_iff.1 h
  obtain ⟨⟨value, rest'⟩, hwritten, hread⟩ := bind_eq_ok_iff.1 hread
  refine ⟨value, Json.fits_of_written hwritten, ofJson?_eq_some_iff.1 ?_⟩
  have htree : e = tree := by
    dsimp only at hrun
    split at hrun
    · exact (Except.ok.inj hrun).symm
    · cases hrun
  dsimp only at hread
  split at hread
  · next hvalue =>
    cases hread
    rw [hvalue, htree]
  · cases hread

/-- **Trees as JSON are read back.** A tree with finite numbers and canonical operators is read back
from the JSON that is written for it, an equal number standing for each number. A JSON value is read
as a tree just if it encodes it: as an object, whose members may come in any order among members
of other names, or as an array with the type in front. What is read has canonical operators, and if
the integers in the JSON have 64 bits, as all have that are read from text, it is read back once it
is written. -/
theorem json_round_trip :
    (∀ e : Expr, e.IsFinite → e.IsCanonical →
      ∃ e', ofJson? e.toJson = some e' ∧ e.same e' = true) ∧
    (∀ value e, ofJson? value = some e ↔ Encodes Kind.ofName? value e) ∧
    (∀ value e, ofJson? value = some e → e.IsCanonical ∧
      (value.Fits → e.IsFinite ∧ ∃ e', ofJson? e.toJson = some e' ∧ e.same e' = true)) ∧
    ∀ text e, reader.run text = .ok e →
      e.IsCanonical ∧ e.IsFinite ∧ ∃ e', ofJson? e.toJson = some e' ∧ e.same e' = true := by
  have hencoded (value : Json) (e : Expr) (h : Encodes Kind.ofName? value e)
      (hfits : value.Fits) : e.IsFinite ∧ ∃ e', ofJson? e.toJson = some e' ∧ e.same e' = true :=
    ⟨h.isFinite hfits, exists_ofJson?_toJson (h.isFinite hfits) h.isCanonical⟩
  refine ⟨fun e => exists_ofJson?_toJson, fun value e => ofJson?_eq_some_iff,
    fun value e h => ?_, fun text e h => ?_⟩
  · have h := ofJson?_eq_some_iff.1 h
    exact ⟨h.isCanonical, hencoded value e h⟩
  · obtain ⟨value, hfits, h⟩ := exists_encodes_of_run h
    exact ⟨h.isCanonical, hencoded value e h hfits⟩

-- the members stand in another order, and a member of another name among them
example : ofJson? (.object [("value", .text "5"), ("note", .null), ("operator", .text "<>"),
      ("attribute", .text "age"), ("type", .text "operand")]) =
    some (.leaf ⟨"age", .unknown "<>", .text "5"⟩) := by decide +kernel

end Expr

end Criteria
