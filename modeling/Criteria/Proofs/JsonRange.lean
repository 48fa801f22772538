import Criteria.Json.Reader
import Criteria.Proofs.FirstFailure

/-!
# What the values of JSON text have in common

A reader puts a value together from its parts, so what the parts of all values have and what is kept
when values are put together, the whole has. This file shows so that integers in JSON text have
64 bits.

## Main definitions

* `Json.Meaning.Keeps`: a property that is kept when values are put together.
* `Json.Fits`: all integers in a JSON value have 64 bits.

## Main results

* `Json.Meaning.Keeps.nested`: what is read has every property that is kept.
* `Json.fits_of_written`: integers in JSON text have 64 bits.
-/

namespace Criteria.Json

/-! ### What is kept -/

section

variable {α : Type} {p : α → Prop} {read : (s : List Char) → Step α s}

/-- A reader yields values of a property only. -/
def Yields (p : α → Prop) (read : (s : List Char) → Step α s) : Prop :=
  ∀ s value rest, read s = .ok (value, rest) → p value

theorem Yields.itemsTail (h : Yields p read) : Yields (fun l => ∀ a ∈ l, p a) (itemsTail read) := by
  intro s l rest hl
  fun_induction Json.itemsTail read s generalizing l with
  | case1 =>
    cases hl
    simp
  | case2 s r heq hr ih =>
    obtain ⟨⟨first, t⟩, hfirst, hl⟩ := bind_eq_ok_iff.1 hl
    obtain ⟨⟨others, _⟩, hothers, hl⟩ := bind_eq_ok_iff.1 hl
    cases hl
    exact List.forall_mem_cons.2 ⟨h _ _ _ hfirst, ih t others _ hothers⟩
  | case3 => cases hl

theorem Yields.items (h : Yields p read) : Yields (fun l => ∀ a ∈ l, p a) (items read) := by
  intro s l rest hl
  rw [Json.items] at hl
  split at hl
  · cases hl
    simp
  · obtain ⟨⟨first, t⟩, hfirst, hl⟩ := bind_eq_ok_iff.1 hl
    obtain ⟨⟨others, _⟩, hothers, hl⟩ := bind_eq_ok_iff.1 hl
    cases hl
    exact List.forall_mem_cons.2 ⟨h _ _ _ hfirst, h.itemsTail _ _ _ hothers⟩

theorem Yields.member (h : Yields p read) : Yields (fun m => p m.2) (member read) := by
  intro s m rest hm
  obtain ⟨⟨name, t⟩, -, hm⟩ := bind_eq_ok_iff.1 hm
  obtain ⟨⟨held, _⟩, hheld, hm⟩ := bind_eq_ok_iff.1 hm
  cases hm
  exact h _ _ _ hheld

theorem Yields.membersTail (h : Yields p read) :
    Yields (fun ms => ∀ m ∈ ms, p m.2) (membersTail read) := by
  intro s ms rest hms
  fun_induction Json.membersTail read s generalizing ms with
  | case1 =>
    cases hms
    simp
  | case2 s r heq hr q heq' hq ih =>
    obtain ⟨⟨first, t⟩, hfirst, hms⟩ := bind_eq_ok_iff.1 hms
    obtain ⟨⟨others, _⟩, hothers, hms⟩ := bind_eq_ok_iff.1 hms
    cases hms
    exact List.forall_mem_cons.2 ⟨h.member _ _ _ hfirst, ih t others _ hothers⟩
  | case3 => cases hms
  | case4 => cases hms

theorem Yields.members (h : Yields p read) : Yields (fun ms => ∀ m ∈ ms, p m.2) (members read) := by
  intro s ms rest hms
  rw [Json.members] at hms
  split at hms
  · cases hms
    simp
  · obtain ⟨⟨first, t⟩, hfirst, hms⟩ := bind_eq_ok_iff.1 hms
    obtain ⟨⟨others, _⟩, hothers, hms⟩ := bind_eq_ok_iff.1 hms
    cases hms
    exact List.forall_mem_cons.2 ⟨h.member _ _ _ hfirst, h.membersTail _ _ _ hothers⟩
  · cases hms

/-- A property that is kept when values are put together. -/
structure Meaning.Keeps (meaning : Meaning α) (p : α → Prop) : Prop where
  null : p meaning.null
  boolean : ∀ b, p (meaning.boolean b)
  numeral : ∀ n value, meaning.numeral n = some value → p value
  text : ∀ ps value, meaning.text ps = some value → p value
  array : ∀ l, (∀ a ∈ l, p a) → p (meaning.array l)
  object : ∀ ms value, (∀ m ∈ ms, p m.2) → meaning.object ms = .ok value → p value

theorem orMalformed_eq_ok_iff {value? : Option α} {value : α} :
    orMalformed value? = .ok value ↔ value? = some value := by
  cases value? <;> simp [orMalformed]

variable {meaning : Meaning α}

/-- One value has a property that is kept, if the values inside it have. -/
theorem Meaning.Keeps.one (h : meaning.Keeps p) {inner : Option ((s : List Char) → Step α s)}
    (hinner : ∀ read ∈ inner, Yields p read) : Yields p (one meaning inner) := by
  intro s value rest hvalue
  rw [Json.one.eq_def] at hvalue
  split at hvalue
  · cases hvalue
    exact h.null
  · cases hvalue
    exact h.boolean true
  · cases hvalue
    exact h.boolean false
  · obtain ⟨⟨ps, _⟩, -, hvalue⟩ := bind_eq_ok_iff.1 hvalue
    obtain ⟨text, htext, hvalue⟩ := bind_eq_ok_iff.1 hvalue
    cases hvalue
    exact h.text ps _ (orMalformed_eq_ok_iff.1 htext)
  · split at hvalue
    · cases hvalue
    · next read =>
      obtain ⟨⟨l, _⟩, hl, hvalue⟩ := bind_eq_ok_iff.1 hvalue
      cases hvalue
      exact h.array l ((hinner read rfl).items _ _ _ hl)
  · split at hvalue
    · cases hvalue
    · next read =>
      obtain ⟨⟨ms, _⟩, hms, hvalue⟩ := bind_eq_ok_iff.1 hvalue
      obtain ⟨object, hobject, hvalue⟩ := bind_eq_ok_iff.1 hvalue
      cases hvalue
      exact h.object ms _ ((hinner read rfl).members _ _ _ hms) hobject
  · obtain ⟨⟨n, _⟩, -, hvalue⟩ := bind_eq_ok_iff.1 hvalue
    obtain ⟨number, hnumber, hvalue⟩ := bind_eq_ok_iff.1 hvalue
    cases hvalue
    exact h.numeral n _ (orMalformed_eq_ok_iff.1 hnumber)
  · cases hvalue

/-- What is read has every property that is kept. -/
theorem Meaning.Keeps.nested (h : meaning.Keeps p) (limit : Nat) :
    Yields p (nested meaning limit) := by
  induction limit with
  | zero => exact h.one (by simp)
  | succ limit ih => exact h.one (by simpa using ih)

end

/-! ### The range of integers -/

/-- A double, or an integer that has 64 bits, as a signed or as an unsigned one. -/
def Number.Fits : Number → Prop
  | .integer value => -(wordBound / 2 : Nat) ≤ value ∧ value < wordBound
  | .real .. => True

/-- All integers in a JSON value have 64 bits. -/
inductive Fits : Json → Prop
  | null : Fits .null
  | boolean (b : Bool) : Fits (.boolean b)
  | number {n : Number} (h : n.Fits) : Fits (.number n)
  | text (s : String) : Fits (.text s)
  | array {items : List Json} (h : ∀ value ∈ items, Fits value) : Fits (.array items)
  | object {members : List (String × Json)} (h : ∀ member ∈ members, Fits member.2) :
      Fits (.object members)

theorem Numeral.fits_of_number? {n : Numeral} {number : Number} (h : n.number? = some number) :
    number.Fits := by
  rw [number?] at h
  split at h
  · next value hvalue =>
    obtain rfl := Option.some.inj h
    rw [integer?] at hvalue
    split at hvalue
    · cases hvalue
    · dsimp only at hvalue
      split_ifs at hvalue with hnegative hrange hrange
      all_goals
        obtain rfl := Option.some.inj hvalue
        simp only [Number.Fits]
        omega
  · obtain ⟨m, -, rfl⟩ := Option.map_eq_some_iff.1 h
    trivial

theorem keeps_fits_asWritten : asWritten.Keeps Fits where
  null := .null
  boolean := .boolean
  numeral n value h := by
    obtain ⟨number, hnumber, rfl⟩ := Option.map_eq_some_iff.1 h
    exact .number (Numeral.fits_of_number? hnumber)
  text ps value h := by
    obtain ⟨chars, -, rfl⟩ := Option.map_eq_some_iff.1 h
    exact .text _
  array _ := .array
  object ms value hms h := by
    obtain ⟨members, hmembers, rfl⟩ := map_eq_ok_iff.1 h
    refine .object fun member hmember => ?_
    obtain ⟨⟨name, held⟩, hheld, hpair⟩ :=
      exists_mem_of_forall₂ ((mapM_eq_ok_iff _ _ _).1 hmembers).flip member hmember
    obtain ⟨_, -, hpair⟩ := bind_eq_ok_iff.1 hpair
    cases hpair
    exact hms _ hheld

/-- Integers in JSON text have 64 bits. -/
theorem fits_of_written {limit : Nat} {s : List Char} {value : Json} {rest : Text.Rest s}
    (h : Reader.written limit s = .ok (value, rest)) : value.Fits :=
  keeps_fits_asWritten.nested limit s value rest h

end Criteria.Json
