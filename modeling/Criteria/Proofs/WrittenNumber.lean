import Criteria.Proofs.WrittenText

/-!
# Written numbers are read back

A natural number is written in decimal digits, without a zero in front, and read as far as the
digits go. This file shows that the same number comes of it as long as it fits 64 bits, and that a
written list of numbers is read as itself.

## Main definitions

* `Json.EndsNumeral`: a numeral does not go on with a text.

## Main results

* `Json.takes_natural`: a written number is read as itself.
* `Json.takes_naturals`: a written list of numbers is read as itself.
* `Json.takes_orNull`: a value that may be missing is read as it is without that.
-/

namespace Criteria.Json

open Text (digitsValue)

/-! ### Digits -/

theorem isDigit_of_mem_toDigits {n : Nat} {c : Char} (h : c ∈ Nat.toDigits 10 n) :
    c.isDigit = true :=
  Nat.isDigit_of_mem_toDigits (by decide) (by decide) h

theorem isDigit_digitChar {n : Nat} (h : n < 10) :
    (Nat.digitChar n).isDigit = true ∧ (Nat.digitChar n = '0' → n = 0) := by
  revert n
  decide

/-- A number that is not zero is written without a zero in front. -/
theorem exists_toDigits (n : Nat) : ∃ c others, Nat.toDigits 10 n = c :: others ∧
    c.isDigit = true ∧ (c = '0' → n = 0) := by
  induction n using Nat.strongRecOn with
  | ind n ih =>
    rw [Nat.toDigits_eq_if (by decide)]
    split
    · next hlt => exact ⟨_, [], rfl, isDigit_digitChar hlt⟩
    · next hlt =>
      obtain ⟨c, others, hdigits, hdigit, hzero⟩ := ih (n / 10) (by omega)
      refine ⟨c, others ++ [Nat.digitChar (n % 10)], by rw [hdigits]; rfl, hdigit, fun hc => ?_⟩
      have := hzero hc
      omega

/-- A numeral does not go on with a text. -/
def EndsNumeral (rest : List Char) : Prop :=
  ∀ c ∈ rest.head?, c.isDigit = false ∧ c ≠ '.' ∧ c ≠ 'e' ∧ c ≠ 'E'

section

variable {n : Nat} {rest : List Char}

theorem takes_digitRun {run : List Char} (hne : run ≠ []) (hrun : ∀ c ∈ run, c.isDigit = true)
    (hrest : EndsNumeral rest) : (digitRun (run ++ rest)).Takes run rest := by
  have hstop : rest.takeWhile Char.isDigit = [] ∧ rest.dropWhile Char.isDigit = rest := by
    cases rest with
    | nil => simp
    | cons c rest => simp [(hrest c rfl).1]
  have htake : (run ++ rest).takeWhile Char.isDigit = run := by
    rw [List.takeWhile_append_of_pos hrun, hstop.1, List.append_nil]
  have hdrop : (run ++ rest).dropWhile Char.isDigit = rest := by
    rw [List.dropWhile_append_of_pos hrun, hstop.2]
  refine ⟨by simp [List.length_pos_iff.2 hne], ?_⟩
  rw [digitRun]
  split
  · next h => exact absurd (htake.symm.trans h) hne
  · next c others h =>
    simp only [← htake.symm.trans h, hdrop]

theorem takes_wholeDigits (n : Nat) (hrest : EndsNumeral rest) :
    (wholeDigits (Nat.toDigits 10 n ++ rest)).Takes (Nat.toDigits 10 n) rest := by
  obtain ⟨hlength, h⟩ :=
    takes_digitRun Nat.toDigits_ne_nil (fun _ => isDigit_of_mem_toDigits (n := n)) hrest
  refine ⟨hlength, ?_⟩
  rw [wholeDigits, h]
  split
  · next heq =>
    obtain ⟨hdigits, -⟩ := Prod.mk.inj (Except.ok.inj heq)
    obtain ⟨c, others, hcons, -, hzero⟩ := exists_toDigits n
    rw [hcons] at hdigits
    obtain rfl := hzero (List.cons.inj hdigits).1
    cases hcons.symm.trans (Nat.toDigits_of_lt_base (by decide))
    cases (List.cons.inj hdigits).2
  · rfl

/-- The digits of a number are read as a numeral without a fraction and an exponent. -/
theorem takes_numeral (n : Nat) (hrest : EndsNumeral rest) :
    (numeral (Nat.toDigits 10 n ++ rest)).Takes ⟨false, Nat.toDigits 10 n, none, none⟩ rest := by
  obtain ⟨hlength, hwhole⟩ := takes_wholeDigits n hrest
  have hfraction : fractionDigits rest = .ok (none, .all rest) := by
    rw [fractionDigits]
    rintro c rfl
    exact absurd rfl (hrest '.' rfl).2.1
  have hexponent : exponentDigits rest = .ok (none, .all rest) := by
    cases rest with
    | nil => rfl
    | cons c rest =>
      obtain ⟨-, -, he, hE⟩ := hrest c rfl
      rw [exponentDigits, if_neg (by simp [he, hE])]
  refine ⟨hlength, ?_⟩
  have hunsigned : numeral (Nat.toDigits 10 n ++ rest) =
      unsignedNumeral false (Nat.toDigits 10 n ++ rest) := by
    obtain ⟨c, others, hcons, hdigit, -⟩ := exists_toDigits n
    rw [hcons, List.cons_append, numeral]
    rintro s hs
    obtain rfl := (List.cons.inj hs).1
    exact absurd hdigit (by decide)
  rw [hunsigned, unsignedNumeral, hwhole]
  simp only [bind, Except.bind, hfraction, Text.Remaining.all, hexponent]
  rfl

theorem skipBlanks_cons_of_isDigit {c : Char} (h : c.isDigit = true) (s : List Char) :
    skipBlanks (c :: s) = c :: s := by
  rw [skipBlanks, List.dropWhile_cons_of_neg]
  simp only [isBlank, Bool.or_eq_true, decide_eq_true_eq]
  rintro (((rfl | rfl) | rfl) | rfl) <;> exact absurd h (by decide)

/-- A numeral is what a value that begins with a digit is. -/
theorem one_of_isDigit {α : Type} (meaning : Meaning α)
    (inner : Option ((s : List Char) → Step α s)) {c : Char} (hc : c.isDigit = true)
    (s : List Char) {n : Numeral} {value : α} (hmeaning : meaning.numeral n = some value)
    (h : (numeral (c :: s)).Takes n rest) : (one meaning inner (c :: s)).Takes value rest := by
  have hblank := skipBlanks_cons_of_isDigit hc s
  obtain ⟨hlength, h⟩ := h
  refine ⟨hlength, ?_⟩
  rw [one]
  -- a digit begins no other value
  split <;> rename_i heq <;> cases hblank.symm.trans heq <;> try exact absurd hc (by decide)
  rw [h]
  simp only [bind, Except.bind, hmeaning, orMalformed]
  rfl

theorem integer?_toDigits {n : Nat} (h : n < wordBound) :
    (⟨false, Nat.toDigits 10 n, none, none⟩ : Numeral).integer? = some n := by
  have hvalue : digitsValue (Nat.toDigits 10 n) = n := Nat.ofDigitChars_ten_toDigits
  simp [Numeral.integer?, hvalue, h]

theorem write_nat (n : Nat) (rest : List Char) :
    write (nat n) rest = Nat.toDigits 10 n ++ rest := by
  change (Number.integer n).digits ++ rest = _
  simp [Number.digits]

variable {bound : Nat}

/-- A written number is read as itself. -/
theorem takes_natural (hbound : bound ≤ wordBound) (hn : n < bound) (limit : Nat)
    (hrest : EndsNumeral rest) :
    (Reader.natural bound limit (write (nat n) rest)).Takes n rest := by
  obtain ⟨c, others, hcons, hdigit, -⟩ := exists_toDigits n
  have hnumeral := takes_numeral n hrest
  have hmeaning : asWritten.numeral ⟨false, Nat.toDigits 10 n, none, none⟩ = some (nat n) := by
    simp [asWritten, Numeral.number?, integer?_toDigits (Nat.lt_of_lt_of_le hn hbound), nat, int]
  rw [write_nat]
  rw [hcons] at hnumeral hmeaning ⊢
  rw [Reader.natural]
  exact takes_select (one_of_isDigit asWritten none hdigit _ hmeaning hnumeral)
    (by simp [nat, int, hn]) limit

/-! ### Lists -/

section

variable {α : Type} {item : (s : List Char) → Step α s} {s t : List Char} {first : α}
  {others : List α}

theorem takes_itemsTail_nil : (itemsTail item (']' :: rest)).Takes [] rest := by
  refine ⟨Nat.lt_succ_self _, ?_⟩
  rw [itemsTail]
  rfl

theorem takes_itemsTail_cons (hitem : (item s).Takes first t)
    (htail : (itemsTail item t).Takes others rest) :
    (itemsTail item (',' :: s)).Takes (first :: others) rest := by
  obtain ⟨ht, hitem⟩ := hitem
  obtain ⟨hrest, htail⟩ := htail
  refine ⟨Nat.lt_succ_of_lt (Nat.lt_trans hrest ht), ?_⟩
  rw [itemsTail]
  change (do
    let read ← item s
    let tail ← itemsTail item read.2.1
    return (read.1 :: tail.1, tail.2.after (Nat.lt_trans read.2.2 (Nat.lt_succ_self _)))) = _
  simp only [hitem, bind, Except.bind, htail]
  rfl

theorem takes_items_nil : (items item (']' :: rest)).Takes [] rest := ⟨Nat.lt_succ_self _, rfl⟩

theorem takes_items_cons (hs : ∀ r, skipBlanks s ≠ ']' :: r) (hitem : (item s).Takes first t)
    (htail : (itemsTail item t).Takes others rest) :
    (items item s).Takes (first :: others) rest := by
  obtain ⟨ht, hitem⟩ := hitem
  obtain ⟨hrest, htail⟩ := htail
  refine ⟨Nat.lt_trans hrest ht, ?_⟩
  rw [items]
  split
  · next heq => exact absurd heq (hs _)
  · simp only [hitem, bind, Except.bind, htail]
    rfl

theorem takes_listOf {inner : Reader α} {limit : Nat} {l : List α}
    (h : (items (inner limit) s).Takes l rest) :
    (Reader.listOf inner (limit + 1) ('[' :: s)).Takes l rest := by
  obtain ⟨hlength, h⟩ := h
  refine ⟨Nat.lt_succ_of_lt hlength, ?_⟩
  change (items (inner limit) s).after _ = _
  rw [h]
  rfl

theorem takes_orNull {inner : Reader α} {limit : Nat} {value : α}
    (hs : ∀ r, skipBlanks s ≠ 'n' :: r) (h : (inner limit s).Takes value rest) :
    (Reader.orNull inner limit s).Takes (some value) rest := by
  obtain ⟨hlength, h⟩ := h
  refine ⟨hlength, ?_⟩
  rw [Reader.orNull]
  split
  · next heq => exact absurd heq (hs _)
  · rw [h]
    rfl

theorem takes_orNull_null (inner : Reader α) (limit : Nat) (rest : List Char) :
    (Reader.orNull inner limit (write null rest)).Takes none rest := by
  have hlength : rest.length < ("null".toList ++ rest).length := by
    rw [List.length_append]
    exact Nat.lt_add_of_pos_left (by decide)
  exact ⟨hlength, rfl⟩

end

theorem skipBlanks_write_array_ne (l : List Json) (rest r : List Char) :
    skipBlanks (write (array l) rest) ≠ 'n' :: r := by
  cases l <;> exact fun h => absurd (List.cons.inj h).1 (by decide)

theorem endsNumeral_writeItems (l : List Json) (rest : List Char) :
    EndsNumeral (writeItems l (']' :: rest)) := by
  cases l <;> simp [EndsNumeral, writeItems]

section

variable {ns : List Nat} (hbound : bound ≤ wordBound) (limit : Nat) (rest : List Char)

include hbound

theorem takes_itemsTail (hns : ∀ n ∈ ns, n < bound) :
    (itemsTail (Reader.natural bound limit) (writeItems (ns.map nat) (']' :: rest))).Takes ns
      rest := by
  induction ns with
  | nil => exact takes_itemsTail_nil
  | cons n ns ih =>
    obtain ⟨hn, hns⟩ := List.forall_mem_cons.1 hns
    exact takes_itemsTail_cons (takes_natural hbound hn limit (endsNumeral_writeItems _ _)) (ih hns)

/-- A written list of numbers is read as itself. -/
theorem takes_naturals (hns : ∀ n ∈ ns, n < bound) :
    (Reader.listOf (Reader.natural bound) (limit + 1) (write (array (ns.map nat)) rest)).Takes ns
      rest := by
  cases ns with
  | nil => exact takes_listOf takes_items_nil
  | cons n ns =>
    obtain ⟨hn, hns⟩ := List.forall_mem_cons.1 hns
    refine takes_listOf (takes_items_cons (fun r => ?_)
      (takes_natural hbound hn limit (endsNumeral_writeItems _ _))
      (takes_itemsTail hbound limit rest hns))
    obtain ⟨c, others, hcons, hdigit, -⟩ := exists_toDigits n
    rw [write_nat, hcons, List.cons_append, skipBlanks_cons_of_isDigit hdigit]
    rintro h
    obtain rfl := (List.cons.inj h).1
    exact absurd hdigit (by decide)

end

end

end Criteria.Json
