import Mathlib.Data.List.Forall2

/-!
# The first failure of a list of computations

Computations that may fail are run one after another. Either all of them succeed, or the first
failure is the failure of the whole.

## Main definitions

* `IsFirst`: the first element of a list with a property.

## Main results

* `mapM_eq_ok_iff`: success is success everywhere.
* `mapM_eq_error_iff`: failure is the failure of the first element that fails.
-/

namespace Criteria

variable {α β γ ε : Type}

/-- The first element of a list with a property. -/
def IsFirst (p : α → Prop) (l : List α) (a : α) : Prop :=
  ∃ before after, l = before ++ a :: after ∧ (∀ x ∈ before, ¬ p x) ∧ p a

section

variable {p q : α → Prop} {l : List α} {a : α}

theorem IsFirst.mem (h : IsFirst p l a) : a ∈ l := by
  obtain ⟨before, after, rfl, -, -⟩ := h
  simp

theorem IsFirst.holds (h : IsFirst p l a) : p a := by
  obtain ⟨-, -, -, -, h⟩ := h
  exact h

/-- The first element with a property has every property that agrees with it on the list. -/
theorem IsFirst.congr (h : IsFirst p l a) (hpq : ∀ x ∈ l, p x ↔ q x) : IsFirst q l a := by
  obtain ⟨before, after, rfl, hbefore, ha⟩ := h
  refine ⟨before, after, rfl, fun x hx => ?_, (hpq a (by simp)).1 ha⟩
  rw [← hpq x (by simp [hx])]
  exact hbefore x hx

theorem not_isFirst_nil : ¬ IsFirst p [] a := fun h => List.not_mem_nil h.mem

/-- The first element is at the head, or the head has not the property. -/
theorem isFirst_cons_iff {x : α} :
    IsFirst p (x :: l) a ↔ p x ∧ a = x ∨ ¬ p x ∧ IsFirst p l a := by
  constructor
  · rintro ⟨before, after, hl, hbefore, ha⟩
    cases before with
    | nil =>
      obtain ⟨rfl, -⟩ := List.cons.inj hl
      exact Or.inl ⟨ha, rfl⟩
    | cons y before =>
      obtain ⟨rfl, rfl⟩ := List.cons.inj hl
      refine Or.inr ⟨hbefore x List.mem_cons_self, before, after, rfl, fun z hz => ?_, ha⟩
      exact hbefore z (List.mem_cons_of_mem _ hz)
  · rintro (⟨hx, rfl⟩ | ⟨hx, before, after, rfl, hbefore, ha⟩)
    · exact ⟨[], l, rfl, by simp, hx⟩
    · exact ⟨x :: before, after, rfl, List.forall_mem_cons.2 ⟨hx, hbefore⟩, ha⟩

/-- The first element is in the front, or the front has none. -/
theorem isFirst_append_iff {m : List α} :
    IsFirst p (l ++ m) a ↔ IsFirst p l a ∨ (∀ x ∈ l, ¬ p x) ∧ IsFirst p m a := by
  induction l with
  | nil => simp [not_isFirst_nil]
  | cons x l ih =>
    rw [List.cons_append, isFirst_cons_iff, isFirst_cons_iff, ih, List.forall_mem_cons, and_or_left,
      or_assoc, and_assoc]

/-- There is a first element with a property if there is one at all. -/
theorem exists_isFirst_iff : (∃ a, IsFirst p l a) ↔ ∃ a ∈ l, p a := by
  induction l with
  | nil => simp [not_isFirst_nil]
  | cons x l ih =>
    simp only [isFirst_cons_iff, exists_or, exists_and_left, ih, List.exists_mem_cons_iff]
    by_cases hx : p x <;> simp [hx]

/-- The first elements with a property correspond to each other in corresponding lists. -/
theorem IsFirst.transfer {R : α → β → Prop} {p : α → Prop} {q : β → Prop} {l : List α}
    {m : List β} {b : β} (hR : List.Forall₂ R l m) (hpq : ∀ a b, R a b → (p a ↔ q b))
    (h : IsFirst q m b) : ∃ a, IsFirst p l a ∧ R a b := by
  induction hR with
  | nil => exact absurd h not_isFirst_nil
  | @cons x y l m hxy _ ih =>
    rcases isFirst_cons_iff.1 h with ⟨hy, rfl⟩ | ⟨hy, h⟩
    · exact ⟨x, isFirst_cons_iff.2 (.inl ⟨(hpq x b hxy).2 hy, rfl⟩), hxy⟩
    · obtain ⟨a, ha, hab⟩ := ih h
      exact ⟨a, isFirst_cons_iff.2 (.inr ⟨fun hx => hy ((hpq x y hxy).1 hx), ha⟩), hab⟩

end

/-! ### Corresponding lists -/

/-- What corresponds to an element of one list is in the other. -/
theorem exists_mem_of_forall₂ {R : α → β → Prop} {l : List α} {m : List β}
    (h : List.Forall₂ R l m) : ∀ a ∈ l, ∃ b ∈ m, R a b := by
  induction h with
  | nil => simp
  | cons hab _ ih =>
    refine List.forall_mem_cons.2 ⟨⟨_, List.mem_cons_self, hab⟩, fun a ha => ?_⟩
    obtain ⟨b, hb, hR⟩ := ih a ha
    exact ⟨b, List.mem_cons_of_mem _ hb, hR⟩

theorem exists_of_forall₂ {R : α → β → Prop} {l : List α} {m : List β}
    (h : List.Forall₂ R l m) : ∀ a ∈ l, ∃ b, R a b := fun a ha =>
  (exists_mem_of_forall₂ h a ha).imp fun _ => And.right

/-- Two lists that correspond to a third one correspond to each other. -/
theorem forall₂_of_common {R : α → β → Prop} {S : α → γ → Prop} {T : β → γ → Prop}
    {l : List α} {m : List β} {n : List γ} (hR : List.Forall₂ R l m) (hS : List.Forall₂ S l n)
    (hT : ∀ a b c, R a b → S a c → T b c) : List.Forall₂ T m n := by
  induction hR generalizing n with
  | nil =>
    rw [List.forall₂_nil_left_iff.1 hS]
    exact .nil
  | cons hab _ ih =>
    obtain ⟨c, n, hac, hrest, rfl⟩ := List.forall₂_cons_left_iff.1 hS
    exact .cons (hT _ _ _ hab hac) (ih hrest)

/-! ### One computation after another -/

theorem bind_eq_ok_iff {x : Except ε α} {f : α → Except ε β} {b : β} :
    x >>= f = .ok b ↔ ∃ a, x = .ok a ∧ f a = .ok b := by
  cases x with
  | error e => simp [bind, Except.bind]
  | ok a => simp [bind, Except.bind]

theorem bind_eq_error_iff {x : Except ε α} {f : α → Except ε β} {e : ε} :
    x >>= f = .error e ↔ x = .error e ∨ ∃ a, x = .ok a ∧ f a = .error e := by
  cases x with
  | error e' => simp [bind, Except.bind]
  | ok a => simp [bind, Except.bind]

theorem map_eq_ok_iff {f : α → β} {x : Except ε α} {b : β} :
    x.map f = .ok b ↔ ∃ a, x = .ok a ∧ f a = b := by
  cases x <;> simp [Except.map]

theorem map_eq_error_iff {f : α → β} {x : Except ε α} {e : ε} :
    x.map f = .error e ↔ x = .error e := by
  cases x <;> simp [Except.map]

theorem mapError_eq_ok_iff {f : ε → γ} {x : Except ε α} {a : α} :
    x.mapError f = .ok a ↔ x = .ok a := by
  cases x <;> simp [Except.mapError]

theorem mapError_eq_error_iff {f : ε → γ} {x : Except ε α} {e : γ} :
    x.mapError f = .error e ↔ ∃ e', x = .error e' ∧ f e' = e := by
  cases x <;> simp [Except.mapError]

/-- All computations succeed just if each of them does. -/
theorem mapM_eq_ok_iff (f : α → Except ε β) : (l : List α) → (bs : List β) →
    (l.mapM f = .ok bs ↔ List.Forall₂ (fun a b => f a = .ok b) l bs)
  | [], bs => by
      rw [List.mapM_nil, List.forall₂_nil_left_iff]
      exact ⟨fun h => (Except.ok.inj h).symm, fun h => by rw [h]; rfl⟩
  | a :: l, bs => by
      simp only [List.mapM_cons, bind_eq_ok_iff, List.forall₂_cons_left_iff, mapM_eq_ok_iff f l]
      constructor
      · rintro ⟨b, hb, rest, hrest, h⟩
        exact ⟨b, rest, hb, hrest, (Except.ok.inj h).symm⟩
      · rintro ⟨b, rest, hb, hrest, rfl⟩
        exact ⟨b, hb, rest, hrest, rfl⟩

/-- A failure of computations one after another is that of the first one that fails. -/
theorem mapM_eq_error_iff (f : α → Except ε β) (e : ε) : (l : List α) →
    (l.mapM f = .error e ↔ ∃ a, IsFirst (fun x => ∀ b, f x ≠ .ok b) l a ∧ f a = .error e)
  | [] => by
      constructor
      · intro h
        cases h
      · rintro ⟨a, h, -⟩
        exact absurd h not_isFirst_nil
  | x :: l => by
      simp only [List.mapM_cons, bind_eq_error_iff, isFirst_cons_iff, mapM_eq_error_iff f e l]
      constructor
      · rintro (hx | ⟨b, hx, ⟨a, hfirst, ha⟩ | ⟨_, _, h⟩⟩)
        · exact ⟨x, Or.inl ⟨by simp [hx], rfl⟩, hx⟩
        · exact ⟨a, Or.inr ⟨fun hfails => hfails b hx, hfirst⟩, ha⟩
        · cases h
      · rintro ⟨a, ⟨hfails, rfl⟩ | ⟨hsucceeds, hfirst⟩, ha⟩
        · exact Or.inl ha
        · obtain ⟨b, hx⟩ := not_forall_not.1 hsucceeds
          exact Or.inr ⟨b, hx, Or.inl ⟨a, hfirst, ha⟩⟩

end Criteria
