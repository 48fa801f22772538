import Mathlib.Data.List.Forall2

/-!
# Computations that run alike

Two computations that may fail run alike if both succeed, with related values, or both fail in the
same way. Two runs of one computation on different data are compared by this, part by part.

## Main definitions

* `Alike`: the relation between two computations, for a relation between their values.

## Main results

* `Alike.bind`, `Alike.mapM`: computations that are made of parts that run alike.
-/

namespace Criteria

variable {α β γ δ ε ε' : Type}

/-- Both computations succeed, and their values are related, or both fail in the same way. -/
inductive Alike (R : α → β → Prop) : Except ε α → Except ε β → Prop
  | ok {a : α} {b : β} (h : R a b) : Alike R (.ok a) (.ok b)
  | error (e : ε) : Alike R (.error e) (.error e)

namespace Alike

variable {R : α → β → Prop} {S : γ → δ → Prop} {x : Except ε α} {y : Except ε β}

/-- A computation runs like itself. -/
theorem refl (x : Except ε α) : Alike Eq x x := by
  cases x with
  | ok a => exact .ok rfl
  | error e => exact .error e

/-- Computations that begin alike and go on alike from related values run alike. -/
theorem bind {f : α → Except ε γ} {g : β → Except ε δ} (h : Alike R x y)
    (hfg : ∀ a b, R a b → Alike S (f a) (g b)) : Alike S (x >>= f) (y >>= g) := by
  cases h with
  | ok h => exact hfg _ _ h
  | error e => exact .error e

theorem map {f : α → γ} {g : β → δ} (h : Alike R x y) (hfg : ∀ a b, R a b → S (f a) (g b)) :
    Alike S (x.map f) (y.map g) := by
  cases h with
  | ok h => exact .ok (hfg _ _ h)
  | error e => exact .error e

theorem mapError (f : ε → ε') (h : Alike R x y) : Alike R (x.mapError f) (y.mapError f) := by
  cases h with
  | ok h => exact .ok h
  | error e => exact .error (f e)

/-- Computations one after another run alike if each of them does. -/
theorem mapM {f : γ → Except ε α} {g : γ → Except ε β} (h : ∀ c, Alike R (f c) (g c))
    (l : List γ) : Alike (List.Forall₂ R) (l.mapM f) (l.mapM g) := by
  induction l with
  | nil => exact .ok .nil
  | cons c l ih =>
    rw [List.mapM_cons, List.mapM_cons]
    exact (h c).bind fun _ _ hab => ih.bind fun _ _ hrest => .ok (.cons hab hrest)

end Alike

end Criteria
