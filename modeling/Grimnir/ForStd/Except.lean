import Mathlib.Init

/-!
# Computations that may raise

Inversion for `Except`: what must have gone through when a computation goes through, and what a
computation can raise, part by part.
-/

namespace Except

variable {ε ε' α β : Type}

/-- A sequence goes through when each of its parts does. -/
theorem bind_eq_ok {x : Except ε α} {f : α → Except ε β} {b : β} :
    x >>= f = .ok b ↔ ∃ a, x = .ok a ∧ f a = .ok b := by
  cases x with
  | error e =>
    constructor
    · intro h
      cases h
    · rintro ⟨a, h, -⟩
      cases h
  | ok a =>
    constructor
    · intro h
      exact ⟨a, rfl, h⟩
    · rintro ⟨a', h, hf⟩
      cases h
      exact hf

/-- Renaming the errors lets the same results through. -/
theorem mapError_eq_ok {g : ε → ε'} {x : Except ε α} {a : α} :
    x.mapError g = .ok a ↔ x = .ok a := by
  cases x with
  | error e =>
    constructor
    · intro h
      cases h
    · intro h
      cases h
  | ok a' =>
    constructor
    · intro h
      cases h
      rfl
    · intro h
      cases h
      rfl

/-! ## What is raised -/

variable {p : ε → Prop} {q : ε' → Prop}

/-- Whatever the computation raises satisfies `p`. -/
def RaisesOnly (p : ε → Prop) (x : Except ε α) : Prop := ∀ e, x = .error e → p e

@[simp] theorem raisesOnly_ok (a : α) : RaisesOnly p (.ok a) := by
  intro e h
  cases h

@[simp] theorem raisesOnly_error (e : ε) : RaisesOnly p (.error e : Except ε α) ↔ p e := by
  constructor
  · exact fun h => h e rfl
  · intro hp e' h
    cases h
    exact hp

/-- A sequence raises what its parts raise. -/
theorem raisesOnly_bind {x : Except ε α} {f : α → Except ε β} :
    RaisesOnly p (x >>= f) ↔ RaisesOnly p x ∧ ∀ a, x = .ok a → RaisesOnly p (f a) := by
  cases x with
  | error e =>
    constructor
    · intro h
      exact ⟨(raisesOnly_error e).mpr (h e rfl), fun a ha => by cases ha⟩
    · rintro ⟨h, -⟩
      exact (raisesOnly_error e).mpr (h e rfl)
  | ok a =>
    constructor
    · intro h
      refine ⟨raisesOnly_ok a, fun a' ha => ?_⟩
      cases ha
      exact h
    · rintro ⟨-, h⟩
      exact h a rfl

theorem raisesOnly_mapError {g : ε → ε'} {x : Except ε α} :
    RaisesOnly q (x.mapError g) ↔ RaisesOnly (fun e => q (g e)) x := by
  cases x with
  | error e =>
    exact (raisesOnly_error (g e)).trans (raisesOnly_error (p := fun e => q (g e)) e).symm
  | ok a => exact ⟨fun _ => raisesOnly_ok a, fun _ => raisesOnly_ok a⟩

end Except
