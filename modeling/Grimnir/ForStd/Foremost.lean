import Mathlib.Data.List.Pairwise
import Mathlib.Data.List.Sort

/-!
# The greatest element that qualifies

`Foremost key p o` says that `o` is the element with the greatest key among those that
satisfy `p`, or `none` when there is none.  A sorted list that is applied from its first
element to its last, each application overwriting the one before, leaves what its foremost
element wrote.

## Key results

- `Foremost.unique`: an injective key decides
- `foremost_getLast?`: the last element of a sorted list
- `Foremost.insert_greater` / `Foremost.insert_lesser`: one more candidate
-/

variable {α κ : Type} [LinearOrder κ] {key : α → κ} {p q : α → Prop}

/-- `o` is the greatest element by `key` that satisfies `p`, if one does. -/
def Foremost (key : α → κ) (p : α → Prop) : Option α → Prop
  | none => ∀ a, ¬p a
  | some a => p a ∧ ∀ b, p b → key b ≤ key a

namespace Foremost

/-- Only the candidates matter. -/
theorem congr {o : Option α} (h : Foremost key p o) (hpq : ∀ a, p a ↔ q a) :
    Foremost key q o := by
  cases o with
  | none => exact fun a ha => h a ((hpq a).mpr ha)
  | some a => exact ⟨(hpq a).mp h.1, fun b hb => h.2 b ((hpq b).mpr hb)⟩

/-- With a key that tells the candidates apart there is one foremost element. -/
theorem unique {o o' : Option α} (hkey : ∀ a b, p a → p b → key a = key b → a = b)
    (h : Foremost key p o) (h' : Foremost key p o') : o = o' := by
  cases o with
  | none =>
    cases o' with
    | none => rfl
    | some b => exact absurd h'.1 (h b)
  | some a =>
    cases o' with
    | none => exact absurd h.1 (h' a)
    | some b => exact congrArg some (hkey a b h.1 h'.1 (le_antisymm (h'.2 a h.1) (h.2 b h'.1)))

/-- A new candidate that no other exceeds is the foremost one. -/
theorem insert_greater {a : α} (ha : p a) (hle : ∀ b, p b → key b ≤ key a) :
    Foremost key p (some a) := ⟨ha, hle⟩

/-- A new candidate that does not exceed the foremost one changes nothing. -/
theorem insert_lesser {a b : α} (h : Foremost key p (some a)) (hle : key b ≤ key a) :
    Foremost key (fun c => p c ∨ c = b) (some a) := by
  refine ⟨.inl h.1, ?_⟩
  intro c hc
  cases hc with
  | inl hc => exact h.2 c hc
  | inr hc => rw [hc]; exact hle

end Foremost

/-- The last candidate of a sorted list is the foremost one. -/
theorem foremost_getLast? {l : List α} (hsorted : l.Pairwise fun a b => key a ≤ key b)
    (hmem : ∀ a, a ∈ l ↔ p a) : Foremost key p l.getLast? := by
  cases h : l.getLast? with
  | none =>
    intro a ha
    have hnil : l = [] := List.getLast?_eq_none_iff.mp h
    rw [← hmem, hnil] at ha
    exact absurd ha List.not_mem_nil
  | some a =>
    have hne : l ≠ [] := List.getLast?_isSome.mp (by rw [h]; rfl)
    have hlast : l.getLast hne = a := by
      rw [List.getLast?_eq_some_getLast hne] at h
      exact Option.some.inj h
    refine ⟨(hmem a).mp (List.mem_of_getLast? h), ?_⟩
    intro b hb
    -- every candidate is in the list, and the last element is the greatest there
    have hle := hsorted.rel_getLast_of_rel_getLast_getLast ((hmem b).mpr hb) le_rfl
    rwa [hlast] at hle
