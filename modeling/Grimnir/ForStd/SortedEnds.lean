import Mathlib.Order.Lattice
import Mathlib.Data.List.Basic

/-!
# The two ends of a sorted list

A query with an order and a limit keeps one end of its result.  `take_eq_drop_iff` says when
both ends are the same keys: only when the limit cuts nothing off, or when there is nothing
to tell the rows apart.
-/

namespace List

variable {κ : Type} [PartialOrder κ] {ks : List κ}

/-- Ascending lists with the same members are the same list. -/
theorem eq_of_perm_of_ascending {ls : List κ} (hperm : ks.Perm ls)
    (hks : ks.Pairwise (· ≤ ·)) (hls : ls.Pairwise (· ≤ ·)) : ks = ls :=
  hperm.eq_of_pairwise (fun _ _ _ _ h h' => le_antisymm h h') hks hls

/-- In a sorted list a later item is not smaller. -/
theorem getElem_le_getElem (h : ks.Pairwise (· ≤ ·)) {i j : Nat} (hij : i ≤ j)
    (hi : i < ks.length) (hj : j < ks.length) : ks[i] ≤ ks[j] := by
  cases Nat.eq_or_lt_of_le hij with
  | inl heq => simp [heq]
  | inr hlt => exact pairwise_iff_getElem.mp h i j hi hj hlt

/-- A sorted list that repeats itself after `d` places has one key only. -/
theorem eq_head_of_shift (h : ks.Pairwise (· ≤ ·)) {d : Nat} (hd : 0 < d)
    (hlast : d < ks.length) (hshift : ∀ i, (hi : i + d < ks.length) → ks[i] = ks[i + d])
    {i : Nat} (hi : i < ks.length) : ks[i] = ks[0] := by
  induction i using Nat.strongRecOn with
  | ind i ih =>
    by_cases hid : i < d
    · -- between a key and its repetition
      have hback : ks[0] = ks[d] := by simpa using hshift 0 (by simpa using hlast)
      have hup : ks[i] ≤ ks[d] := getElem_le_getElem h (by omega) hi hlast
      rw [← hback] at hup
      exact le_antisymm hup (getElem_le_getElem h (Nat.zero_le i) (by omega) hi)
    · have hprev := hshift (i - d) (by omega)
      have hsame : ks[i - d + d] = ks[i] := by
        congr 1
        omega
      rw [← hsame, ← hprev]
      exact ih (i - d) (by omega) (by omega)

/-- The first `n` keys of a sorted list are its last `n` exactly when `n` covers the list or
    there is one key only. -/
theorem take_eq_drop_iff (h : ks.Pairwise (· ≤ ·)) (n : Nat) :
    ks.take n = ks.drop (ks.length - n) ↔
      ks.length ≤ n ∨ n = 0 ∨ ∀ a ∈ ks, ∀ b ∈ ks, a = b := by
  constructor
  · intro hends
    by_cases hall : ks.length ≤ n
    · exact .inl hall
    · by_cases hnone : n = 0
      · exact .inr (.inl hnone)
      · right; right
        -- entry by entry, the first `n` equal the last `n`
        have hshift : ∀ i, (hi : i + (ks.length - n) < ks.length) →
            ks[i] = ks[i + (ks.length - n)] := by
          intro i hi
          have hplace := congrArg (fun l => l[i]?) hends
          simp only [getElem?_take, getElem?_drop] at hplace
          rw [if_pos (by omega), Nat.add_comm, getElem?_eq_getElem (by omega),
            getElem?_eq_getElem hi] at hplace
          exact Option.some.inj hplace
        -- sorted and equal to a shift of itself: constant
        have hone : ∀ a ∈ ks, a = ks[0] := by
          intro a ha
          obtain ⟨i, hi, rfl⟩ := getElem_of_mem ha
          exact eq_head_of_shift h (by omega) (by omega) hshift hi
        intro a ha b hb
        rw [hone a ha, hone b hb]
  · rintro (hall | rfl | hone)
    · rw [take_of_length_le hall, Nat.sub_eq_zero_of_le hall, drop_zero]
    · simp
    · apply ext_getElem
      · simp only [length_take, length_drop]
        omega
      · intro i hi hi'
        rw [getElem_take, getElem_drop]
        exact hone _ (getElem_mem _) _ (getElem_mem _)

end List
