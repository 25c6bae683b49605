import Mathlib.Data.List.Pairwise
import Mathlib.Data.List.Basic

/-!
# Admitting at most once in an interval

Requests arrive in the order of time.  A request is due when the last one that was admitted is
at least an interval old, and only then it is admitted.  Histories are newest first.

## Key results

- `admitted_pairwise`: two admitted requests are an interval apart
- `admitted_recent`: a request that is turned down follows an admitted one by less
-/

namespace Throttle

variable {interval : Int}

/-- A request at `now` is to be admitted. -/
def Due (interval : Int) (last : Option Int) (now : Int) : Prop := ∀ t ∈ last, interval ≤ now - t

instance (interval : Int) (last : Option Int) (now : Int) : Decidable (Due interval last now) :=
  match last with
  | none => .isTrue fun _ h => absurd h (Option.not_mem_none _)
  | some t => decidable_of_iff (interval ≤ now - t) (by simp [Due])

/-- The first call is always due. -/
theorem due_none (now : Int) : Due interval none now :=
  fun t ht => absurd ht (Option.not_mem_none t)

/-- A request that is not due follows an admitted one by less than the interval. -/
theorem recent_of_not_due {last : Option Int} {now : Int} (h : ¬Due interval last now) :
    ∃ t, last = some t ∧ now - t < interval := by
  cases last with
  | none => exact absurd (due_none now) h
  | some t =>
    refine ⟨t, rfl, Int.not_le.mp fun hold => h fun t' ht' => ?_⟩
    cases ht'
    exact hold

/-- The requests of a history that are admitted, by their times. -/
def admitted (interval : Int) : List Int → List Int
  | [] => []
  | now :: earlier =>
    if Due interval (admitted interval earlier).head? now then now :: admitted interval earlier
    else admitted interval earlier

/-- The admitted calls are some of the calls, in their order. -/
theorem admitted_sublist (interval : Int) (times : List Int) :
    (admitted interval times).Sublist times := by
  induction times with
  | nil => exact .slnil
  | cons now earlier ih =>
    rw [admitted]
    split
    · exact ih.cons_cons now
    · exact ih.cons now

/-- Two admitted requests are an interval apart. -/
theorem admitted_pairwise {times : List Int} (h : times.Pairwise (· ≥ ·)) :
    (admitted interval times).Pairwise fun later earlier => interval ≤ later - earlier := by
  induction times with
  | nil => exact .nil
  | cons now earlier ih =>
    obtain ⟨-, hearlier⟩ := List.pairwise_cons.mp h
    rw [admitted]
    split
    · rename_i hdue
      refine List.pairwise_cons.mpr ⟨?_, ih hearlier⟩
      intro t ht
      -- the latest admitted one is an interval old, and the others are older
      obtain ⟨last, rest, hlast⟩ := List.exists_cons_of_ne_nil (List.ne_nil_of_mem ht)
      have hsorted := hearlier.sublist (admitted_sublist interval earlier)
      rw [hlast] at hdue hsorted ht
      have hage : interval ≤ now - last := hdue last rfl
      rcases List.mem_cons.mp ht with rfl | hrest
      · exact hage
      · have hle : last ≥ t := (List.pairwise_cons.mp hsorted).1 t hrest
        omega
    · exact ih hearlier

/-- A request that is turned down follows an admitted one by less than the interval. -/
theorem admitted_recent {now : Int} {earlier : List Int} (h : (now :: earlier).Pairwise (· ≥ ·))
    (hnot : ¬Due interval (admitted interval earlier).head? now) :
    ∃ t ∈ admitted interval earlier, t ≤ now ∧ now - t < interval := by
  obtain ⟨t, hlast, hrecent⟩ := recent_of_not_due hnot
  have hmem := List.mem_of_head? hlast
  have hle : now ≥ t :=
    (List.pairwise_cons.mp h).1 t ((admitted_sublist interval earlier).subset hmem)
  exact ⟨t, hmem, hle, hrecent⟩

end Throttle
