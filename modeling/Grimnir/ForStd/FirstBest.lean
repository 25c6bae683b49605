import Mathlib.Data.List.Basic

/-!
# The first of the best

A scan that keeps the best element so far and replaces it only by a better one ends with the
first of the best elements.  "Better" is a relation in which elements may be tied, as under a
key that several of them share.

## Key results

- `foldl_keepBetter`: the scan ends with the first of the best
- `FirstBest.unique`: there is one
- `FirstBest.perm`: the order of the list matters only among those tied with it
-/

variable {α : Type}

/-- An order with ties: nothing is better than itself or than what is better than it, and what
    is not better stays so along a chain. -/
structure Ranking (better : α → α → Prop) : Prop where
  asymm : ∀ {a b}, better a b → ¬better b a
  not_trans : ∀ {a b c}, ¬better a b → ¬better b c → ¬better a c

/-- Neither is better. -/
def Tied (better : α → α → Prop) (a b : α) : Prop := ¬better a b ∧ ¬better b a

instance (better : α → α → Prop) [DecidableRel better] (a : α) : DecidablePred (Tied better a) :=
  fun b => inferInstanceAs (Decidable (¬better a b ∧ ¬better b a))

/-- `a` is the first of the best elements of `l`. -/
def FirstBest (better : α → α → Prop) (l : List α) (a : α) : Prop :=
  ∃ before after, l = before ++ a :: after ∧ (∀ b ∈ before, better a b) ∧
    ∀ b ∈ after, ¬better b a

/-- One step of the scan. -/
def keepBetter (better : α → α → Prop) [DecidableRel better] : Option α → α → Option α
  | none, b => some b
  | some a, b => if better b a then some b else some a

variable {better : α → α → Prop} {l l' : List α} {a b : α}

theorem FirstBest.mem (h : FirstBest better l a) : a ∈ l := by
  obtain ⟨before, after, rfl, -⟩ := h
  exact List.mem_append_right before List.mem_cons_self

/-- Nothing in the list is better than the first of the best. -/
theorem FirstBest.le (rank : Ranking better) (h : FirstBest better l a) (hb : b ∈ l) :
    ¬better b a := by
  obtain ⟨before, after, rfl, hbefore, hafter⟩ := h
  rcases List.mem_append.mp hb with hb | hb
  · exact rank.asymm (hbefore b hb)
  · rcases List.mem_cons.mp hb with rfl | hb
    · exact fun hself => rank.asymm hself hself
    · exact hafter b hb

theorem FirstBest.unique (h : FirstBest better l a) (h' : FirstBest better l b) : a = b := by
  obtain ⟨before, after, rfl, hbefore, hafter⟩ := h
  obtain ⟨before', after', heq, hbefore', hafter'⟩ := h'
  rcases List.append_eq_append_iff.mp heq with ⟨mid, hleft, hright⟩ | ⟨mid, hleft, hright⟩
  · cases mid with
    | nil => exact (List.cons.inj hright).1
    | cons c mid =>
      -- `a` stands before `b`, which stands behind `a`
      obtain ⟨rfl, rfl⟩ := List.cons.inj hright
      exact absurd (hbefore' a (by simp [hleft])) (hafter b (by simp))
  · cases mid with
    | nil => exact (List.cons.inj hright).1.symm
    | cons c mid =>
      obtain ⟨rfl, rfl⟩ := List.cons.inj hright
      exact absurd (hbefore b (by simp [hleft])) (hafter' a (by simp))

/-! ## The scan -/

section Scan

variable [DecidableRel better]

/-- The scan from an element that it holds already. -/
theorem foldl_keepBetter_some (rank : Ranking better) (l : List α) (a : α) :
    ∃ c, l.foldl (keepBetter better) (some a) = some c ∧ FirstBest better (a :: l) c := by
  -- the fold carries the best entry so far, here `a`
  induction l generalizing a with
  | nil => exact ⟨a, rfl, [], [], rfl, by simp, by simp⟩
  | cons b l ih =>
    rw [List.foldl_cons, keepBetter]
    by_cases hbetter : better b a
    · -- `b` takes over, and whatever is better than `b` is better than `a`
      rw [if_pos hbetter]
      obtain ⟨c, hc, before, after, hsplit, hbefore, hafter⟩ := ih b
      refine ⟨c, hc, a :: before, after, by rw [hsplit]; rfl, ?_, hafter⟩
      rw [List.forall_mem_cons]
      refine ⟨?_, hbefore⟩
      have hcb : ¬better b c :=
        FirstBest.le rank ⟨before, after, hsplit, hbefore, hafter⟩ List.mem_cons_self
      by_contra hca
      exact rank.not_trans hcb hca hbetter
    -- `a` stays, and the winner of the rest is the winner with `b` put back
    · rw [if_neg hbetter]
      obtain ⟨c, hc, before, after, hsplit, hbefore, hafter⟩ := ih a
      cases before with
      | nil =>
        obtain ⟨rfl, rfl⟩ := List.cons.inj hsplit
        exact ⟨a, hc, [], b :: l, rfl, by simp, List.forall_mem_cons.mpr ⟨hbetter, hafter⟩⟩
      | cons a' before =>
        obtain ⟨rfl, rfl⟩ := List.cons.inj hsplit
        refine ⟨c, hc, a :: b :: before, after, rfl, ?_, hafter⟩
        obtain ⟨hca, hrest⟩ := List.forall_mem_cons.mp hbefore
        refine List.forall_mem_cons.mpr ⟨hca, List.forall_mem_cons.mpr ⟨?_, hrest⟩⟩
        by_contra hcb
        exact rank.not_trans hcb hbetter hca

/-- The scan ends with the first of the best, if there is any element at all. -/
theorem foldl_keepBetter (rank : Ranking better) (l : List α) (a : α) :
    l.foldl (keepBetter better) none = some a ↔ FirstBest better l a := by
  cases l with
  | nil =>
    constructor
    · intro h
      cases h
    · intro h
      exact absurd h.mem List.not_mem_nil
  | cons b l =>
    obtain ⟨c, hc, hfirst⟩ := foldl_keepBetter_some rank l b
    rw [List.foldl_cons, keepBetter, hc]
    constructor
    · intro h
      cases h
      exact hfirst
    · intro h
      rw [hfirst.unique h]

end Scan

/-! ## Reordering -/

/-- The first of the best comes first among those tied with it. -/
theorem FirstBest.filter [DecidableRel better] (rank : Ranking better) (h : FirstBest better l a)
    (htied : Tied better b a) : ∃ rest, l.filter (Tied better b) = a :: rest := by
  obtain ⟨before, after, rfl, hbefore, -⟩ := h
  have hnone : before.filter (Tied better b) = [] := by
    rw [List.filter_eq_nil_iff]
    intro c hc hbc
    exact rank.not_trans htied.2 (of_decide_eq_true hbc).1 (hbefore c hc)
  refine ⟨after.filter (Tied better b), ?_⟩
  rw [List.filter_append, hnone, List.nil_append]
  exact List.filter_cons_of_pos (decide_eq_true htied)

/-- The order of the list matters only among the elements tied with the first of the best. -/
theorem FirstBest.perm [DecidableRel better] (rank : Ranking better) (h : FirstBest better l a)
    (hperm : l.Perm l') (htied : l.filter (Tied better a) = l'.filter (Tied better a)) :
    FirstBest better l' a := by
  have hself : Tied better a a := ⟨h.le rank h.mem, h.le rank h.mem⟩
  cases l' with
  | nil =>
    rw [hperm.eq_nil] at h
    exact absurd h.mem List.not_mem_nil
  | cons b l' =>
    obtain ⟨c, -, hfirst⟩ := foldl_keepBetter_some rank l' b
    have hac : Tied better a c :=
      ⟨hfirst.le rank (hperm.mem_iff.mp h.mem), h.le rank (hperm.mem_iff.mpr hfirst.mem)⟩
    obtain ⟨rest, hrest⟩ := h.filter rank hself
    obtain ⟨rest', hrest'⟩ := hfirst.filter rank hac
    rw [hrest, hrest'] at htied
    obtain ⟨rfl, -⟩ := List.cons.inj htied
    exact hfirst
