import Grimnir.ForStd.Machine
import Mathlib.Data.List.Perm.Subperm

/-!
# Components of a system

A machine that is part of a larger one sees some of the events that the larger one answers, and
its state is part of the larger state.  When each event of the system is one event of the part,
answered as the part answers it, or leaves the part alone, every run of the system is a run of
the part: what holds of the part in all its runs holds of it inside the system.

## Key results

- `Component.run`: a run of the system, seen by the component, is a run of the component
- `exists_tagged`: what several components emitted, put together in one order
- `subperm_of_picks`: what is picked from a list, no position twice, is part of the list
-/

/-- A machine as part of another one: its state, and what an answered event is for it. -/
structure Component {σ ε ρ σ' ε' ρ' : Type} (m : Machine σ ε ρ) (m' : Machine σ' ε' ρ') where
  state : σ → σ'
  view : ε × ρ → Option (ε' × ρ')
  /-- An event that the component does not see leaves it alone. -/
  unseen : ∀ s e, view (e, (m.step s e).1) = none → state (m.step s e).2 = state s
  /-- An event that it sees is answered as it answers it. -/
  seen : ∀ s e x, view (e, (m.step s e).1) = some x →
    m'.step (state s) x.1 = (x.2, state (m.step s e).2)

namespace Component

variable {σ ε ρ σ' ε' ρ' : Type} {m : Machine σ ε ρ} {m' : Machine σ' ε' ρ'}
  (f : Component m m')

/-- What the component sees of a history. -/
def project (c : Config σ ε ρ) : Config σ' ε' ρ' := ⟨c.log.filterMap f.view, f.state c.state⟩

/-- An event the component does not see leaves its configuration alone. -/
theorem project_of_unseen {c : Config σ ε ρ} {e : ε}
    (h : f.view (e, (m.step c.state e).1) = none) : f.project (m.answer c e) = f.project c := by
  rw [project, project, Machine.answer]
  dsimp only
  rw [List.filterMap_cons_none h, f.unseen c.state e h]

/-- An event the component sees is a step of its own machine. -/
theorem project_of_seen {c : Config σ ε ρ} {e : ε} {x : ε' × ρ'}
    (h : f.view (e, (m.step c.state e).1) = some x) :
    f.project (m.answer c e) = m'.answer (f.project c) x.1 := by
  have hstep := f.seen c.state e x h
  rw [project, Machine.answer, Machine.answer]
  dsimp only
  rw [List.filterMap_cons_some h, project, hstep]

/-- A run of the system, seen by the component, is a run of the component. -/
theorem run {ok : Config σ ε ρ → ε → Prop} {ok' : Config σ' ε' ρ' → ε' → Prop}
    {c c' : Config σ ε ρ} (hrun : m.Run ok c c')
    (hok : ∀ c e x, ok c e → f.view (e, (m.step c.state e).1) = some x →
      ok' (f.project c) x.1) : m'.Run ok' (f.project c) (f.project c') := by
  refine hrun.invariant (I := fun c' => m'.Run ok' (f.project c) (f.project c')) .refl ?_
  intro c' e h he
  cases hview : f.view (e, (m.step c'.state e).1) with
  | none =>
    rw [f.project_of_unseen hview]
    exact h
  | some x =>
    rw [f.project_of_seen hview]
    exact h.snoc x.1 (hok c' e x he hview)

end Component

/-! ## What the components emit -/

namespace List

variable {ι α β : Type} [DecidableEq ι]

/-- The items of one component. -/
def ofTag (i : ι) (items : List (ι × α)) : List α :=
  items.filterMap fun x => if x.1 = i then some x.2 else none

/-- Nothing was tagged in the empty list. -/
@[simp] theorem ofTag_nil (i : ι) : ofTag i ([] : List (ι × α)) = [] := rfl

/-- The items of a tag are collected part by part. -/
theorem ofTag_append (i : ι) (xs ys : List (ι × α)) :
    ofTag i (xs ++ ys) = ofTag i xs ++ ofTag i ys := filterMap_append

/-- An item of the tag comes first among the items of that tag. -/
theorem ofTag_cons_self (i : ι) (a : α) (items : List (ι × α)) :
    ofTag i ((i, a) :: items) = a :: ofTag i items :=
  filterMap_cons_some (if_pos rfl)

/-- An item of another tag is left out. -/
theorem ofTag_cons_of_ne {i j : ι} (h : j ≠ i) (a : α) (items : List (ι × α)) :
    ofTag i ((j, a) :: items) = ofTag i items :=
  filterMap_cons_none (if_neg h)

/-- The items of a tag are those that carry it. -/
theorem mem_ofTag {i : ι} {a : α} {items : List (ι × α)} :
    a ∈ ofTag i items ↔ (i, a) ∈ items := by
  simp only [ofTag, mem_filterMap, Prod.exists]
  constructor
  · rintro ⟨j, b, hmem, hif⟩
    split at hif
    · rename_i hj
      cases hif
      rw [← hj]
      exact hmem
    · cases hif
  · intro hmem
    exact ⟨i, a, hmem, if_pos rfl⟩

/-- When the items of each component are the images of a list of its own, the items of all are
    the images of one list, in the same order. -/
theorem exists_tagged {f : ι → α → β} {items : List (ι × β)} {sources : ι → List α}
    (h : ∀ i, ofTag i items = (sources i).map (f i)) :
    ∃ xs : List (ι × α), items = xs.map (fun x => (x.1, f x.1 x.2)) ∧
      ∀ i, ofTag i xs = sources i := by
  induction items generalizing sources with
  | nil =>
    refine ⟨[], rfl, fun i => ?_⟩
    have hempty := h i
    rw [ofTag_nil] at hempty
    rw [ofTag_nil, map_eq_nil_iff.mp hempty.symm]
  | cons x items ih =>
    obtain ⟨i, b⟩ := x
    have hi := h i
    rw [ofTag_cons_self] at hi
    obtain ⟨a, rest, hsources, rfl, hrest⟩ := map_eq_cons_iff.mp hi.symm
    -- the first item of its component, and the others as before
    have hothers : ∀ j, ofTag j items = (Function.update sources i rest j).map (f j) := by
      intro j
      by_cases hj : j = i
      · subst hj
        rw [Function.update_self, hrest]
      · rw [Function.update_of_ne hj, ← h j, ofTag_cons_of_ne (Ne.symm hj)]
    obtain ⟨xs, rfl, hxs⟩ := ih hothers
    refine ⟨(i, a) :: xs, rfl, fun j => ?_⟩
    by_cases hj : j = i
    · subst hj
      rw [ofTag_cons_self, hxs j, Function.update_self, hsources]
    · rw [ofTag_cons_of_ne (Ne.symm hj), hxs j, Function.update_of_ne hj]

/-- Taking the items of one tag respects inclusion with multiplicity. -/
theorem Subperm.ofTag {xs ys : List (ι × α)} (h : xs <+~ ys) (i : ι) :
    List.ofTag i xs <+~ List.ofTag i ys := by
  obtain ⟨zs, hperm, hsublist⟩ := h
  exact ⟨List.ofTag i zs, hperm.filterMap _, hsublist.filterMap _⟩

omit [DecidableEq ι]

/-- Two lists that go along with a third one go along with each other. -/
theorem Forall₂.join {γ : Type} {R : α → β → Prop} {S : α → γ → Prop} {as : List α}
    {bs : List β} {cs : List γ} (hR : Forall₂ R as bs) (hS : Forall₂ S as cs) :
    Forall₂ (fun b c => ∃ a, R a b ∧ S a c) bs cs := by
  induction hR generalizing cs with
  | nil =>
    rw [forall₂_nil_left_iff.mp hS]
    exact .nil
  | cons hab _ ih =>
    obtain ⟨c, cs, hac, hrest, rfl⟩ := forall₂_cons_left_iff.mp hS
    exact .cons ⟨_, hab, hac⟩ (ih hrest)

/-- Looking up every position gives the list back. -/
theorem filterMap_getElem?_range (items : List α) :
    (range items.length).filterMap (items[·]?) = items := by
  induction items using reverseRecOn with
  | nil => rfl
  | append_singleton items a ih =>
    have hbelow : (range items.length).filterMap ((items ++ [a])[·]?) =
        (range items.length).filterMap (items[·]?) :=
      filterMap_congr fun k hk => getElem?_append_left (mem_range.mp hk)
    rw [length_append, length_singleton, range_succ, filterMap_append, hbelow, ih,
      filterMap_cons_some (getElem?_concat_length ..), filterMap_nil]

/-- What is looked up at a position is in the list. -/
theorem mem_of_picks {items picked : List α} {positions : List Nat}
    (hpicked : Forall₂ (fun k a => items[k]? = some a) positions picked) :
    ∀ a ∈ picked, a ∈ items := by
  induction hpicked with
  | nil => exact fun _ h => absurd h not_mem_nil
  | cons hk _ ih => exact forall_mem_cons.mpr ⟨mem_of_getElem? hk, ih⟩

/-- What is picked from a list, no position twice, is part of the list. -/
theorem subperm_of_picks {items picked : List α} {positions : List Nat}
    (hnodup : positions.Nodup)
    (hpicked : Forall₂ (fun k a => items[k]? = some a) positions picked) : picked <+~ items := by
  have heq : picked = positions.filterMap (items[·]?) := by
    clear hnodup
    induction hpicked with
    | nil => rfl
    | cons hk _ ih => rw [filterMap_cons_some hk, ← ih]
  have hlt : positions ⊆ range items.length := by
    clear hnodup heq
    induction hpicked with
    | nil => exact nil_subset _
    | cons hk _ ih => exact cons_subset.mpr ⟨mem_range.mpr (getElem?_eq_some_iff.mp hk).1, ih⟩
  obtain ⟨ks, hperm, hsublist⟩ := subperm_of_subset hnodup hlt
  refine ⟨ks.filterMap (items[·]?), heq ▸ hperm.filterMap _, ?_⟩
  have h := hsublist.filterMap (items[·]?)
  rwa [filterMap_getElem?_range] at h

end List
