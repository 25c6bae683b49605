import Grimnir.Native.TrainedModels

/-!
# Activating a model

The statement of `activate_model` clears the active row and activates the target.  Its
two row writes come from one snapshot, in an order the SQL does not fix, and the partial
unique index is checked at each: the swap goes through exactly when the activating
write comes last.

## Key results

- `activationWrites_cases`: the row writes of the statement
- `activate_alone`, `clear_then_activate`, `activate_then_clear`: its possible executions
- `activatesExactly_iff`: when an activation does what it should, and the index over runs
- `swap_in_the_wrong_order`: a swap that fails
-/

namespace Grimnir

namespace ModelDb

variable {db : ModelDb} {order : List RowWrite} {m a : TrainedModel}

/-! ## The row writes -/

/-- The statement writes the target and, if another model is active, that one. -/
theorem activationWrites_cases (hm : m ∈ db.models) :
    ((∀ k ∈ db.models, k.isActive = true → k.id = m.id) ∧
        activationWrites m.id db = [.activate m.id]) ∨
      ∃ a ∈ db.models, a.isActive = true ∧ a.id ≠ m.id ∧
        activationWrites m.id db = [.clear a.id, .activate m.id] := by
  have htarget : db.models.rows.filter (fun k => k.id = m.id) = [m] := by
    refine Table.filter_eq_singleton hm fun k hk => ?_
    rw [decide_eq_true_eq]
    exact ⟨fun hid => db.models.eq_of_key_eq hk hm hid, fun heq => by rw [heq]⟩
  unfold activationWrites
  rw [htarget]
  -- another row is active, or the target is alone
  by_cases hother : ∃ a ∈ db.models, a.isActive = true ∧ a.id ≠ m.id
  · obtain ⟨a, ha, hactive, hne⟩ := hother
    -- the index leaves room for one active row only
    have hcleared : db.models.rows.filter (fun k => k.isActive && k.id != m.id) = [a] := by
      refine Table.filter_eq_singleton ha fun k hk => ?_
      rw [Bool.and_eq_true, bne_iff_ne]
      constructor
      · rintro ⟨hk', -⟩
        exact db.models.eq_of_key_eq hk ha (db.oneActive k hk a ha hk' hactive)
      · rintro rfl
        exact ⟨hactive, hne⟩
    rw [hcleared]
    exact .inr ⟨a, ha, hactive, hne, rfl⟩
  · have hcleared : db.models.rows.filter (fun k => k.isActive && k.id != m.id) = [] := by
      refine List.filter_eq_nil_iff.mpr fun k hk hsel => ?_
      rw [Bool.and_eq_true, bne_iff_ne] at hsel
      exact hother ⟨k, hk, hsel⟩
    rw [hcleared]
    refine .inl ⟨?_, rfl⟩
    intro k hk hactive
    by_contra hne
    exact hother ⟨k, hk, hactive, hne⟩

private theorem writeRow_ok {w : RowWrite} (h : OneActive (db.models.rows.map w.apply)) :
    ∃ db', writeRow db w = .ok db' ∧ db'.models.rows = db.models.rows.map w.apply := by
  rw [writeRow, dif_pos h]
  exact ⟨_, rfl, rfl⟩

private theorem writeRow_error {w : RowWrite} (h : ¬OneActive (db.models.rows.map w.apply)) :
    writeRow db w = .error duplicateActive :=
  dif_neg h

/-- The row `m.id` active, every other row inactive, every other column as it was. -/
def activated (id : Nat) (k : TrainedModel) : TrainedModel := { k with isActive := k.id = id }

private theorem oneActive_activated (id : Nat) (ms : List TrainedModel) :
    OneActive (ms.map (activated id)) := by
  intro k hk k' hk' hactive hactive'
  obtain ⟨k₀, -, rfl⟩ := List.mem_map.mp hk
  obtain ⟨k₁, -, rfl⟩ := List.mem_map.mp hk'
  exact (of_decide_eq_true hactive).trans (of_decide_eq_true hactive').symm

/-- With no other row active, the activating write is all there is to do. -/
theorem activate_alone (hno : ∀ k ∈ db.models, k.isActive = true → k.id = m.id) :
    ∃ db', writeRows [.activate m.id] db = .ok db' ∧
      db'.models.rows = db.models.rows.map (activated m.id) := by
  have hrows : db.models.rows.map (RowWrite.activate m.id).apply =
      db.models.rows.map (activated m.id) := by
    refine List.map_congr_left fun k hk => ?_
    by_cases hid : k.id = m.id
    · simp [RowWrite.apply, activated, hid]
    · have hinactive : k.isActive = false :=
        Bool.eq_false_iff.mpr fun hactive => hid (hno k hk hactive)
      cases k
      simp_all [RowWrite.apply, activated]
  -- so the index is kept at this write
  have hone : OneActive (db.models.rows.map (RowWrite.activate m.id).apply) := by
    rw [hrows]
    exact oneActive_activated m.id _
  obtain ⟨db', hok, hdb'⟩ := writeRow_ok hone
  refine ⟨db', ?_, hdb'.trans hrows⟩
  show writeRow db (.activate m.id) >>= pure = _
  rw [hok]
  rfl

/-- Clearing first makes room for the target. -/
theorem clear_then_activate (ha : a ∈ db.models) (hactive : a.isActive = true) :
    ∃ db', writeRows [.clear a.id, .activate m.id] db = .ok db' ∧
      db'.models.rows = db.models.rows.map (activated m.id) := by
  -- after the clearing write no row is active
  have hclear : ∀ k ∈ db.models, ((RowWrite.clear a.id).apply k).isActive = false := by
    intro k hk
    by_cases hid : k.id = a.id
    · simp [RowWrite.apply, hid]
    · simp only [RowWrite.apply, if_neg hid]
      exact Bool.eq_false_iff.mpr fun hk' => hid (db.oneActive k hk a ha hk' hactive)
  have hone : OneActive (db.models.rows.map (RowWrite.clear a.id).apply) := by
    intro k hk k' _ hk' _
    obtain ⟨k₀, hk₀, rfl⟩ := List.mem_map.mp hk
    rw [hclear k₀ hk₀] at hk'
    cases hk'
  obtain ⟨cleared, hok, hcleared⟩ := writeRow_ok hone
  have hno : ∀ k ∈ cleared.models, k.isActive = true → k.id = m.id := by
    intro k hk hk'
    rw [Table.mem_def, hcleared] at hk
    obtain ⟨k₀, hk₀, rfl⟩ := List.mem_map.mp hk
    rw [hclear k₀ hk₀] at hk'
    cases hk'
  -- the second write is one with nothing else active
  obtain ⟨db', hwrites, hdb'⟩ := activate_alone hno
  refine ⟨db', ?_, ?_⟩
  · show writeRow db (.clear a.id) >>= writeRows [.activate m.id] = _
    rw [hok]
    exact hwrites
  · rw [hdb', hcleared, List.map_map]
    refine List.map_congr_left fun k _ => ?_
    simp only [Function.comp_apply, RowWrite.apply, activated]
    split <;> rfl

/-- Activating first leaves two active rows, and the index ends the statement. -/
theorem activate_then_clear (hm : m ∈ db.models) (ha : a ∈ db.models)
    (hactive : a.isActive = true) (hne : a.id ≠ m.id) :
    writeRows [.activate m.id, .clear a.id] db = .error duplicateActive := by
  have htwo : ¬OneActive (db.models.rows.map (RowWrite.activate m.id).apply) := by
    intro hone
    have hm' : { m with isActive := true } ∈
        db.models.rows.map (RowWrite.activate m.id).apply :=
      List.mem_map.mpr ⟨m, hm, by simp [RowWrite.apply]⟩
    have ha' : a ∈ db.models.rows.map (RowWrite.activate m.id).apply :=
      List.mem_map.mpr ⟨a, ha, by simp [RowWrite.apply, hne]⟩
    exact hne (hone a ha' { m with isActive := true } hm' hactive rfl)
  show writeRow db (.activate m.id) >>= writeRows [.clear a.id] = _
  rw [writeRow_error htwo]
  rfl

/-! ## When an activation does what it should -/

/-- An existing model becomes the one active model and nothing else changes; for a missing
    one the request is refused and the table is as it was. -/
def ActivatesExactly (id : Nat) (order : List RowWrite) (db : ModelDb) : Prop :=
  if (db.models.find? id).isSome then
    (∃ out, (db.activateModel id order).1 = .ok out) ∧
      (db.activateModel id order).2.models.rows = db.models.rows.map (activated id)
  else
    (∃ f, (db.activateModel id order).1 = .error f) ∧ (db.activateModel id order).2 = db

/-- If another model is active, the activating row write comes last. -/
def ActivatesLast (id : Nat) (order : List RowWrite) (db : ModelDb) : Prop :=
  (db.models.find? id).isSome → (∃ k ∈ db.models.rows, k.isActive = true ∧ k.id ≠ id) →
    order.getLast? = some (.activate id)

private theorem activateModel_of_writes (hm : m ∈ db.models) {db' : ModelDb}
    (hok : writeRows order db = .ok db')
    (hrows : db'.models.rows = db.models.rows.map (activated m.id)) :
    (∃ out, (db.activateModel m.id order).1 = .ok out) ∧
      (db.activateModel m.id order).2.models.rows = db.models.rows.map (activated m.id) := by
  have hfind : db.models.find? m.id = some m := Table.find?_of_mem hm
  -- the re-query after the statement finds the target
  have hm' : activated m.id m ∈ db'.models := by
    rw [Table.mem_def, hrows]
    exact List.mem_map_of_mem hm
  have hfind' : db'.models.find? m.id = some (activated m.id m) := Table.find?_of_mem hm'
  have hres : db.activateModel m.id order = (.ok (activated m.id m).out, db') := by
    simp [activateModel, hok, hfind, hfind']
  rw [hres]
  exact ⟨⟨_, rfl⟩, hrows⟩

private theorem activateModel_of_error {exc : DBAPIError} {id : Nat}
    (h : writeRows order db = .error exc) :
    db.activateModel id order = (.error (.internal exc), db) := by
  simp only [activateModel, h]

/-- An order of two writes is one of the two. -/
private theorem order_of_pair {x y : RowWrite} (h : order.Perm [x, y]) :
    order = [x, y] ∨ order = [y, x] := by
  obtain ⟨u, v, rfl⟩ := List.length_eq_two.mp h.length_eq
  have hu : u = x ∨ u = y := by
    have hmem := h.subset List.mem_cons_self
    simpa using hmem
  rcases hu with rfl | rfl
  · have hv : v = y := by simpa using (List.perm_cons u).mp h
    exact .inl (by rw [hv])
  · have hswap : [u, v].Perm [u, x] := h.trans (List.Perm.swap _ _ _)
    have hv : v = x := by simpa using (List.perm_cons u).mp hswap
    exact .inr (by rw [hv])

/-- For every order of the statement's row writes, an activation does what it should exactly
    when the activating write comes last or nothing else is active. -/
theorem activatesExactly_iff_last {id : Nat} (horder : order.Perm (activationWrites id db)) :
    ActivatesExactly id order db ↔ ActivatesLast id order db := by
  unfold ActivatesExactly ActivatesLast
  cases hfind : db.models.find? id with
  | none =>
    -- a missing target is refused whatever the statement wrote
    have hrefused : (∃ f, (db.activateModel id order).1 = .error f) ∧
        (db.activateModel id order).2 = db := by
      unfold activateModel
      cases writeRows order db with
      | error exc => exact ⟨⟨_, rfl⟩, rfl⟩
      | ok written =>
        dsimp only
        rw [hfind]
        exact ⟨⟨_, rfl⟩, rfl⟩
    simpa using hrefused
  | some m =>
    obtain ⟨hm, rfl⟩ := Table.find?_eq_some_iff.mp hfind
    rw [if_pos (show (some m).isSome = true from rfl)]
    -- with one row to write there is one order, with two there are two
    rcases activationWrites_cases hm with ⟨hno, hwrites⟩ | ⟨a, ha, hactive, hne, hwrites⟩
    · rw [hwrites] at horder
      obtain rfl := List.perm_singleton.mp horder
      obtain ⟨db', hok, hrows⟩ := activate_alone hno
      exact iff_of_true (activateModel_of_writes hm hok hrows) fun _ _ => rfl
    · rw [hwrites] at horder
      rcases order_of_pair horder with rfl | rfl
      · obtain ⟨db', hok, hrows⟩ := clear_then_activate (m := m) ha hactive
        exact iff_of_true (activateModel_of_writes hm hok hrows) fun _ _ => rfl
      -- the target first leaves two active rows to the index
      · have herr : db.activateModel m.id [.activate m.id, .clear a.id] =
            (.error (.internal duplicateActive), db) :=
          activateModel_of_error (activate_then_clear hm ha hactive hne)
        refine iff_of_false ?_ ?_
        · rw [herr]
          rintro ⟨⟨out, hout⟩, -⟩
          cases hout
        · intro hlast
          cases hlast rfl ⟨a, ha, hactive, hne⟩

/-- The index in numbers: at most one row is active. -/
private theorem length_active_le_one (db : ModelDb) :
    (db.models.rows.filter (·.isActive)).length ≤ 1 := by
  by_cases hany : ∃ a ∈ db.models, a.isActive = true
  · obtain ⟨a, ha, hactive⟩ := hany
    have hone : db.models.rows.filter (·.isActive) = [a] := by
      refine Table.filter_eq_singleton ha fun k hk => ?_
      constructor
      · intro hk'
        exact db.models.eq_of_key_eq hk ha (db.oneActive k hk a ha hk' hactive)
      · rintro rfl
        exact hactive
    rw [hone, List.length_singleton]
  · have hnone : db.models.rows.filter (·.isActive) = [] :=
      List.filter_eq_nil_iff.mpr fun k hk hk' => hany ⟨k, hk, hk'⟩
    rw [hnone]
    exact Nat.zero_le 1

/-- Atomic activation: whatever the order of the row writes, it does what it should exactly
    when the activating write comes last or nothing else is active; and at most one model
    is active after any uploads and activations, with the row writes in any order. -/
theorem activatesExactly_iff (py : Pydantic) (build : Build) (secret : String) :
    (∀ (db : ModelDb) (id : Nat) (order : List RowWrite),
      order.Perm (activationWrites id db) →
        (ActivatesExactly id order db ↔ ActivatesLast id order db)) ∧
      ∀ (db₀ : ModelDb) (c : Config ModelDb ModelEvent (Except Failure ModelOut)),
        (modelMachine py build secret).Run (fun _ _ => True) ⟨[], db₀⟩ c →
          (c.state.models.rows.filter (·.isActive)).length ≤ 1 :=
  ⟨fun _ _ _ horder => activatesExactly_iff_last horder,
    fun _ c _ => c.state.length_active_le_one⟩

/-! ## A swap in the wrong order -/

/-- One active model and one other. -/
def twoModels : ModelDb where
  models := ⟨[⟨1, "old", none, true, .obj [], .obj [], [0], 0⟩,
    ⟨2, "new", none, false, .obj [], .obj [], [0], 1⟩], by decide⟩
  modelsIdSeq := 3
  modelsIdBelow := by decide
  oneActive := by decide

theorem activatesExactly_iff_twoModels :
    ActivatesExactly 2 [.clear 1, .activate 2] twoModels ↔
      ActivatesLast 2 [.clear 1, .activate 2] twoModels :=
  (activatesExactly_iff exactPydantic .current "").1 twoModels 2 [.clear 1, .activate 2]
    (by decide)

/-- Activating the second model before clearing the first fails. -/
theorem swap_in_the_wrong_order :
    ¬∀ (db : ModelDb) (id : Nat) (order : List RowWrite),
      order.Perm (activationWrites id db) → ActivatesExactly id order db := by
  intro h
  have hex := h twoModels 2 [.activate 2, .clear 1] (by decide)
  obtain ⟨⟨out, hout⟩, -⟩ : (∃ out,
      (twoModels.activateModel 2 [.activate 2, .clear 1]).1 = .ok out) ∧ _ := hex
  cases hout

end ModelDb

end Grimnir
