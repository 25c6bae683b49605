import Mathlib.Data.List.Nodup

/-!
# Tables under a unique index

A relational table with a unique index is a list of rows whose keys do not repeat.
`Table` carries that fact as a field, so a table with a duplicate key cannot be
built, and each statement (`INSERT`, `UPDATE`, `DELETE`, `INSERT … ON CONFLICT`)
is an operation that keeps it.

## Key results

- `find?_eq_some_iff`: looking a key up finds exactly the row with that key
- `mem_insert` / `mem_update` / `mem_deleteWhere`: the rows each statement leaves
- `find?_upsertAll_of_mem`: what a bulk upsert of distinct keys leaves under each key
-/

/-- Rows under a unique index on `key`. -/
structure Table (α : Type) {κ : Type} (key : α → κ) where
  rows : List α
  nodup : (rows.map key).Nodup

namespace Table

variable {α κ : Type} {key : α → κ}

instance : Membership α (Table α key) := ⟨fun t a => a ∈ t.rows⟩

/-- A table's members are its rows. -/
theorem mem_def {t : Table α key} {a : α} : a ∈ t ↔ a ∈ t.rows := Iff.rfl

/-- A table is determined by its rows. -/
@[ext] theorem ext {t u : Table α key} (h : t.rows = u.rows) : t = u := by
  cases t; cases u; simp_all

/-- Two rows of a table with one key are one row. -/
theorem eq_of_key_eq (t : Table α key) {a b : α} (ha : a ∈ t) (hb : b ∈ t)
    (h : key a = key b) : a = b :=
  List.inj_on_of_nodup_map t.nodup ha hb h

/-- A condition that only `a` meets selects the one row `a`. -/
theorem filter_eq_singleton {t : Table α key} {p : α → Bool} {a : α} (ha : a ∈ t)
    (hp : ∀ b ∈ t, p b = true ↔ b = a) : t.rows.filter p = [a] := by
  have hnd : t.rows.Nodup := List.Nodup.of_map _ t.nodup
  have hfilter : (t.rows.filter p).Nodup := hnd.filter p
  have hmem : ∀ b, b ∈ t.rows.filter p ↔ b = a := by
    intro b
    rw [List.mem_filter]
    constructor
    · rintro ⟨hb, hpb⟩
      exact (hp b hb).mp hpb
    · rintro rfl
      exact ⟨ha, (hp b ha).mpr rfl⟩
  -- a list without repetitions is determined by its members up to order
  have hperm : (t.rows.filter p).Perm [a] := by
    rw [List.perm_ext_iff_of_nodup hfilter (List.nodup_singleton a)]
    simpa using hmem
  exact List.perm_singleton.mp hperm

/-- The empty table. -/
def empty : Table α key := ⟨[], by simp⟩

/-- The empty table has no row. -/
@[simp] theorem notMem_empty (a : α) : a ∉ (empty : Table α key) := List.not_mem_nil

/-! ## Looking a key up -/

section Find
variable [DecidableEq κ]

/-- `SELECT … WHERE key = k`. -/
def find? (t : Table α key) (k : κ) : Option α :=
  t.rows.find? fun a => key a = k

/-- A look-up finds exactly the row that carries the key. -/
theorem find?_eq_some_iff {t : Table α key} {k : κ} {a : α} :
    t.find? k = some a ↔ a ∈ t ∧ key a = k := by
  constructor
  · intro h
    exact ⟨List.mem_of_find?_eq_some h, by simpa using List.find?_some h⟩
  · rintro ⟨ha, rfl⟩
    cases hf : t.find? (key a) with
    | none => simpa using List.find?_eq_none.mp hf a ha
    | some b =>
      have hb : key b = key a := by simpa using List.find?_some hf
      rw [t.eq_of_key_eq (List.mem_of_find?_eq_some hf) ha hb]

/-- A look-up fails exactly when no row carries the key. -/
theorem find?_eq_none_iff {t : Table α key} {k : κ} :
    t.find? k = none ↔ ∀ a ∈ t, key a ≠ k := by
  simp [find?, List.find?_eq_none, mem_def]

/-- Each row is found under its own key, since no two rows share one. -/
theorem find?_of_mem {t : Table α key} {a : α} (h : a ∈ t) : t.find? (key a) = some a :=
  find?_eq_some_iff.mpr ⟨h, rfl⟩

/-- A row that was found is in the table. -/
theorem mem_of_find? {t : Table α key} {k : κ} {a : α} (h : t.find? k = some a) : a ∈ t :=
  (find?_eq_some_iff.mp h).1

/-- A row that was found carries the key it was looked up by. -/
theorem key_of_find? {t : Table α key} {k : κ} {a : α} (h : t.find? k = some a) :
    key a = k :=
  (find?_eq_some_iff.mp h).2

end Find

/-! ## INSERT -/

/-- `INSERT` of a row whose key is not taken. -/
def insert (t : Table α key) (a : α) (h : ∀ b ∈ t, key b ≠ key a) : Table α key :=
  ⟨t.rows ++ [a], by
    rw [List.map_append, List.map_singleton, ← List.concat_eq_append]
    refine List.Nodup.concat ?_ t.nodup
    intro hmem
    obtain ⟨b, hb, hkey⟩ := List.mem_map.mp hmem
    exact h b hb hkey⟩

/-- An insert appends. -/
@[simp] theorem rows_insert (t : Table α key) (a : α) (h) :
    (t.insert a h).rows = t.rows ++ [a] := rfl

/-- After an insert, the rows are the old ones and the new one. -/
@[simp] theorem mem_insert {t : Table α key} {a b : α} {h} :
    b ∈ t.insert a h ↔ b ∈ t ∨ b = a := by
  simp [mem_def]

/-! ## UPDATE -/

/-- `UPDATE` of columns outside the key. -/
def update (t : Table α key) (f : α → α) (hf : ∀ a, key (f a) = key a) : Table α key :=
  ⟨t.rows.map f, by
    have hkeys : (t.rows.map f).map key = t.rows.map key := by simp [hf]
    rw [hkeys]
    exact t.nodup⟩

/-- An update maps the rows in place. -/
@[simp] theorem rows_update (t : Table α key) (f : α → α) (hf) :
    (t.update f hf).rows = t.rows.map f := rfl

/-- After an update, each row is the image of an old one. -/
theorem mem_update {t : Table α key} {f : α → α} {hf} {b : α} :
    b ∈ t.update f hf ↔ ∃ a ∈ t, f a = b := by
  simp [mem_def]

/-- An update that only touches the key of `a` replaces one row. -/
theorem mem_update_of_key {t : Table α key} {f : α → α} {hf} {a b : α} (ha : a ∈ t)
    (hother : ∀ c, key c ≠ key a → f c = c) :
    b ∈ t.update f hf ↔ b = f a ∨ (b ∈ t ∧ key b ≠ key a) := by
  rw [mem_update]
  constructor
  · rintro ⟨c, hc, rfl⟩
    by_cases hkey : key c = key a
    · exact .inl (by rw [t.eq_of_key_eq hc ha hkey])
    · rw [hother c hkey]
      exact .inr ⟨hc, hkey⟩
  · rintro (rfl | ⟨hb, hkey⟩)
    · exact ⟨a, ha, rfl⟩
    · exact ⟨b, hb, hother b hkey⟩

/-- An update that keeps the keys commutes with the look-up. -/
theorem find?_update [DecidableEq κ] (t : Table α key) (f : α → α) (hf) (k : κ) :
    (t.update f hf).find? k = (t.find? k).map f := by
  cases h : t.find? k with
  | none =>
    refine find?_eq_none_iff.mpr fun b hb => ?_
    obtain ⟨a, ha, rfl⟩ := mem_update.mp hb
    rw [hf]
    exact find?_eq_none_iff.mp h a ha
  | some a =>
    obtain ⟨ha, rfl⟩ := find?_eq_some_iff.mp h
    exact find?_eq_some_iff.mpr ⟨mem_update.mpr ⟨a, ha, rfl⟩, hf a⟩

/-- `UPDATE … WHERE key = k` that may write the key; `none` when the index is violated. -/
def updateAt? [DecidableEq κ] (t : Table α key) (k : κ) (f : α → α) :
    Option (Table α key) :=
  if h : ((t.rows.map fun a => if key a = k then f a else a).map key).Nodup then
    some ⟨t.rows.map fun a => if key a = k then f a else a, h⟩
  else none

/-- After an update of one key, the row of that key is the image and the others stay. -/
theorem mem_updateAt? [DecidableEq κ] {t u : Table α key} {k : κ} {f : α → α}
    (h : t.updateAt? k f = some u) {b : α} :
    b ∈ u ↔ ∃ a ∈ t, (if key a = k then f a else a) = b := by
  unfold updateAt? at h
  split at h
  · cases h
    simp [mem_def]
  · cases h

/-- An update of one key maps the rows in place. -/
theorem rows_updateAt? [DecidableEq κ] {t u : Table α key} {k : κ} {f : α → α}
    (h : t.updateAt? k f = some u) :
    u.rows = t.rows.map fun a => if key a = k then f a else a := by
  unfold updateAt? at h
  split at h
  · cases h; rfl
  · cases h

/-- The index admits an update of one key to a key that no row has. -/
theorem updateAt?_isSome [DecidableEq κ] {t : Table α key} {k : κ} {f : α → α}
    (h : ∀ a ∈ t, ∀ b ∈ t, key (f a) ≠ key b) : (t.updateAt? k f).isSome := by
  unfold updateAt?
  rw [dif_pos]
  · rfl
  · rw [List.map_map]
    have hrows : t.rows.Nodup := List.Nodup.of_map _ t.nodup
    refine hrows.map_on fun a ha b hb hkey => ?_
    dsimp only [Function.comp_apply] at hkey
    split at hkey <;> split at hkey
    · exact t.eq_of_key_eq ha hb (by simp_all)
    · exact absurd hkey (h a ha b hb)
    · exact absurd hkey.symm (h b hb a ha)
    · exact t.eq_of_key_eq ha hb hkey

/-- Two rows that an admitted update gives one key are one row. -/
theorem eq_of_updateAt? [DecidableEq κ] {t u : Table α key} {k : κ} {f : α → α}
    (h : t.updateAt? k f = some u) {a b : α} (ha : a ∈ t) (hb : b ∈ t)
    (hkey : key (if key a = k then f a else a) = key (if key b = k then f b else b)) : a = b := by
  unfold updateAt? at h
  split at h
  · rename_i hnd
    rw [List.map_map] at hnd
    exact List.inj_on_of_nodup_map hnd ha hb hkey
  · cases h

/-! ## DELETE -/

/-- `DELETE … WHERE p`. -/
def deleteWhere (t : Table α key) (p : α → Bool) : Table α key :=
  ⟨t.rows.filter fun a => !p a, t.nodup.sublist (List.filter_sublist.map key)⟩

/-- A delete keeps the rows the predicate is false of. -/
theorem mem_deleteWhere {t : Table α key} {p : α → Bool} {a : α} :
    a ∈ t.deleteWhere p ↔ a ∈ t ∧ p a = false := by
  simp [mem_def, deleteWhere]

/-! ## INSERT … ON CONFLICT (key) DO UPDATE -/

section Upsert
variable [DecidableEq κ]

/-- `INSERT … ON CONFLICT (key) DO UPDATE SET …`: `set old new` is the row left when
    `new` meets `old` under the same key. -/
def upsert (set : α → α → α) (hset : ∀ old new, key (set old new) = key old)
    (t : Table α key) (a : α) : Table α key :=
  if h : ∀ b ∈ t.rows, key b ≠ key a then t.insert a h
  else t.update (fun b => if key b = key a then set b a else b)
    (by intro b; split <;> simp [hset])

variable {set : α → α → α} {hset : ∀ old new, key (set old new) = key old}

/-- An upsert only touches its own key. -/
theorem find?_upsert (t : Table α key) (a : α) (k : κ) :
    (t.upsert set hset a).find? k =
      if key a = k then some ((t.find? k).elim a (set · a)) else t.find? k := by
  unfold upsert
  -- a fresh key inserts the row, a conflict updates the one that has it
  split
  · rename_i hfresh
    by_cases hk : key a = k
    · subst hk
      have hnone : t.find? (key a) = none := find?_eq_none_iff.mpr hfresh
      simp only [hnone, Option.elim_none, ↓reduceIte]
      exact find?_of_mem (mem_insert.mpr (.inr rfl))
    · rw [if_neg hk]
      cases hf : t.find? k with
      | none =>
        refine find?_eq_none_iff.mpr fun b hb => ?_
        rcases mem_insert.mp hb with hb | rfl
        · exact find?_eq_none_iff.mp hf b hb
        · exact hk
      | some b =>
        obtain ⟨hb, rfl⟩ := find?_eq_some_iff.mp hf
        exact find?_of_mem (mem_insert.mpr (.inl hb))
  · rename_i hconflict
    rw [find?_update]
    by_cases hk : key a = k
    · subst hk
      cases hf : t.find? (key a) with
      | none => exact absurd (find?_eq_none_iff.mp hf) hconflict
      | some b => simp [key_of_find? hf]
    · rw [if_neg hk]
      cases hf : t.find? k with
      | none => rfl
      | some b =>
        have hb : key b ≠ key a := by rw [key_of_find? hf]; exact Ne.symm hk
        simp [hb]

/-- `INSERT … SELECT … ON CONFLICT (key) DO UPDATE SET …`. -/
def upsertAll (set : α → α → α) (hset : ∀ old new, key (set old new) = key old)
    (t : Table α key) (as : List α) : Table α key :=
  as.foldl (upsert set hset) t

/-- An upsert leaves alone the rows of the keys it does not write. -/
theorem find?_upsertAll_of_notMem (t : Table α key) {as : List α} {k : κ}
    (h : ∀ a ∈ as, key a ≠ k) : (t.upsertAll set hset as).find? k = t.find? k := by
  induction as generalizing t with
  | nil => rfl
  | cons a as ih =>
    simp only [List.mem_cons, forall_eq_or_imp] at h
    rw [upsertAll, List.foldl_cons]
    change ((t.upsert set hset a).upsertAll set hset as).find? k = _
    rw [ih _ h.2, find?_upsert, if_neg h.1]

/-- With distinct proposed keys, the row left under a proposed key depends only on
    what the table held under it. -/
theorem find?_upsertAll_of_mem (t : Table α key) {as : List α} (hnd : (as.map key).Nodup)
    {a : α} (ha : a ∈ as) :
    (t.upsertAll set hset as).find? (key a) =
      some ((t.find? (key a)).elim a (set · a)) := by
  induction as generalizing t with
  | nil => cases ha
  | cons b as ih =>
    rw [List.map_cons, List.nodup_cons] at hnd
    rw [upsertAll, List.foldl_cons]
    change ((t.upsert set hset b).upsertAll set hset as).find? (key a) = _
    -- the keys are distinct, so the rest of the rows leaves this key alone
    rcases List.mem_cons.mp ha with rfl | ha
    · rw [find?_upsertAll_of_notMem, find?_upsert, if_pos rfl]
      intro c hc hkey
      exact hnd.1 (hkey ▸ List.mem_map_of_mem hc)
    · have hne : key b ≠ key a := fun hkey => hnd.1 (hkey ▸ List.mem_map_of_mem ha)
      rw [ih _ hnd.2 ha, find?_upsert, if_neg hne]

end Upsert

end Table
