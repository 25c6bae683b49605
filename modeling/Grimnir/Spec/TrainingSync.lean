import Grimnir.Spec.LabelEffects

/-!
# The second transactions, key by key

The backfill's sync upserts the labelled samples of a window, the resync of
`delete_label` deletes the window first.  With distinct `(time, receiver_id)` keys in
`csi_samples` both go through, and what they leave in `training_samples` is decided
one sample at a time.

## Key results

- `find?_synced_of_selected`, `find?_resynced_of_selected`: what a labelled sample in the
  window leaves under its key
- `sync_eq`, `resync_eq`: the transactions go through on distinct keys
-/

namespace Grimnir

open LabelDb

namespace LabelDb

/-- No two rows of `csi_samples` have the same time and receiver. -/
def DistinctKeys (db : LabelDb) : Prop := (db.csiSamples.map (·.key)).Nodup

instance (db : LabelDb) : Decidable db.DistinctKeys :=
  inferInstanceAs (Decidable (db.csiSamples.map (·.key)).Nodup)

/-- The training row of a sample, if it is labelled. -/
def trainingRow? (r : CsiSample) : Option TrainingSample :=
  r.label.map fun l => { toCsiRow := r.toCsiRow, label := l }

/-- A training row is a sample with its label. -/
theorem trainingRow?_eq_some {r : CsiSample} {t : TrainingSample} :
    trainingRow? r = some t ↔ r.label = some t.label ∧ r.toCsiRow = t.toCsiRow := by
  unfold trainingRow?
  rw [Option.map_eq_some_iff]
  constructor
  · rintro ⟨l, hl, rfl⟩
    exact ⟨hl, rfl⟩
  · rintro ⟨hl, hrow⟩
    exact ⟨t.label, hl, by rw [hrow]⟩

/-- A labelled sample has its training row. -/
theorem trainingRow?_of_label {r : CsiSample} {room : String} (h : r.label = some room) :
    trainingRow? r = some { toCsiRow := r.toCsiRow, label := room } := by
  rw [trainingRow?, h]; rfl

/-- A sample and its training row have one key. -/
theorem key_of_trainingRow? {r : CsiSample} {t : TrainingSample} (h : trainingRow? r = some t) :
    t.key = r.key := by
  rw [TrainingSample.key, (trainingRow?_eq_some.mp h).2]

/-! ## The rows a window selects -/

/-- The rows selected are those of the labelled samples in the window. -/
theorem mem_selectLabelled {w : Window} {db : LabelDb} {t : TrainingSample} :
    t ∈ selectLabelled w db ↔
      ∃ r ∈ db.csiSamples, w.contains r.time = true ∧ trainingRow? r = some t := by
  unfold selectLabelled
  rw [List.mem_filterMap]
  refine exists_congr fun r => and_congr_right fun _ => ?_
  cases hw : w.contains r.time with
  | false => simp
  | true => simp [trainingRow?]

/-- Distinct keys stay distinct among the selected rows. -/
theorem nodup_selectLabelled {db : LabelDb} (h : db.DistinctKeys) (w : Window) :
    ((selectLabelled w db).map TrainingSample.key).Nodup := by
  -- a selection takes keys away and moves none
  have hsub : ((selectLabelled w db).map TrainingSample.key).Sublist
      (db.csiSamples.map (·.key)) := by
    unfold selectLabelled
    induction db.csiSamples with
    | nil => exact List.Sublist.slnil
    | cons r rs ih =>
      rw [List.filterMap_cons, List.map_cons]
      split
      · exact ih.cons _
      · rename_i t hsel
        have hrow : trainingRow? r = some t := by
          split at hsel
          · exact hsel
          · cases hsel
        rw [List.map_cons, key_of_trainingRow? hrow]
        exact ih.cons_cons _
  exact h.sublist hsub

/-- The key of a sample that a window does not select is not among the selected ones. -/
theorem key_notMem_selectLabelled {w : Window} {db : LabelDb} (h : db.DistinctKeys)
    {r : CsiSample} (hr : r ∈ db.csiSamples)
    (hskip : w.contains r.time = false ∨ r.label = none) :
    ∀ t ∈ selectLabelled w db, t.key ≠ r.key := by
  intro t ht hkey
  obtain ⟨r', hr', hin, hrow⟩ := mem_selectLabelled.mp ht
  rw [key_of_trainingRow? hrow] at hkey
  obtain rfl := List.inj_on_of_nodup_map h hr' hr hkey
  rcases hskip with hout | hnone
  · rw [hout] at hin
    cases hin
  · rw [trainingRow?, hnone] at hrow
    cases hrow

/-! ## The upsert -/

/-- `training_samples` after the `INSERT … ON CONFLICT` of a window. -/
def synced (w : Window) (db : LabelDb) : Table TrainingSample TrainingSample.key :=
  db.trainingSamples.upsertAll setExcludedLabel key_setExcludedLabel (selectLabelled w db)

/-- With distinct keys the upsert of a window goes through. -/
private theorem insertTrainingIn_ok {w : Window} {db : LabelDb}
    (h : ((selectLabelled w db).map TrainingSample.key).Nodup) :
    insertTrainingIn w db = .ok ((), { db with trainingSamples := synced w db }) := by
  rw [insertTrainingIn, if_pos h]
  rfl

/-- A labelled sample in the window leaves its label under its key. -/
theorem find?_synced_of_selected {w : Window} {db : LabelDb}
    (h : ((selectLabelled w db).map TrainingSample.key).Nodup) {a : TrainingSample}
    (ha : a ∈ selectLabelled w db) :
    (synced w db).find? a.key =
      some ((db.trainingSamples.find? a.key).elim a (setExcludedLabel · a)) :=
  Table.find?_upsertAll_of_mem _ h ha

/-- Under every other key nothing changes. -/
theorem find?_synced_of_skipped {w : Window} {db : LabelDb} {k : Timestamp × Int}
    (h : ∀ a ∈ selectLabelled w db, a.key ≠ k) :
    (synced w db).find? k = db.trainingSamples.find? k :=
  Table.find?_upsertAll_of_notMem _ h

/-- The columns of a row the upsert leaves are those of a selected sample or of a row that
    was there. -/
theorem toCsiRow_of_mem_synced {w : Window} {db : LabelDb}
    (h : ((selectLabelled w db).map TrainingSample.key).Nodup) {t : TrainingSample}
    (ht : t ∈ synced w db) :
    (∃ a ∈ selectLabelled w db, a.toCsiRow = t.toCsiRow) ∨
      ∃ t₀ ∈ db.trainingSamples, t₀.toCsiRow = t.toCsiRow := by
  have hfind := Table.find?_of_mem ht
  -- under a selected key, `DO UPDATE` keeps the columns of the row it meets
  by_cases hsel : ∃ a ∈ selectLabelled w db, a.key = t.key
  · obtain ⟨a, ha, hkey⟩ := hsel
    rw [← hkey, find?_synced_of_selected h ha] at hfind
    cases hold : db.trainingSamples.find? a.key with
    | none =>
      rw [hold] at hfind
      exact .inl ⟨a, ha, congrArg _ (Option.some.inj hfind)⟩
    | some t₀ =>
      rw [hold] at hfind
      refine .inr ⟨t₀, Table.mem_of_find? hold, ?_⟩
      rw [← Option.some.inj hfind]
      rfl
  · have hnone : ∀ a ∈ selectLabelled w db, a.key ≠ t.key :=
      fun a ha hkey => hsel ⟨a, ha, hkey⟩
    rw [find?_synced_of_skipped hnone] at hfind
    exact .inr ⟨t, Table.mem_of_find? hfind, rfl⟩

/-! ## Delete, then upsert -/

/-- `training_samples` after a window is rebuilt. -/
def resynced (w : Window) (db : LabelDb) : Table TrainingSample TrainingSample.key :=
  synced w (deleteTrainingIn w db)

/-- The rows selected are of times in the window. -/
theorem contains_of_mem_selectLabelled {w : Window} {db : LabelDb} {t : TrainingSample}
    (ht : t ∈ selectLabelled w db) : w.contains t.time = true := by
  obtain ⟨r, -, hin, hrow⟩ := mem_selectLabelled.mp ht
  rw [← (trainingRow?_eq_some.mp hrow).2]
  exact hin

/-- After the `DELETE` the window is empty and the rest is as it was. -/
private theorem find?_deleteTrainingIn (w : Window) (db : LabelDb) (k : Timestamp × Int) :
    (deleteTrainingIn w db).trainingSamples.find? k =
      if w.contains k.1 then none else db.trainingSamples.find? k := by
  split
  · rename_i hin
    refine Table.find?_eq_none_iff.mpr fun t ht hkey => ?_
    obtain ⟨-, hout⟩ := Table.mem_deleteWhere.mp ht
    rw [← hkey] at hin
    exact absurd hin (by simpa using hout)
  · rename_i hout
    cases hfind : db.trainingSamples.find? k with
    | none =>
      refine Table.find?_eq_none_iff.mpr fun t ht => ?_
      exact Table.find?_eq_none_iff.mp hfind t (Table.mem_deleteWhere.mp ht).1
    | some t =>
      obtain ⟨ht, rfl⟩ := Table.find?_eq_some_iff.mp hfind
      exact Table.find?_of_mem (Table.mem_deleteWhere.mpr ⟨ht, by simpa using hout⟩)

/-- A labelled sample in the window is its own training row after the rebuild. -/
theorem find?_resynced_of_selected {w : Window} {db : LabelDb}
    (h : ((selectLabelled w db).map TrainingSample.key).Nodup) {a : TrainingSample}
    (ha : a ∈ selectLabelled w db) : (resynced w db).find? a.key = some a := by
  have hin : w.contains a.key.1 = true := contains_of_mem_selectLabelled ha
  -- the deletion does not touch `csi_samples`, so the selection is the same
  have hnd : ((selectLabelled w (deleteTrainingIn w db)).map TrainingSample.key).Nodup := h
  have hsel : a ∈ selectLabelled w (deleteTrainingIn w db) := ha
  rw [resynced, find?_synced_of_selected hnd hsel, find?_deleteTrainingIn, if_pos hin,
    Option.elim_none]

/-- Every other key of the window is gone, and outside it nothing changes. -/
theorem find?_resynced_of_skipped {w : Window} {db : LabelDb} {k : Timestamp × Int}
    (h : ∀ a ∈ selectLabelled w db, a.key ≠ k) :
    (resynced w db).find? k =
      if w.contains k.1 then none else db.trainingSamples.find? k := by
  have hskip : ∀ a ∈ selectLabelled w (deleteTrainingIn w db), a.key ≠ k := h
  rw [resynced, find?_synced_of_skipped hskip, find?_deleteTrainingIn]

/-- A row of a rebuilt window is a selected sample's, outside it every row was there. -/
theorem toCsiRow_of_mem_resynced {w : Window} {db : LabelDb}
    (h : ((selectLabelled w db).map TrainingSample.key).Nodup) {t : TrainingSample}
    (ht : t ∈ resynced w db) :
    (∃ a ∈ selectLabelled w db, a.toCsiRow = t.toCsiRow) ∨
      ∃ t₀ ∈ db.trainingSamples, t₀.toCsiRow = t.toCsiRow := by
  have hnd : ((selectLabelled w (deleteTrainingIn w db)).map TrainingSample.key).Nodup := h
  refine (toCsiRow_of_mem_synced hnd ht).imp_right ?_
  rintro ⟨t₀, ht₀, hcols⟩
  exact ⟨t₀, (Table.mem_deleteWhere.mp ht₀).1, hcols⟩

/-! ## The transactions -/

/-- With distinct keys the sync upserts its window. -/
theorem sync_eq {w : Window} {db : LabelDb}
    (h : ((selectLabelled w db).map TrainingSample.key).Nodup) :
    (syncTrainingSamplesBestEffort w Tx.noFaults db).2 =
      { db with trainingSamples := synced w db } := by
  rw [syncTrainingSamplesBestEffort_snd, insertTrainingIn_ok h]

/-- With distinct keys a window that was emptied is filled again. -/
theorem insertTrainingIn_deleteTrainingIn {w : Window} {db : LabelDb}
    (h : ((selectLabelled w db).map TrainingSample.key).Nodup) :
    insertTrainingIn w (deleteTrainingIn w db) =
      .ok ((), { db with trainingSamples := resynced w db }) := by
  have hnd : ((selectLabelled w (deleteTrainingIn w db)).map TrainingSample.key).Nodup := h
  exact insertTrainingIn_ok hnd

/-- With distinct keys the rebuild goes through. -/
theorem resync_eq {w : Window} {db : LabelDb}
    (h : ((selectLabelled w db).map TrainingSample.key).Nodup) :
    resyncTrainingSamplesBestEffort w Tx.noFaults db =
      { db with trainingSamples := resynced w db } := by
  rw [resyncTrainingSamplesBestEffort_eq, insertTrainingIn_deleteTrainingIn h]

end LabelDb

end Grimnir
