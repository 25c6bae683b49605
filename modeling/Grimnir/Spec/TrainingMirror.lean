import Grimnir.Spec.TrainingSync
import Grimnir.Spec.LabelProvenance

/-!
# `training_samples` mirrors `csi_samples`

A labelled sample and its training row may disagree only while a second transaction is
outstanding over the sample's time: a resync repairs every sample of its window, a sync
only the labelled ones, since it never deletes.  The invariant says which samples may
disagree, and every transaction keeps it.

## Key results

- `Mirrored.effect`: every transaction keeps the invariant
- `mirror_of_run`: with nothing outstanding the two tables agree row by row
-/

namespace Grimnir

open LabelDb

namespace LabelSystem

/-- A second transaction that will set the sample's training row right is outstanding. -/
def Outstanding (s : LabelSystem) (r : CsiSample) : Prop :=
  (∃ w ∈ s.resyncs, w.contains r.time = true) ∨
    (r.label ≠ none ∧ ∃ w ∈ s.syncs, w.contains r.time = true)

/-- Every training row is the copy of a sample, and every sample has its own label in
    `training_samples` unless a second transaction over its time is outstanding. -/
structure Mirrored (s : LabelSystem) : Prop where
  keys : s.db.DistinctKeys
  source : ∀ t ∈ s.db.trainingSamples, ∃ r ∈ s.db.csiSamples, r.toCsiRow = t.toCsiRow
  agrees : ∀ r ∈ s.db.csiSamples,
    s.db.trainingSamples.find? r.key = trainingRow? r ∨ s.Outstanding r

/-! ## Transactions on `csi_samples` -/

theorem Mirrored.frame {s : LabelSystem} {db' : LabelDb} (h : Mirrored s)
    (hsame : Unchanged s.db db') : Mirrored { s with db := db' } := by
  obtain ⟨-, -, hcsi, htraining⟩ := hsame
  refine ⟨?_, ?_, ?_⟩
  -- `keys`
  · rw [DistinctKeys, hcsi]
    exact h.keys
  -- `source`
  · rw [hcsi, htraining]
    exact h.source
  -- `agrees`
  · rw [hcsi, htraining]
    exact h.agrees

/-- Rewriting labels moves no key. -/
private theorem map_key_map {f : CsiSample → CsiSample} (hf : ∀ r, (f r).toCsiRow = r.toCsiRow)
    (rs : List CsiSample) : (rs.map f).map (·.key) = rs.map (·.key) := by
  rw [List.map_map]
  refine List.map_congr_left fun r _ => ?_
  rw [Function.comp_apply, hf]

/-- A transaction may rewrite the labels of samples over which it leaves a second
    transaction outstanding. -/
private theorem Mirrored.relabelled {s s' : LabelSystem} {f : CsiSample → CsiSample}
    (h : Mirrored s) (hf : ∀ r, (f r).toCsiRow = r.toCsiRow)
    (hcsi : s'.db.csiSamples = s.db.csiSamples.map f)
    (htraining : s'.db.trainingSamples = s.db.trainingSamples)
    (hkept : ∀ r, s.Outstanding r → s'.Outstanding r)
    (hscheduled : ∀ r, f r = r ∨ s'.Outstanding (f r)) : Mirrored s' := by
  refine ⟨?_, ?_, ?_⟩
  -- `keys`
  · rw [DistinctKeys, hcsi, map_key_map hf]
    exact h.keys
  -- `source`
  · intro t ht
    rw [htraining] at ht
    obtain ⟨r, hr, hrow⟩ := h.source t ht
    refine ⟨f r, ?_, (hf r).trans hrow⟩
    rw [hcsi]
    exact List.mem_map_of_mem hr
  -- `agrees`
  · intro r' hr'
    rw [hcsi] at hr'
    obtain ⟨r, hr, rfl⟩ := List.mem_map.mp hr'
    rcases hscheduled r with hid | hout
    · rw [hid, htraining]
      exact (h.agrees r hr).imp_right (hkept r)
    · exact .inr hout

/-- A batch of new keys is unlabelled in one table and absent from the other. -/
theorem Mirrored.insertBatch {s : LabelSystem} {rows : List CsiRow} (h : Mirrored s)
    (hkeys : (s.db.insertCsiSamples rows).DistinctKeys) :
    Mirrored { s with db := s.db.insertCsiSamples rows } := by
  refine ⟨hkeys, ?_, ?_⟩
  -- `source`
  · intro t ht
    obtain ⟨r, hr, hrow⟩ := h.source t ht
    exact ⟨r, List.mem_append_left _ hr, hrow⟩
  -- `agrees`
  · intro r hr
    rcases List.mem_append.mp hr with hold | hnew
    · exact h.agrees r hold
    · obtain ⟨row, hrow, rfl⟩ := List.mem_map.mp hnew
      -- a training row under a new key would be the copy of an old sample
      refine .inl (Table.find?_eq_none_iff.mpr fun t ht hkey => ?_)
      obtain ⟨r₀, hr₀, hrow₀⟩ := h.source t ht
      have hdisjoint : ((s.db.csiSamples ++ rows.map fun r =>
          ({ toCsiRow := r, label := none } : CsiSample)).map (·.key)).Nodup := hkeys
      rw [List.map_append, List.nodup_append] at hdisjoint
      refine hdisjoint.2.2 r₀.key (List.mem_map_of_mem hr₀) _ (List.mem_map_of_mem hnew) ?_
      rw [hrow₀]
      exact hkey

private theorem toCsiRow_renameCsiSample (old new : String) (r : CsiSample) :
    (renameCsiSample old new r).toCsiRow = r.toCsiRow := by
  unfold renameCsiSample; split <;> rfl

/-- A rename commutes with copying a sample to `training_samples`. -/
private theorem trainingRow?_renameCsiSample (old new : String) (r : CsiSample) :
    trainingRow? (renameCsiSample old new r) =
      (trainingRow? r).map (renameTrainingSample old new) := by
  cases hlabel : r.label with
  | none =>
    have hsame : renameCsiSample old new r = r := by simp [renameCsiSample, hlabel]
    rw [hsame, trainingRow?, hlabel]
    rfl
  | some room =>
    rw [trainingRow?_of_label hlabel, Option.map_some]
    by_cases hroom : room = old
    · have hnew : (renameCsiSample old new r).label = some new := by
        rw [renameCsiSample, if_pos (hroom ▸ hlabel)]
      rw [trainingRow?_of_label hnew, toCsiRow_renameCsiSample, renameTrainingSample,
        if_pos hroom]
    · have hsame : renameCsiSample old new r = r := by
        rw [renameCsiSample, hlabel, if_neg fun heq => hroom (Option.some.inj heq)]
      rw [hsame, trainingRow?_of_label hlabel, renameTrainingSample, if_neg hroom]

theorem Mirrored.renamed {s : LabelSystem} {old new : String} {db' : LabelDb} (h : Mirrored s)
    (hren : Renamed old new s.db db') : Mirrored { s with db := db' } := by
  obtain ⟨-, -, hcsi, htraining⟩ := hren
  refine ⟨?_, ?_, ?_⟩
  -- `keys`
  · rw [DistinctKeys, hcsi, map_key_map (toCsiRow_renameCsiSample old new)]
    exact h.keys
  -- `source`
  · intro t ht
    rw [htraining] at ht
    obtain ⟨t₀, ht₀, rfl⟩ := Table.mem_update.mp ht
    obtain ⟨r, hr, hrow⟩ := h.source t₀ ht₀
    refine ⟨renameCsiSample old new r, ?_, ?_⟩
    · rw [hcsi]
      exact List.mem_map_of_mem hr
    · rw [toCsiRow_renameCsiSample, toCsiRow_renameTrainingSample, hrow]
  -- `agrees`
  · intro r' hr'
    rw [hcsi] at hr'
    obtain ⟨r, hr, rfl⟩ := List.mem_map.mp hr'
    have hkey : (renameCsiSample old new r).key = r.key :=
      congrArg CsiRow.key (toCsiRow_renameCsiSample old new r)
    have htime : (renameCsiSample old new r).time = r.time :=
      congrArg CsiRow.time (toCsiRow_renameCsiSample old new r)
    refine (h.agrees r hr).imp ?_ ?_
    · intro hagree
      rw [htraining, Table.find?_update, hkey, hagree, trainingRow?_renameCsiSample]
    -- a rename moves no sample out of an outstanding window and unlabels none
    · rintro (hresync | ⟨hlabel, hsync⟩)
      · exact .inl (htime ▸ hresync)
      · refine .inr ⟨?_, htime ▸ hsync⟩
        unfold renameCsiSample
        split
        · exact Option.some_ne_none new
        · exact hlabel

/-! ## The second transactions -/

/-- With distinct keys no window selects one key twice. -/
theorem Mirrored.selected {s : LabelSystem} (h : Mirrored s) (w : Window) :
    ((selectLabelled w s.db).map TrainingSample.key).Nodup :=
  nodup_selectLabelled h.keys w

/-- Taking one item of a list of windows away leaves the windows that differ from it. -/
private theorem mem_eraseIdx_of_contains {ws : List Window} {i : Nat} {w : Window} {t : Timestamp}
    (hi : ws[i]? = some w) (hout : w.contains t = false)
    (h : ∃ v ∈ ws, v.contains t = true) : ∃ v ∈ ws.eraseIdx i, v.contains t = true := by
  obtain ⟨v, hv, hin⟩ := h
  refine ⟨v, ?_, hin⟩
  obtain ⟨j, hj⟩ := List.mem_iff_getElem?.mp hv
  rw [List.mem_eraseIdx_iff_getElem?]
  refine ⟨j, ?_, hj⟩
  -- the window taken away does not contain `t`
  rintro rfl
  rw [hi] at hj
  rw [Option.some.inj hj, hin] at hout
  cases hout

/-- The training row that a labelled sample shares its key with has its columns. -/
private theorem Mirrored.relabel_found {s : LabelSystem} (h : Mirrored s) {r : CsiSample}
    (hr : r ∈ s.db.csiSamples) {a : TrainingSample} (ha : trainingRow? r = some a) :
    (s.db.trainingSamples.find? a.key).elim a (setExcludedLabel · a) = a := by
  cases hfind : s.db.trainingSamples.find? a.key with
  | none => rfl
  | some t =>
    obtain ⟨ht, hkey⟩ := Table.find?_eq_some_iff.mp hfind
    -- the row under this key is the copy of a sample with the same key, so of this sample
    obtain ⟨r₀, hr₀, hrow₀⟩ := h.source t ht
    have hkeys : r₀.key = r.key := by
      rw [hrow₀, ← key_of_trainingRow? ha]
      exact hkey
    obtain rfl := List.inj_on_of_nodup_map h.keys hr₀ hr hkeys
    have hcols := (trainingRow?_eq_some.mp ha).2
    rw [Option.elim_some, setExcludedLabel, ← hrow₀, hcols]

theorem Mirrored.synced {s : LabelSystem} {i : Nat} {w : Window} (h : Mirrored s)
    (hi : s.syncs[i]? = some w) :
    Mirrored { s with
      db := (syncTrainingSamplesBestEffort w Tx.noFaults s.db).2
      syncs := s.syncs.eraseIdx i } := by
  rw [sync_eq (h.selected w)]
  refine ⟨h.keys, ?_, ?_⟩
  -- `source`
  · intro t ht
    rcases toCsiRow_of_mem_synced (h.selected w) ht with ⟨a, ha, hcols⟩ | ⟨t₀, ht₀, hcols⟩
    · obtain ⟨r, hr, -, hrow⟩ := mem_selectLabelled.mp ha
      exact ⟨r, hr, (trainingRow?_eq_some.mp hrow).2.trans hcols⟩
    · obtain ⟨r, hr, hrow⟩ := h.source t₀ ht₀
      exact ⟨r, hr, hrow.trans hcols⟩
  -- `agrees`
  · intro r hr
    cases hsel : w.contains r.time with
    -- outside the window nothing changes, and what was outstanding still is
    | false =>
      dsimp only
      rw [find?_synced_of_skipped (key_notMem_selectLabelled h.keys hr (.inl hsel))]
      refine (h.agrees r hr).imp_right ?_
      rintro (hresync | ⟨hlabel, hsync⟩)
      · exact .inl hresync
      · exact .inr ⟨hlabel, mem_eraseIdx_of_contains hi hsel hsync⟩
    | true =>
      cases hrow : trainingRow? r with
      | some a =>
        have ha : a ∈ selectLabelled w s.db := mem_selectLabelled.mpr ⟨r, hr, hsel, hrow⟩
        refine .inl ?_
        dsimp only
        rw [← key_of_trainingRow? hrow, find?_synced_of_selected (h.selected w) ha,
          h.relabel_found hr hrow]
      -- a sync never deletes: the row of an unlabelled sample waits for a resync
      | none =>
        have hnone : r.label = none := by
          rwa [trainingRow?, Option.map_eq_none_iff] at hrow
        dsimp only
        rw [find?_synced_of_skipped (key_notMem_selectLabelled h.keys hr (.inr hnone)), ← hrow]
        refine (h.agrees r hr).imp_right ?_
        rintro (hresync | ⟨hlabel, -⟩)
        · exact .inl hresync
        · exact absurd hnone hlabel

theorem Mirrored.resynced {s : LabelSystem} {i : Nat} {w : Window} (h : Mirrored s)
    (hi : s.resyncs[i]? = some w) :
    Mirrored { s with
      db := resyncTrainingSamplesBestEffort w Tx.noFaults s.db
      resyncs := s.resyncs.eraseIdx i } := by
  rw [resync_eq (h.selected w)]
  refine ⟨h.keys, ?_, ?_⟩
  -- `source`
  · intro t ht
    rcases toCsiRow_of_mem_resynced (h.selected w) ht with ⟨a, ha, hcols⟩ | ⟨t₀, ht₀, hcols⟩
    · obtain ⟨r, hr, -, hrow⟩ := mem_selectLabelled.mp ha
      exact ⟨r, hr, (trainingRow?_eq_some.mp hrow).2.trans hcols⟩
    · obtain ⟨r, hr, hrow⟩ := h.source t₀ ht₀
      exact ⟨r, hr, hrow.trans hcols⟩
  -- `agrees`
  · intro r hr
    cases hsel : w.contains r.time with
    | false =>
      dsimp only
      rw [find?_resynced_of_skipped (key_notMem_selectLabelled h.keys hr (.inl hsel)),
        CsiRow.fst_key, hsel, if_neg Bool.false_ne_true]
      refine (h.agrees r hr).imp_right ?_
      rintro (hresync | hsync)
      · exact .inl (mem_eraseIdx_of_contains hi hsel hresync)
      · exact .inr hsync
    | true =>
      refine .inl ?_
      dsimp only
      cases hrow : trainingRow? r with
      | some a =>
        have ha : a ∈ selectLabelled w s.db := mem_selectLabelled.mpr ⟨r, hr, hsel, hrow⟩
        rw [← key_of_trainingRow? hrow, find?_resynced_of_selected (h.selected w) ha]
      -- the row of an unlabelled sample is deleted with its window
      | none =>
        have hnone : r.label = none := by
          rwa [trainingRow?, Option.map_eq_none_iff] at hrow
        rw [find?_resynced_of_skipped (key_notMem_selectLabelled h.keys hr (.inr hnone)),
          CsiRow.fst_key, if_pos hsel]

/-! ## Runs -/

/-- The condition on the events: inserted rows keep the keys of `csi_samples` distinct. -/
def DistinctInserts (c : Config LabelSystem LabelEvent (Except Failure Unit)) :
    LabelEvent → Prop
  | .insertBatch rows => (c.state.db.insertCsiSamples rows).DistinctKeys
  | _ => True

/-- Every transaction keeps the invariant. -/
theorem Mirrored.effect {c : Config LabelSystem LabelEvent (Except Failure Unit)}
    {e : LabelEvent} {s' : LabelSystem} (h : Mirrored c.state) (hok : DistinctInserts c e)
    (heff : Effect c.state e s') : Mirrored s' := by
  cases heff with
  | frame _ db' hsame => exact h.frame hsame
  | insertBatch rows => exact h.insertBatch hok
  | renamed _ _ old new db' hren => exact h.renamed hren
  -- a new label relabels nothing until its backfill runs
  | created _ _ l db' hins =>
    refine h.relabelled (f := id) (fun _ => rfl) ?_ hins.trainingSamples
      (fun _ hout => hout) (fun _ => .inl rfl)
    rw [List.map_id]
    exact hins.csiSamples
  -- what the cleanup relabels lies in the window whose resync is now outstanding
  | deleted l hl =>
    refine h.relabelled (f := cleanedSample l c.state.db) (cleanedSample_toCsiRow l _)
      (cleaned_csiSamples l _) (cleaned_trainingSamples l _) ?_ ?_
    · rintro r (⟨w, hw, hin⟩ | hsync)
      · exact .inl ⟨w, List.mem_cons_of_mem _ hw, hin⟩
      · exact .inr hsync
    · intro r
      cases hcov : l.covers r.time with
      | false => exact .inl (cleanedSample_of_not_covers hcov _)
      | true =>
        have htime : (cleanedSample l c.state.db r).time = r.time :=
          congrArg CsiRow.time (cleanedSample_toCsiRow l _ r)
        refine .inr (.inl ⟨l.window, List.mem_cons_self, ?_⟩)
        rw [htime]
        exact hcov
  -- what a backfill writes is labelled and lies in the window whose sync is now outstanding
  | backfilled i b hi =>
    refine h.relabelled (f := relabel b.window (some b.room)) (relabel_toCsiRow _ _) rfl rfl
      ?_ ?_
    · rintro r (hresync | ⟨hlabel, w, hw, hin⟩)
      · exact .inl hresync
      · exact .inr ⟨hlabel, w, List.mem_cons_of_mem _ hw, hin⟩
    · intro r
      cases hin : b.window.contains r.time with
      | false => exact .inl (by rw [relabel, hin, if_neg Bool.false_ne_true])
      | true =>
        refine .inr (.inr ⟨?_, b.window, List.mem_cons_self, ?_⟩)
        · rw [relabel_label, if_pos hin]
          exact Option.some_ne_none b.room
        · rw [relabel_time]
          exact hin
  | synced i w hi => exact h.synced hi
  | resynced i w hi => exact h.resynced hi

/-- Every sample has its own label in `training_samples`, which holds nothing else. -/
def MirrorsCsiSamples (db : LabelDb) : Prop :=
  ∀ t, t ∈ db.trainingSamples ↔ ∃ r ∈ db.csiSamples, trainingRow? r = some t

/-- With nothing outstanding the invariant is the mirror itself. -/
theorem mirrored_iff {s : LabelSystem} (hkeys : s.db.DistinctKeys) (hsyncs : s.syncs = [])
    (hresyncs : s.resyncs = []) : Mirrored s ↔ MirrorsCsiSamples s.db := by
  constructor
  · intro h
    have hagrees : ∀ r ∈ s.db.csiSamples,
        s.db.trainingSamples.find? r.key = trainingRow? r := by
      intro r hr
      refine (h.agrees r hr).resolve_right ?_
      -- nothing is outstanding
      rintro (⟨w, hw, -⟩ | ⟨-, w, hw, -⟩)
      · rw [hresyncs] at hw
        cases hw
      · rw [hsyncs] at hw
        cases hw
    intro t
    constructor
    · intro ht
      obtain ⟨r, hr, hrow⟩ := h.source t ht
      refine ⟨r, hr, ?_⟩
      have hkey : t.key = r.key := by rw [TrainingSample.key, hrow]
      rw [← hagrees r hr, ← hkey, Table.find?_of_mem ht]
    · rintro ⟨r, hr, hrow⟩
      exact Table.mem_of_find? ((hagrees r hr).trans hrow)
  · intro h
    refine ⟨hkeys, ?_, ?_⟩
    · intro t ht
      obtain ⟨r, hr, hrow⟩ := (h t).mp ht
      exact ⟨r, hr, (trainingRow?_eq_some.mp hrow).2⟩
    · intro r hr
      refine .inl ?_
      cases hrow : trainingRow? r with
      | some t =>
        rw [← key_of_trainingRow? hrow]
        exact Table.find?_of_mem ((h t).mpr ⟨r, hr, hrow⟩)
      | none =>
        refine Table.find?_eq_none_iff.mpr fun t ht hkey => ?_
        obtain ⟨r₀, hr₀, hrow₀⟩ := (h t).mp ht
        rw [key_of_trainingRow? hrow₀] at hkey
        rw [List.inj_on_of_nodup_map hkeys hr₀ hr hkey, hrow] at hrow₀
        cases hrow₀

/-- From a store whose tables mirror each other with nothing outstanding, every run with
    distinct `(time, receiver_id)` keys that leaves no second transaction outstanding
    leaves tables that mirror each other, each key once. -/
theorem mirror_of_run {s₀ : LabelSystem}
    {c : Config LabelSystem LabelEvent (Except Failure Unit)}
    (hkeys : s₀.db.DistinctKeys) (hstart : MirrorsCsiSamples s₀.db)
    (hidle : s₀.syncs = [] ∧ s₀.resyncs = [])
    (hrun : labelMachine.Run DistinctInserts ⟨[], s₀⟩ c)
    (hdone : c.state.syncs = [] ∧ c.state.resyncs = []) :
    MirrorsCsiSamples c.state.db ∧
      (c.state.db.trainingSamples.rows.map TrainingSample.key).Nodup := by
  have hmirrored : Mirrored c.state := by
    refine hrun.invariant (I := fun c => Mirrored c.state)
      ((mirrored_iff hkeys hidle.1 hidle.2).mpr hstart) ?_
    intro c e h hok
    exact h.effect hok (step_effect c.state e)
  exact ⟨(mirrored_iff hmirrored.keys hdone.1 hdone.2).mp hmirrored,
    c.state.db.trainingSamples.nodup⟩

/-- A store that starts unlabelled and empty on the training side mirrors itself. -/
theorem oneRoomStore_mirrors : MirrorsCsiSamples oneRoomStore.db := by
  intro t
  constructor
  · intro ht
    exact absurd ht (Table.notMem_empty t)
  · rintro ⟨r, hr, hrow⟩
    rw [trainingRow?, oneRoomStore_fresh.unlabelled r hr] at hrow
    cases hrow

/-- A sample that arrives between the backfill of a label and its sync. -/
def lateRow : CsiRow := ⟨6, 1, "aa:bb:cc:dd:ee:ff", -40, none, 6, 20, 1, 1, [0], [0], none⟩

theorem mirror_of_run_kitchen :
    let c := labelMachine.replay ⟨[], oneRoomStore⟩
      [.createLabel kitchenLabel 1, .backfill 0, .insertBatch [lateRow], .sync 0]
    MirrorsCsiSamples c.state.db ∧ c.state.db.csiSamples.map (·.time) = [5, 6] ∧
      c.state.db.trainingSamples.rows.map TrainingSample.key = [(5, 1)] := by
  have hrun : labelMachine.Run DistinctInserts ⟨[], oneRoomStore⟩
      (labelMachine.replay ⟨[], oneRoomStore⟩
        [.createLabel kitchenLabel 1, .backfill 0, .insertBatch [lateRow], .sync 0]) :=
    Machine.run_of_admits ⟨trivial, trivial, show DistinctKeys _ by decide, trivial, trivial⟩
  exact ⟨(mirror_of_run (by decide) oneRoomStore_mirrors ⟨rfl, rfl⟩ hrun
    ⟨by decide, by decide⟩).1, by decide, by decide⟩

end LabelSystem

end Grimnir
