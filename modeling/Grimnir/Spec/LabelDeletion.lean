import Grimnir.Spec.TrainingSync

/-!
# What deleting a label does to the long-term training data

`delete_label` rebuilds its window of `training_samples` from `csi_samples`.  The
rebuild deletes every training row of the window first, so a row that another label
covers survives only if the sample it was copied from is still in `csi_samples`, which
the retention policy empties while `training_samples` is kept.

## Key results

- `mem_resynced`: the rows a rebuilt window holds
- `rebuild_goesThrough_iff`: when the rebuild goes through
- `keepsOthers_iff`: exactly when a delete keeps the rows other labels cover
- `delete_loses_retained_row`: a row that outlived its sample is lost
-/

namespace Grimnir

open LabelDb

namespace LabelDb

/-! ## What the rebuild finds -/

/-- The rows of a rebuilt window are the selected samples; outside it nothing changes. -/
theorem mem_resynced {w : Window} {db : LabelDb}
    (h : ((selectLabelled w db).map TrainingSample.key).Nodup) {t : TrainingSample} :
    t ∈ resynced w db ↔
      t ∈ selectLabelled w db ∨ (t ∈ db.trainingSamples ∧ w.contains t.time = false) := by
  constructor
  · intro ht
    have hfind := Table.find?_of_mem ht
    -- what a row of the rebuilt table is depends on whether its key was selected
    by_cases hsel : ∃ a ∈ selectLabelled w db, a.key = t.key
    · obtain ⟨a, ha, hkey⟩ := hsel
      rw [← hkey, find?_resynced_of_selected h ha] at hfind
      exact .inl (Option.some.inj hfind ▸ ha)
    · have hskip : ∀ a ∈ selectLabelled w db, a.key ≠ t.key :=
        fun a ha hkey => hsel ⟨a, ha, hkey⟩
      rw [find?_resynced_of_skipped hskip, TrainingSample.fst_key] at hfind
      cases hin : w.contains t.time with
      | true => rw [if_pos hin] at hfind; exact nomatch hfind
      | false =>
        rw [if_neg (by rw [hin]; exact Bool.false_ne_true)] at hfind
        exact .inr ⟨Table.mem_of_find? hfind, rfl⟩
  · rintro (ha | ⟨ht, hout⟩)
    · exact Table.mem_of_find? (find?_resynced_of_selected h ha)
    · -- a selected row lies in the window, so its key is not the one of `t`
      have hskip : ∀ a ∈ selectLabelled w db, a.key ≠ t.key := by
        intro a ha hkey
        have hin := contains_of_mem_selectLabelled ha
        rw [← TrainingSample.fst_key, hkey, TrainingSample.fst_key, hout] at hin
        cases hin
      have hfind := find?_resynced_of_skipped hskip
      rw [TrainingSample.fst_key, hout, if_neg Bool.false_ne_true,
        Table.find?_of_mem ht] at hfind
      exact Table.mem_of_find? hfind

/-- A label other than `l` covers `t`. -/
def survivorCovers (l : Label) (db : LabelDb) (t : Timestamp) : Bool :=
  db.labels.rows.any fun v => v.id != l.id && v.covers t

private theorem survivorCovers_iff {l : Label} {db : LabelDb} {t : Timestamp} :
    survivorCovers l db t = true ↔ ∃ v ∈ db.labels, v.id ≠ l.id ∧ v.covers t = true := by
  simp only [survivorCovers, List.any_eq_true, Bool.and_eq_true, bne_iff_ne]
  exact Iff.rfl

/-- After the cleanup a sample of the window is labelled exactly when a survivor covers
    it. -/
private theorem isSome_cleanedSample {l : Label} {r : CsiSample} (h : l.covers r.time = true)
    (db : LabelDb) : (cleanedSample l db r).label.isSome = survivorCovers l db r.time := by
  rw [Bool.eq_iff_iff, survivorCovers_iff]
  constructor
  · intro hsome
    obtain ⟨room, hroom⟩ := Option.isSome_iff_exists.mp hsome
    rcases label_cleanedSample_cases hroom with ⟨hout, -⟩ | ⟨v, hv, hne, -, hcov⟩
    · rw [h] at hout; exact nomatch hout
    · exact ⟨v, hv, hne, hcov⟩
  · rintro ⟨v, hv, hne, hcov⟩
    exact label_cleanedSample_isSome hv hne h hcov

/-- The samples the rebuild copies: in the window and covered by a survivor. -/
def keptSamples (l : Label) (db : LabelDb) : List CsiSample :=
  db.csiSamples.filter fun r => l.covers r.time && survivorCovers l db r.time

/-- The rows the rebuild copies are those of `keptSamples`, with the label of a survivor. -/
private theorem toCsiRow_selectLabelled_cleaned (l : Label) (db : LabelDb) :
    (selectLabelled l.window (cleaned l db)).map (·.toCsiRow) =
      (keptSamples l db).map (·.toCsiRow) := by
  rw [selectLabelled, cleaned_csiSamples, keptSamples]
  -- the survivors do not depend on the samples, so the induction is on these alone
  generalize db.csiSamples = rs
  induction rs with
  | nil => rfl
  | cons r rs ih =>
    have htime : (cleanedSample l db r).time = r.time :=
      congrArg CsiRow.time (cleanedSample_toCsiRow l db r)
    rw [List.map_cons, List.filterMap_cons, htime]
    cases hin : l.covers r.time with
    | false =>
      have hout : l.window.contains r.time = false := hin
      rw [hout, List.filter_cons, hin]
      exact ih
    | true =>
      have hwin : l.window.contains r.time = true := hin
      have hsome := isSome_cleanedSample hin db
      rw [hwin, if_pos rfl, List.filter_cons, hin, ← hsome]
      -- a sample of the window is selected exactly when it is still labelled
      cases hlabel : (cleanedSample l db r).label with
      | none => exact ih
      | some room =>
        rw [Option.map_some, List.map_cons, ih, cleanedSample_toCsiRow]
        rfl

/-! ## When the rebuild goes through -/

/-- The statements of the rebuild. -/
def resyncStatements : List Statement :=
  [.setLockTimeout, .setStatementTimeout, .deleteTrainingWindow, .insertTrainingWindow, .commit]

/-- The rebuild after deleting `l` commits: no statement of it raises, and the `INSERT` does
    not propose one key twice. -/
def ResyncCommits (l : Label) (db : LabelDb) (faults : Faults) : Prop :=
  (∀ k ∈ resyncStatements, faults k = none) ∧ ((keptSamples l db).map (·.key)).Nodup

private theorem nodup_selectLabelled_cleaned {l : Label} {db : LabelDb} :
    ((selectLabelled l.window (cleaned l db)).map TrainingSample.key).Nodup ↔
      ((keptSamples l db).map (·.key)).Nodup := by
  have hkeys := congrArg (List.map CsiRow.key) (toCsiRow_selectLabelled_cleaned l db)
  rw [List.map_map, List.map_map] at hkeys
  exact iff_of_eq (congrArg List.Nodup hkeys)

/-- The `INSERT` behind the `DELETE` raises exactly when one key is proposed twice. -/
private theorem insertTrainingIn_ok_iff {w : Window} {db : LabelDb} :
    (∃ db', insertTrainingIn w (deleteTrainingIn w db) = .ok ((), db')) ↔
      ((selectLabelled w db).map TrainingSample.key).Nodup := by
  by_cases hnd : ((selectLabelled w db).map TrainingSample.key).Nodup
  · exact iff_of_true ⟨_, insertTrainingIn_deleteTrainingIn hnd⟩ hnd
  · have hins : insertTrainingIn w (deleteTrainingIn w db) = .error affectsRowTwice :=
      if_neg hnd
    simp [hins, hnd]

/-- The rebuild of a window goes through exactly when none of its statements raises. -/
theorem rebuild_goesThrough_iff (w : Window) (faults : Faults) (db : LabelDb) :
    (rebuildTrainingWindow w).GoesThrough faults db ↔
      (∀ k ∈ resyncStatements, faults k = none) ∧
        ((selectLabelled w db).map TrainingSample.key).Nodup := by
  rw [← insertTrainingIn_ok_iff]
  -- the timeouts are set a second time before the `INSERT`
  simp only [rebuildTrainingWindow, insertTrainingSamplesForWindow, setBackfillTimeouts,
    bind_assoc, Tx.goesThrough_write_bind, Tx.goesThrough_execute_bind, Tx.goesThrough_write,
    resyncStatements, List.forall_mem_cons]
  constructor
  · rintro ⟨hlock, hstatement, hdelete, -, -, hinsert, ⟨⟩, db', hins, hcommit⟩
    exact ⟨⟨hlock, hstatement, hdelete, hinsert, hcommit, List.forall_mem_nil _⟩, db', hins⟩
  · rintro ⟨⟨hlock, hstatement, hdelete, hinsert, hcommit, -⟩, db', hins⟩
    exact ⟨hlock, hstatement, hdelete, hlock, hstatement, hinsert, (), db', hins, hcommit⟩

/-- A rebuild that goes through does so whatever the fault table says. -/
theorem rebuildTrainingWindow_oblivious (w : Window) :
    Tx.Oblivious (rebuildTrainingWindow w) := by
  have htimeouts : Tx.Oblivious setBackfillTimeouts :=
    (Tx.oblivious_execute _ _).bind fun _ => Tx.oblivious_execute _ _
  have hinsert : Tx.Oblivious (insertTrainingSamplesForWindow w) :=
    htimeouts.bind fun _ => Tx.oblivious_execute _ _
  exact htimeouts.bind fun _ => (Tx.oblivious_execute _ _).bind fun _ =>
    hinsert.bind fun _ => Tx.oblivious_execute _ _

/-- The tables after the rebuild that follows the cleanup. -/
private theorem resync_cleaned (l : Label) (faults : Faults) (db : LabelDb) :
    (ResyncCommits l db faults ∧
        (resyncTrainingSamplesBestEffort l.window faults (cleaned l db)).trainingSamples =
          resynced l.window (cleaned l db)) ∨
      (¬ResyncCommits l db faults ∧
        (resyncTrainingSamplesBestEffort l.window faults (cleaned l db)).trainingSamples =
          db.trainingSamples) := by
  have hiff := rebuild_goesThrough_iff l.window faults (cleaned l db)
  rw [nodup_selectLabelled_cleaned] at hiff
  unfold resyncTrainingSamplesBestEffort
  cases hrun : (rebuildTrainingWindow l.window).run faults (cleaned l db) with
  | ok r =>
    have hcommits : ResyncCommits l db faults := hiff.mp ⟨r, hrun⟩
    have hnd := nodup_selectLabelled_cleaned.mpr hcommits.2
    -- going through, the rebuild does what it does without faults
    have hplain := rebuildTrainingWindow_oblivious l.window faults _ r hrun
    have heq := resync_eq hnd
    rw [resyncTrainingSamplesBestEffort, Tx.transact_ok hplain] at heq
    rw [Tx.transact_ok hrun]
    exact .inl ⟨hcommits, congrArg LabelDb.trainingSamples heq⟩
  | error exc =>
    refine .inr ⟨fun hcommits => ?_, ?_⟩
    · obtain ⟨r, hok⟩ := hiff.mpr hcommits
      cases hrun.symm.trans hok
    · have hfail : ((rebuildTrainingWindow l.window).transact faults (cleaned l db)).1 =
          .error exc := by simp only [Tx.transact, hrun]
      rw [Tx.transact_error hfail, cleaned_trainingSamples]

/-! ## What a delete keeps -/

/-- `db` still holds the training row `t`, under whatever label. -/
def HoldsRow (db : LabelDb) (t : TrainingSample) : Prop :=
  ∃ t' ∈ db.trainingSamples.rows, t'.toCsiRow = t.toCsiRow

/-- Deleting `l` removed only rows of its own window that no other label covers, and kept
    every row that another label covers. -/
structure KeepsOthers (l : Label) (db db' : LabelDb) : Prop where
  removed : ∀ t ∈ db.trainingSamples, ¬HoldsRow db' t →
    l.covers t.time = true ∧ survivorCovers l db t.time = false
  kept : ∀ t ∈ db.trainingSamples, survivorCovers l db t.time = true → HoldsRow db' t

/-- Every training row of the window that another label covers still has its sample. -/
def SourcesRetained (l : Label) (db : LabelDb) : Prop :=
  ∀ t ∈ db.trainingSamples, l.covers t.time = true → survivorCovers l db t.time = true →
    ∃ r ∈ db.csiSamples, r.toCsiRow = t.toCsiRow

/-- After a rebuild that commits, a row of the window is there exactly when its sample is
    and a survivor covers it. -/
private theorem holdsRow_resynced_iff {l : Label} {db db' : LabelDb} {t : TrainingSample}
    (hnd : ((keptSamples l db).map (·.key)).Nodup)
    (hdb' : db'.trainingSamples = resynced l.window (cleaned l db))
    (hin : l.covers t.time = true) :
    HoldsRow db' t ↔ ∃ r ∈ keptSamples l db, r.toCsiRow = t.toCsiRow := by
  have hsel := nodup_selectLabelled_cleaned.mpr hnd
  have hrows : (∃ a ∈ selectLabelled l.window (cleaned l db), a.toCsiRow = t.toCsiRow) ↔
      ∃ r ∈ keptSamples l db, r.toCsiRow = t.toCsiRow := by
    rw [← List.mem_map, ← List.mem_map, toCsiRow_selectLabelled_cleaned]
  rw [← hrows, HoldsRow, hdb']
  constructor
  · rintro ⟨t', ht', hcols⟩
    rcases (mem_resynced hsel).mp ht' with ha | ⟨-, hout⟩
    · exact ⟨t', ha, hcols⟩
    -- a row from before the rebuild lies outside the window
    · have htime : t'.time = t.time := congrArg CsiRow.time hcols
      have hout' : l.covers t.time = false := htime ▸ hout
      rw [hin] at hout'
      cases hout'
  · rintro ⟨a, ha, hcols⟩
    exact ⟨a, (mem_resynced hsel).mpr (.inl ha), hcols⟩

/-- Outside the window a rebuild removes nothing. -/
private theorem holdsRow_resynced_of_not_covers {l : Label} {db db' : LabelDb} {t : TrainingSample}
    (hnd : ((keptSamples l db).map (·.key)).Nodup)
    (hdb' : db'.trainingSamples = resynced l.window (cleaned l db))
    (ht : t ∈ db.trainingSamples) (hout : l.covers t.time = false) : HoldsRow db' t := by
  have hsel := nodup_selectLabelled_cleaned.mpr hnd
  refine ⟨t, ?_, rfl⟩
  rw [hdb']
  refine (mem_resynced hsel).mpr (.inr ⟨?_, hout⟩)
  rw [cleaned_trainingSamples]
  exact ht

end LabelDb

/-- A successful `delete_label` keeps the training rows that other labels cover exactly when
    its rebuild does not commit or the sample of each such row of the window is still in
    `csi_samples`. -/
theorem keepsOthers_iff {labelId : Nat} {faults resyncFaults : Faults} {db db' : LabelDb}
    {l : Label} (h : deleteLabel labelId faults resyncFaults db = (.ok (), db'))
    (hl : db.labels.find? labelId = some l) :
    KeepsOthers l db db' ↔ (ResyncCommits l db resyncFaults → SourcesRetained l db) := by
  have hdb' : db' = resyncTrainingSamplesBestEffort l.window resyncFaults (cleaned l db) := by
    unfold deleteLabel at h
    split at h
    · cases congrArg Prod.fst h
    · rename_i l₀ db₀ hcleanup
      obtain ⟨hfind, rfl⟩ := deleteLabelCleanup_ok hcleanup
      rw [hl] at hfind
      cases hfind
      exact (congrArg Prod.snd h).symm
  -- the rebuild commits, or it rolls back
  rcases resync_cleaned l resyncFaults db with ⟨hcommits, htraining⟩ | ⟨hrolled, htraining⟩
  · rw [← hdb'] at htraining
    have hnd := hcommits.2
    constructor
    · -- a covered row of the window that is kept was copied from its sample
      intro hkeeps _ t ht hin hcov
      obtain ⟨r, hr, hcols⟩ :=
        (holdsRow_resynced_iff hnd htraining hin).mp (hkeeps.kept t ht hcov)
      exact ⟨r, (List.mem_filter.mp hr).1, hcols⟩
    · intro hretained
      have hkept : ∀ t ∈ db.trainingSamples, survivorCovers l db t.time = true →
          HoldsRow db' t := by
        intro t ht hcov
        -- inside the window the row is rebuilt, outside of it nothing was deleted
        cases hin : l.covers t.time with
        | false => exact holdsRow_resynced_of_not_covers hnd htraining ht hin
        | true =>
          obtain ⟨r, hr, hcols⟩ := hretained hcommits t ht hin hcov
          have htime : r.time = t.time := congrArg CsiRow.time hcols
          refine (holdsRow_resynced_iff hnd htraining hin).mpr ⟨r, ?_, hcols⟩
          exact List.mem_filter.mpr ⟨hr, by rw [htime, hin, hcov]; rfl⟩
      refine ⟨?_, hkept⟩
      intro t ht hgone
      refine ⟨?_, Bool.eq_false_iff.mpr fun hcov => hgone (hkept t ht hcov)⟩
      by_contra hout
      exact hgone (holdsRow_resynced_of_not_covers hnd htraining ht (by simpa using hout))
  · -- a rebuild that rolls back leaves every training row where it was
    rw [← hdb'] at htraining
    have hkept : ∀ t ∈ db.trainingSamples, HoldsRow db' t :=
      fun t ht => ⟨t, by rw [htraining]; exact ht, rfl⟩
    constructor
    · intro _ hcommits
      exact absurd hcommits hrolled
    · intro _
      exact ⟨fun t ht hgone => absurd (hkept t ht) hgone, fun t ht _ => hkept t ht⟩

/-! ## A row that outlived its sample -/

/-- The label that is deleted. -/
def retiredKitchen : Label := ⟨1, 1, 10, "kitchen", 1, none, 0, by decide⟩

/-- Two overlapping labels over a training row whose sample retention has dropped. -/
def retiredStore : LabelDb where
  rooms := ⟨[⟨"kitchen", 0, 0⟩, ⟨"den", 0, 0⟩], by decide⟩
  labels := ⟨[retiredKitchen, ⟨2, 5, 15, "den", 1, none, 0, by decide⟩], by decide⟩
  labelsIdSeq := 3
  csiSamples := []
  trainingSamples :=
    ⟨[⟨⟨7, 1, "aa:bb:cc:dd:ee:ff", -40, none, 6, 20, 1, 1, [0], [0], none⟩, "den"⟩], by decide⟩
  labelsRoomFkey := by decide
  labelsIdBelow := by decide

theorem keepsOthers_iff_retired :
    KeepsOthers retiredKitchen retiredStore
        (deleteLabel 1 Tx.noFaults Tx.noFaults retiredStore).2 ↔
      (ResyncCommits retiredKitchen retiredStore Tx.noFaults →
        SourcesRetained retiredKitchen retiredStore) := by
  have hdelete : deleteLabel 1 Tx.noFaults Tx.noFaults retiredStore =
      (.ok (), (deleteLabel 1 Tx.noFaults Tx.noFaults retiredStore).2) := rfl
  exact keepsOthers_iff hdelete (by decide)

/-- Deleting the kitchen label removes the den's row for good. -/
theorem delete_loses_retained_row :
    ¬∀ (labelId : Nat) (faults resyncFaults : Faults) (db db' : LabelDb) (l : Label),
      deleteLabel labelId faults resyncFaults db = (.ok (), db') →
        db.labels.find? labelId = some l → KeepsOthers l db db' := by
  intro h
  have hkeeps := h 1 Tx.noFaults Tx.noFaults retiredStore _ retiredKitchen rfl (by decide)
  have hkept : ∀ t ∈ retiredStore.trainingSamples.rows,
      survivorCovers retiredKitchen retiredStore t.time = true →
        ∃ t' ∈ (deleteLabel 1 Tx.noFaults Tx.noFaults retiredStore).2.trainingSamples.rows,
          t'.toCsiRow = t.toCsiRow := hkeeps.kept
  exact absurd hkept (by decide)

end Grimnir
