import Grimnir.Native.LabelSystem

/-!
# What each label transaction does to the tables

One equation for each transaction of `Labels` and `Rooms` when no statement is made to
fail, so that the invariants below never unfold a transaction again, and the label each
sample carries after a cleanup: the last surviving label that covers it.

## Key results

- `deleteLabelCleanup_eq`: the cleanup deletes the row and recomputes its window
- `cleaned_csiSamples` / `label_cleanedSample`: sample by sample
- `createLabel_cases`, `updateRoom_cases`: what a request can do
- `LabelSystem.step_effect`: what one event can do to the whole system
- `LabelSystem.replay_backfill_sync`, `LabelSystem.replay_deleteLabel_resync`: a whole task as
  two events
-/

namespace Grimnir

namespace LabelDb

/-! ## Relabelling one sample -/

/-- Writing a label leaves the rest of the sample alone. -/
@[simp] theorem relabel_toCsiRow (w : Window) (label : Option String) (r : CsiSample) :
    (relabel w label r).toCsiRow = r.toCsiRow := by
  unfold relabel; split <;> rfl

/-- Writing a label leaves the time of the sample alone. -/
@[simp] theorem relabel_time (w : Window) (label : Option String) (r : CsiSample) :
    (relabel w label r).time = r.time := by
  unfold relabel; split <;> rfl

/-- A sample takes the label written to a window exactly when its time is in it. -/
theorem relabel_label (w : Window) (label : Option String) (r : CsiSample) :
    (relabel w label r).label = if w.contains r.time then label else r.label := by
  unfold relabel; split <;> rfl

/-- The re-apply loop on one sample. -/
def reapply (w : Window) (ls : List Label) (r : CsiSample) : CsiSample :=
  ls.foldl (fun r l => relabel (w.overlap l.window) (some l.room) r) r

/-- The loop writes labels only. -/
@[simp] theorem reapply_toCsiRow (w : Window) (ls : List Label) (r : CsiSample) :
    (reapply w ls r).toCsiRow = r.toCsiRow := by
  induction ls generalizing r with
  | nil => rfl
  | cons l ls ih => rw [reapply, List.foldl_cons, ← reapply, ih, relabel_toCsiRow]

/-- Outside the window the loop leaves a sample alone. -/
private theorem reapply_of_not_contains {w : Window} {r : CsiSample} (h : w.contains r.time = false)
    (ls : List Label) : reapply w ls r = r := by
  induction ls with
  | nil => rfl
  | cons l ls ih =>
    have hskip : relabel (w.overlap l.window) (some l.room) r = r := by
      simp [relabel, Window.contains_overlap, h]
    rw [reapply, List.foldl_cons, hskip]
    exact ih

/-- Inside the window a sample ends with the room of the last label that covers it. -/
private theorem reapply_label {w : Window} {r : CsiSample} (h : w.contains r.time = true)
    (ls : List Label) :
    (reapply w ls r).label =
      ((ls.filter (·.covers r.time)).getLast?.map (·.room)).or r.label := by
  induction ls generalizing r with
  | nil => rfl
  | cons l ls ih =>
    have htime : (relabel (w.overlap l.window) (some l.room) r).time = r.time :=
      relabel_time _ _ _
    -- the later labels decide; if none of them covers the sample, this one does
    rw [reapply, List.foldl_cons, ← reapply, ih (by rwa [htime]), htime, relabel_label,
      Window.contains_overlap, h, Bool.true_and]
    by_cases hcov : l.window.contains r.time = true
    · have hcov' : l.covers r.time = true := hcov
      rw [if_pos hcov, List.filter_cons, if_pos hcov', List.getLast?_cons]
      cases (ls.filter (·.covers r.time)).getLast? <;> rfl
    · have hcov' : ¬l.covers r.time = true := hcov
      rw [if_neg hcov, List.filter_cons, if_neg hcov']

/-! ## The cleanup -/

/-- The labels re-applied when `l` is deleted, in the order of the loop. -/
def survivors (l : Label) (db : LabelDb) : List Label :=
  selectOverlapping l.window (deleteLabelRow l.id db)

/-- The tables after the cleanup transaction. -/
def cleaned (l : Label) (db : LabelDb) : LabelDb :=
  (survivors l db).foldl
    (fun db v => setLabelIn (l.window.overlap v.window) (some v.room) db)
    (deleteLabelRow l.id (setLabelIn l.window none db))

/-- One sample after the cleanup. -/
def cleanedSample (l : Label) (db : LabelDb) (r : CsiSample) : CsiSample :=
  reapply l.window (survivors l db) (relabel l.window none r)

/-- The loop of `UPDATE`s over the table is the loop over each sample. -/
private theorem foldl_setLabelIn (w : Window) (ls : List Label) (db : LabelDb) :
    ls.foldl (fun db v => setLabelIn (w.overlap v.window) (some v.room) db) db =
      { db with csiSamples := db.csiSamples.map (reapply w ls) } := by
  induction ls generalizing db with
  | nil =>
    have hid : reapply w [] = id := rfl
    rw [List.foldl_nil, hid, List.map_id]
  | cons l ls ih =>
    rw [List.foldl_cons, ih]
    simp only [setLabelIn, List.map_map]
    rfl

/-- A cleanup deletes the label's row and rewrites the labels of the samples, and no more. -/
theorem cleaned_eq (l : Label) (db : LabelDb) :
    cleaned l db =
      { deleteLabelRow l.id db with
        csiSamples := db.csiSamples.map (cleanedSample l db) } := by
  -- the loop writes samples only, so it commutes with the deletion of the row
  rw [cleaned, foldl_setLabelIn]
  simp only [deleteLabelRow, setLabelIn, List.map_map]
  rfl

/-- The samples after a cleanup, one by one. -/
theorem cleaned_csiSamples (l : Label) (db : LabelDb) :
    (cleaned l db).csiSamples = db.csiSamples.map (cleanedSample l db) := by
  rw [cleaned_eq]

/-- A cleanup leaves the training rows to the second transaction. -/
@[simp] theorem cleaned_trainingSamples (l : Label) (db : LabelDb) :
    (cleaned l db).trainingSamples = db.trainingSamples := by
  rw [cleaned_eq]; rfl

/-- The labels after a cleanup are the others. -/
theorem mem_cleaned_labels {l v : Label} {db : LabelDb} :
    v ∈ (cleaned l db).labels ↔ v ∈ db.labels ∧ v.id ≠ l.id := by
  rw [cleaned_eq]
  simp [deleteLabelRow, Table.mem_deleteWhere]

/-- The labels re-applied are the others that overlap the deleted one. -/
theorem mem_survivors {l v : Label} {db : LabelDb} :
    v ∈ survivors l db ↔
      v ∈ db.labels ∧ v.id ≠ l.id ∧ v.timeStart < l.timeEnd ∧ l.timeStart < v.timeEnd := by
  have hdel : v ∈ (deleteLabelRow l.id db).labels.rows ↔ v ∈ db.labels ∧ v.id ≠ l.id := by
    change v ∈ (deleteLabelRow l.id db).labels ↔ _
    simp [deleteLabelRow, Table.mem_deleteWhere]
  simp only [survivors, selectOverlapping, List.mem_insertionSort, List.mem_filter,
    Bool.and_eq_true, decide_eq_true_eq, hdel, and_assoc]
  exact Iff.rfl

/-- A cleanup touches nothing of a sample but its label. -/
@[simp] theorem cleanedSample_toCsiRow (l : Label) (db : LabelDb) (r : CsiSample) :
    (cleanedSample l db r).toCsiRow = r.toCsiRow := by
  simp [cleanedSample]

/-- Outside the deleted window nothing changes. -/
theorem cleanedSample_of_not_covers {l : Label} {r : CsiSample}
    (h : l.covers r.time = false) (db : LabelDb) : cleanedSample l db r = r := by
  have hclear : relabel l.window none r = r := by
    simp [relabel, show l.window.contains r.time = false from h]
  rw [cleanedSample, hclear, reapply_of_not_contains h]

/-- Inside it, a sample has the room of the last surviving label that covers it. -/
theorem label_cleanedSample {l : Label} {r : CsiSample} (h : l.covers r.time = true)
    (db : LabelDb) :
    (cleanedSample l db r).label =
      ((survivors l db).filter (·.covers r.time)).getLast?.map (·.room) := by
  have hin : l.window.contains (relabel l.window none r).time = true := by
    rw [relabel_time]; exact h
  rw [cleanedSample, reapply_label hin, relabel_label, relabel_time,
    if_pos (show l.window.contains r.time = true from h), Option.or_none]

/-- Two labels that cover one time overlap. -/
theorem mem_survivors_of_covers {l v : Label} {db : LabelDb} {t : Timestamp}
    (hv : v ∈ db.labels) (hne : v.id ≠ l.id) (hl : l.covers t = true)
    (hcov : v.covers t = true) : v ∈ survivors l db := by
  rw [Label.covers_iff] at hl hcov
  refine mem_survivors.mpr ⟨hv, hne, ?_, ?_⟩
  · exact lt_of_le_of_lt hcov.1 hl.2
  · exact lt_of_le_of_lt hl.1 hcov.2

/-- A sample that a surviving label covers stays labelled. -/
theorem label_cleanedSample_isSome {l v : Label} {db : LabelDb} {r : CsiSample}
    (hv : v ∈ db.labels) (hne : v.id ≠ l.id) (hl : l.covers r.time = true)
    (hcov : v.covers r.time = true) : (cleanedSample l db r).label.isSome := by
  have hmem : v ∈ (survivors l db).filter (·.covers r.time) :=
    List.mem_filter.mpr ⟨mem_survivors_of_covers hv hne hl hcov, hcov⟩
  rw [label_cleanedSample hl, Option.isSome_map]
  exact List.getLast?_isSome.mpr (List.ne_nil_of_mem hmem)

/-- The label a sample has after a cleanup is its own or a survivor's. -/
theorem label_cleanedSample_cases {l : Label} {db : LabelDb} {r : CsiSample} {room : String}
    (h : (cleanedSample l db r).label = some room) :
    (l.covers r.time = false ∧ r.label = some room) ∨
      ∃ v ∈ db.labels, v.id ≠ l.id ∧ v.room = room ∧ v.covers r.time = true := by
  cases hcov : l.covers r.time with
  | false =>
    rw [cleanedSample_of_not_covers hcov] at h
    exact .inl ⟨rfl, h⟩
  | true =>
    rw [label_cleanedSample hcov, Option.map_eq_some_iff] at h
    obtain ⟨v, hlast, hroom⟩ := h
    have hv := List.mem_filter.mp (List.mem_of_getLast? hlast)
    obtain ⟨hmem, hne, -, -⟩ := mem_survivors.mp hv.1
    exact .inr ⟨v, hmem, hne, hroom, hv.2⟩

/-! ## Frames of the statements -/

/-- The statement leaves labels and both sample tables alone; an id may be lost. -/
structure Unchanged (db db' : LabelDb) : Prop where
  labels : db'.labels = db.labels
  labelsIdSeq : db.labelsIdSeq ≤ db'.labelsIdSeq
  csiSamples : db'.csiSamples = db.csiSamples
  trainingSamples : db'.trainingSamples = db.trainingSamples

/-- A statement that does nothing is such a one. -/
theorem Unchanged.refl (db : LabelDb) : Unchanged db db := ⟨rfl, le_rfl, rfl, rfl⟩

/-- An id that is drawn and lost is all that a refused `INSERT` leaves. -/
theorem unchanged_skipLabelId (db : LabelDb) : Unchanged db db.skipLabelId :=
  ⟨rfl, Nat.le_succ _, rfl, rfl⟩

/-- `db'` is `db` with the room `old` called `new`, wherever its name is stored. -/
structure Renamed (old new : String) (db db' : LabelDb) : Prop where
  labels : db'.labels = db.labels.update (cascadeRoom old new) (id_cascadeRoom old new)
  labelsIdSeq : db'.labelsIdSeq = db.labelsIdSeq
  csiSamples : db'.csiSamples = db.csiSamples.map (renameCsiSample old new)
  trainingSamples : db'.trainingSamples =
    db.trainingSamples.update (renameTrainingSample old new) (key_renameTrainingSample old new)

/-- `db'` is `db` with one more label, under a fresh id. -/
structure Inserted (l : Label) (db db' : LabelDb) : Prop where
  id : l.id = db.labelsIdSeq
  labels : ∀ v, v ∈ db'.labels ↔ v ∈ db.labels ∨ v = l
  labelsIdSeq : db'.labelsIdSeq = db.labelsIdSeq + 1
  csiSamples : db'.csiSamples = db.csiSamples
  trainingSamples : db'.trainingSamples = db.trainingSamples

/-- A new room touches neither labels nor samples. -/
private theorem insertRoom_unchanged {room : Room} {db db' : LabelDb}
    (h : insertRoom room db = .ok ((), db')) : Unchanged db db' := by
  unfold insertRoom at h
  split at h
  · cases h
  · split at h
    · cases h; exact ⟨rfl, le_rfl, rfl, rfl⟩
    · cases h

/-- A room that could be deleted was named by no label, so none changes. -/
private theorem deleteRoomRow_unchanged {name : String} {db db' : LabelDb}
    (h : deleteRoomRow name db = .ok ((), db')) : Unchanged db db' := by
  unfold deleteRoomRow at h
  split at h
  · cases h; exact ⟨rfl, le_rfl, rfl, rfl⟩
  · cases h

/-- The flush cascades to the labels and leaves the samples alone. -/
private theorem updateRoomRow_frame {old new : String} {floor : Option Int} {db db' : LabelDb}
    (h : updateRoomRow old new floor db = .ok ((), db')) :
    db'.labels = db.labels.update (cascadeRoom old new) (id_cascadeRoom old new) ∧
      db'.labelsIdSeq = db.labelsIdSeq ∧
      db'.csiSamples = db.csiSamples ∧ db'.trainingSamples = db.trainingSamples := by
  unfold updateRoomRow at h
  split at h
  · cases h
  · split at h
    · cases h
    · cases h; exact ⟨rfl, rfl, rfl, rfl⟩

/-- The flush rewrites the row of the old name, under the index on the names. -/
theorem updateRoomRow_rooms {old new : String} {floor : Option Int} {db db' : LabelDb}
    (h : updateRoomRow old new floor db = .ok ((), db')) :
    db.rooms.updateAt? old (fun r => { r with name := new, floor := floor.getD r.floor }) =
      some db'.rooms := by
  unfold updateRoomRow at h
  split at h
  · cases h
  · split at h
    · cases h
    · rename_i rooms hrooms
      cases h
      exact hrooms

/-- Renaming a room to its own name leaves every sample as it is. -/
private theorem renameCsiSample_self (name : String) : renameCsiSample name name = id := by
  funext r
  unfold renameCsiSample
  split
  · rename_i h; cases r; cases h; rfl
  · rfl

/-- Renaming a room to its own name leaves every training row as it is. -/
private theorem renameTrainingSample_self (name : String) :
    renameTrainingSample name name = id := by
  funext t
  unfold renameTrainingSample
  split
  · rename_i h; cases t; cases h; rfl
  · rfl

/-- The flush and, when the name changes, the rewrite of both sample tables. -/
theorem updateRoomRow_renamed {old new : String} {floor : Option Int} {db flushed : LabelDb}
    (h : updateRoomRow old new floor db = .ok ((), flushed)) :
    Renamed old new db (if new = old then flushed
      else renameTrainingSamples old new (renameCsiSamples old new flushed)) := by
  obtain ⟨hlabels, hseq, hcsi, htraining⟩ := updateRoomRow_frame h
  -- without a new name only the flush happens, and renaming a room to itself is nothing
  by_cases hname : new = old
  · subst hname
    rw [if_pos rfl]
    refine ⟨hlabels, hseq, ?_, ?_⟩
    · rw [renameCsiSample_self, List.map_id, hcsi]
    · refine Table.ext ?_
      rw [Table.rows_update, renameTrainingSample_self, List.map_id, htraining]
  · rw [if_neg hname]
    refine ⟨hlabels, hseq, ?_, ?_⟩
    · simp only [renameTrainingSamples, renameCsiSamples, hcsi]
    · simp only [renameTrainingSamples, renameCsiSamples, htraining]

/-- An `INSERT` that goes through adds the label that was asked for, under a fresh id. -/
theorem insertLabel_inserted {timeStart timeEnd : Timestamp} {room : String}
    {occupants : Int} {notes : Option String} {valid : timeStart < timeEnd}
    {now : Timestamp} {l : Label} {db db' : LabelDb}
    (h : insertLabel timeStart timeEnd room occupants notes valid now db = .ok (l, db')) :
    Inserted l db db' ∧ l.window = ⟨timeStart, timeEnd⟩ ∧ l.room = room := by
  unfold insertLabel at h
  split at h
  · cases h
  · split at h
    · cases h
      exact ⟨⟨rfl, fun v => by simp, rfl, rfl, rfl⟩, rfl, rfl⟩
    · cases h

/-- The `INSERT ... SELECT` touches the training rows only. -/
private theorem insertTrainingIn_frame {w : Window} {db db' : LabelDb}
    (h : insertTrainingIn w db = .ok ((), db')) :
    db'.labels = db.labels ∧ db'.labelsIdSeq = db.labelsIdSeq ∧
      db'.csiSamples = db.csiSamples := by
  unfold insertTrainingIn at h
  split at h
  · cases h; exact ⟨rfl, rfl, rfl⟩
  · cases h

end LabelDb

open LabelDb

/-! ## The transactions without faults -/

/-- Without faults the cleanup transaction commits. -/
theorem cleanupLabel_run (l : Label) (db : LabelDb) :
    (cleanupLabel l).run Tx.noFaults db = .ok ((), cleaned l db) := by
  simp only [cleanupLabel, setBackfillTimeouts, Tx.run_bind, Tx.run_write, Tx.run_read,
    Tx.run_forM_write]
  rfl

/-- A cleanup that goes through does so whatever the fault table says. -/
theorem cleanupLabel_oblivious (l : Label) : Tx.Oblivious (cleanupLabel l) := by
  refine ((Tx.oblivious_execute _ _).bind fun _ => Tx.oblivious_execute _ _).bind fun _ => ?_
  refine (Tx.oblivious_execute _ _).bind fun _ => (Tx.oblivious_execute _ _).bind fun _ => ?_
  refine (Tx.oblivious_execute _ _).bind fun ls => ?_
  exact (Tx.oblivious_forM ls fun _ => Tx.oblivious_execute _ _).bind
    fun _ => Tx.oblivious_execute _ _

/-- `delete_label` up to its commit. -/
theorem deleteLabelCleanup_eq (labelId : Nat) (db : LabelDb) :
    deleteLabelCleanup labelId Tx.noFaults db =
      match db.labels.find? labelId with
      | none => (.error (.http ⟨404, "Label not found"⟩), db)
      | some l => (.ok l, cleaned l db) := by
  unfold deleteLabelCleanup
  rw [Tx.run_read]
  cases hfind : db.labels.find? labelId with
  | none => rfl
  | some l => simp only [Tx.transact_ok (cleanupLabel_run l db)]

/-- A cleanup that commits has found the label and cleaned its window. -/
theorem deleteLabelCleanup_ok {labelId : Nat} {faults : Faults} {l : Label}
    {db db' : LabelDb} (h : deleteLabelCleanup labelId faults db = (.ok l, db')) :
    db.labels.find? labelId = some l ∧ db' = cleaned l db := by
  unfold deleteLabelCleanup at h
  split at h
  · cases congrArg Prod.fst h
  · cases congrArg Prod.fst h
  · rename_i l₀ db₀ hselect
    -- the row was read before the transaction, in the same session
    have hfind : db.labels.find? labelId = some l₀ :=
      congrArg Prod.fst (Except.ok.inj (Tx.oblivious_execute _ _ faults db _ hselect))
    unfold Tx.transact at h
    cases hrun : (cleanupLabel l₀).run faults db with
    | error exc =>
      rw [hrun] at h
      cases congrArg Prod.fst h
    | ok p =>
      rw [hrun] at h
      have hclean := cleanupLabel_oblivious l₀ faults db p hrun
      rw [cleanupLabel_run] at hclean
      cases hclean
      cases h
      exact ⟨hfind, rfl⟩

/-- Without faults the backfill writes the room over its window. -/
theorem backfillCsiSamplesBestEffort_eq (b : Backfill) (db : LabelDb) :
    backfillCsiSamplesBestEffort b Tx.noFaults db =
      (true, setLabelIn b.window (some b.room) db) := rfl

/-- The rebuild of a window, when its `INSERT` goes through. -/
theorem resyncTrainingSamplesBestEffort_eq (w : Window) (db : LabelDb) :
    resyncTrainingSamplesBestEffort w Tx.noFaults db =
      match insertTrainingIn w (deleteTrainingIn w db) with
      | .ok (_, db') => db'
      | .error _ => db := by
  unfold resyncTrainingSamplesBestEffort Tx.transact
  simp only [rebuildTrainingWindow, insertTrainingSamplesForWindow, setBackfillTimeouts,
    Tx.run_bind, Tx.run_write, Tx.run_execute, id]
  cases insertTrainingIn w (deleteTrainingIn w db) <;> rfl

/-- The sync commits its `INSERT ... SELECT`, or it is swallowed and changes nothing. -/
theorem syncTrainingSamplesBestEffort_snd (w : Window) (db : LabelDb) :
    (syncTrainingSamplesBestEffort w Tx.noFaults db).2 =
      match insertTrainingIn w db with
      | .ok (_, db') => db'
      | .error _ => db := by
  unfold syncTrainingSamplesBestEffort Tx.transact
  simp only [insertTrainingSamplesForWindow, setBackfillTimeouts, Tx.run_bind, Tx.run_write,
    Tx.run_execute, id]
  cases insertTrainingIn w db with
  | ok p => rfl
  | error exc => dsimp only; split <;> rfl

/-- The second transactions only touch `training_samples`. -/
theorem resyncTrainingSamplesBestEffort_frame (w : Window) (db : LabelDb) :
    (resyncTrainingSamplesBestEffort w Tx.noFaults db).labels = db.labels ∧
      (resyncTrainingSamplesBestEffort w Tx.noFaults db).labelsIdSeq = db.labelsIdSeq ∧
      (resyncTrainingSamplesBestEffort w Tx.noFaults db).csiSamples = db.csiSamples := by
  rw [resyncTrainingSamplesBestEffort_eq]
  cases hins : insertTrainingIn w (deleteTrainingIn w db) with
  | error exc => exact ⟨rfl, rfl, rfl⟩
  | ok p =>
    obtain ⟨⟨⟩, db'⟩ := p
    have hframe := insertTrainingIn_frame hins
    exact hframe

/-- The sync touches the training rows only. -/
theorem syncTrainingSamplesBestEffort_frame (w : Window) (db : LabelDb) :
    (syncTrainingSamplesBestEffort w Tx.noFaults db).2.labels = db.labels ∧
      (syncTrainingSamplesBestEffort w Tx.noFaults db).2.labelsIdSeq = db.labelsIdSeq ∧
      (syncTrainingSamplesBestEffort w Tx.noFaults db).2.csiSamples = db.csiSamples := by
  rw [syncTrainingSamplesBestEffort_snd]
  cases hins : insertTrainingIn w db with
  | error exc => exact ⟨rfl, rfl, rfl⟩
  | ok p =>
    obtain ⟨⟨⟩, db'⟩ := p
    exact insertTrainingIn_frame hins

/-- `create_label` refuses and changes no row, or inserts the row it schedules. -/
theorem createLabel_cases (body : LabelCreate) (now : Timestamp) (db : LabelDb) :
    (∃ f db', createLabel body now Tx.noFaults db = (.error f, db') ∧ Unchanged db db') ∨
      ∃ l db', Inserted l db db' ∧
        createLabel body now Tx.noFaults db =
          (.ok (l, ⟨l.id, l.timeStart, l.timeEnd, l.room⟩), db') := by
  unfold createLabel
  dsimp only
  rw [Tx.run_execute]
  -- refused by a constraint, or inserted
  cases hins : LabelDb.insertLabel body.timeStart body.timeEnd body.room body.occupants
      body.notes body.endAfterStart now db with
  | error exc =>
    refine .inl ?_
    dsimp only
    split
    -- a refusal behind the `INSERT` has used up an id
    · exact ⟨_, _, rfl, unchanged_skipLabelId db⟩
    · exact ⟨_, _, rfl, .refl db⟩
  | ok p =>
    obtain ⟨l, db'⟩ := p
    obtain ⟨hinserted, hwindow, hroom⟩ := insertLabel_inserted hins
    obtain ⟨hs, he⟩ := Window.mk.inj hwindow
    refine .inr ⟨l, db', hinserted, ?_⟩
    rw [hs, he, hroom]
    rfl

/-- `create_room` touches neither labels nor samples. -/
private theorem createRoom_unchanged (body : RoomCreate) (now : Timestamp) (db : LabelDb) :
    Unchanged db (createRoom body now Tx.noFaults db).2 := by
  unfold createRoom Tx.transact
  simp only [Tx.run_bind, Tx.run_execute]
  cases hins : insertRoom ⟨body.name, body.floor, now⟩ db with
  | error exc => dsimp only; split <;> exact Unchanged.refl db
  | ok p => exact insertRoom_unchanged hins

/-- `delete_room` touches neither labels nor samples. -/
private theorem deleteRoom_unchanged (roomName : String) (db : LabelDb) :
    Unchanged db (deleteRoom roomName Tx.noFaults db).2 := by
  unfold deleteRoom
  rw [Tx.run_read]
  cases db.rooms.find? roomName with
  | none => exact Unchanged.refl db
  | some room =>
    simp only [Tx.transact, Tx.run_bind, Tx.run_execute]
    cases hdel : deleteRoomRow room.name db with
    | error exc => dsimp only; split <;> exact Unchanged.refl db
    | ok p => exact deleteRoomRow_unchanged hdel

/-- A room update is refused, changes nothing, or renames a room everywhere. -/
theorem updateRoom_cases (roomName : String) (body : RoomUpdate) (db : LabelDb) :
    (updateRoom roomName body Tx.noFaults db).2 = db ∨
      ∃ old new, Renamed old new db (updateRoom roomName body Tx.noFaults db).2 := by
  unfold updateRoom
  rw [Tx.run_read]
  -- an unknown room, no change, or the `UPDATE` of its row
  cases db.rooms.find? roomName with
  | none => exact .inl rfl
  | some room =>
    dsimp only
    by_cases hsame : body.name.getD room.name = room.name ∧
        body.floor.getD room.floor = room.floor
    · rw [if_pos hsame, Tx.run_pure]
      dsimp only
      rw [if_neg (not_not.mpr hsame.1)]
      exact .inl rfl
    · rw [if_neg hsame, Tx.run_execute]
      cases hflush : updateRoomRow room.name (body.name.getD room.name) body.floor db with
      | error exc =>
        dsimp only
        split <;> exact .inl rfl
      | ok p =>
        have hrenamed := updateRoomRow_renamed hflush
        refine .inr ⟨room.name, body.name.getD room.name, ?_⟩
        -- a new floor alone cascades to nothing
        by_cases hname : body.name.getD room.name = room.name
        · rw [if_pos hname] at hrenamed
          dsimp only
          rw [if_neg (not_not.mpr hname)]
          exact hrenamed
        · rw [if_neg hname] at hrenamed
          dsimp only
          rw [if_pos hname]
          exact hrenamed

/-! ## What one event can do -/

namespace LabelSystem

/-- What an event can leave of the system: one case for each transaction that goes
    through, and `frame` for the ones that touch neither labels nor samples. -/
inductive Effect (s : LabelSystem) : LabelEvent → LabelSystem → Prop where
  | frame (e : LabelEvent) (db' : LabelDb) (h : Unchanged s.db db') :
      Effect s e { s with db := db' }
  | insertBatch (rows : List CsiRow) :
      Effect s (.insertBatch rows) { s with db := s.db.insertCsiSamples rows }
  | renamed (roomName : String) (body : RoomUpdate) (old new : String) (db' : LabelDb)
      (h : Renamed old new s.db db') :
      Effect s (.updateRoom roomName body) { s with db := db' }
  | created (body : LabelCreate) (now : Timestamp) (l : Label) (db' : LabelDb)
      (h : Inserted l s.db db') :
      Effect s (.createLabel body now) { s with
        db := db', backfills := s.backfills ++ [⟨l.id, l.timeStart, l.timeEnd, l.room⟩] }
  | deleted (l : Label) (h : l ∈ s.db.labels) :
      Effect s (.deleteLabel l.id) { s with
        db := cleaned l s.db, resyncs := l.window :: s.resyncs }
  | backfilled (i : Nat) (b : Backfill) (h : s.backfills[i]? = some b) :
      Effect s (.backfill i) { s with
        db := setLabelIn b.window (some b.room) s.db
        backfills := s.backfills.eraseIdx i
        syncs := b.window :: s.syncs }
  | synced (i : Nat) (w : Window) (h : s.syncs[i]? = some w) :
      Effect s (.sync i) { s with
        db := (syncTrainingSamplesBestEffort w Tx.noFaults s.db).2
        syncs := s.syncs.eraseIdx i }
  | resynced (i : Nat) (w : Window) (h : s.resyncs[i]? = some w) :
      Effect s (.resync i) { s with
        db := resyncTrainingSamplesBestEffort w Tx.noFaults s.db
        resyncs := s.resyncs.eraseIdx i }

/-- Every event has one of these effects. -/
theorem step_effect (s : LabelSystem) (e : LabelEvent) : Effect s e (step s e).2 := by
  -- a refused request and a position with nothing outstanding
  have idle : Effect s e s := .frame e s.db (Unchanged.refl s.db)
  -- one constructor of `Effect` per statement or outstanding task
  cases e with
  | insertBatch rows => exact .insertBatch rows
  | createRoom body now => exact .frame _ _ (createRoom_unchanged body now s.db)
  | deleteRoom roomName => exact .frame _ _ (deleteRoom_unchanged roomName s.db)
  | updateRoom roomName body =>
    -- an update that renames nothing changes no sample
    rcases updateRoom_cases roomName body s.db with h | ⟨old, new, h⟩
    · have hsame : Unchanged s.db (updateRoom roomName body Tx.noFaults s.db).2 := by
        rw [h]; exact Unchanged.refl s.db
      exact .frame _ _ hsame
    · exact .renamed roomName body old new _ h
  | createLabel body now =>
    simp only [step]
    rcases createLabel_cases body now s.db with ⟨f, db', h, hsame⟩ | ⟨l, db', hins, h⟩
    · rw [h]; exact .frame _ db' hsame
    · rw [h]; exact .created body now l db' hins
  | deleteLabel labelId =>
    simp only [step, deleteLabelCleanup_eq]
    cases hfind : s.db.labels.find? labelId with
    | none => exact idle
    | some l =>
      obtain ⟨hl, rfl⟩ := Table.find?_eq_some_iff.mp hfind
      exact .deleted l hl
  | backfill i =>
    simp only [step]
    cases hi : s.backfills[i]? with
    | none => exact idle
    | some b => exact .backfilled i b hi
  | sync i =>
    simp only [step]
    cases hi : s.syncs[i]? with
    | none => exact idle
    | some w => exact .synced i w hi
  | resync i =>
    simp only [step]
    cases hi : s.resyncs[i]? with
    | none => exact idle
    | some w => exact .resynced i w hi

/-- With nothing in between, the two events of a backfill are the task the source schedules. -/
theorem replay_backfill_sync (log : List (LabelEvent × Except Failure Unit)) (s : LabelSystem)
    {i : Nat} {b : Backfill} (h : s.backfills[i]? = some b) :
    (labelMachine.replay ⟨log, s⟩ [.backfill i, .sync 0]).state =
      { s with
        db := (backfillLabelBestEffort b Tx.noFaults s.db).2
        backfills := s.backfills.eraseIdx i } := by
  have hbackfill : (step s (.backfill i)).2 =
      { s with
        db := setLabelIn b.window (some b.room) s.db
        backfills := s.backfills.eraseIdx i
        syncs := b.window :: s.syncs } := by
    simp only [step, h, backfillCsiSamplesBestEffort_eq]
  show (step (step s (.backfill i)).2 (.sync 0)).2 = _
  rw [hbackfill]
  rfl

/-- With nothing in between, the two events of a deletion are the request. -/
theorem replay_deleteLabel_resync (log : List (LabelEvent × Except Failure Unit))
    (s : LabelSystem) {labelId : Nat} {l : Label} (h : s.db.labels.find? labelId = some l) :
    (labelMachine.replay ⟨log, s⟩ [.deleteLabel labelId, .resync 0]).state =
      { s with db := (deleteLabel labelId Tx.noFaults Tx.noFaults s.db).2 } := by
  have hcleanup : deleteLabelCleanup labelId Tx.noFaults s.db = (.ok l, cleaned l s.db) := by
    rw [deleteLabelCleanup_eq, h]
  have hdelete : (step s (.deleteLabel labelId)).2 =
      { s with db := cleaned l s.db, resyncs := l.window :: s.resyncs } := by
    simp only [step, hcleanup]
  -- the rebuild that the deletion left outstanding is the newest one
  show (step (step s (.deleteLabel labelId)).2 (.resync 0)).2 = _
  rw [hdelete, deleteLabel, hcleanup]
  rfl

end LabelSystem

end Grimnir
