import Grimnir.Spec.LabelDeletion
import Grimnir.ForStd.Foremost

/-!
# What deleting a label does to its window

`delete_label` clears the window and writes the surviving labels over it, one clipped range
update after the other.  Sample by sample this is the room of the foremost surviving label
in the order `(time_start, created_at, id)`.  A statement that raises rolls the whole
cleanup back.

## Key results

- `foremost_survivors`: the last survivor that covers a sample is the foremost one
- `cleanup_goesThrough_iff`: when the cleanup commits
- `deleteLabel_rebuilds`: what a delete leaves, whatever raises
-/

namespace Grimnir

namespace LabelDb

/-- The labels that cover `t`. -/
def Covering (db : LabelDb) (t : Timestamp) (v : Label) : Prop :=
  v ∈ db.labels ∧ v.covers t = true

/-- `r'` is `r` after the label `l` was deleted, which left the labels of `db'`. -/
structure RebuiltSample (l : Label) (db' : LabelDb) (r r' : CsiSample) : Prop where
  row : r'.toCsiRow = r.toCsiRow
  inside : l.covers r.time = true →
    ∃ o, Foremost orderKey (db'.Covering r.time) o ∧ r'.label = o.map (·.room)
  outside : l.covers r.time = false → r' = r

/-- `db'` is `db` without the label `l` and with its window rebuilt. -/
structure Rebuilt (l : Label) (db db' : LabelDb) : Prop where
  labels : ∀ v, v ∈ db'.labels ↔ v ∈ db.labels ∧ v ≠ l
  csiSamples : List.Forall₂ (RebuiltSample l db') db.csiSamples db'.csiSamples

/-! ## The survivors -/

private theorem pairwise_survivors (l : Label) (db : LabelDb) :
    (survivors l db).Pairwise fun a b => orderKey a ≤ orderKey b := by
  unfold survivors selectOverlapping
  exact List.pairwise_insertionSort _ _

theorem covering_cleaned {l v : Label} {db : LabelDb} {t : Timestamp} :
    (cleaned l db).Covering t v ↔ db.Covering t v ∧ v.id ≠ l.id := by
  unfold Covering
  rw [mem_cleaned_labels]
  exact and_right_comm

/-- Of the survivors that cover a time of the window, the loop comes to the foremost last. -/
theorem foremost_survivors {l : Label} {t : Timestamp} (h : l.covers t = true) (db : LabelDb) :
    Foremost orderKey ((cleaned l db).Covering t)
      ((survivors l db).filter (·.covers t)).getLast? := by
  apply foremost_getLast? ((pairwise_survivors l db).filter _)
  intro v
  rw [List.mem_filter, covering_cleaned]
  constructor
  · rintro ⟨hv, hcov⟩
    obtain ⟨hmem, hne, -, -⟩ := mem_survivors.mp hv
    exact ⟨⟨hmem, hcov⟩, hne⟩
  · rintro ⟨⟨hmem, hcov⟩, hne⟩
    exact ⟨mem_survivors_of_covers hmem hne h hcov, hcov⟩

private theorem rebuiltSample_cleaned (l : Label) (db : LabelDb) (r : CsiSample) :
    RebuiltSample l (cleaned l db) r (cleanedSample l db r) where
  row := cleanedSample_toCsiRow l db r
  inside := fun h => ⟨_, foremost_survivors h db, label_cleanedSample h db⟩
  outside := fun h => cleanedSample_of_not_covers h db

private theorem rebuilt_cleaned {l : Label} {db : LabelDb} (h : l ∈ db.labels) :
    Rebuilt l db (cleaned l db) where
  labels := by
    intro v
    rw [mem_cleaned_labels]
    -- the ids are unique, so the row that is gone is `l` and no other
    constructor
    · rintro ⟨hv, hne⟩
      exact ⟨hv, fun heq => hne (congrArg Label.id heq)⟩
    · rintro ⟨hv, hne⟩
      exact ⟨hv, fun hid => hne (db.labels.eq_of_key_eq hv h hid)⟩
  csiSamples := by
    rw [cleaned_csiSamples, List.forall₂_map_right_iff, List.forall₂_same]
    intro r _
    exact rebuiltSample_cleaned l db r

/-- What `training_samples` holds does not matter to the result. -/
theorem Rebuilt.congr {l : Label} {db db₁ db₂ : LabelDb} (h : Rebuilt l db db₁)
    (hlabels : db₂.labels = db₁.labels) (hcsi : db₂.csiSamples = db₁.csiSamples) :
    Rebuilt l db db₂ where
  labels := by rw [hlabels]; exact h.labels
  csiSamples := by
    rw [hcsi]
    refine h.csiSamples.imp fun r r' hr => ⟨hr.row, ?_, hr.outside⟩
    intro hcov
    obtain ⟨o, ho, hroom⟩ := hr.inside hcov
    refine ⟨o, ho.congr fun v => ?_, hroom⟩
    unfold Covering
    rw [hlabels]

end LabelDb

open LabelDb

/-! ## When the cleanup commits -/

/-- The statements of the cleanup, in order. -/
def cleanupStatements (l : Label) (db : LabelDb) : List Statement :=
  [.setLockTimeout, .setStatementTimeout, .clearWindow, .deleteLabel, .selectOverlapping] ++
    (survivors l db).map (fun v => .reapplyLabel v.id) ++ [.commit]

theorem cleanup_goesThrough_iff (l : Label) (faults : Faults) (db : LabelDb) :
    (cleanupLabel l).GoesThrough faults db ↔ ∀ k ∈ cleanupStatements l db, faults k = none := by
  have hlabels : selectOverlapping l.window
      (deleteLabelRow l.id (setLabelIn l.window none db)) = survivors l db := rfl
  simp [cleanupLabel, setBackfillTimeouts, cleanupStatements, bind_assoc, hlabels, or_imp,
    forall_and]

/-- The resync after the cleanup touches neither labels nor `csi_samples`, whatever raises. -/
private theorem resyncTrainingSamplesBestEffort_keeps (w : Window) (faults : Faults)
    (db : LabelDb) : (resyncTrainingSamplesBestEffort w faults db).labels = db.labels ∧
      (resyncTrainingSamplesBestEffort w faults db).csiSamples = db.csiSamples := by
  apply (rebuildTrainingWindow_oblivious w).transact
    (P := fun db' => db'.labels = db.labels ∧ db'.csiSamples = db.csiSamples) ⟨rfl, rfl⟩
  intro _ db' hrun
  -- going through, the rebuild does what it does without faults
  obtain ⟨hlabels, -, hcsi⟩ := resyncTrainingSamplesBestEffort_frame w db
  rw [resyncTrainingSamplesBestEffort, Tx.transact_ok hrun] at hlabels hcsi
  exact ⟨hlabels, hcsi⟩

/-! ## The whole request -/

/-- A cleanup answers with the label and leaves its window clean, or changes nothing. -/
private theorem deleteLabelCleanup_cases {l : Label} {db : LabelDb} (hl : l ∈ db.labels)
    (faults : Faults) :
    (faults .selectLabel = none ∧ (∀ k ∈ cleanupStatements l db, faults k = none) ∧
        deleteLabelCleanup l.id faults db = (.ok l, cleaned l db)) ∨
      (¬(faults .selectLabel = none ∧ ∀ k ∈ cleanupStatements l db, faults k = none) ∧
        ∃ f, deleteLabelCleanup l.id faults db = (.error f, db)) := by
  have hfind : db.labels.find? l.id = some l := db.labels.find?_of_mem hl
  unfold deleteLabelCleanup
  -- the `SELECT` that reads the label may itself fail
  cases hselect : faults .selectLabel with
  | some exc =>
    right
    rw [Tx.read, Tx.run_execute_of_some hselect]
    exact ⟨fun h => Option.some_ne_none exc h.1, .internal exc, rfl⟩
  | none =>
    rw [Tx.read, Tx.run_execute_of_none hselect, hfind]
    dsimp only
    have hiff := cleanup_goesThrough_iff l faults db
    -- the transaction goes through exactly when none of its statements raises
    cases hrun : (cleanupLabel l).run faults db with
    | ok p =>
      left
      have hplain := cleanupLabel_oblivious l faults db p hrun
      rw [cleanupLabel_run] at hplain
      cases hplain
      rw [Tx.transact_ok hrun]
      exact ⟨rfl, hiff.mp ⟨_, hrun⟩, rfl⟩
    | error exc =>
      right
      constructor
      · rintro ⟨-, hall⟩
        obtain ⟨p, hok⟩ := hiff.mpr hall
        cases hrun.symm.trans hok
      · simp only [Tx.transact, hrun]
        exact ⟨_, rfl⟩

/-- `delete_label` rebuilds the window of its label, or refuses and changes nothing. -/
theorem deleteLabel_cases (labelId : Nat) (faults resyncFaults : Faults) (db : LabelDb) :
    (∃ l ∈ db.labels, l.id = labelId ∧ (deleteLabel labelId faults resyncFaults db).1 = .ok () ∧
        (deleteLabel labelId faults resyncFaults db).2.labels = (cleaned l db).labels ∧
        (deleteLabel labelId faults resyncFaults db).2.csiSamples =
          (cleaned l db).csiSamples) ∨
      ((deleteLabel labelId faults resyncFaults db).1 ≠ .ok () ∧
        (deleteLabel labelId faults resyncFaults db).2 = db) := by
  unfold deleteLabel
  -- an unknown id changes nothing; a known one is decided by the cleanup
  cases hfind : db.labels.find? labelId with
  | none =>
    right
    unfold deleteLabelCleanup
    cases hselect : faults .selectLabel with
    | some exc =>
      rw [Tx.read, Tx.run_execute_of_some hselect]
      exact ⟨by simp, rfl⟩
    | none =>
      rw [Tx.read, Tx.run_execute_of_none hselect, hfind]
      exact ⟨by simp, rfl⟩
  | some l =>
    obtain ⟨hl, rfl⟩ := Table.find?_eq_some_iff.mp hfind
    rcases deleteLabelCleanup_cases hl faults with ⟨-, -, h⟩ | ⟨-, f, h⟩
    · left
      rw [h]
      exact ⟨l, hl, rfl, rfl, resyncTrainingSamplesBestEffort_keeps _ _ _⟩
    · right
      rw [h]
      exact ⟨by simp, rfl⟩

/-- `delete_label` under any fault table.  It succeeds when the label exists and neither the
    select nor a statement of the cleanup raises, and has then rebuilt the window; when one
    of them raises, nothing has changed. -/
theorem deleteLabel_rebuilds (l : Label) (db : LabelDb) (hl : l ∈ db.labels)
    (faults resyncFaults : Faults) :
    ((deleteLabel l.id faults resyncFaults db).1 = .ok () →
        Rebuilt l db (deleteLabel l.id faults resyncFaults db).2) ∧
      ((∃ k ∈ cleanupStatements l db, (faults k).isSome) →
        (deleteLabel l.id faults resyncFaults db).1 ≠ .ok () ∧
          (deleteLabel l.id faults resyncFaults db).2 = db) ∧
      ((deleteLabel l.id faults resyncFaults db).1 = .ok () ↔
        faults .selectLabel = none ∧ ∀ k ∈ cleanupStatements l db, faults k = none) := by
  unfold deleteLabel
  rcases deleteLabelCleanup_cases hl faults with ⟨hselect, hall, h⟩ | ⟨hfault, f, h⟩
  · rw [h]
    obtain ⟨hlabels, hcsi⟩ :=
      resyncTrainingSamplesBestEffort_keeps l.window resyncFaults (cleaned l db)
    refine ⟨fun _ => (rebuilt_cleaned hl).congr hlabels hcsi, ?_, ?_⟩
    · rintro ⟨k, hk, hsome⟩
      rw [hall k hk] at hsome
      cases hsome
    · exact ⟨fun _ => ⟨hselect, hall⟩, fun _ => rfl⟩
  · rw [h]
    refine ⟨by simp, fun _ => ⟨by simp, rfl⟩, ?_⟩
    exact ⟨by simp, fun hall => absurd hall hfault⟩

/-! ## Three labels over one sample -/

/-- The label that is deleted, inside both others. -/
def innerLabel : Label := ⟨3, 6, 8, "cellar", 1, none, 20, by decide⟩

/-- One sample under three labels, and one at the end of the label that is deleted, under the
    two others. -/
def layeredStore : LabelDb where
  rooms := ⟨[⟨"attic", 2, 0⟩, ⟨"cellar", -1, 0⟩], by decide⟩
  labels := ⟨[⟨1, 4, 16, "attic", 1, none, 0, by decide⟩,
    ⟨2, 0, 12, "cellar", 1, none, 10, by decide⟩, innerLabel], by decide⟩
  labelsIdSeq := 4
  csiSamples := [⟨⟨7, 1, "aa:bb:cc:dd:ee:ff", -40, none, 6, 20, 1, 1, [0], [0], none⟩, "cellar"⟩,
    ⟨⟨8, 1, "aa:bb:cc:dd:ee:ff", -41, none, 6, 20, 1, 1, [0], [0], none⟩, "cellar"⟩]
  trainingSamples := Table.empty
  labelsRoomFkey := by decide
  labelsIdBelow := by decide

theorem deleteLabel_rebuilds_layered :
    Rebuilt innerLabel layeredStore
        (deleteLabel 3 Tx.noFaults Tx.noFaults layeredStore).2 ∧
      (deleteLabel 3 (fun k => if k = .reapplyLabel 1 then some ⟨false, "lock timeout"⟩ else none)
        Tx.noFaults layeredStore).2 = layeredStore := by
  have hl : innerLabel ∈ layeredStore.labels.rows := by decide
  refine ⟨(deleteLabel_rebuilds innerLabel layeredStore hl Tx.noFaults Tx.noFaults).1 rfl, ?_⟩
  exact ((deleteLabel_rebuilds innerLabel layeredStore hl _ Tx.noFaults).2.1
    ⟨.reapplyLabel 1, by decide, rfl⟩).2

end Grimnir
