import Grimnir.Spec.LabelEffects

/-!
# Where a sample's label comes from

A labelled sample is explained when some surviving label carries its room and covers its
time.  The cleanup of `delete_label` and the rename of a room keep every sample
explained.  A backfill writes the window and the room it captured when it was
scheduled, so it keeps them explained exactly when the rows it writes are still
explained by that room.

## Key results

- `explained_backfill_iff`: when the first transaction of a backfill is harmless
- `Provenance.effect`: every event but a stale backfill keeps the invariant
- `explained_of_run`: in a run of harmless backfills every labelled sample is explained
- `stale_backfill`: a label deleted before its backfill runs leaves its samples behind
-/

namespace Grimnir

open LabelDb

namespace LabelDb

/-- Some surviving label carries `room` and covers `t`. -/
def Explains (db : LabelDb) (t : Timestamp) (room : String) : Prop :=
  ∃ l ∈ db.labels.rows, l.room = room ∧ l.covers t = true

instance (db : LabelDb) (t : Timestamp) (room : String) : Decidable (db.Explains t room) :=
  inferInstanceAs (Decidable (∃ l ∈ db.labels.rows, l.room = room ∧ l.covers t = true))

/-- Every labelled sample is explained by a surviving label. -/
def Explained (db : LabelDb) : Prop :=
  ∀ r ∈ db.csiSamples, ∀ room ∈ r.label, db.Explains r.time room

instance (db : LabelDb) : Decidable db.Explained :=
  inferInstanceAs (Decidable (∀ r ∈ db.csiSamples, ∀ room ∈ r.label, db.Explains r.time room))

/-! ## The statements -/

/-- The invariant speaks of labels and samples only. -/
theorem Explained.congr {db db' : LabelDb} (h : db.Explained) (hlabels : db'.labels = db.labels)
    (hcsi : db'.csiSamples = db.csiSamples) : db'.Explained := by
  intro r hr room hroom
  rw [hcsi] at hr
  obtain ⟨l, hl, hcov⟩ := h r hr room hroom
  refine ⟨l, ?_, hcov⟩
  rw [hlabels]
  exact hl

/-- New samples are unlabelled. -/
theorem Explained.insertCsiSamples {db : LabelDb} (h : db.Explained) (rows : List CsiRow) :
    (db.insertCsiSamples rows).Explained := by
  intro r hr room hroom
  rcases List.mem_append.mp hr with hr | hr
  · exact h r hr room hroom
  · obtain ⟨row, -, rfl⟩ := List.mem_map.mp hr
    cases hroom

/-- A new label explains what it explains. -/
theorem Explained.inserted {l : Label} {db db' : LabelDb} (h : db.Explained)
    (hins : Inserted l db db') : db'.Explained := by
  intro r hr room hroom
  rw [hins.csiSamples] at hr
  obtain ⟨v, hv, hcov⟩ := h r hr room hroom
  exact ⟨v, (hins.labels v).mpr (.inl hv), hcov⟩

/-- A rename does not touch a label's window. -/
private theorem covers_cascadeRoom (old new : String) (l : Label) (t : Timestamp) :
    (cascadeRoom old new l).covers t = l.covers t := by
  unfold cascadeRoom; split <;> rfl

/-- A rename touches the rooms of that name only. -/
private theorem room_cascadeRoom (old new : String) (l : Label) :
    (cascadeRoom old new l).room = if l.room = old then new else l.room := by
  unfold cascadeRoom; split <;> rfl

/-- The window of a label survives a rename. -/
private theorem window_cascadeRoom (old new : String) (l : Label) :
    (cascadeRoom old new l).window = l.window := by
  unfold cascadeRoom; split <;> rfl

/-- The time of a sample survives a rename. -/
private theorem time_renameCsiSample (old new : String) (r : CsiSample) :
    (renameCsiSample old new r).time = r.time := by
  unfold renameCsiSample; split <;> rfl

/-- What a renamed sample carried before. -/
private theorem label_renameCsiSample {old new room : String} {r : CsiSample}
    (h : (renameCsiSample old new r).label = some room) :
    ∃ room₀, r.label = some room₀ ∧ room = if room₀ = old then new else room₀ := by
  unfold renameCsiSample at h
  split at h
  · rename_i hold
    exact ⟨old, hold, by rw [if_pos rfl]; exact (Option.some.inj h).symm⟩
  · rename_i hold
    refine ⟨room, h, ?_⟩
    have hne : room ≠ old := fun heq => hold (heq ▸ h)
    rw [if_neg hne]

/-- A rename moves labels and samples together. -/
theorem Explained.renamed {old new : String} {db db' : LabelDb} (h : db.Explained)
    (hren : Renamed old new db db') : db'.Explained := by
  intro r hr room hroom
  rw [hren.csiSamples] at hr
  obtain ⟨r₀, hr₀, rfl⟩ := List.mem_map.mp hr
  obtain ⟨room₀, hroom₀, rfl⟩ := label_renameCsiSample hroom
  obtain ⟨l, hl, rfl, hcov⟩ := h r₀ hr₀ room₀ hroom₀
  refine ⟨cascadeRoom old new l, ?_, room_cascadeRoom old new l, ?_⟩
  · rw [hren.labels]
    exact Table.mem_update.mpr ⟨l, hl, rfl⟩
  · rw [covers_cascadeRoom, time_renameCsiSample]
    exact hcov

/-- The cleanup leaves on each sample the room of a surviving label, and outside the
    deleted window no sample loses the label that explained it. -/
theorem Explained.cleaned {l : Label} {db : LabelDb} (h : db.Explained) (hl : l ∈ db.labels) :
    (cleaned l db).Explained := by
  intro r hr room hroom
  rw [cleaned_csiSamples] at hr
  obtain ⟨r₀, hr₀, rfl⟩ := List.mem_map.mp hr
  have htime : (cleanedSample l db r₀).time = r₀.time :=
    congrArg CsiRow.time (cleanedSample_toCsiRow l db r₀)
  rw [htime]
  rcases label_cleanedSample_cases hroom with ⟨hout, hlabel⟩ | ⟨v, hv, hne, hvroom, hcov⟩
  -- outside the window the explaining label covers the sample, so it is not the deleted one
  · obtain ⟨v, hv, hvroom, hcov⟩ := h r₀ hr₀ room hlabel
    refine ⟨v, mem_cleaned_labels.mpr ⟨hv, ?_⟩, hvroom, hcov⟩
    intro hid
    rw [db.labels.eq_of_key_eq hv hl hid, hout] at hcov
    cases hcov
  · exact ⟨v, mem_cleaned_labels.mpr ⟨hv, hne⟩, hvroom, hcov⟩

/-! ## The first transaction of a backfill -/

/-- The label a backfill was scheduled for is still there under the captured room. -/
def Current (b : Backfill) (db : LabelDb) : Prop :=
  ∃ l ∈ db.labels.rows, l.id = b.labelId ∧ l.room = b.room

instance (b : Backfill) (db : LabelDb) : Decidable (Current b db) :=
  inferInstanceAs (Decidable (∃ l ∈ db.labels.rows, l.id = b.labelId ∧ l.room = b.room))

/-- Surviving labels of the captured room cover every sample in the captured window. -/
def Covered (b : Backfill) (db : LabelDb) : Prop :=
  ∀ r ∈ db.csiSamples, b.window.contains r.time = true → db.Explains r.time b.room

instance (b : Backfill) (db : LabelDb) : Decidable (Covered b db) :=
  inferInstanceAs (Decidable
    (∀ r ∈ db.csiSamples, b.window.contains r.time = true → db.Explains r.time b.room))

/-- A backfill keeps the samples explained exactly when surviving labels of its room cover
    all it writes. -/
theorem explained_backfill_iff {b : Backfill} {db : LabelDb} (h : db.Explained) :
    (setLabelIn b.window (some b.room) db).Explained ↔ Covered b db := by
  constructor
  -- a written sample carries the captured room, so what explains it covers it
  · intro hafter r hr hin
    have hmem : relabel b.window (some b.room) r ∈
        (setLabelIn b.window (some b.room) db).csiSamples := List.mem_map_of_mem hr
    have hlabel : (relabel b.window (some b.room) r).label = some b.room := by
      rw [relabel_label, if_pos hin]
    have hexp := hafter _ hmem b.room hlabel
    rwa [relabel_time] at hexp
  · intro hcov r hr room hroom
    obtain ⟨r₀, hr₀, rfl⟩ := List.mem_map.mp hr
    rw [Option.mem_def, relabel_label] at hroom
    rw [relabel_time]
    split at hroom
    · rename_i hin
      cases hroom
      exact hcov r₀ hr₀ hin
    · exact h r₀ hr₀ room hroom

end LabelDb

/-! ## The system -/

namespace LabelSystem

/-- A backfill runs while its label survives under the captured room, or while surviving
    labels of that room cover all it writes. -/
def Harmless (s : LabelSystem) : LabelEvent → Prop
  | .backfill i => ∀ b ∈ s.backfills[i]?, Current b s.db ∨ Covered b s.db
  | _ => True

instance (s : LabelSystem) : (e : LabelEvent) → Decidable (s.Harmless e)
  | .backfill i =>
    inferInstanceAs (Decidable (∀ b ∈ s.backfills[i]?, Current b s.db ∨ Covered b s.db))
  | .insertBatch _ | .createRoom _ _ | .updateRoom _ _ | .deleteRoom _ | .createLabel _ _
  | .deleteLabel _ | .sync _ | .resync _ => instDecidableTrue

/-- Every labelled sample is explained, and a scheduled backfill has the window of its
    label for as long as that label exists. -/
structure Provenance (s : LabelSystem) : Prop where
  explained : s.db.Explained
  issued : ∀ b ∈ s.backfills, b.labelId < s.db.labelsIdSeq
  window : ∀ b ∈ s.backfills, ∀ l ∈ s.db.labels, l.id = b.labelId → l.window = b.window

/-- A step that schedules nothing and whose labels keep their ids and windows keeps the
    second half of the invariant. -/
private theorem Provenance.of_explained {s s' : LabelSystem} (h : Provenance s)
    (hexp : s'.db.Explained) (hsub : s'.backfills ⊆ s.backfills)
    (hseq : s.db.labelsIdSeq ≤ s'.db.labelsIdSeq)
    (hold : ∀ l ∈ s'.db.labels, ∃ l₀ ∈ s.db.labels, l.id = l₀.id ∧ l.window = l₀.window) :
    Provenance s' := by
  refine ⟨hexp, ?_, ?_⟩
  -- `issued`
  · exact fun b hb => (h.issued b (hsub hb)).trans_le hseq
  -- `window`
  · intro b hb l hl hid
    obtain ⟨l₀, hl₀, hid₀, hwin₀⟩ := hold l hl
    rw [hwin₀]
    exact h.window b (hsub hb) l₀ hl₀ (hid₀ ▸ hid)

/-- A harmless backfill writes rows that its room explains. -/
private theorem Provenance.covered {s : LabelSystem} {b : Backfill} (h : Provenance s)
    (hb : b ∈ s.backfills) (hok : Current b s.db ∨ Covered b s.db) : Covered b s.db := by
  rcases hok with ⟨l, hl, hid, hroom⟩ | hcov
  -- the label's window is still the captured one
  · intro r _ hin
    refine ⟨l, hl, hroom, ?_⟩
    rw [← h.window b hb l hl hid] at hin
    exact hin
  · exact hcov

/-- The backfill a request schedules has the id and the window of the row it inserted. -/
theorem Provenance.created {s : LabelSystem} {l : Label} {db' : LabelDb} (h : Provenance s)
    (hins : Inserted l s.db db') :
    Provenance { s with
      db := db', backfills := s.backfills ++ [⟨l.id, l.timeStart, l.timeEnd, l.room⟩] } := by
  refine ⟨h.explained.inserted hins, ?_, ?_⟩
  -- `issued`
  · intro b hb
    have hseq := hins.labelsIdSeq
    have hid := hins.id
    rcases List.mem_append.mp hb with hb | hb
    · have hissued := h.issued b hb
      dsimp only
      omega
    · obtain rfl := List.mem_singleton.mp hb
      dsimp only
      omega
  -- the sequence gave the new row an id that no scheduled backfill has
  -- `window`
  · intro b hb v hv hid
    have hfresh := hins.id
    rcases List.mem_append.mp hb with hpending | hnew
    · have hissued := h.issued b hpending
      rcases (hins.labels v).mp hv with hold | rfl
      · exact h.window b hpending v hold hid
      · omega
    · obtain rfl := List.mem_singleton.mp hnew
      dsimp only at hid
      rcases (hins.labels v).mp hv with hold | rfl
      · have hbelow := s.db.labelsIdBelow v hold
        omega
      · rfl

/-- Every event other than a stale backfill keeps the invariant. -/
theorem Provenance.effect {s s' : LabelSystem} {e : LabelEvent} (h : Provenance s)
    (hok : s.Harmless e) (heff : Effect s e s') : Provenance s' := by
  have same : ∀ l ∈ s.db.labels, ∃ l₀ ∈ s.db.labels, l.id = l₀.id ∧ l.window = l₀.window :=
    fun l hl => ⟨l, hl, rfl, rfl⟩
  -- each statement's effect keeps the labels that explain a sample
  cases heff with
  | frame _ db' hsame =>
    refine h.of_explained (h.explained.congr hsame.labels hsame.csiSamples)
      (List.Subset.refl _) hsame.labelsIdSeq ?_
    rw [hsame.labels]
    exact same
  | insertBatch rows =>
    exact h.of_explained (h.explained.insertCsiSamples rows) (List.Subset.refl _) le_rfl same
  | renamed _ _ old new db' hren =>
    refine h.of_explained (h.explained.renamed hren) (List.Subset.refl _)
      hren.labelsIdSeq.ge ?_
    intro l hl
    rw [hren.labels] at hl
    obtain ⟨l₀, hl₀, rfl⟩ := Table.mem_update.mp hl
    exact ⟨l₀, hl₀, id_cascadeRoom old new l₀, window_cascadeRoom old new l₀⟩
  | created _ _ l db' hins => exact h.created hins
  -- a deletion may leave backfills of the deleted label behind; they stop being harmless
  | deleted l hl =>
    refine h.of_explained (h.explained.cleaned hl) (List.Subset.refl _) ?_ ?_
    · rw [cleaned_eq]
      exact le_rfl
    · intro v hv
      exact ⟨v, (mem_cleaned_labels.mp hv).1, rfl, rfl⟩
  | backfilled i b hi =>
    have hcov := h.covered (List.mem_of_getElem? hi) (hok b hi)
    exact h.of_explained ((explained_backfill_iff h.explained).mpr hcov)
      List.eraseIdx_subset le_rfl same
  | synced i w hi =>
    obtain ⟨hlabels, hseq, hcsi⟩ := syncTrainingSamplesBestEffort_frame w s.db
    exact h.of_explained (h.explained.congr hlabels hcsi) (List.Subset.refl _) hseq.ge
      (by rw [hlabels]; exact same)
  | resynced i w hi =>
    obtain ⟨hlabels, hseq, hcsi⟩ := resyncTrainingSamplesBestEffort_frame w s.db
    exact h.of_explained (h.explained.congr hlabels hcsi) (List.Subset.refl _) hseq.ge
      (by rw [hlabels]; exact same)

/-- No sample is labelled and no backfill is scheduled. -/
structure Fresh (s : LabelSystem) : Prop where
  unlabelled : ∀ r ∈ s.db.csiSamples, r.label = none
  backfills : s.backfills = []

/-- In a store without labelled samples there is nothing to explain. -/
private theorem Fresh.provenance {s : LabelSystem} (h : s.Fresh) : Provenance s := by
  refine ⟨?_, ?_, ?_⟩
  · intro r hr room hroom
    rw [h.unlabelled r hr] at hroom
    cases hroom
  · rw [h.backfills]
    exact fun b hb => nomatch hb
  · rw [h.backfills]
    exact fun b hb => nomatch hb

/-- The condition on the runs of `labelMachine`. -/
def Careful (c : Config LabelSystem LabelEvent (Except Failure Unit)) (e : LabelEvent) : Prop :=
  c.state.Harmless e

/-- In every careful run each sample's label is explained. -/
private theorem provenance_of_run {s₀ : LabelSystem}
    {c : Config LabelSystem LabelEvent (Except Failure Unit)} (hstart : s₀.Fresh)
    (hrun : labelMachine.Run Careful ⟨[], s₀⟩ c) : Provenance c.state := by
  refine hrun.invariant (I := fun c => Provenance c.state) hstart.provenance ?_
  intro c e h hok
  exact h.effect hok (step_effect c.state e)

/-- In a provenance state an event keeps the samples explained exactly when it is not a
    stale backfill. -/
private theorem Provenance.explained_step_iff {s : LabelSystem} (h : Provenance s)
    (e : LabelEvent) : (step s e).2.db.Explained ↔ s.Harmless e := by
  constructor
  · intro hafter
    cases e with
    | backfill i =>
      intro b hb
      have hi : s.backfills[i]? = some b := hb
      simp only [step, hi, backfillCsiSamplesBestEffort_eq] at hafter
      exact .inr ((explained_backfill_iff h.explained).mp hafter)
    | _ => trivial
  · intro hok
    exact (h.effect hok (step_effect s e)).explained

/-- In every run whose backfills are harmless, every labelled sample carries the room of a
    surviving label that covers it; so a deleted label leaves no sample behind and a
    room's old name does not come back.  The first event that is not harmless leaves an
    unexplained sample. -/
theorem explained_of_run {s₀ : LabelSystem}
    {c : Config LabelSystem LabelEvent (Except Failure Unit)} (hstart : s₀.Fresh)
    (hrun : labelMachine.Run Careful ⟨[], s₀⟩ c) :
    c.state.db.Explained ∧
      (∀ r ∈ c.state.db.csiSamples,
        (∀ l ∈ c.state.db.labels, l.covers r.time = false) → r.label = none) ∧
      (∀ room, (∀ l ∈ c.state.db.labels, l.room ≠ room) →
        ∀ r ∈ c.state.db.csiSamples, r.label ≠ some room) ∧
      ∀ e, (step c.state e).2.db.Explained ↔ c.state.Harmless e := by
  have h := provenance_of_run hstart hrun
  refine ⟨h.explained, ?_, ?_, h.explained_step_iff⟩
  · intro r hr huncovered
    cases hlabel : r.label with
    | none => rfl
    | some room =>
      obtain ⟨l, hl, -, hcov⟩ := h.explained r hr room hlabel
      rw [huncovered l hl] at hcov
      cases hcov
  · intro room hgone r hr hlabel
    obtain ⟨l, hl, hroom, -⟩ := h.explained r hr room hlabel
    exact hgone l hl hroom

/-! ## A stale backfill -/

/-- One room, no label and one unlabelled sample. -/
def oneRoomStore : LabelSystem where
  db :=
    { rooms := ⟨[⟨"kitchen", 0, 0⟩], by decide⟩
      labels := Table.empty
      labelsIdSeq := 1
      csiSamples := [⟨⟨5, 1, "aa:bb:cc:dd:ee:ff", -40, none, 6, 20, 1, 1, [0], [0], none⟩, none⟩]
      trainingSamples := Table.empty
      labelsRoomFkey := fun l hl => nomatch hl
      labelsIdBelow := fun l hl => nomatch hl }
  backfills := []
  syncs := []
  resyncs := []

/-- A request to label the sample of `oneRoomStore`. -/
def kitchenLabel : LabelCreate :=
  ⟨0, 10, "kitchen", 1, none, by decide, by decide⟩

/-- The example's store has no labelled sample. -/
theorem oneRoomStore_fresh : oneRoomStore.Fresh := ⟨by decide, rfl⟩

/-- A label is created, backfilled and deleted. -/
theorem explained_of_run_kitchen :
    oneRoomStore.Fresh ∧
      (labelMachine.replay ⟨[], oneRoomStore⟩
        [.createLabel kitchenLabel 1, .backfill 0, .deleteLabel 1]).state.db.Explained := by
  have hrun : labelMachine.Run Careful ⟨[], oneRoomStore⟩
      (labelMachine.replay ⟨[], oneRoomStore⟩
        [.createLabel kitchenLabel 1, .backfill 0, .deleteLabel 1]) :=
    Machine.run_of_admits
      ⟨trivial, show LabelSystem.Harmless _ (.backfill 0) by decide, trivial, trivial⟩
  exact ⟨oneRoomStore_fresh, (explained_of_run oneRoomStore_fresh hrun).1⟩

/-- A label deleted before its backfill runs leaves its samples behind. -/
theorem stale_backfill :
    ¬∀ (s₀ : LabelSystem) (c : Config LabelSystem LabelEvent (Except Failure Unit)),
      s₀.Fresh → labelMachine.Run (fun _ _ => True) ⟨[], s₀⟩ c → c.state.backfills = [] →
        c.state.db.Explained := by
  intro h
  -- the backfill scheduled by the request runs after its label is gone
  have hrun : labelMachine.Run (fun _ _ => True) ⟨[], oneRoomStore⟩
      (labelMachine.replay ⟨[], oneRoomStore⟩ [.createLabel kitchenLabel 1, .deleteLabel 1,
        .resync 0, .backfill 0, .sync 0]) :=
    Machine.run_of_admits ⟨trivial, trivial, trivial, trivial, trivial, trivial⟩
  have hexp := h oneRoomStore _ oneRoomStore_fresh hrun (by decide)
  exact absurd hexp (by decide)

end LabelSystem

end Grimnir
