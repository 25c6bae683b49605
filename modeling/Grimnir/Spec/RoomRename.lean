import Grimnir.Spec.RoomEffects

/-!
# A room rename is all or nothing

A rename writes four tables: `rooms` by the flush, `labels` by the cascade of its foreign
key, `csi_samples` and `training_samples` by statements of their own.  All of them run in
one transaction, so a statement that raises leaves every table as it was.  When the answer to
the `COMMIT` is lost, or the re-query behind it raises, the request fails and the rename
stands.

## Key results

- `Substituted`: the new name in the place of the old one, in all four tables
- `updateRoom_outcome`: what a PATCH with a name can come to, under any fault table
- `Substituted.shareLabel_iff`: a rename to a free name merges no labels
- `updateRoom_ok`: a rename to a free name goes through when no statement raises
- `updateRoom_allOrNothing`: the rename happened everywhere or nowhere
-/

namespace Grimnir

namespace LabelDb

/-- `new` for `old`, and every other name as it is. -/
def substName (old new name : String) : String := if name = old then new else name

/-- `db'` is `db` with `new` in the place of `old` wherever a room is named, and the floor
    of that room as requested. -/
structure Substituted (old new : String) (floor : Option Int) (db db' : LabelDb) : Prop where
  rooms : db'.rooms.rows = db.rooms.rows.map fun r => { r with
    name := substName old new r.name
    floor := if r.name = old then floor.getD r.floor else r.floor }
  labels : db'.labels.rows = db.labels.rows.map fun l => { l with
    room := substName old new l.room }
  csiSamples : db'.csiSamples = db.csiSamples.map fun r => { r with
    label := r.label.map (substName old new) }
  trainingSamples : db'.trainingSamples.rows = db.trainingSamples.rows.map fun t => { t with
    label := substName old new t.label }

/-- Every sample that has a label has the name of a room. -/
structure SamplesNamed (db : LabelDb) : Prop where
  csiSamples : ∀ r ∈ db.csiSamples, ∀ l ∈ r.label, db.HasRoom l
  trainingSamples : ∀ t ∈ db.trainingSamples.rows, db.HasRoom t.label

/-- The label column of `csi_samples`, then the one of `training_samples`. -/
def sampleLabels (db : LabelDb) : List (Option String) :=
  db.csiSamples.map (·.label) ++ db.trainingSamples.rows.map fun t => some t.label

/-- The samples at `i` and `j` of `sampleLabels` have one label. -/
def ShareLabel (db : LabelDb) (i j : Nat) : Prop :=
  ∃ l, db.sampleLabels[i]? = some (some l) ∧ db.sampleLabels[j]? = some (some l)

/-! ## The statements are substitutions -/

/-- The cascade substitutes the name in the labels' rooms. -/
private theorem cascadeRoom_eq (old new : String) :
    cascadeRoom old new = fun l => { l with room := substName old new l.room } := by
  funext l
  unfold cascadeRoom substName
  split <;> rfl

/-- The first `UPDATE` substitutes the name in the samples' labels. -/
private theorem renameCsiSample_eq (old new : String) :
    renameCsiSample old new = fun r => { r with label := r.label.map (substName old new) } := by
  funext r
  obtain ⟨row, label⟩ := r
  cases label with
  | none => rfl
  | some l =>
    by_cases hl : l = old
    · simp [renameCsiSample, substName, hl]
    · simp [renameCsiSample, substName, hl]

/-- The second `UPDATE` substitutes it in the training rows' labels. -/
private theorem renameTrainingSample_eq (old new : String) :
    renameTrainingSample old new = fun t => { t with label := substName old new t.label } := by
  funext t
  unfold renameTrainingSample substName
  split <;> rfl

/-- The flush, the cascade and both rewrites. -/
private theorem updateRoomRow_substituted {old new : String} {floor : Option Int}
    {db flushed : LabelDb} (h : updateRoomRow old new floor db = .ok ((), flushed)) :
    Substituted old new floor db (if new = old then flushed
      else renameTrainingSamples old new (renameCsiSamples old new flushed)) := by
  have hrenamed := updateRoomRow_renamed h
  -- the room's own row: renamed in place, with its new floor
  have hrooms : flushed.rooms.rows = db.rooms.rows.map fun r => { r with
      name := substName old new r.name
      floor := if r.name = old then floor.getD r.floor else r.floor } := by
    rw [Table.rows_updateAt? (updateRoomRow_rooms h)]
    apply List.map_congr_left
    intro r _
    unfold substName
    split <;> rfl
  have hkept : (if new = old then flushed
      else renameTrainingSamples old new (renameCsiSamples old new flushed)).rooms =
        flushed.rooms := by
    split <;> rfl
  -- the renamed table of each statement is its field of `db` under the map
  constructor
  · rw [hkept]
    exact hrooms
  · rw [hrenamed.labels, Table.rows_update, cascadeRoom_eq]
  · rw [hrenamed.csiSamples, renameCsiSample_eq]
  · rw [hrenamed.trainingSamples, Table.rows_update, renameTrainingSample_eq]

/-- A PATCH that changes neither column needs no statement. -/
theorem Substituted.refl {room : Room} {floor : Option Int} {db : LabelDb}
    (hroom : room ∈ db.rooms) (hfloor : floor.getD room.floor = room.floor) :
    Substituted room.name room.name floor db db := by
  -- renaming to the same name is the identity
  have hself : substName room.name room.name = id := by
    funext name
    unfold substName
    split
    · rename_i h
      exact h.symm
    · rfl
  constructor
  · rw [hself]
    symm
    refine (List.map_congr_left ?_).trans (List.map_id _)
    intro r hr
    -- a name belongs to one room, so the row of that name is `room`
    by_cases hname : r.name = room.name
    · have hsame : r = room := db.rooms.eq_of_key_eq hr hroom hname
      simp [hsame, hfloor]
    · simp [hname]
  · simp [hself]
  · simp [hself]
  · simp [hself]

/-! ## No two rooms become one -/

/-- The label columns are substituted entry by entry. -/
private theorem Substituted.sampleLabels {old new : String} {floor : Option Int} {db db' : LabelDb}
    (h : Substituted old new floor db db') :
    db'.sampleLabels = db.sampleLabels.map (Option.map (substName old new)) := by
  simp [LabelDb.sampleLabels, h.csiSamples, h.trainingSamples, Function.comp_def]

/-- A free name keeps room names apart. -/
private theorem substName_inj {old new : String} {db : LabelDb}
    (hfree : new = old ∨ ¬db.HasRoom new) {a b : String} (ha : db.HasRoom a) (hb : db.HasRoom b)
    (h : substName old new a = substName old new b) : a = b := by
  unfold substName at h
  split at h <;> split at h
  · simp_all
  -- a room is called `new` already, so nothing was renamed
  · cases hfree with
    | inl hsame => simp_all
    | inr hfree => exact absurd (h ▸ hb) hfree
  · cases hfree with
    | inl hsame => simp_all
    | inr hfree => exact absurd (h ▸ ha) hfree
  · exact h

/-- A label that some sample has is a room's name. -/
private theorem SamplesNamed.hasRoom {db : LabelDb} (h : db.SamplesNamed) {i : Nat} {l : String}
    (hi : db.sampleLabels[i]? = some (some l)) : db.HasRoom l := by
  have hmem := List.mem_of_getElem? hi
  unfold LabelDb.sampleLabels at hmem
  rw [List.mem_append, List.mem_map, List.mem_map] at hmem
  cases hmem with
  | inl hcsi =>
    obtain ⟨r, hr, hl⟩ := hcsi
    exact h.csiSamples r hr l hl
  | inr htraining =>
    obtain ⟨t, ht, hl⟩ := htraining
    cases hl
    exact h.trainingSamples t ht

/-- A name that no other room has merges no labels. -/
theorem Substituted.shareLabel_iff {old new : String} {floor : Option Int} {db db' : LabelDb}
    (h : Substituted old new floor db db') (hnamed : db.SamplesNamed)
    (hfree : new = old ∨ ¬db.HasRoom new) (i j : Nat) :
    db'.ShareLabel i j ↔ db.ShareLabel i j := by
  unfold ShareLabel
  rw [h.sampleLabels]
  simp only [List.getElem?_map, Option.map_eq_some_iff]
  constructor
  · rintro ⟨l, ⟨_, hi, a, rfl, ha⟩, ⟨_, hj, b, rfl, hb⟩⟩
    have hsame : a = b :=
      substName_inj hfree (hnamed.hasRoom hi) (hnamed.hasRoom hj) (ha.trans hb.symm)
    exact ⟨a, hi, hsame ▸ hj⟩
  · rintro ⟨l, hi, hj⟩
    exact ⟨substName old new l, ⟨_, hi, l, rfl, rfl⟩, ⟨_, hj, l, rfl, rfl⟩⟩

end LabelDb

open LabelDb

/-! ## The transaction under faults -/

/-- The role may write `training_samples`, so no error there is a lost permission. -/
def TrainingSamplesWritable (faults : Faults) : Prop :=
  ∀ exc, faults .renameTrainingSamples = some exc →
    isTrainingSamplesPermissionError exc = false

/-- If the table is writable, the savepoint never has a lost permission to tolerate. -/
private theorem renameTrainingSamplesLabel_run {faults : Faults}
    (h : TrainingSamplesWritable faults) (old new : String) (db : LabelDb) :
    (renameTrainingSamplesLabel old new).run faults db =
      (Tx.write .renameTrainingSamples (renameTrainingSamples old new) : LabelTx Unit).run
        faults db := by
  cases hfault : faults .renameTrainingSamples with
  | none =>
    simp [renameTrainingSamplesLabel, Tx.run, Tx.savepoint, Tx.write, Tx.execute, hfault]
  | some exc =>
    -- the handler raises it again
    have hraise := h exc hfault
    simp only [renameTrainingSamplesLabel, Tx.run, Tx.savepoint, Tx.write, Tx.execute, hfault,
      hraise]
    rfl

/-- `renameRoomLabels` where the savepoint has nothing to tolerate. -/
def renameRoomLabelsStrict (old new : String) : LabelTx Unit := do
  setBackfillTimeouts
  Tx.write .renameCsiSamples (renameCsiSamples old new)
  Tx.write .renameTrainingSamples (renameTrainingSamples old new)
  Tx.write .commit id

/-- So the transaction runs as if there were no savepoint. -/
private theorem renameRoomLabels_run {faults : Faults} (h : TrainingSamplesWritable faults)
    (old new : String) (db : LabelDb) :
    (renameRoomLabels old new).run faults db =
      (renameRoomLabelsStrict old new).run faults db := by
  simp only [renameRoomLabels, renameRoomLabelsStrict, Tx.run_bind,
    renameTrainingSamplesLabel_run h]

/-- The statements of a rename, from the first SELECT to the COMMIT. -/
def renameStatements : List Statement :=
  [.selectRoom, .flushRoom, .setLockTimeout, .setStatementTimeout, .renameCsiSamples,
    .renameTrainingSamples, .commit]

/-- The rewrite goes through exactly when none of its statements raises. -/
private theorem renameRoomLabelsStrict_goesThrough (old new : String) (faults : Faults)
    (db : LabelDb) :
    (renameRoomLabelsStrict old new).GoesThrough faults db ↔
      faults .setLockTimeout = none ∧ faults .setStatementTimeout = none ∧
        faults .renameCsiSamples = none ∧ faults .renameTrainingSamples = none ∧
          faults .commit = none := by
  simp [renameRoomLabelsStrict, setBackfillTimeouts, bind_assoc]

/-- A rewrite that goes through does so whatever the fault table says. -/
private theorem renameRoomLabelsStrict_oblivious (old new : String) :
    (renameRoomLabelsStrict old new).Oblivious := by
  unfold renameRoomLabelsStrict setBackfillTimeouts
  simp only [bind_assoc]
  exact (Tx.oblivious_execute _ _).bind fun _ => (Tx.oblivious_execute _ _).bind fun _ =>
    (Tx.oblivious_execute _ _).bind fun _ => (Tx.oblivious_execute _ _).bind fun _ =>
      Tx.oblivious_execute _ _

/-- Without faults both sample tables are rewritten. -/
private theorem renameRoomLabelsStrict_noFaults (old new : String) (db : LabelDb) :
    (renameRoomLabelsStrict old new).run Tx.noFaults db =
      .ok ((), renameTrainingSamples old new (renameCsiSamples old new db)) := by
  simp only [renameRoomLabelsStrict, setBackfillTimeouts, Tx.run_bind, Tx.run_write]
  rfl

/-- What the statements after the flush leave when they go through, and that none of them
    was made to raise. -/
private theorem renameRoomLabels_ok {faults : Faults} (h : TrainingSamplesWritable faults)
    {old new : String} {db db' : LabelDb}
    (hrun : (renameRoomLabels old new).run faults db = .ok ((), db')) :
    db' = renameTrainingSamples old new (renameCsiSamples old new db) ∧
      (renameRoomLabelsStrict old new).GoesThrough faults db := by
  rw [renameRoomLabels_run h] at hrun
  have hplain := renameRoomLabelsStrict_oblivious old new faults db _ hrun
  rw [renameRoomLabelsStrict_noFaults] at hplain
  cases hplain
  exact ⟨rfl, _, hrun⟩

/-! ## The request -/

/-- What is answered when the `COMMIT` raises `exc`: only a rename has a handler. -/
def commitFailure (old new : String) (exc : DBAPIError) : Failure :=
  if new = old then .internal exc else renameSkipped

/-- What a PATCH of `old` to `new` can come to. -/
inductive RenameOutcome (old new : String) (floor : Option Int) (faults : Faults)
    (db : LabelDb) : Except Failure Unit × LabelDb → Prop where
  | refused (f : Failure) : RenameOutcome old new floor faults db (.error f, db)
  | unanswered (exc : DBAPIError) (db' : LabelDb) (hfault : faults .commitAnswer = some exc)
      (hfree : new = old ∨ ¬db.HasRoom new)
      (hissued : new ≠ old → ∀ k ∈ renameStatements, faults k = none)
      (hsub : Substituted old new floor db db') :
      RenameOutcome old new floor faults db (.error (commitFailure old new exc), db')
  | unread (exc : DBAPIError) (db' : LabelDb) (hanswer : faults .commitAnswer = none)
      (hfault : faults .requeryRoom = some exc) (hfree : new = old ∨ ¬db.HasRoom new)
      (hissued : new ≠ old → ∀ k ∈ renameStatements, faults k = none)
      (hsub : Substituted old new floor db db') :
      RenameOutcome old new floor faults db (.error (.internal exc), db')
  | renamed (db' : LabelDb) (hanswer : faults .commitAnswer = none)
      (hfault : faults .requeryRoom = none) (hfree : new = old ∨ ¬db.HasRoom new)
      (hissued : new ≠ old → ∀ k ∈ renameStatements, faults k = none)
      (hsub : Substituted old new floor db db') :
      RenameOutcome old new floor faults db (.ok (), db')

/-- When the last part of the transaction goes through, the tables are written, and only the
    answer is open. -/
private theorem RenameOutcome.of_committed {old new : String} {floor : Option Int} {faults : Faults}
    {db flushed db' : LabelDb} {tx : LabelTx Unit} {failure : DBAPIError → Failure}
    (hfailure : ∀ exc, failure exc = commitFailure old new exc)
    (hrun : tx.run faults flushed = .ok ((), db')) (hfree : new = old ∨ ¬db.HasRoom new)
    (hissued : new ≠ old → ∀ k ∈ renameStatements, faults k = none)
    (hsub : Substituted old new floor db db') :
    RenameOutcome old new floor faults db
      (match commitRoom tx failure faults db flushed with
        | .error (f, db') => (.error f, db')
        | .ok db' =>
          match (Tx.read .requeryRoom fun _ => () : LabelTx Unit).run faults db' with
          | .error exc => (.error (.internal exc), db')
          | .ok _ => (.ok (), db')) := by
  unfold commitRoom
  rw [hrun]
  -- the `COMMIT` may have taken effect although its answer is an error
  dsimp only
  cases hanswer : faults .commitAnswer with
  | some exc =>
    rw [Tx.read, Tx.run_execute_of_some hanswer]
    dsimp only
    rw [hfailure]
    exact .unanswered exc db' hanswer hfree hissued hsub
  | none =>
    rw [Tx.read, Tx.run_execute_of_none hanswer]
    dsimp only
    cases hfault : faults .requeryRoom with
    -- committed and acknowledged: what is left is to read the row back
    | some exc =>
      rw [Tx.read, Tx.run_execute_of_some hfault]
      exact .unread exc db' hanswer hfault hfree hissued hsub
    | none =>
      rw [Tx.read, Tx.run_execute_of_none hfault]
      exact .renamed db' hanswer hfault hfree hissued hsub

/-- The request without a new name: at most the floor is written. -/
private theorem updateRoom_outcome_same {room : Room} {body : RoomUpdate} {faults : Faults}
    {db flushed : LabelDb}
    (hsub : Substituted room.name room.name body.floor db flushed) :
    RenameOutcome room.name room.name body.floor faults db
      (match commitRoom (Tx.write .commit id) .internal faults db flushed with
        | .error (f, db') => (.error f, db')
        | .ok db' =>
          match (Tx.read .requeryRoom fun _ => () : LabelTx Unit).run faults db' with
          | .error exc => (.error (.internal exc), db')
          | .ok _ => (.ok (), db')) := by
  cases hcommit : faults .commit with
  | some exc =>
    rw [commitRoom, Tx.write, Tx.run_execute_of_some hcommit]
    exact .refused _
  | none =>
    refine .of_committed (fun exc => ?_) (Tx.run_execute_of_none hcommit _) (.inl rfl)
      (absurd rfl) hsub
    rw [commitFailure, if_pos rfl]

/-- A PATCH, by cases on its first statement that raises. -/
theorem updateRoom_outcome {old new : String} {body : RoomUpdate} {faults : Faults}
    (hbody : body.name = some new) (hwritable : TrainingSamplesWritable faults)
    (db : LabelDb) :
    RenameOutcome old new body.floor faults db (updateRoom old body faults db) := by
  unfold updateRoom
  cases hselect : faults .selectRoom with
  | some exc =>
    rw [Tx.read, Tx.run_execute_of_some hselect]
    exact .refused _
  | none =>
    rw [Tx.read, Tx.run_execute_of_none hselect]
    cases hfind : db.rooms.find? old with
    | none => exact .refused _
    | some room =>
      obtain ⟨hroom, rfl⟩ := Table.find?_eq_some_iff.mp hfind
      simp only [hbody, Option.getD_some]
      by_cases hsame : new = room.name ∧ body.floor.getD room.floor = room.floor
      -- neither column changes: the ORM sends no UPDATE
      · rw [if_pos hsame, Tx.run_pure]
        obtain ⟨rfl, hfloor⟩ := hsame
        simp only [ne_eq, not_true_eq_false, if_false]
        exact updateRoom_outcome_same (.refl hroom hfloor)
      · rw [if_neg hsame]
        cases hflushFault : faults .flushRoom with
        | some exc =>
          rw [Tx.run_execute_of_some hflushFault]
          dsimp only
          split <;> exact .refused _
        | none =>
          rw [Tx.run_execute_of_none hflushFault]
          cases hflush : updateRoomRow room.name new body.floor db with
          | error exc =>
            -- the name is taken, or the floor does not fit its column
            dsimp only
            split <;> exact .refused _
          | ok p =>
            obtain ⟨⟨⟩, flushed⟩ := p
            have hsub := updateRoomRow_substituted hflush
            dsimp only
            by_cases hname : new = room.name
            · subst hname
              rw [if_pos rfl] at hsub
              simp only [ne_eq, not_true_eq_false, if_false]
              exact updateRoom_outcome_same hsub
            · rw [if_pos hname]
              rw [if_neg hname] at hsub
              have hfree := not_hasRoom_of_updateRoomRow ⟨room, hroom, rfl⟩ hname hflush
              cases hrun : (renameRoomLabels room.name new).run faults flushed with
              | error exc =>
                rw [commitRoom, hrun]
                exact .refused _
              | ok p =>
                -- no fault was tolerated on the way, so every statement was issued
                obtain ⟨⟨⟩, db'⟩ := p
                obtain ⟨rfl, hgo⟩ := renameRoomLabels_ok hwritable hrun
                rw [renameRoomLabelsStrict_goesThrough] at hgo
                refine .of_committed (fun exc => ?_) hrun (.inr hfree) (fun _ => ?_) hsub
                · rw [commitFailure, if_neg hname]
                · simpa [renameStatements, hselect, hflushFault] using hgo

/-- A rename of an existing room to a free name, with no statement that raises, goes
    through. -/
theorem updateRoom_ok {old new : String} {body : RoomUpdate} {faults : Faults} {db : LabelDb}
    (hbody : body.name = some new) (hroom : db.HasRoom old) (hfree : ¬db.HasRoom new)
    (hfloor : body.floor.all fitsSmallint = true)
    (hfaults : ∀ k ∈ Statement.requeryRoom :: Statement.commitAnswer :: renameStatements,
      faults k = none) :
    (updateRoom old body faults db).1 = .ok () := by
  obtain ⟨room, hmem, rfl⟩ := hroom
  have hne : new ≠ room.name := fun h => hfree ⟨room, hmem, h.symm⟩
  simp only [renameStatements, List.forall_mem_cons, List.not_mem_nil, false_imp_iff,
    implies_true, and_true] at hfaults
  obtain ⟨hrequery, hanswer, hselect, hflush, hlock, hstmt, hcsi, htraining, hcommit⟩ := hfaults
  -- the free name passes the unique key
  have hadmit : (db.rooms.updateAt? room.name
      (fun r => { r with name := new, floor := body.floor.getD r.floor })).isSome :=
    Table.updateAt?_isSome fun _ _ b hb h => hfree ⟨b, hb, h.symm⟩
  obtain ⟨p, hp⟩ : ∃ p, updateRoomRow room.name new body.floor db = .ok p := by
    unfold updateRoomRow
    rw [hfloor]
    simp only [Bool.not_true, Bool.false_eq_true, if_false]
    split
    · rename_i h
      rw [h] at hadmit
      cases hadmit
    · exact ⟨_, rfl⟩
  have hwritable : TrainingSamplesWritable faults := by
    intro exc h
    -- every statement of the transaction goes through, so its `COMMIT` does
    rw [htraining] at h
    cases h
  obtain ⟨q, hq⟩ := (renameRoomLabelsStrict_goesThrough room.name new faults p.2).mpr
    ⟨hlock, hstmt, hcsi, htraining, hcommit⟩
  rw [← renameRoomLabels_run hwritable] at hq
  simp only [updateRoom, Tx.read, Tx.run_execute_of_none hselect, Table.find?_of_mem hmem,
    hbody, Option.getD_some, hne, false_and, if_false, Tx.run_execute_of_none hflush, hp,
    commitRoom, hq, Tx.run_execute_of_none hanswer, Tx.run_execute_of_none hrequery, ne_eq,
    not_false_eq_true, if_true]

/-! ## All or nothing -/

/-- The rename stands in all four tables, and merged no labels. -/
structure RenameStands (old new : String) (floor : Option Int) (db db' : LabelDb) : Prop where
  substituted : Substituted old new floor db db'
  shareLabel : ∀ i j, db'.ShareLabel i j ↔ db.ShareLabel i j

/-- A PATCH with a new name either puts it in the place of the old one everywhere, merging
    no two labels, or fails.  A taken name and an error of any statement up to the COMMIT
    leave the tables as they were; a COMMIT whose answer is lost and an error of the re-query
    leave the rename in place. -/
theorem updateRoom_allOrNothing (old new : String) (body : RoomUpdate) (faults : Faults)
    (db : LabelDb) (hbody : body.name = some new) (hnamed : db.SamplesNamed)
    (hwritable : TrainingSamplesWritable faults) :
    let result := updateRoom old body faults db
    ((result.1 = .ok () ∧ RenameStands old new body.floor db result.2) ∨
      ((∃ f, result.1 = .error f) ∧ result.2 = db) ∨
      (∃ exc, faults .commitAnswer = some exc ∧
        result.1 = .error (commitFailure old new exc) ∧
        RenameStands old new body.floor db result.2) ∨
      (∃ exc, faults .commitAnswer = none ∧ faults .requeryRoom = some exc ∧
        result.1 = .error (.internal exc) ∧ RenameStands old new body.floor db result.2)) ∧
    (new ≠ old → (db.HasRoom new ∨ ∃ k ∈ renameStatements, faults k ≠ none) →
      (∃ f, result.1 = .error f) ∧ result.2 = db) := by
  dsimp only
  have outcome : RenameOutcome old new body.floor faults db (updateRoom old body faults db) :=
    updateRoom_outcome hbody hwritable db
  generalize updateRoom old body faults db = result at outcome
  -- a rename that was committed had a free name and no statement that raised
  have stopped (hfree : new = old ∨ ¬db.HasRoom new)
      (hissued : new ≠ old → ∀ k ∈ renameStatements, faults k = none) :
      ¬(new ≠ old ∧ (db.HasRoom new ∨ ∃ k ∈ renameStatements, faults k ≠ none)) := by
    rintro ⟨hne, htaken | ⟨k, hk, hfault⟩⟩
    · exact hfree.elim hne (absurd htaken)
    · exact hfault (hissued hne k hk)
  cases outcome with
  | refused f => exact ⟨.inr (.inl ⟨⟨f, rfl⟩, rfl⟩), fun _ _ => ⟨⟨f, rfl⟩, rfl⟩⟩
  | unanswered exc db' hfault hfree hissued hsub =>
    constructor
    · exact .inr (.inr (.inl ⟨exc, hfault, rfl, hsub, hsub.shareLabel_iff hnamed hfree⟩))
    · intro hne hstop
      exact absurd ⟨hne, hstop⟩ (stopped hfree hissued)
  | unread exc db' hanswer hfault hfree hissued hsub =>
    constructor
    · exact .inr (.inr (.inr
        ⟨exc, hanswer, hfault, rfl, hsub, hsub.shareLabel_iff hnamed hfree⟩))
    · intro hne hstop
      exact absurd ⟨hne, hstop⟩ (stopped hfree hissued)
  | renamed db' hanswer hfault hfree hissued hsub =>
    constructor
    · exact .inl ⟨rfl, hsub, hsub.shareLabel_iff hnamed hfree⟩
    · intro hne hstop
      exact absurd ⟨hne, hstop⟩ (stopped hfree hissued)

/-! ## A rename that is answered with an error -/

/-- One room with a label and a sample in both tables. -/
def studyStore : LabelDb where
  rooms := ⟨[⟨"study", 1, 3⟩, ⟨"hall", 0, 4⟩], by decide⟩
  labels := ⟨[⟨6, 2071, 2399, "study", 1, none, 2400, by decide⟩], by decide⟩
  labelsIdSeq := 7
  csiSamples :=
    [⟨⟨2080, 1, "aa:bb:cc:dd:ee:ff", -40, none, 6, 20, 1, 1, [0], [0], none⟩, some "study"⟩]
  trainingSamples :=
    ⟨[⟨⟨2080, 1, "aa:bb:cc:dd:ee:ff", -40, none, 6, 20, 1, 1, [0], [0], none⟩, "study"⟩],
      by decide⟩
  labelsRoomFkey := by decide
  labelsIdBelow := by decide

/-- The connection is lost when the server has committed. -/
def answerLost : Faults := fun k =>
  if k = .commitAnswer then some ⟨false, "connection was closed in the middle of operation"⟩
  else none

def toLibrary : RoomUpdate := ⟨some "library", none, by decide⟩

/-- The example's samples are named by its room. -/
private theorem studyStore_samplesNamed : studyStore.SamplesNamed where
  csiSamples := by
    intro r hr l hl
    simp only [studyStore, List.mem_singleton] at hr
    subst hr
    cases hl
    exact ⟨⟨"study", 1, 3⟩, List.mem_cons_self, rfl⟩
  trainingSamples := by
    intro t ht
    simp only [studyStore, List.mem_singleton] at ht
    subst ht
    exact ⟨⟨"study", 1, 3⟩, List.mem_cons_self, rfl⟩

/-- The connection that is lost costs no permission. -/
private theorem answerLost_writable : TrainingSamplesWritable answerLost := by
  intro exc h
  cases h

/-- The `COMMIT` raises and the rename stands. -/
theorem updateRoom_allOrNothing_study :
    (updateRoom "study" toLibrary answerLost studyStore).1 = .error renameSkipped ∧
      RenameStands "study" "library" none studyStore
        (updateRoom "study" toLibrary answerLost studyStore).2 := by
  have hfail : (updateRoom "study" toLibrary answerLost studyStore).1 =
      .error renameSkipped := by decide
  have hchanged : (updateRoom "study" toLibrary answerLost studyStore).2.csiSamples ≠
      studyStore.csiSamples := by decide
  refine ⟨hfail, ?_⟩
  rcases (updateRoom_allOrNothing "study" "library" toLibrary answerLost studyStore rfl
    studyStore_samplesNamed answerLost_writable).1 with
    ⟨hok, -⟩ | ⟨-, hkept⟩ | ⟨-, -, -, hstands⟩ | ⟨-, -, -, -, hstands⟩
  · rw [hfail] at hok
    cases hok
  · exact absurd (congrArg LabelDb.csiSamples hkept) hchanged
  · exact hstands
  · exact hstands

/-- The study is a library in every table although its rename was answered with an error. -/
theorem failed_rename_stands :
    ¬∀ (old new : String) (body : RoomUpdate) (faults : Faults) (db : LabelDb),
      body.name = some new → db.SamplesNamed → TrainingSamplesWritable faults →
      let result := updateRoom old body faults db
      (result.1 = .ok () ∧ RenameStands old new body.floor db result.2) ∨
        ((∃ f, result.1 = .error f) ∧ result.2 = db) := by
  intro h
  have hfail : (updateRoom "study" toLibrary answerLost studyStore).1 ≠ .ok () := by decide
  have hchanged : (updateRoom "study" toLibrary answerLost studyStore).2.csiSamples ≠
      studyStore.csiSamples := by decide
  cases h "study" "library" toLibrary answerLost studyStore rfl studyStore_samplesNamed
      answerLost_writable with
  | inl hok => exact hfail hok.1
  | inr hkept => exact hchanged (congrArg LabelDb.csiSamples hkept.2)

end Grimnir
