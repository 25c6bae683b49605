import Grimnir.Native.Schema
import Mathlib.Data.List.Sort
import Mathlib.Data.Prod.Lex
import Mathlib.Data.Int.Order.Basic

/-!
# The tables behind labels and rooms, and their statements

`LabelDb` is `rooms`, `labels`, `csi_samples` and `training_samples` with the
constraints between them: the foreign key `labels_room_fkey` and the sequence behind
`labels.id` are fields, so a dangling label cannot be built.  Each SQL statement of
`freki/routers/labels.py` and `freki/routers/rooms.py` is one function here; the
transactions that issue them are in `Labels` and `Rooms`.
-/

namespace Grimnir

/-- `rooms`, `labels`, `csi_samples` and `training_samples`.  `csi_samples` has no unique
    key, so it is a plain list of rows. -/
structure LabelDb where
  rooms : Table Room (·.name)
  labels : Table Label (·.id)
  labelsIdSeq : Nat
  csiSamples : List CsiSample
  trainingSamples : Table TrainingSample TrainingSample.key
  labelsRoomFkey : ∀ l ∈ labels, ∃ r ∈ rooms, r.name = l.room
  labelsIdBelow : ∀ l ∈ labels, l.id < labelsIdSeq

/-- Without labels, the sequence may stand at its start. -/
theorem labelsIdBelow_empty : ∀ l ∈ (Table.empty : Table Label (·.id)), l.id < 1 :=
  fun l hl => absurd hl (Table.notMem_empty l)

/-- The SQL statements of the label and room routers.  `reapplyLabel` names the statement
    of one iteration of the re-apply loop.  A fault of `commitAnswer` is a connection that is
    lost when the server has carried the `COMMIT` out. -/
inductive Statement where
  | setLockTimeout | setStatementTimeout
  | selectLabel | insertLabel | refreshLabel | clearWindow | deleteLabel | selectOverlapping
  | reapplyLabel (labelId : Nat)
  | backfillWindow | deleteTrainingWindow | insertTrainingWindow
  | selectRoom | insertRoom | refreshRoom | flushRoom | renameCsiSamples
  | renameTrainingSamples | requeryRoom | deleteRoom
  | commit | commitAnswer
  deriving DecidableEq, Repr

namespace LabelDb

/-! ## `csi_samples` -/

/-- `UPDATE csi_samples SET label = … WHERE time >= start AND time < end`, on one row. -/
def relabel (w : Window) (label : Option String) (r : CsiSample) : CsiSample :=
  if w.contains r.time then { r with label := label } else r

/-- `UPDATE csi_samples SET label = … WHERE time >= start AND time < end`. -/
def setLabelIn (w : Window) (label : Option String) (db : LabelDb) : LabelDb :=
  { db with csiSamples := db.csiSamples.map (relabel w label) }

/-- `UPDATE csi_samples SET label = new WHERE label = old`, on one row. -/
def renameCsiSample (old new : String) (r : CsiSample) : CsiSample :=
  if r.label = some old then { r with label := some new } else r

/-- `UPDATE csi_samples SET label = new WHERE label = old`. -/
def renameCsiSamples (old new : String) (db : LabelDb) : LabelDb :=
  { db with csiSamples := db.csiSamples.map (renameCsiSample old new) }

/-- `INSERT INTO csi_samples` of unlabelled rows. -/
def insertCsiSamples (rows : List CsiRow) (db : LabelDb) : LabelDb :=
  { db with csiSamples := db.csiSamples ++ rows.map fun r => { toCsiRow := r, label := none } }

/-! ## `training_samples` -/

/-- The rows `SELECT … FROM csi_samples WHERE time in window AND label IS NOT NULL`. -/
def selectLabelled (w : Window) (db : LabelDb) : List TrainingSample :=
  db.csiSamples.filterMap fun r =>
    if w.contains r.time then r.label.map fun l => { toCsiRow := r.toCsiRow, label := l }
    else none

/-- `DO UPDATE SET label = EXCLUDED.label`. -/
def setExcludedLabel (old excluded : TrainingSample) : TrainingSample :=
  { old with label := excluded.label }

theorem key_setExcludedLabel (old excluded : TrainingSample) :
    (setExcludedLabel old excluded).key = old.key := rfl

/-- PostgreSQL refuses to update one row twice in one `ON CONFLICT DO UPDATE`. -/
def affectsRowTwice : DBAPIError :=
  ⟨false, "ON CONFLICT DO UPDATE command cannot affect row a second time"⟩

/-- `INSERT INTO training_samples SELECT … ON CONFLICT (time, receiver_id) DO UPDATE`. -/
def insertTrainingIn (w : Window) (db : LabelDb) : Except DBAPIError (Unit × LabelDb) :=
  if ((db.selectLabelled w).map TrainingSample.key).Nodup then
    .ok ((), { db with
      trainingSamples := db.trainingSamples.upsertAll setExcludedLabel key_setExcludedLabel
        (db.selectLabelled w) })
  else .error affectsRowTwice

/-- `DELETE FROM training_samples WHERE time >= start AND time < end`. -/
def deleteTrainingIn (w : Window) (db : LabelDb) : LabelDb :=
  { db with trainingSamples := db.trainingSamples.deleteWhere fun t => w.contains t.time }

/-- `UPDATE training_samples SET label = new WHERE label = old`, on one row. -/
def renameTrainingSample (old new : String) (t : TrainingSample) : TrainingSample :=
  if t.label = old then { t with label := new } else t

theorem toCsiRow_renameTrainingSample (old new : String) (t : TrainingSample) :
    (renameTrainingSample old new t).toCsiRow = t.toCsiRow := by
  unfold renameTrainingSample; split <;> rfl

theorem key_renameTrainingSample (old new : String) (t : TrainingSample) :
    (renameTrainingSample old new t).key = t.key := by
  rw [TrainingSample.key, toCsiRow_renameTrainingSample, TrainingSample.key]

/-- `UPDATE training_samples SET label = new WHERE label = old`. -/
def renameTrainingSamples (old new : String) (db : LabelDb) : LabelDb :=
  { db with
    trainingSamples := db.trainingSamples.update (renameTrainingSample old new)
      (key_renameTrainingSample old new) }

/-! ## `labels` -/

/-- What `labels_room_fkey` raises for an unknown room. -/
def unknownRoom : DBAPIError :=
  ⟨true, "insert or update on table \"labels\" violates foreign key constraint"⟩

/-- `INSERT INTO labels`, with `id` from the sequence and `created_at` from the clock. -/
def insertLabel (timeStart timeEnd : Timestamp) (room : String) (occupants : Int)
    (notes : Option String) (valid : timeStart < timeEnd) (now : Timestamp) (db : LabelDb) :
    Except DBAPIError (Label × LabelDb) :=
  if !fitsSmallint occupants then .error smallintOutOfRange
  else if hroom : ∃ r ∈ db.rooms.rows, r.name = room then
    let label : Label :=
      ⟨db.labelsIdSeq, timeStart, timeEnd, room, occupants, notes, now, valid⟩
    .ok (label, { db with
      labels := db.labels.insert label fun l hl => (db.labelsIdBelow l hl).ne
      labelsIdSeq := db.labelsIdSeq + 1
      labelsRoomFkey := by
        intro l hl
        rcases Table.mem_insert.mp hl with hl | rfl
        · exact db.labelsRoomFkey l hl
        · exact hroom
      labelsIdBelow := by
        intro l hl
        rcases Table.mem_insert.mp hl with hl | rfl
        · exact Nat.lt_succ_of_lt (db.labelsIdBelow l hl)
        · exact Nat.lt_succ_self _ })
  else .error unknownRoom

/-- The tables after an `INSERT INTO labels` that was refused or rolled back: `nextval` is not. -/
def skipLabelId (db : LabelDb) : LabelDb :=
  { db with
    labelsIdSeq := db.labelsIdSeq + 1
    labelsIdBelow := fun l hl => Nat.lt_succ_of_lt (db.labelsIdBelow l hl) }

/-- `DELETE FROM labels WHERE id = …`. -/
def deleteLabelRow (labelId : Nat) (db : LabelDb) : LabelDb :=
  { db with
    labels := db.labels.deleteWhere fun l => l.id = labelId
    labelsRoomFkey := fun l hl => db.labelsRoomFkey l (Table.mem_deleteWhere.mp hl).1
    labelsIdBelow := fun l hl => db.labelsIdBelow l (Table.mem_deleteWhere.mp hl).1 }

/-- `ORDER BY time_start, created_at, id`. -/
def orderKey (l : Label) : Int ×ₗ Int ×ₗ Nat :=
  toLex (l.timeStart, toLex (l.createdAt, l.id))

/-- The labels overlapping `w`, in the order the re-apply loop takes them. -/
def selectOverlapping (w : Window) (db : LabelDb) : List Label :=
  (db.labels.rows.filter fun l => l.timeStart < w.end_ && w.start < l.timeEnd).insertionSort
    fun a b => orderKey a ≤ orderKey b

/-! ## `rooms` -/

/-- What `rooms_pkey` raises for a taken name. -/
def duplicateRoom : DBAPIError :=
  ⟨true, "duplicate key value violates unique constraint \"rooms_pkey\""⟩

/-- What `ON DELETE RESTRICT` raises for a room that labels still name. -/
def roomReferenced : DBAPIError :=
  ⟨true, "update or delete on table \"rooms\" violates foreign key constraint"⟩

/-- `INSERT INTO rooms`. -/
def insertRoom (room : Room) (db : LabelDb) : Except DBAPIError (Unit × LabelDb) :=
  if !fitsSmallint room.floor then .error smallintOutOfRange
  else if h : ∀ r ∈ db.rooms.rows, r.name ≠ room.name then
    .ok ((), { db with
      rooms := db.rooms.insert room h
      labelsRoomFkey := by
        intro l hl
        obtain ⟨r, hr, hname⟩ := db.labelsRoomFkey l hl
        exact ⟨r, Table.mem_insert.mpr (.inl hr), hname⟩ })
  else .error duplicateRoom

/-- `ON UPDATE CASCADE` of `labels_room_fkey`, on one label. -/
def cascadeRoom (old new : String) (l : Label) : Label :=
  if l.room = old then { l with room := new } else l

theorem id_cascadeRoom (old new : String) (l : Label) : (cascadeRoom old new l).id = l.id := by
  unfold cascadeRoom; split <;> rfl

/-- `UPDATE rooms SET name, floor WHERE name = old`, cascading to `labels.room`. -/
def updateRoomRow (old new : String) (floor : Option Int) (db : LabelDb) :
    Except DBAPIError (Unit × LabelDb) :=
  if !(floor.all fitsSmallint) then .error smallintOutOfRange
  else
    match hrooms : db.rooms.updateAt? old
        (fun r => { r with name := new, floor := floor.getD r.floor }) with
    | none => .error duplicateRoom
    | some rooms => .ok ((), { db with
        rooms := rooms
        labels := db.labels.update (cascadeRoom old new) (id_cascadeRoom old new)
        labelsRoomFkey := by
          intro l hl
          obtain ⟨l₀, hl₀, rfl⟩ := Table.mem_update.mp hl
          obtain ⟨r, hr, hname⟩ := db.labelsRoomFkey l₀ hl₀
          refine ⟨_, (Table.mem_updateAt? hrooms).mpr ⟨r, hr, rfl⟩, ?_⟩
          unfold cascadeRoom
          by_cases hold : l₀.room = old <;> simp [hold, hname]
        labelsIdBelow := by
          intro l hl
          obtain ⟨l₀, hl₀, rfl⟩ := Table.mem_update.mp hl
          rw [id_cascadeRoom]
          exact db.labelsIdBelow l₀ hl₀ })

/-- `DELETE FROM rooms WHERE name = …`, with `ON DELETE RESTRICT`. -/
def deleteRoomRow (name : String) (db : LabelDb) : Except DBAPIError (Unit × LabelDb) :=
  if h : ∀ l ∈ db.labels.rows, l.room ≠ name then
    .ok ((), { db with
      rooms := db.rooms.deleteWhere fun r => r.name = name
      labelsRoomFkey := by
        intro l hl
        obtain ⟨r, hr, hname⟩ := db.labelsRoomFkey l hl
        have hne : ¬r.name = name := hname ▸ h l hl
        exact ⟨r, Table.mem_deleteWhere.mpr ⟨hr, by simpa using hne⟩, hname⟩ })
  else .error roomReferenced

end LabelDb

end Grimnir
