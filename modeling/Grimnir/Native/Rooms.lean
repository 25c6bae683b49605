import Grimnir.Native.Labels

/-!
# `freki/routers/rooms.py`

A rename rewrites `rooms`, `labels` (by the foreign key), `csi_samples` and
`training_samples` in one transaction.  The rewrite of `training_samples` runs under a
savepoint, so that an installation whose role may not write it keeps the rename.  A `COMMIT`
whose answer is lost raises as a refused one does, but what it wrote stands.
-/

namespace Grimnir

/-- A validated `RoomCreate` body. -/
structure RoomCreate where
  name : String
  floor : Int
  nameNotEmpty : notEmpty "name" name = .ok name
  deriving DecidableEq, Repr

/-- A validated `RoomUpdate` body. -/
structure RoomUpdate where
  name : Option String
  floor : Option Int
  nameNotEmpty : ∀ n ∈ name, notEmpty "name" n = .ok n
  deriving Repr

/-- `create_room`. -/
def createRoom (body : RoomCreate) (now : Timestamp) (faults : Faults) (db : LabelDb) :
    Except Failure Unit × LabelDb :=
  let tx : LabelTx Unit := do
    Tx.execute .insertRoom (LabelDb.insertRoom ⟨body.name, body.floor, now⟩)
    Tx.write .commit id
  match tx.transact faults db with
  | (.error exc, db') =>
    if exc.integrity then
      (.error (.http ⟨409, s!"Room '{body.name}' already exists"⟩), db')
    else (.error (.internal exc), db')
  | (.ok _, db') =>
    match (Tx.read .refreshRoom fun _ => () : LabelTx Unit).run faults db' with
    | .error exc => (.error (.internal exc), db')
    | .ok _ => (.ok (), db')

/-- `_rename_training_samples_label`: a permission error rolls back to the savepoint and
    is tolerated, any other error is raised. -/
def renameTrainingSamplesLabel (oldName newName : String) : LabelTx Unit :=
  Tx.savepoint
    (Tx.write .renameTrainingSamples (LabelDb.renameTrainingSamples oldName newName))
    fun exc => if isTrainingSamplesPermissionError exc then pure () else throw exc

/-- The statements of `update_room` after the flush, when the name changes. -/
def renameRoomLabels (oldName newName : String) : LabelTx Unit := do
  setBackfillTimeouts
  Tx.write .renameCsiSamples (LabelDb.renameCsiSamples oldName newName)
  renameTrainingSamplesLabel oldName newName
  Tx.write .commit id

/-- What `update_room` answers when the rename could not be committed. -/
def renameSkipped : Failure :=
  .http ⟨503, "Room rename could not acquire the CSI table in time; retry shortly."⟩

/-- The last part of the transaction, on the tables after the flush.  An error rolls back to
    `db`; without an answer to its `COMMIT` the session raises, and the tables are written. -/
def commitRoom (tx : LabelTx Unit) (failure : DBAPIError → Failure) (faults : Faults)
    (db flushed : LabelDb) : Except (Failure × LabelDb) LabelDb :=
  match tx.run faults flushed with
  | .error exc => .error (failure exc, db)
  | .ok (_, committed) =>
    match (Tx.read .commitAnswer fun _ => () : LabelTx Unit).run faults committed with
    | .error exc => .error (failure exc, committed)
    | .ok _ => .ok committed

/-- `update_room`.  The flush and the rewrite are one transaction with two handlers: an
    error of either leaves the tables as they were.  The re-query runs after the commit. -/
def updateRoom (roomName : String) (body : RoomUpdate) (faults : Faults) (db : LabelDb) :
    Except Failure Unit × LabelDb :=
  match (Tx.read .selectRoom fun db : LabelDb => db.rooms.find? roomName).run faults db with
  | .error exc => (.error (.internal exc), db)
  | .ok (none, _) => (.error (.http ⟨404, "Room not found"⟩), db)
  | .ok (some room, _) =>
    let newName := body.name.getD room.name
    let requested := body.name.getD "None"
    let flush : LabelTx Unit :=
      -- the unit of work emits no UPDATE when neither column changes
      if newName = room.name ∧ body.floor.getD room.floor = room.floor then pure ()
      else Tx.execute .flushRoom (LabelDb.updateRoomRow room.name newName body.floor)
    match flush.run faults db with
    | .error exc =>
      if exc.integrity then
        (.error (.http ⟨409, s!"Room '{requested}' already exists"⟩), db)
      else (.error (.internal exc), db)
    | .ok (_, flushed) =>
      let committed :=
        if newName ≠ room.name then
          commitRoom (renameRoomLabels room.name newName) (fun _ => renameSkipped) faults db
            flushed
        else commitRoom (Tx.write .commit id) .internal faults db flushed
      match committed with
      | .error (f, db') => (.error f, db')
      | .ok db' =>
        match (Tx.read .requeryRoom fun _ => () : LabelTx Unit).run faults db' with
        | .error exc => (.error (.internal exc), db')
        | .ok _ => (.ok (), db')

/-- `delete_room`. -/
def deleteRoom (roomName : String) (faults : Faults) (db : LabelDb) :
    Except Failure Unit × LabelDb :=
  match (Tx.read .selectRoom fun db : LabelDb => db.rooms.find? roomName).run faults db with
  | .error exc => (.error (.internal exc), db)
  | .ok (none, _) => (.error (.http ⟨404, "Room not found"⟩), db)
  | .ok (some room, _) =>
    let tx : LabelTx Unit := do
      Tx.execute .deleteRoom (LabelDb.deleteRoomRow room.name)
      Tx.write .commit id
    match tx.transact faults db with
    | (.ok _, db') => (.ok (), db')
    | (.error exc, db') =>
      if exc.integrity then
        (.error (.http ⟨409, s!"Room '{roomName}' has existing labels and cannot be deleted"⟩),
          db')
      else (.error (.internal exc), db')

end Grimnir
