import Grimnir.Native.Rooms
import Grimnir.ForStd.Machine

/-!
# The label store as a system

Freki's label and room endpoints, Geri's inserts and the deferred halves of the label
operations as one machine.  A transaction is one event: `create_label` schedules a
backfill, the backfill's two transactions and the second transaction of `delete_label`
wait in the system until an event runs them, in any order.  Here every statement
succeeds unless a constraint refuses it.
-/

namespace Grimnir

/-- The tables with the work that is scheduled but not run. -/
structure LabelSystem where
  db : LabelDb
  /-- Backfills whose first transaction has not run. -/
  backfills : List Backfill
  /-- Windows whose backfill has committed and not yet been synced. -/
  syncs : List Window
  /-- Windows of deleted labels not yet resynced. -/
  resyncs : List Window

inductive LabelEvent where
  | insertBatch (rows : List CsiRow)
  | createRoom (body : RoomCreate) (now : Timestamp)
  | updateRoom (roomName : String) (body : RoomUpdate)
  | deleteRoom (roomName : String)
  | createLabel (body : LabelCreate) (now : Timestamp)
  | deleteLabel (labelId : Nat)
  /-- Run the first transaction of the backfill at this position. -/
  | backfill (i : Nat)
  /-- Run the second transaction of the backfill at this position. -/
  | sync (i : Nat)
  /-- Run the second transaction of the `delete_label` at this position. -/
  | resync (i : Nat)

namespace LabelSystem

/-- One transaction of the system. -/
def step (s : LabelSystem) : LabelEvent → Except Failure Unit × LabelSystem
  | .insertBatch rows => (.ok (), { s with db := s.db.insertCsiSamples rows })
  | .createRoom body now =>
    let (res, db') := createRoom body now Tx.noFaults s.db
    (res, { s with db := db' })
  | .updateRoom roomName body =>
    let (res, db') := updateRoom roomName body Tx.noFaults s.db
    (res, { s with db := db' })
  | .deleteRoom roomName =>
    let (res, db') := deleteRoom roomName Tx.noFaults s.db
    (res, { s with db := db' })
  | .createLabel body now =>
    match createLabel body now Tx.noFaults s.db with
    | (.ok (_, b), db') => (.ok (), { s with db := db', backfills := s.backfills ++ [b] })
    | (.error f, db') => (.error f, { s with db := db' })
  | .deleteLabel labelId =>
    match deleteLabelCleanup labelId Tx.noFaults s.db with
    | (.ok label, db') => (.ok (), { s with db := db', resyncs := label.window :: s.resyncs })
    | (.error f, db') => (.error f, { s with db := db' })
  | .backfill i =>
    match s.backfills[i]? with
    | none => (.ok (), s)
    | some b =>
      match backfillCsiSamplesBestEffort b Tx.noFaults s.db with
      | (true, db') => (.ok (), { s with
          db := db', backfills := s.backfills.eraseIdx i, syncs := b.window :: s.syncs })
      | (false, db') => (.ok (), { s with db := db', backfills := s.backfills.eraseIdx i })
  | .sync i =>
    match s.syncs[i]? with
    | none => (.ok (), s)
    | some w =>
      -- an error other than a lost permission ends the background task
      let (_, db') := syncTrainingSamplesBestEffort w Tx.noFaults s.db
      (.ok (), { s with db := db', syncs := s.syncs.eraseIdx i })
  | .resync i =>
    match s.resyncs[i]? with
    | none => (.ok (), s)
    | some w => (.ok (), { s with
        db := resyncTrainingSamplesBestEffort w Tx.noFaults s.db
        resyncs := s.resyncs.eraseIdx i })

end LabelSystem

/-- The label store, answering requests and running deferred transactions. -/
def labelMachine : Machine LabelSystem LabelEvent (Except Failure Unit) := ⟨LabelSystem.step⟩

end Grimnir
