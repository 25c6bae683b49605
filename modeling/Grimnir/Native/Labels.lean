import Grimnir.Native.LabelDb
import Grimnir.ForStd.Transaction
import Mathlib.Data.List.Infix

/-!
# `freki/routers/labels.py`

Creating a label commits the row and schedules a backfill; the backfill labels the
window in `csi_samples` in one transaction and copies it to `training_samples` in a
second one.  Deleting a label clears and re-applies the window in one transaction and
rebuilds the window of `training_samples` in a second one.  Every transaction runs
under a fault table, so an endpoint's behaviour when a statement raises is part of its
definition.
-/

namespace Grimnir

/-- Which statements of a transaction raise, and what. -/
abbrev Faults := Statement → Option DBAPIError

abbrev LabelTx := Tx Statement DBAPIError LabelDb

/-! ## Request bodies -/

/-- `LabelCreate.room_not_empty` and `RoomCreate.name_not_empty`: strip, then refuse an
    empty string. -/
def notEmpty (field v : String) : Except String String :=
  if PyStr.strip v = "" then .error (field ++ " must not be empty")
  else .ok (PyStr.strip v)

/-- A validator's result passes the validator. -/
theorem notEmpty_notEmpty {field v w : String} (h : notEmpty field v = .ok w) :
    notEmpty field w = .ok w := by
  unfold notEmpty at h ⊢
  split at h
  · cases h
  · rename_i hne
    cases h
    rw [PyStr.strip_strip, if_neg hne]

/-- A validated `LabelCreate` body. -/
structure LabelCreate where
  timeStart : Timestamp
  timeEnd : Timestamp
  room : String
  occupants : Int
  notes : Option String
  roomNotEmpty : notEmpty "room" room = .ok room
  endAfterStart : timeStart < timeEnd
  deriving Repr

/-- The arguments of a scheduled `_backfill_label_best_effort`, captured at request time. -/
structure Backfill where
  labelId : Nat
  start : Timestamp
  end_ : Timestamp
  room : String
  deriving DecidableEq, Repr

def Backfill.window (b : Backfill) : Window := ⟨b.start, b.end_⟩

/-! ## Shared helpers -/

/-- `set_backfill_timeouts`: bounded lock and statement waits for the transaction. -/
def setBackfillTimeouts : LabelTx Unit := do
  Tx.write .setLockTimeout id
  Tx.write .setStatementTimeout id

/-- `_insert_training_samples_for_window`. -/
def insertTrainingSamplesForWindow (w : Window) : LabelTx Unit := do
  setBackfillTimeouts
  Tx.execute .insertTrainingWindow (LabelDb.insertTrainingIn w)

/-- `is_training_samples_permission_error`. -/
def isTrainingSamplesPermissionError (exc : DBAPIError) : Bool :=
  let message := exc.message.toList.map Char.toLower
  decide ("training_samples".toList <:+: message) &&
    decide ("permission denied".toList <:+: message)

/-! ## Creating a label and its backfill -/

/-- `create_label`: commit the row, answer with it and schedule the backfill.  Only the
    flush is guarded, and a failing refresh leaves a committed label with no backfill. -/
def createLabel (body : LabelCreate) (now : Timestamp) (faults : Faults) (db : LabelDb) :
    Except Failure (Label × Backfill) × LabelDb :=
  let flush : LabelTx Label :=
    Tx.execute .insertLabel (LabelDb.insertLabel body.timeStart body.timeEnd body.room
      body.occupants body.notes body.endAfterStart now)
  match flush.run faults db with
  | .error exc =>
    if exc.integrity then
      (.error (.http ⟨422, s!"Room '{body.room}' does not exist — add it via manage rooms first"⟩),
        db.skipLabelId)
    else (.error (.internal exc), db)
  | .ok (label, flushed) =>
    match (Tx.write .commit id : LabelTx Unit).run faults flushed with
    | .error exc => (.error (.internal exc), db.skipLabelId)
    | .ok (_, committed) =>
      match (Tx.read .refreshLabel fun _ => label : LabelTx Label).run faults committed with
      | .error exc => (.error (.internal exc), committed)
      | .ok (label, _) =>
        (.ok (label, ⟨label.id, body.timeStart, body.timeEnd, body.room⟩), committed)

/-- `_backfill_csi_samples_best_effort`: the first transaction of a backfill.  The flag
    says whether it committed. -/
def backfillCsiSamplesBestEffort (b : Backfill) (faults : Faults) (db : LabelDb) :
    Bool × LabelDb :=
  let tx : LabelTx Unit := do
    setBackfillTimeouts
    Tx.write .backfillWindow (LabelDb.setLabelIn b.window (some b.room))
    Tx.write .commit id
  match tx.transact faults db with
  | (.ok _, db') => (true, db')
  | (.error _, db') => (false, db')

/-- `_sync_training_samples_best_effort`: the second transaction of a backfill.  Only a
    permission error is tolerated. -/
def syncTrainingSamplesBestEffort (w : Window) (faults : Faults) (db : LabelDb) :
    Except DBAPIError Unit × LabelDb :=
  let tx : LabelTx Unit := do
    insertTrainingSamplesForWindow w
    Tx.write .commit id
  match tx.transact faults db with
  | (.ok _, db') => (.ok (), db')
  | (.error exc, db') =>
    if isTrainingSamplesPermissionError exc then (.ok (), db') else (.error exc, db')

/-- `_backfill_label_best_effort`. -/
def backfillLabelBestEffort (b : Backfill) (faults : Faults) (db : LabelDb) :
    Except DBAPIError Unit × LabelDb :=
  match backfillCsiSamplesBestEffort b faults db with
  | (false, db') => (.ok (), db')
  | (true, db') => syncTrainingSamplesBestEffort b.window faults db'

/-! ## Deleting a label -/

/-- The cleanup transaction of `delete_label`: clear the window, delete the row and
    re-apply the surviving labels in order. -/
def cleanupLabel (label : Label) : LabelTx Unit := do
  setBackfillTimeouts
  Tx.write .clearWindow (LabelDb.setLabelIn label.window none)
  Tx.write .deleteLabel (LabelDb.deleteLabelRow label.id)
  let overlapping ← Tx.read .selectOverlapping (LabelDb.selectOverlapping label.window)
  forM overlapping fun l =>
    Tx.write (.reapplyLabel l.id)
      (LabelDb.setLabelIn (label.window.overlap l.window) (some l.room))
  Tx.write .commit id

/-- `delete_label` up to its commit: the deleted label, or the refusal. -/
def deleteLabelCleanup (labelId : Nat) (faults : Faults) (db : LabelDb) :
    Except Failure Label × LabelDb :=
  match (Tx.read .selectLabel fun db : LabelDb => db.labels.find? labelId).run faults db with
  | .error exc => (.error (.internal exc), db)
  | .ok (none, _) => (.error (.http ⟨404, "Label not found"⟩), db)
  | .ok (some label, _) =>
    match (cleanupLabel label).transact faults db with
    | (.ok _, db') => (.ok label, db')
    | (.error _, db') =>
      (.error (.http
        ⟨503, "Label cleanup could not acquire the CSI table in time; retry shortly."⟩), db')

/-- The transaction of `_resync_training_samples_best_effort`. -/
def rebuildTrainingWindow (w : Window) : LabelTx Unit := do
  setBackfillTimeouts
  Tx.write .deleteTrainingWindow (LabelDb.deleteTrainingIn w)
  insertTrainingSamplesForWindow w
  Tx.write .commit id

/-- `_resync_training_samples_best_effort`: any error is logged, never raised. -/
def resyncTrainingSamplesBestEffort (w : Window) (faults : Faults) (db : LabelDb) : LabelDb :=
  ((rebuildTrainingWindow w).transact faults db).2

/-- `delete_label`: the cleanup transaction and, once it has committed, the resync. -/
def deleteLabel (labelId : Nat) (faults resyncFaults : Faults) (db : LabelDb) :
    Except Failure Unit × LabelDb :=
  match deleteLabelCleanup labelId faults db with
  | (.error f, db') => (.error f, db')
  | (.ok label, db') => (.ok (), resyncTrainingSamplesBestEffort label.window resyncFaults db')

end Grimnir
