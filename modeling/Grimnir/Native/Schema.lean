import Grimnir.ForStd.Table
import Grimnir.ForStd.PyStr

/-!
# Rows, columns and errors

The rows of the tables that `mimir/src/csi_models/sql` creates, as far as the services
read and write them, with the `CHECK` constraints carried as fields.  Times are
`TIMESTAMPTZ` values in microseconds, `REAL` values are their 32-bit words.

`DBAPIError` is what a statement raises, `HTTPException` what an endpoint answers when
it refuses, and `Failure` the two ways a request can end without success.
-/

namespace Grimnir

/-- `TIMESTAMPTZ`, in microseconds. -/
abbrev Timestamp := Int

/-! ## Errors -/

/-- SQLAlchemy's `DBAPIError`; `integrity` marks the subclass `IntegrityError`. -/
structure DBAPIError where
  integrity : Bool
  message : String
  deriving DecidableEq, Repr

/-- FastAPI's `HTTPException`. -/
structure HTTPException where
  statusCode : Nat
  detail : String
  deriving DecidableEq, Repr

/-- A request that does not succeed: refused by the endpoint, or ended by a database error
    or another exception that no handler catches (a 500 response, with the session rolled
    back). -/
inductive Failure where
  | http (exc : HTTPException)
  | internal (exc : DBAPIError)
  | uncaught (error : String)
  deriving DecidableEq, Repr

/-- A value that a `SMALLINT` column admits. -/
def fitsSmallint (n : Int) : Bool := -32768 ≤ n && n ≤ 32767

/-- What PostgreSQL raises for a value outside a `SMALLINT` column. -/
def smallintOutOfRange : DBAPIError := ⟨false, "smallint out of range"⟩

/-- A value that an `INTEGER` column admits. -/
def fitsInteger (n : Int) : Bool := -2147483648 ≤ n && n ≤ 2147483647

/-- What the driver raises for an argument outside an `INTEGER` column, before it sends
    anything. -/
def integerOutOfRange : DBAPIError :=
  ⟨false, "invalid input for query argument: (value out of int32 range)"⟩

/-! ## CSI samples -/

/-- The columns `csi_samples` and `training_samples` share. -/
structure CsiRow where
  time : Timestamp
  receiverId : Int
  transmitterMac : String
  rssi : Int
  noiseFloor : Option Int
  channel : Int
  bandwidth : Int
  antennaCount : Int
  subcarrierCount : Int
  amplitude : List UInt32
  phase : List UInt32
  rawBytes : Option (List UInt8)
  deriving DecidableEq, Repr

/-- The columns of `idx_training_samples_time_receiver`. -/
def CsiRow.key (r : CsiRow) : Timestamp × Int := (r.time, r.receiverId)

/-- The `primary_key` of the mapper of `CsiSample`.  No index of `csi_samples` is unique. -/
def CsiRow.identity (r : CsiRow) : Timestamp × Int × String × Int × Int × Int :=
  (r.time, r.receiverId, r.transmitterMac, r.channel, r.rssi, r.subcarrierCount)

@[simp] theorem CsiRow.fst_key (r : CsiRow) : r.key.1 = r.time := rfl

/-- A row of `csi_samples`; the label stays `NULL` until the row is annotated. -/
structure CsiSample extends CsiRow where
  label : Option String
  deriving DecidableEq, Repr

/-- A row of `training_samples`. -/
structure TrainingSample extends CsiRow where
  label : String
  deriving DecidableEq, Repr

/-- The key of a training sample, under its unique index. -/
def TrainingSample.key (t : TrainingSample) : Timestamp × Int := t.toCsiRow.key

@[simp] theorem TrainingSample.fst_key (t : TrainingSample) : t.key.1 = t.time := rfl

/-! ## Rooms and labels -/

/-- A row of `rooms`. -/
structure Room where
  name : String
  floor : Int
  createdAt : Timestamp
  deriving DecidableEq, Repr

/-- A half-open time window `[start, end)`. -/
structure Window where
  start : Timestamp
  end_ : Timestamp
  deriving DecidableEq, Repr

/-- `time >= start AND time < end`. -/
def Window.contains (w : Window) (t : Timestamp) : Bool := w.start ≤ t && t < w.end_

theorem Window.contains_iff {w : Window} {t : Timestamp} :
    w.contains t = true ↔ w.start ≤ t ∧ t < w.end_ := by
  simp [contains]

/-- The part of `w` that `v` covers, as `max` of the starts and `min` of the ends. -/
def Window.overlap (w v : Window) : Window := ⟨max w.start v.start, min w.end_ v.end_⟩

theorem Window.contains_overlap (w v : Window) (t : Timestamp) :
    (w.overlap v).contains t = (w.contains t && v.contains t) := by
  rw [Bool.eq_iff_iff, Bool.and_eq_true, contains_iff, contains_iff, contains_iff]
  simp only [overlap, Int.max_le, Int.lt_min]
  exact and_and_and_comm

/-- A row of `labels`, with its `valid_range` check. -/
structure Label where
  id : Nat
  timeStart : Timestamp
  timeEnd : Timestamp
  room : String
  occupants : Int
  notes : Option String
  createdAt : Timestamp
  validRange : timeStart < timeEnd
  deriving DecidableEq, Repr

/-- The half-open window of a label. -/
def Label.window (l : Label) : Window := ⟨l.timeStart, l.timeEnd⟩

/-- The label's window contains `t`. -/
def Label.covers (l : Label) (t : Timestamp) : Bool := l.window.contains t

theorem Label.covers_iff {l : Label} {t : Timestamp} :
    l.covers t = true ↔ l.timeStart ≤ t ∧ t < l.timeEnd :=
  Window.contains_iff

end Grimnir
