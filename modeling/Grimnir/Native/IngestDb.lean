import Grimnir.ForStd.Transaction
import Grimnir.Native.Parser
import Grimnir.Native.Schema

/-!
# `geri/db.py`: what the aggregator writes

`receivers`, `csi_samples` and `receiver_heartbeats` with the statements of the
aggregator.  A statement raises when its fault table says so (the database is away); on its
own account only `INSERT INTO csi_samples` does, for a value that a `SMALLINT` column does
not admit.  The synthetic MAC of a receiver is a hash of its name, taken as a parameter.
-/

namespace Grimnir.Geri

/-- What `get_or_create_receiver_id` reads and writes of a row of `receivers`. -/
structure Receiver where
  id : Int
  mac : String
  name : String
  role : String
  active : Bool
  deriving DecidableEq, Repr

/-- A row of `receiver_heartbeats`. -/
structure ReceiverHeartbeat where
  receiverId : Int
  lastSeen : Timestamp
  ipAddress : Option String
  deriving DecidableEq, Repr

/-- The tables the aggregator writes. -/
structure IngestDb where
  receivers : Table Receiver (·.name)
  receiversIdSeq : Int
  csiSamples : List CsiSample
  heartbeats : Table ReceiverHeartbeat (·.receiverId)

/-- The statements of `geri/db.py`. -/
inductive IngestStatement where
  | selectReceiver | insertReceiver | insertSamples | upsertHeartbeat | commit
  deriving DecidableEq, Repr

/-- A transaction of `geri/db.py`. -/
abbrev IngestTx := Tx IngestStatement DBAPIError IngestDb

/-- Which statements of a call raise. -/
abbrev IngestFaults := IngestStatement → Option DBAPIError

/-- `DO UPDATE SET active = true`, on one row. -/
def reactivate (name : String) (receiver : Receiver) : Receiver :=
  if receiver.name = name then { receiver with active := true } else receiver

theorem name_reactivate (name : String) (receiver : Receiver) :
    (reactivate name receiver).name = receiver.name := by
  unfold reactivate; split <;> rfl

/-- `INSERT INTO receivers … ON CONFLICT (name) DO UPDATE SET active = true RETURNING id`. -/
def IngestDb.insertReceiver (mac name : String) (db : IngestDb) : Int × IngestDb :=
  match h : db.receivers.find? name with
  | some receiver =>
    (receiver.id, { db with
      receivers := db.receivers.update (reactivate name) (name_reactivate name) })
  | none =>
    (db.receiversIdSeq, { db with
      receivers := db.receivers.insert ⟨db.receiversIdSeq, mac, name, "receiver", true⟩
        (Table.find?_eq_none_iff.mp h)
      receiversIdSeq := db.receiversIdSeq + 1 })

/-- The transaction of `get_or_create_receiver_id`. -/
def getOrCreateReceiverIdTx (receiverMac : String → String) (name : String) : IngestTx Int := do
  let receiver ← Tx.read .selectReceiver fun db => db.receivers.find? name
  match receiver with
  | some receiver => return receiver.id
  | none =>
    let newId ← Tx.execute .insertReceiver fun db =>
      .ok (db.insertReceiver (receiverMac name) name)
    Tx.write .commit id
    return newId

/-- `get_or_create_receiver_id`. -/
def getOrCreateReceiverId (receiverMac : String → String) (name : String)
    (faults : IngestFaults) (db : IngestDb) : Except DBAPIError Int × IngestDb :=
  (getOrCreateReceiverIdTx receiverMac name).transact faults db

/-- An entry of a batch: wall time, receiver and packet. -/
structure BatchEntry where
  wallTime : Timestamp
  receiverId : Int
  pkt : CsiPacket
  deriving DecidableEq, Repr

/-- The row of an entry. -/
def BatchEntry.row (entry : BatchEntry) : CsiRow where
  time := entry.wallTime
  receiverId := entry.receiverId
  transmitterMac := entry.pkt.transmitterMac
  rssi := entry.pkt.rssi
  noiseFloor := some entry.pkt.noiseFloor
  channel := entry.pkt.channel
  bandwidth := entry.pkt.bandwidthMhz
  antennaCount := entry.pkt.antennaCount
  subcarrierCount := entry.pkt.subcarrierCount
  amplitude := entry.pkt.amplitude
  phase := entry.pkt.phase
  rawBytes := none

/-- The `SMALLINT` columns of `csi_samples` admit the row. -/
def admitsRow (row : CsiRow) : Bool :=
  fitsSmallint row.rssi && row.noiseFloor.all fitsSmallint && fitsSmallint row.channel &&
    fitsSmallint row.bandwidth && fitsSmallint row.antennaCount &&
    fitsSmallint row.subcarrierCount

/-- `INSERT INTO csi_samples`. -/
def IngestDb.insertSamples (rows : List CsiRow) (db : IngestDb) :
    Except DBAPIError (Unit × IngestDb) :=
  if rows.all admitsRow then
    .ok ((), { db with csiSamples := db.csiSamples ++ rows.map fun r => ⟨r, none⟩ })
  else .error smallintOutOfRange

/-- The transaction of `insert_batch`. -/
def insertBatchTx (batch : List BatchEntry) : IngestTx Unit := do
  Tx.execute .insertSamples (IngestDb.insertSamples (batch.map BatchEntry.row))
  Tx.write .commit id

/-- `insert_batch`. -/
def insertBatch (batch : List BatchEntry) (faults : IngestFaults) (db : IngestDb) :
    Except DBAPIError Unit × IngestDb :=
  if batch.isEmpty then (.ok (), db) else (insertBatchTx batch).transact faults db

/-- `INSERT INTO receiver_heartbeats … ON CONFLICT (receiver_id) DO UPDATE`. -/
def IngestDb.writeHeartbeat (heartbeat : ReceiverHeartbeat) (db : IngestDb) : IngestDb :=
  { db with
    heartbeats := db.heartbeats.upsert
      (fun old new => { old with lastSeen := new.lastSeen, ipAddress := new.ipAddress })
      (fun _ _ => rfl) heartbeat }

/-- The transaction of `upsert_heartbeat`. -/
def upsertHeartbeatTx (heartbeat : ReceiverHeartbeat) : IngestTx Unit := do
  Tx.write .upsertHeartbeat (IngestDb.writeHeartbeat heartbeat)
  Tx.write .commit id

/-- `upsert_heartbeat`. -/
def upsertHeartbeat (receiverId : Int) (now : Timestamp) (ipAddress : Option String)
    (faults : IngestFaults) (db : IngestDb) : Except DBAPIError Unit × IngestDb :=
  (upsertHeartbeatTx ⟨receiverId, now, ipAddress⟩).transact faults db

end Grimnir.Geri
