import Grimnir.ForStd.Dict
import Grimnir.ForStd.Machine
import Grimnir.Native.IngestDb

/-!
# `geri/main.py`: the aggregator

The UDP protocol and `batch_writer` as one machine.  An event is what wakes the event loop:
a datagram, a packet taken off the queue, a timeout of `wait_for`, or the cancellation of
the waiting writer.  Loop times are in microseconds.

The response to an event lists the ACKs sent and the calls of `insert_batch`.
-/

namespace Grimnir.Geri

/-- The sender of a datagram. -/
structure Addr where
  host : String
  port : Nat
  deriving DecidableEq, Repr

/-- The loop's clock, in microseconds. -/
abbrev LoopTime := Int

/-- What the environment variables and `_receiver_mac` give the aggregator. -/
structure IngestConfig where
  batchSize : Int
  ackInterval : LoopTime
  receiverMac : String → String

/-- The `maxsize` of the queue. -/
def queueMaxsize : Nat := 10000

/-- `heartbeat_interval`. -/
def heartbeatInterval : LoopTime := 10000000

/-- An item of the queue. -/
structure QueueItem where
  wallTime : Timestamp
  host : String
  pkt : CsiPacket
  deriving DecidableEq, Repr

/-- `CSIUDPProtocol`, `batch_writer` and the database. -/
structure Ingest where
  queue : List QueueItem
  dropped : Nat
  lastAckSent : Dict Addr LoopTime
  batch : List BatchEntry
  receiverCache : Dict String Int
  lastHeartbeat : Dict Int LoopTime
  /-- `batch_writer` has not returned. -/
  running : Bool
  db : IngestDb

/-- The aggregator as it starts on a database. -/
def Ingest.start (db : IngestDb) : Ingest where
  queue := []
  dropped := 0
  lastAckSent := .empty
  batch := []
  receiverCache := .empty
  lastHeartbeat := .empty
  running := true
  db := db

inductive IngestEvent where
  /-- `datagram_received`. -/
  | datagram (data : List UInt8) (addr : Addr) (wallTime : Timestamp) (loopTime : LoopTime)
  /-- `queue.get()` returns; the faults are those of the lookup, the heartbeat and the
      insert that follow. -/
  | dequeue (loopTime : LoopTime) (now : Timestamp) (lookup heartbeat insert : IngestFaults)
  /-- `wait_for` times out. -/
  | timeout (insert : IngestFaults)
  /-- The waiting writer is cancelled. -/
  | cancel (insert : IngestFaults)

/-- A call of `insert_batch`. -/
structure InsertCall where
  batch : List BatchEntry
  result : Except DBAPIError Unit

/-- What an event makes visible. -/
structure IngestResponse where
  acks : List Addr
  inserts : List InsertCall

namespace Ingest

/-- Nothing. -/
def quiet : IngestResponse := ⟨[], []⟩

/-- `_maybe_send_ack`. -/
def maybeSendAck (config : IngestConfig) (addr : Addr) (now : LoopTime) (s : Ingest) :
    List Addr × Ingest :=
  match s.lastAckSent.get? addr with
  | some lastAck =>
    if now - lastAck < config.ackInterval then ([], s)
    else ([addr], { s with lastAckSent := s.lastAckSent.set addr now })
  | none => ([addr], { s with lastAckSent := s.lastAckSent.set addr now })

/-- `put_nowait`, with `QueueFull` counted in `_dropped`. -/
def putNowait (item : QueueItem) (s : Ingest) : Ingest :=
  if s.queue.length < queueMaxsize then { s with queue := s.queue ++ [item] }
  else { s with dropped := s.dropped + 1 }

/-- `datagram_received`.  A `struct.error` would reach the event loop, which only logs it. -/
def datagramReceived (config : IngestConfig) (data : List UInt8) (addr : Addr)
    (wallTime : Timestamp) (loopTime : LoopTime) (s : Ingest) : IngestResponse × Ingest :=
  match parsePacket data with
  | .error _ => (quiet, s)
  | .ok pkt =>
    let (acks, s) := maybeSendAck config addr loopTime s
    (⟨acks, []⟩, putNowait ⟨wallTime, addr.host, pkt⟩ s)

/-- `await insert_batch(batch)` and `batch = []`; every caller logs the exception or ends. -/
def flush (faults : IngestFaults) (s : Ingest) : IngestResponse × Ingest :=
  let (result, db) := insertBatch s.batch faults s.db
  (⟨[], [⟨s.batch, result⟩]⟩, { s with batch := [], db := db })

/-- The lookup through `receiver_cache`. -/
def lookupReceiver (config : IngestConfig) (faults : IngestFaults) (name : String)
    (s : Ingest) : Except DBAPIError Int × Ingest :=
  match s.receiverCache.get? name with
  | some receiverId => (.ok receiverId, s)
  | none =>
    match getOrCreateReceiverId config.receiverMac name faults s.db with
    | (.ok receiverId, db) =>
      (.ok receiverId, { s with receiverCache := s.receiverCache.set name receiverId, db := db })
    | (.error e, db) => (.error e, { s with db := db })

/-- The heartbeat, at most one in `heartbeatInterval` for each receiver; a failed one is
    logged and tried again with the next packet. -/
def sendHeartbeat (receiverId : Int) (host : String) (loopTime : LoopTime) (now : Timestamp)
    (faults : IngestFaults) (s : Ingest) : Ingest :=
  if loopTime - (s.lastHeartbeat.get? receiverId).getD 0 > heartbeatInterval then
    match upsertHeartbeat receiverId now (some host) faults s.db with
    | (.ok (), db) => { s with lastHeartbeat := s.lastHeartbeat.set receiverId loopTime, db := db }
    | (.error _, db) => { s with db := db }
  else s

/-- `batch.append(…)`, and the flush of a full batch. -/
def appendToBatch (config : IngestConfig) (entry : BatchEntry) (faults : IngestFaults)
    (s : Ingest) : IngestResponse × Ingest :=
  let s := { s with batch := s.batch ++ [entry] }
  if config.batchSize ≤ s.batch.length then flush faults s else (quiet, s)

/-- One round of `batch_writer` with a packet. -/
def writePacket (config : IngestConfig) (item : QueueItem) (loopTime : LoopTime)
    (now : Timestamp) (lookup heartbeat insert : IngestFaults) (s : Ingest) :
    IngestResponse × Ingest :=
  match lookupReceiver config lookup item.pkt.receiverName s with
  | (.error _, s) => (quiet, s)
  | (.ok receiverId, s) =>
    appendToBatch config ⟨item.wallTime, receiverId, item.pkt⟩ insert
      (sendHeartbeat receiverId item.host loopTime now heartbeat s)

/-- One event.  A writer that has returned, or that waits on an empty queue, does not
    dequeue. -/
def step (config : IngestConfig) (s : Ingest) : IngestEvent → IngestResponse × Ingest
  | .datagram data addr wallTime loopTime =>
    datagramReceived config data addr wallTime loopTime s
  | .dequeue loopTime now lookup heartbeat insert =>
    match s.running, s.queue with
    | true, item :: queue =>
      writePacket config item loopTime now lookup heartbeat insert { s with queue := queue }
    | _, _ => (quiet, s)
  | .timeout insert =>
    if s.running && !s.batch.isEmpty then flush insert s else (quiet, s)
  | .cancel insert =>
    if s.running then
      if s.batch.isEmpty then (quiet, { s with running := false })
      else flush insert { s with running := false }
    else (quiet, s)

end Ingest

/-- The aggregator. -/
def ingestMachine (config : IngestConfig) : Machine Ingest IngestEvent IngestResponse where
  step s e := s.step config e

end Grimnir.Geri
