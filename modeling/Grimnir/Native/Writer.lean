import Grimnir.Native.Ingest

/-!
# `geri/main.py`: the awaits of the aggregator

`batch_writer` between one `await` and the next, and the shutdown of `main`, which closes the
UDP transport and cancels the writer wherever it waits.  A cancelled call of the database may
have taken effect or not.  `Ingest` runs the same functions with a whole round of the loop as
one event.
-/

namespace Grimnir.Geri

/-- Why `insert_batch` is called. -/
inductive FlushCause where
  /-- The batch is full. -/
  | full
  /-- `wait_for` timed out. -/
  | timeout
  /-- The waiting writer was cancelled. -/
  | cancelled
  deriving DecidableEq, Repr

/-- Where `batch_writer` waits. -/
inductive Await where
  /-- The task has not taken its first step. -/
  | start
  /-- `wait_for(queue.get(), …)`. -/
  | queueGet
  /-- `get_or_create_receiver_id`, with a packet in hand. -/
  | lookup (item : QueueItem)
  /-- `upsert_heartbeat`, with a packet in hand and the loop time read before it. -/
  | heartbeat (item : QueueItem) (receiverId : Int) (loopTime : LoopTime)
  /-- `insert_batch`. -/
  | insert (cause : FlushCause)
  /-- The task is done. -/
  | returned
  deriving DecidableEq, Repr

/-- The aggregator, with the point its writer waits at. -/
structure Aggregator where
  ingest : Ingest
  await : Await
  /-- The transport is open. -/
  listening : Bool

inductive AggregatorEvent where
  /-- `datagram_received`. -/
  | datagram (data : List UInt8) (addr : Addr) (wallTime : Timestamp) (loopTime : LoopTime)
  /-- The task takes its first step. -/
  | start
  /-- `queue.get()` returns. -/
  | dequeue (loopTime : LoopTime)
  /-- `wait_for` times out. -/
  | timeout
  /-- `get_or_create_receiver_id` returns or raises. -/
  | lookedUp (loopTime : LoopTime) (faults : IngestFaults)
  /-- `upsert_heartbeat` returns or raises. -/
  | heartbeatSent (now : Timestamp) (faults : IngestFaults)
  /-- `insert_batch` returns or raises. -/
  | inserted (faults : IngestFaults)
  /-- `main` closes the transport and cancels the writer; `effect` says whether the call it
      waits for has committed. -/
  | shutdown (effect : Bool) (now : Timestamp)

/-- What an event makes visible. -/
structure AggregatorResponse where
  acks : List Addr
  /-- The packet put on the queue. -/
  put : Option QueueItem
  /-- How a call of the database ended. -/
  call : Option (Except DBAPIError Unit)

namespace Aggregator

/-- Nothing. -/
def quiet : AggregatorResponse := ⟨[], none, none⟩

/-- The packet that `datagram_received` puts on the queue. -/
def accepted (data : List UInt8) (addr : Addr) (wallTime : Timestamp) (s : Ingest) :
    Option QueueItem :=
  match parsePacket data with
  | .error _ => none
  | .ok pkt =>
    if s.queue.length < queueMaxsize then some ⟨wallTime, addr.host, pkt⟩ else none

/-- `batch.append(…)`, up to the next `await`. -/
def append (config : IngestConfig) (item : QueueItem) (receiverId : Int) (s : Ingest) :
    Await × Ingest :=
  let s := { s with batch := s.batch ++ [⟨item.wallTime, receiverId, item.pkt⟩] }
  if config.batchSize ≤ s.batch.length then (.insert .full, s) else (.queueGet, s)

/-- The code after the lookup, up to the next `await`. -/
def identified (config : IngestConfig) (item : QueueItem) (receiverId : Int)
    (loopTime : LoopTime) (s : Ingest) : Await × Ingest :=
  if loopTime - (s.lastHeartbeat.get? receiverId).getD 0 > heartbeatInterval then
    (.heartbeat item receiverId loopTime, s)
  else append config item receiverId s

/-- The code after `queue.get()`, up to the next `await`. -/
def taken (config : IngestConfig) (item : QueueItem) (loopTime : LoopTime) (s : Ingest) :
    Await × Ingest :=
  match s.receiverCache.get? item.pkt.receiverName with
  | some receiverId => identified config item receiverId loopTime s
  | none => (.lookup item, s)

/-- The awaited call of the database, brought to its end: its result and the tables. -/
def awaitedCall (config : IngestConfig) (await : Await) (now : Timestamp) (s : Ingest) :
    Option (Except DBAPIError Unit) × IngestDb :=
  match await with
  | .lookup item =>
    let (result, db) :=
      getOrCreateReceiverId config.receiverMac item.pkt.receiverName Tx.noFaults s.db
    (some (result.map fun _ => ()), db)
  | .heartbeat item receiverId _ =>
    let (result, db) := upsertHeartbeat receiverId now (some item.host) Tx.noFaults s.db
    (some result, db)
  | .insert _ =>
    let (result, db) := insertBatch s.batch Tx.noFaults s.db
    (some result, db)
  | _ => (none, s.db)

/-- `transport.close()` and `writer_task.cancel()`.  Only the wait for the queue has a handler
    for the `CancelledError`; it writes the partial batch. -/
def shutdown (config : IngestConfig) (effect : Bool) (now : Timestamp) (s : Aggregator) :
    AggregatorResponse × Aggregator :=
  match s.await with
  | .queueGet =>
    if s.ingest.batch.isEmpty then (quiet, { s with await := .returned, listening := false })
    else (quiet, { s with await := .insert .cancelled, listening := false })
  | await =>
    -- the call may have gone through before the cancellation
    let (call, db) :=
      if effect then awaitedCall config await now s.ingest else (none, s.ingest.db)
    (⟨[], none, call⟩,
      { ingest := { s.ingest with db := db }, await := .returned, listening := false })

/-- One event.  A call that is not awaited does not return. -/
def step (config : IngestConfig) (s : Aggregator) :
    AggregatorEvent → AggregatorResponse × Aggregator
  | .datagram data addr wallTime loopTime =>
    if s.listening then
      let (response, ingest) := Ingest.datagramReceived config data addr wallTime loopTime s.ingest
      (⟨response.acks, accepted data addr wallTime s.ingest, none⟩, { s with ingest := ingest })
    else (quiet, s)
  | .start =>
    match s.await with
    | .start => (quiet, { s with await := .queueGet })
    | _ => (quiet, s)
  | .dequeue loopTime =>
    match s.await, s.ingest.queue with
    | .queueGet, item :: queue =>
      let (await, ingest) := taken config item loopTime { s.ingest with queue := queue }
      (quiet, { s with await := await, ingest := ingest })
    | _, _ => (quiet, s)
  | .timeout =>
    match s.await with
    | .queueGet =>
      if s.ingest.batch.isEmpty then (quiet, s)
      else (quiet, { s with await := .insert .timeout })
    | _ => (quiet, s)
  | .lookedUp loopTime faults =>
    match s.await with
    | .lookup item =>
      match Ingest.lookupReceiver config faults item.pkt.receiverName s.ingest with
      | (.error e, ingest) =>
        -- the packet in hand is dropped
        (⟨[], none, some (.error e)⟩, { s with await := .queueGet, ingest := ingest })
      | (.ok receiverId, ingest) =>
        let (await, ingest) := identified config item receiverId loopTime ingest
        (⟨[], none, some (.ok ())⟩, { s with await := await, ingest := ingest })
    | _ => (quiet, s)
  | .heartbeatSent now faults =>
    match s.await with
    | .heartbeat item receiverId loopTime =>
      let call := (upsertHeartbeat receiverId now (some item.host) faults s.ingest.db).1
      let (await, ingest) := append config item receiverId
        (Ingest.sendHeartbeat receiverId item.host loopTime now faults s.ingest)
      (⟨[], none, some call⟩, { s with await := await, ingest := ingest })
    | _ => (quiet, s)
  | .inserted faults =>
    match s.await with
    | .insert cause =>
      let call := (insertBatch s.ingest.batch faults s.ingest.db).1
      let ingest := (Ingest.flush faults s.ingest).2
      (⟨[], none, some call⟩,
        { s with
          await := if cause = .cancelled then .returned else .queueGet
          ingest := ingest })
    | _ => (quiet, s)
  | .shutdown effect now => if s.listening then shutdown config effect now s else (quiet, s)

/-- The aggregator as it starts on a database. -/
def boot (db : IngestDb) : Aggregator := ⟨.start db, .start, true⟩

end Aggregator

/-- The aggregator, one `await` at a time. -/
def aggregatorMachine (config : IngestConfig) :
    Machine Aggregator AggregatorEvent AggregatorResponse where
  step s e := s.step config e

end Grimnir.Geri
