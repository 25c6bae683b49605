import Grimnir.Native.Ingest

/-!
# `geri/main.py`: `batch_writer` against the clock

The aggregator with the time of its loop, in microseconds, and with calls of the database
that take none.  The writer waits in `wait_for(queue.get(), timeout)` except at the instants
in which a packet is queued or the wait is over; with a timeout that is not positive
`wait_for` gives up before it looks at the queue.
-/

namespace Grimnir.Geri

/-- The aggregator and its clock. -/
structure Clocked where
  ingest : Ingest
  now : Int
  /-- When the current `wait_for` was called. -/
  since : Int
  /-- When the rows of the batch were appended, oldest first. -/
  appended : List Int

inductive ClockedEvent where
  /-- Nothing happens until `time`. -/
  | elapse (time : Int)
  /-- Something happens now. -/
  | event (e : IngestEvent)

/-- What an event is to the writer. -/
inductive Mark where
  | quiet
  /-- A packet was taken at `time`; `found` says whether its receiver was. -/
  | packet (time : Int) (found : Bool)
  /-- The wait timed out at `time`. -/
  | timeout (time : Int)
  deriving DecidableEq, Repr

namespace Clocked

/-- `BATCH_TIMEOUT_MS / 1000.0`, in microseconds. -/
def batchTimeout (batchTimeoutMs : Int) : Int := batchTimeoutMs * 1000

/-- The lookup for the packet at the head of the queue returns. -/
def foundReceiver (config : IngestConfig) (lookup : IngestFaults) (s : Ingest) : Bool :=
  match s.queue with
  | [] => false
  | item :: queue =>
    (Ingest.lookupReceiver config lookup item.pkt.receiverName { s with queue := queue }).1.isOk

/-- One event.  A packet that is taken and a timeout both start the next wait. -/
def step (config : IngestConfig) (s : Clocked) : ClockedEvent → Mark × Clocked
  | .elapse time => (.quiet, { s with now := time })
  | .event e =>
    let ingest := (s.ingest.step config e).2
    match e with
    | .dequeue _ _ lookup _ _ =>
      -- a row is appended only after its receiver was found
      let found := foundReceiver config lookup s.ingest
      let appended := if found then s.appended ++ [s.now] else s.appended
      (.packet s.now found, { s with
        ingest := ingest
        since := s.now
        appended := if ingest.batch.isEmpty then [] else appended })
    | .timeout _ => (.timeout s.now, { s with ingest := ingest, since := s.now, appended := [] })
    | _ => (.quiet, { s with ingest := ingest })

/-- The event can happen now: time stands still while a packet is queued and does not pass
    the end of a wait, and nothing cancels the writer. -/
def Timely (batchTimeoutMs : Int) (s : Clocked) : ClockedEvent → Prop
  | .elapse time =>
    s.now ≤ time ∧ (0 < batchTimeout batchTimeoutMs →
      s.ingest.queue = [] ∧ time ≤ s.since + batchTimeout batchTimeoutMs)
  | .event (.datagram _ _ _ loopTime) => loopTime = s.now
  | .event (.dequeue loopTime _ _ _ _) =>
    0 < batchTimeout batchTimeoutMs ∧ s.ingest.queue ≠ [] ∧ loopTime = s.now
  | .event (.timeout _) =>
    0 < batchTimeout batchTimeoutMs → s.now = s.since + batchTimeout batchTimeoutMs
  | .event (.cancel _) => False

/-- The aggregator as its writer starts, at `time`. -/
def start (db : IngestDb) (time : Int) : Clocked := ⟨.start db, time, time, []⟩

end Clocked

/-- The aggregator and its clock. -/
def clockedMachine (config : IngestConfig) : Machine Clocked ClockedEvent Mark where
  step s e := s.step config e

end Grimnir.Geri
