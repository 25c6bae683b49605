import Grimnir.Native.CsiStreamText
import Grimnir.Native.Predictions

/-!
# `/api/predictions/stream`

`_event_generator` of `freki/routers/predictions.py`, from one `await` or `yield` to the next,
beside the row that every replica's `put_current` writes.
-/

namespace Grimnir

/-- `STREAM_KEEPALIVE_S`, in microseconds. -/
def streamKeepalive : Int := 15000000

/-- Where `_event_generator` waits. -/
inductive SubscriberAwait where
  /-- The statement of a poll. -/
  | polling
  /-- The consumer has the last output. -/
  | yielded
  /-- `asyncio.sleep`. -/
  | sleeping
  | closed
  deriving DecidableEq, Repr

/-- A connection to the stream. -/
structure Subscriber where
  lastUpdatedAt : Option Timestamp
  lastKeepaliveAt : Timestamp
  await : SubscriberAwait
  deriving DecidableEq, Repr

/-- The connection, and the row of `current_predictions` it polls. -/
structure SubscriberSystem where
  row : Option CurrentPrediction
  stream : Subscriber

inductive SubscriberEvent where
  /-- Some replica commits `put_current`. -/
  | put (body : PredictionUpdate) (now : Timestamp)
  /-- The statement of a poll returns, at a wall clock time. -/
  | polled (now : Datetime)
  /-- The consumer asks for more. -/
  | resumed
  /-- The sleep is over. -/
  | woke
  /-- The consumer is gone, or a statement raises. -/
  | cancelled

/-- What the consumer receives. -/
inductive SubscriberOutput where
  | nothing
  /-- `data: …`, the payload of the row. -/
  | data (row : CurrentPrediction)
  /-- `: keepalive …`. -/
  | keepalive (now : Datetime)

namespace Subscriber

/-- A connection that starts at a wall clock time. -/
def start (now : Timestamp) : Subscriber := ⟨none, now, .polling⟩

/-- `snapshot is not None and snapshot.updated_at != last_updated_at`. -/
def changed (s : Subscriber) (row : CurrentPrediction) : Bool :=
  s.lastUpdatedAt ≠ some row.updatedAt

/-- What follows the statement of a poll when there is nothing new. -/
def idle (now : Datetime) (s : Subscriber) : SubscriberOutput × Subscriber :=
  if streamKeepalive ≤ now.timestamp - s.lastKeepaliveAt then
    (.keepalive now, { s with lastKeepaliveAt := now.timestamp, await := .yielded })
  else (.nothing, { s with await := .sleeping })

/-- What follows the statement of a poll. -/
def polled (row : Option CurrentPrediction) (now : Datetime) (s : Subscriber) :
    SubscriberOutput × Subscriber :=
  match row with
  | none => s.idle now
  | some row =>
    if s.changed row then (.data row, ⟨some row.updatedAt, now.timestamp, .yielded⟩)
    else s.idle now

/-- One event for the connection.  What is not awaited does not happen. -/
def step (row : Option CurrentPrediction) (s : Subscriber) :
    SubscriberEvent → SubscriberOutput × Subscriber
  | .put _ _ => (.nothing, s)
  | .polled now => if s.await = .polling then s.polled row now else (.nothing, s)
  -- `continue` polls again without a sleep
  | .resumed => (.nothing, if s.await = .yielded then { s with await := .polling } else s)
  | .woke => (.nothing, if s.await = .sleeping then { s with await := .polling } else s)
  | .cancelled => (.nothing, { s with await := .closed })

end Subscriber

/-- The connection and the writers of the row. -/
def subscriberMachine : Machine SubscriberSystem SubscriberEvent SubscriberOutput where
  step s e :=
    let (output, stream) := s.stream.step s.row e
    match e with
    | .put body now => (output, ⟨some (putCurrent body now), stream⟩)
    | _ => (output, { s with stream := stream })

/-! ## The text -/

/-- What is written for an output.  `stored` is what the `JSONB` column gives back. -/
def SubscriberOutput.blocks (ft : Json.FloatText) (stored : PredictionUpdate → Json) :
    SubscriberOutput → List EventStream.Block
  | .nothing => []
  | .data row => [.message (Json.dumps ft (stored row.payload))]
  | .keepalive now => [.comment ("keepalive ".toList ++ now.isoformat)]

/-- The text of a connection. -/
def subscriberText (ft : Json.FloatText) (stored : PredictionUpdate → Json)
    (log : List (SubscriberEvent × SubscriberOutput)) : List Char :=
  (log.reverse.flatMap fun x => x.2.blocks ft stored).flatMap EventStream.Block.write

end Grimnir
