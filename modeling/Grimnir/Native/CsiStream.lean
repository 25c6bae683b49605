import Grimnir.ForStd.IdentityMap
import Grimnir.ForStd.Machine
import Grimnir.Native.LabelDb
import Mathlib.Data.Prod.Lex
import Mathlib.Data.Int.Order.Basic

/-!
# `freki/routers/csi_stream.py`

The SSE tail of `csi_samples`: `_event_generator` from one `await` or `yield` to the next,
beside the table it reads.  A poll fetches its rows with one statement; the rows are then
handed out one by one, and the cursor moves when the consumer asks for the next one.
-/

namespace Grimnir

/-- `(time, receiver_id)`, as `ORDER BY` and the row comparison take it. -/
def CsiSample.orderKey (r : CsiSample) : Int ×ₗ Int := toLex r.toCsiRow.key

/-- A cursor of the stream. -/
abbrev StreamCursor := Int ×ₗ Int

/-- `_latest_cursor`: the first row in descending order. -/
def latestCursor (table : List CsiSample) : Option StreamCursor :=
  (table.insertionSort fun a b => b.orderKey ≤ a.orderKey).head?.map CsiSample.orderKey

/-- The rows past a cursor in an order that the server may find them in: `csi_samples` has no
    unique key, so the order of rows of one key is open. -/
structure FoundPast (cursor : StreamCursor) (table found : List CsiSample) : Prop where
  perm : found.Perm (SeekPaging.beyond CsiSample.orderKey (some cursor) table)
  sorted : SeekPaging.Sorted CsiSample.orderKey found

/-- The objects that the session makes of the first rows that were found. -/
def loadBatch (maxBatch : Nat) (found : List CsiSample) : List CsiSample :=
  IdentityMap.load (·.identity) (found.take maxBatch)

/-- What `(await session.execute(stmt)).scalars().all()` of one poll may return. -/
def PollReturns (maxBatch : Nat) (cursor : StreamCursor) (table rows : List CsiSample) : Prop :=
  ∃ found, FoundPast cursor table found ∧ rows = loadBatch maxBatch found

/-- The statement of one poll on a server that sorts stably. -/
def pollRows (maxBatch : Nat) (cursor : StreamCursor) (table : List CsiSample) :
    List CsiSample :=
  loadBatch maxBatch ((SeekPaging.beyond CsiSample.orderKey (some cursor) table).insertionSort
    fun a b => a.orderKey ≤ b.orderKey)

theorem pollReturns_pollRows (maxBatch : Nat) (cursor : StreamCursor) (table : List CsiSample) :
    PollReturns maxBatch cursor table (pollRows maxBatch cursor table) :=
  ⟨_, ⟨List.perm_insertionSort _ _, SeekPaging.pairwise_sorted CsiSample.orderKey _⟩, rfl⟩

/-- `KEEPALIVE_IDLE_S`, in microseconds. -/
def keepaliveIdle : Int := 15000000

/-- Where `_event_generator` waits. -/
inductive StreamAwait where
  /-- `_latest_cursor`, before the loop. -/
  | connecting
  /-- `_latest_cursor`, while the table was empty. -/
  | looking
  /-- The statement of a poll. -/
  | polling
  /-- The consumer has `row`; `rest` was fetched with it. -/
  | yielded (row : CsiSample) (rest : List CsiSample)
  /-- The consumer has a keepalive comment. -/
  | keepalive
  /-- `asyncio.sleep`. -/
  | sleeping
  | closed

/-- A connection to the stream. -/
structure CsiStream where
  cursor : Option StreamCursor
  /-- `last_emit`, on the clock of the loop. -/
  lastEmit : Int
  await : StreamAwait

/-- The connection, and the table it tails. -/
structure StreamSystem where
  table : List CsiSample
  stream : CsiStream

inductive StreamEvent where
  /-- A batch of rows is committed. -/
  | commit (rows : List CsiRow)
  /-- `_latest_cursor` returns. -/
  | latest (loopTime : Int)
  /-- The statement of a poll returns. -/
  | polled (rows : List CsiSample) (loopTime : Int)
  /-- The consumer asks for more. -/
  | resumed (loopTime : Int)
  /-- The sleep is over. -/
  | woke
  /-- The consumer is gone, or a statement raises. -/
  | cancelled

/-- What the consumer receives. -/
inductive StreamOutput where
  | nothing
  /-- `data: …`, the row as JSON. -/
  | data (row : CsiSample)
  /-- `: tail …`. -/
  | tail

namespace CsiStream

/-- The head of the loop. -/
def pollAgain (s : CsiStream) : CsiStream :=
  { s with await := if s.cursor.isNone then .looking else .polling }

/-- The end of a round. -/
def endRound (loopTime : Int) (s : CsiStream) : StreamOutput × CsiStream :=
  if keepaliveIdle ≤ loopTime - s.lastEmit then (.tail, { s with await := .keepalive })
  else (.nothing, { s with await := .sleeping })

/-- The `for` loop over the rows of a poll. -/
def handOut (loopTime : Int) (s : CsiStream) : List CsiSample → StreamOutput × CsiStream
  | [] => endRound loopTime s
  | row :: rest => (.data row, { s with await := .yielded row rest })

/-- The consumer has taken `row`: the cursor moves to it. -/
def advance (loopTime : Int) (row : CsiSample) (rest : List CsiSample) (s : CsiStream) :
    StreamOutput × CsiStream :=
  let s := { s with cursor := some row.orderKey }
  match rest with
  | [] => endRound loopTime { s with lastEmit := loopTime }
  | row :: rest => (.data row, { s with await := .yielded row rest })

/-- One event for the connection.  What is not awaited does not happen. -/
def step (table : List CsiSample) (s : CsiStream) : StreamEvent → StreamOutput × CsiStream
  | .commit _ => (.nothing, s)
  | .latest loopTime =>
    match s.await with
    | .connecting =>
      (.nothing, pollAgain { s with cursor := latestCursor table, lastEmit := loopTime })
    -- the table was empty before; `last_emit` stays
    | .looking => endRound loopTime { s with cursor := latestCursor table }
    | _ => (.nothing, s)
  | .polled rows loopTime =>
    match s.await with
    | .polling => handOut loopTime s rows
    | _ => (.nothing, s)
  | .resumed loopTime =>
    match s.await with
    | .yielded row rest => advance loopTime row rest s
    | .keepalive => (.nothing, { s with lastEmit := loopTime, await := .sleeping })
    | _ => (.nothing, s)
  | .woke =>
    match s.await with
    | .sleeping => (.nothing, pollAgain s)
    | _ => (.nothing, s)
  -- `except asyncio.CancelledError: pass`, or an error that leaves the generator
  | .cancelled => (.nothing, { s with await := .closed })

/-- A connection that is being opened. -/
def start : CsiStream := ⟨none, 0, .connecting⟩

end CsiStream

/-- A commit appends its rows, unlabelled, to `csi_samples`. -/
def commitRows (rows : List CsiRow) (table : List CsiSample) : List CsiSample :=
  table ++ rows.map fun r => { toCsiRow := r, label := none }

/-- The connection and the writers of the table. -/
def streamMachine : Machine StreamSystem StreamEvent StreamOutput where
  step s e :=
    let (output, stream) := s.stream.step s.table e
    match e with
    | .commit rows => (output, ⟨commitRows rows s.table, stream⟩)
    | _ => (output, { s with stream := stream })

end Grimnir
