import Grimnir.Native.Predict

/-!
# `freki/routers/predictions.py`: the current prediction

`put_current` and the row it writes, with Völva's `stream_loop` as the only writer.  A `PUT`
that Völva sends can be answered, can be lost on its way, or can be applied by Freki with the
answer lost, which Völva sees as an `httpx` error.
-/

namespace Grimnir

open Volva

/-! ## Freki -/

/-- A validated `PredictionUpdate` body. -/
structure PredictionUpdate where
  timestamp : Timestamp
  modelId : Int
  rooms : Rooms
  roomsNonempty : rooms ≠ []

/-- What FastAPI makes of a prediction that Völva sends. -/
def PredictionUpdate.validate (timestamp : Timestamp) (p : Prediction) :
    Except FieldError PredictionUpdate :=
  if h : p.rooms ≠ [] then .ok ⟨timestamp, p.modelId, p.rooms, h⟩
  else .error ⟨"rooms", "Dictionary should have at least 1 item after validation, not 0"⟩

/-- The row of `current_predictions`. -/
structure CurrentPrediction where
  payload : PredictionUpdate
  updatedAt : Timestamp

/-- `put_current`: the row that its `INSERT … ON CONFLICT DO UPDATE` leaves. -/
def putCurrent (body : PredictionUpdate) (now : Timestamp) : CurrentPrediction :=
  ⟨body, now⟩

/-- `get_current`. -/
def getCurrent (row : Option CurrentPrediction) : Except HTTPException PredictionUpdate :=
  match row with
  | none => .error ⟨404, "No prediction available"⟩
  | some row => .ok row.payload

/-! ## Völva and Freki together -/

/-- What becomes of a `PUT`. -/
inductive Delivery where
  /-- Freki handles the request and Völva gets the answer. -/
  | acknowledged
  /-- Nothing is applied, and Völva sees an error. -/
  | lost
  /-- Freki handles the request, but Völva sees an error. -/
  | unacknowledged
  deriving DecidableEq, Repr

/-- A `PUT` that was sent: whether Freki applied it, and whether Völva saw it succeed. -/
structure PutResult where
  applied : Bool
  acknowledged : Bool
  deriving DecidableEq, Repr

/-- One `PUT` of Völva: its result and the row it leaves. -/
def putPrediction (delivery : Delivery) (timestamp now : Timestamp) (p : Prediction)
    (row : Option CurrentPrediction) : PutResult × Option CurrentPrediction :=
  match delivery, PredictionUpdate.validate timestamp p with
  | .lost, _ => (⟨false, false⟩, row)
  -- a 422 answer is an error for `raise_for_status`
  | _, .error _ => (⟨false, false⟩, row)
  | .acknowledged, .ok body => (⟨true, true⟩, some (putCurrent body now))
  | .unacknowledged, .ok body => (⟨true, false⟩, some (putCurrent body now))

/-- `stream_loop` and the row it publishes to. -/
structure PredictionSystem where
  volva : StreamLoop
  current : Option CurrentPrediction

inductive PredictionEvent where
  /-- A row of the stream with `holder.current`, and what becomes of a `PUT` it leads to. -/
  | row (row : RowDoc) (current : Option ActiveModel) (delivery : Delivery)
      (timestamp now : Timestamp)
  /-- The connection ends or an error reaches `stream_loop`. -/
  | disconnected

/-- What an event makes visible. -/
structure PredictionResponse where
  stream : StreamResponse
  put : Option PutResult

namespace PredictionSystem

/-- One event.  The loop waits for its `PUT`, so its result is known to `maybePublish`. -/
def step (extract : Extractor) (windowSize : Int) (s : PredictionSystem) :
    PredictionEvent → PredictionResponse × PredictionSystem
  | .row row current delivery timestamp now =>
    match (s.volva.step extract windowSize (.row row current false)).1.puts with
    | [] =>
      let (response, volva) := s.volva.step extract windowSize (.row row current false)
      (⟨response, none⟩, { s with volva := volva })
    | p :: _ =>
      let (result, stored) := putPrediction delivery timestamp now p s.current
      let (response, volva) :=
        s.volva.step extract windowSize (.row row current result.acknowledged)
      (⟨response, some result⟩, { volva := volva, current := stored })
  | .disconnected =>
    let (response, volva) := s.volva.step extract windowSize .disconnected
    (⟨response, none⟩, { s with volva := volva })

end PredictionSystem

/-- Völva publishing to Freki. -/
def predictionMachine (extract : Extractor) (windowSize : Int) :
    Machine PredictionSystem PredictionEvent PredictionResponse where
  step s e := s.step extract windowSize e

end Grimnir
