import Grimnir.Native.Predict

/-!
# Völva's two tasks

`refresh_loop` puts the active model into the holder, and `stream_loop` reads it once for each
row.  Between two awaits a task runs alone.  `stream_loop` awaits the next message or the
answer to its `PUT`, so the holder can change before a row and while a prediction is being
published.
-/

namespace Grimnir.Volva

/-- What `refresh_loop` does with what `fetch_active` returned. -/
def refresh (latest holder : Option ActiveModel) : Option ActiveModel :=
  match latest, holder with
  | none, _ => none
  | some latest, none => some latest
  | some latest, some current => if current.id ≠ latest.id then some latest else some current

/-- How an awaited `PUT` ends. -/
inductive PutOutcome where
  | acknowledged
  /-- `httpx.HTTPError`, which `_maybe_publish` catches. -/
  | httpError
  /-- Another exception, which reaches `stream_loop`. -/
  | otherError
  deriving DecidableEq, Repr

/-- The holder, the variables of `stream_loop`, and the prediction whose `PUT` it awaits. -/
structure VolvaTasks where
  holder : Option ActiveModel
  loop : StreamLoop
  publishing : Option Prediction

inductive TaskEvent where
  /-- `fetch_active` has returned.  When it raises, nothing happens. -/
  | refreshed (latest : Option ActiveModel)
  /-- A message of the stream that is a row. -/
  | message (row : RowDoc)
  /-- A message that `_handle_row` raises on. -/
  | badMessage
  /-- The connection ends, or cannot be made. -/
  | connectionLost
  | putEnded (outcome : PutOutcome)

/-- What a step makes visible. -/
structure TaskResponse where
  /-- The windows given to `_predict_once`. -/
  windows : List PredictCall
  /-- The predictions put. -/
  puts : List Prediction
  /-- The model that a row was handled with. -/
  model : Option ActiveModel
  /-- `active_model_id` afterwards. -/
  activeModelId : Option Int
  /-- The `async with` block was left. -/
  lost : Bool

namespace VolvaTasks

/-- Both tasks as they start. -/
def start : VolvaTasks := ⟨none, .start, none⟩

/-- A step that neither handles a row nor loses the connection. -/
def quiet (s : VolvaTasks) : TaskResponse := ⟨[], [], none, s.loop.activeModelId, false⟩

/-- `stream_loop` behind its `async with` block. -/
def disconnect (s : VolvaTasks) (loop : StreamLoop) : TaskResponse × VolvaTasks :=
  let loop := { loop with receivers := StreamLoop.clearBuffers loop.receivers }
  (⟨[], [], none, loop.activeModelId, true⟩, ⟨s.holder, loop, none⟩)

/-- A message while no model is active. -/
def drop (s : VolvaTasks) : TaskResponse × VolvaTasks :=
  (⟨[], [], none, none, false⟩, { s with loop := ⟨.empty, none, none⟩ })

/-- One event. -/
def step (extract : Extractor) (windowSize : Int) (s : VolvaTasks) :
    TaskEvent → TaskResponse × VolvaTasks
  | .refreshed latest => (s.quiet, { s with holder := refresh latest s.holder })
  | .message row =>
    match s.holder with
    | none => s.drop
    | some model =>
      let loop := s.loop.adopt model
      let (changed, windows, receivers) :=
        StreamLoop.handleRow extract row model windowSize loop.receivers
      let loop := { loop with receivers := receivers }
      let puts :=
        if changed then
          (StreamLoop.maybePublish model (receivers.rows.map fun p => p.2.votes)
            loop.lastPublished false).1
        else []
      (⟨windows, puts, some model, loop.activeModelId, false⟩, ⟨s.holder, loop, puts.head?⟩)
  | .badMessage =>
    match s.holder with
    | none => s.drop
    | some model => s.disconnect (s.loop.adopt model)
  | .connectionLost => s.disconnect s.loop
  | .putEnded outcome =>
    match outcome with
    | .acknowledged =>
      (s.quiet, { s with loop := { s.loop with lastPublished := s.publishing },
                         publishing := none })
    | .httpError => (s.quiet, { s with publishing := none })
    | .otherError => s.disconnect s.loop

/-- `stream_loop` reads nothing while it awaits a `PUT`. -/
def Enabled (s : VolvaTasks) : TaskEvent → Prop
  | .refreshed _ => True
  | .message _ => s.publishing = none
  | .badMessage => s.publishing = none
  | .connectionLost => s.publishing = none
  | .putEnded _ => s.publishing.isSome = true

instance (s : VolvaTasks) (e : TaskEvent) : Decidable (s.Enabled e) := by
  cases e <;> unfold Enabled <;> infer_instance

end VolvaTasks

/-- Völva with its configured window size. -/
def volvaMachine (extract : Extractor) (windowSize : Int) :
    Machine VolvaTasks TaskEvent TaskResponse where
  step s e := s.step extract windowSize e

/-- The steps that one event loop can take. -/
def TaskOrder (c : Config VolvaTasks TaskEvent TaskResponse) (e : TaskEvent) : Prop :=
  c.state.Enabled e

end Grimnir.Volva
