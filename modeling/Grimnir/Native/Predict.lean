import Grimnir.ForStd.Dict
import Grimnir.ForStd.Machine
import Grimnir.Native.Features

/-!
# `volva/predict.py`: live inference

`stream_loop` as a machine.  Its events are the rows of the stream, each with the model that
`holder.current` gives and with the outcome of the publishing `PUT`, and the end of a
connection.  Feature extraction is a parameter, a classifier is its `predict`.
-/

namespace Grimnir.Volva

/-- An exception of `_predict_once`. -/
inductive PredictError where
  | valueError (message : String)
  | other (message : String)
  deriving DecidableEq, Repr

/-- `ActiveModel`. -/
structure ActiveModel where
  id : Int
  name : String
  classifier : List UInt32 → Except PredictError String
  featureConfig : FeatureConfig
  classes : List String
  createdAt : Timestamp

/-- `extract_features`. -/
abbrev Extractor := List RowDoc → FeatureConfig → Except PredictError (List UInt32)

/-- `VOTE_HISTORY`. -/
def voteHistory : Nat := 5

/-- `_ReceiverState`. -/
structure ReceiverState where
  buf : List RowDoc
  votes : List String
  deriving DecidableEq, Repr

/-- `_predict_once`. -/
def predictOnce (extract : Extractor) (model : ActiveModel) (buf : List RowDoc) :
    Except PredictError String := do
  let features ← extract buf model.featureConfig
  model.classifier features

/-- `votes.append(room)` on a `deque` of at most `VOTE_HISTORY` entries. -/
def appendVote (votes : List String) (room : String) : List String :=
  (votes ++ [room]).drop (votes.length + 1 - voteHistory)

/-- `Counter(votes).most_common(1)[0][0]`: the first of the most frequent votes. -/
def mostCommon (votes : List String) : Option String :=
  votes.foldl
    (fun best vote =>
      match best with
      | none => some vote
      | some top => if votes.count top < votes.count vote then some vote else some top)
    none

/-- `rooms` of the payload: each known room with its `human_count`. -/
abbrev Rooms := List (String × Nat)

/-- `_aggregate`. -/
def aggregate (votesByReceiver : List (List String)) (knownRooms : List String) : Rooms :=
  let winners := votesByReceiver.filterMap mostCommon
  knownRooms.map fun room => (room, if winners.contains room then 1 else 0)

/-- A published prediction, without its timestamp. -/
structure Prediction where
  modelId : Int
  rooms : Rooms
  deriving DecidableEq, Repr

/-- The state of `stream_loop`. -/
structure StreamLoop where
  receivers : Dict Int ReceiverState
  lastPublished : Option Prediction
  activeModelId : Option Int

/-- `stream_loop` as it starts. -/
def StreamLoop.start : StreamLoop := ⟨.empty, none, none⟩

/-- A window that `_handle_row` gives to `_predict_once`. -/
structure PredictCall where
  receiverId : Int
  rows : List RowDoc
  deriving DecidableEq, Repr

/-- What an event makes visible: the windows given to `_predict_once`, and the predictions
    put, whether or not the `PUT` succeeds. -/
structure StreamResponse where
  windows : List PredictCall
  puts : List Prediction
  deriving DecidableEq, Repr

inductive StreamEvent where
  /-- A row, with `holder.current` and whether a `PUT` would succeed. -/
  | row (row : RowDoc) (current : Option ActiveModel) (put : Bool)
  /-- The connection ends or an error reaches `stream_loop`. -/
  | disconnected

namespace StreamLoop

/-- `_handle_row`: whether there is a new vote, and the window given to `_predict_once`. -/
def handleRow (extract : Extractor) (row : RowDoc) (model : ActiveModel) (windowSize : Int)
    (receivers : Dict Int ReceiverState) :
    Bool × List PredictCall × Dict Int ReceiverState :=
  match row.receiverId with
  | none => (false, [], receivers)
  | some rid =>
    let rs := (receivers.get? rid).getD ⟨[], []⟩
    let buf := rs.buf ++ [row]
    if buf.length < windowSize then (false, [], receivers.set rid ⟨buf, rs.votes⟩)
    else
      match predictOnce extract model buf with
      | .error _ => (false, [⟨rid, buf⟩], receivers.set rid ⟨[], rs.votes⟩)
      | .ok room => (true, [⟨rid, buf⟩], receivers.set rid ⟨[], appendVote rs.votes room⟩)

/-- `_maybe_publish`: the prediction put, and `last_published`. -/
def maybePublish (model : ActiveModel) (votesByReceiver : List (List String))
    (lastPublished : Option Prediction) (put : Bool) :
    List Prediction × Option Prediction :=
  let prediction := ⟨model.id, aggregate votesByReceiver model.classes⟩
  if lastPublished = some prediction then ([], lastPublished)
  else ([prediction], if put then some prediction else lastPublished)

/-- `state.clear()` and `last_published = None` when the model is not the active one. -/
def adopt (model : ActiveModel) (s : StreamLoop) : StreamLoop :=
  if s.activeModelId = some model.id then s else ⟨.empty, none, some model.id⟩

/-- `rs.buf.clear()` for every receiver. -/
def clearBuffers (receivers : Dict Int ReceiverState) : Dict Int ReceiverState :=
  receivers.update (fun p => (p.1, { p.2 with buf := [] })) fun _ => rfl

/-- One event. -/
def step (extract : Extractor) (windowSize : Int) (s : StreamLoop) :
    StreamEvent → StreamResponse × StreamLoop
  | .row _ none _ => (⟨[], []⟩, ⟨.empty, none, none⟩)
  | .row row (some model) put =>
    let s := s.adopt model
    let (changed, windows, receivers) := handleRow extract row model windowSize s.receivers
    if changed then
      let (puts, lastPublished) := maybePublish model
        (receivers.rows.map fun p => p.2.votes) s.lastPublished put
      (⟨windows, puts⟩, { s with receivers := receivers, lastPublished := lastPublished })
    else (⟨windows, []⟩, { s with receivers := receivers })
  | .disconnected => (⟨[], []⟩, { s with receivers := clearBuffers s.receivers })

end StreamLoop

/-- `stream_loop` with its configured window size. -/
def streamMachine (extract : Extractor) (windowSize : Int) :
    Machine StreamLoop StreamEvent StreamResponse where
  step s e := s.step extract windowSize e

end Grimnir.Volva
