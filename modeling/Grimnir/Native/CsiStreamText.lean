import Grimnir.ForStd.Datetime
import Grimnir.ForStd.EventStream
import Grimnir.ForStd.JsonDump
import Grimnir.Native.CsiStream

/-!
# The text of `/api/csi-stream`

`_serialize` and the keepalive comment of `freki/routers/csi_stream.py`, and what `stream_loop`
of `volva/predict.py` makes of the text.  `httpx_sse` decodes the event stream.
-/

namespace Grimnir

/-! ## Freki -/

/-- A `REAL` as a Python float: the double with the value of a single. -/
def widen (word : UInt32) : UInt64 :=
  let sign := word.toNat / 2 ^ 31
  let exponent := word.toNat / 2 ^ 23 % 2 ^ 8
  let fraction := word.toNat % 2 ^ 23
  let magnitude :=
    if exponent = 255 then 2047 * 2 ^ 52 + fraction * 2 ^ 29
    else if exponent ≠ 0 then (exponent + 896) * 2 ^ 52 + fraction * 2 ^ 29
    else if fraction = 0 then 0
    else
      -- a subnormal single is a normal double
      let top := fraction.log2
      (top + 874) * 2 ^ 52 + (fraction - 2 ^ top) * 2 ^ (52 - top)
  UInt64.ofNat (sign * 2 ^ 63 + magnitude)

/-- A column that may be `NULL`. -/
def nullable {α : Type} (doc : α → Json) : Option α → Json
  | none => .null
  | some a => doc a

/-- The payload of `_serialize`, with `row.time` as the driver returns it. -/
def CsiSample.payload (r : CsiSample) (time : Datetime) : List (String × Json) :=
  [("time", .str (String.ofList time.isoformat)), ("receiver_id", .int r.receiverId),
    ("transmitter_mac", .str r.transmitterMac), ("rssi", .int r.rssi),
    ("noise_floor", nullable .int r.noiseFloor), ("channel", .int r.channel),
    ("bandwidth", .int r.bandwidth), ("antenna_count", .int r.antennaCount),
    ("subcarrier_count", .int r.subcarrierCount),
    ("amplitude", .arr (r.amplitude.map fun w => .float (widen w))),
    ("phase", .arr (r.phase.map fun w => .float (widen w))), ("label", nullable .str r.label)]

/-- `_serialize`; `none` for a time that the driver cannot represent. -/
def CsiSample.serialize (ft : Json.FloatText) (r : CsiSample) : Option EventStream.Block :=
  (Datetime.ofTimestamp? r.time).map fun time => .message (Json.dumps ft (.obj (r.payload time)))

/-- What is written for an output, at a wall clock time. -/
def StreamOutput.blocks (ft : Json.FloatText) (now : Datetime) :
    StreamOutput → List EventStream.Block
  | .nothing => []
  | .data row => (row.serialize ft).toList
  | .tail => [.comment ('t' :: 'a' :: 'i' :: 'l' :: ' ' :: now.isoformat)]

/-- Everything a connection has written, each output at a time of its own. -/
def streamBlocks (ft : Json.FloatText) (clock : Nat → Datetime) :
    List (StreamEvent × StreamOutput) → List EventStream.Block
  | [] => []
  | (_, output) :: log => streamBlocks ft clock log ++ output.blocks ft (clock log.length)

/-- The text of a connection. -/
def streamText (ft : Json.FloatText) (clock : Nat → Datetime)
    (log : List (StreamEvent × StreamOutput)) : List Char :=
  (streamBlocks ft clock log).flatMap EventStream.Block.write

/-! ## Völva -/

namespace Volva

/-- What `json.loads(event.data)` gives for the events that `stream_loop` looks at. -/
def messages (limits : Json.Limits) (ft : Json.FloatText) (text : List Char) :
    List (Except Json.LoadsError Json) :=
  ((EventStream.decode text).filter fun e => e.type = EventStream.messageType ∨ e.type = []).map
    fun e => Json.loadsStr limits ft.parse e.data

end Volva

end Grimnir
