import Grimnir.Native.CsiPool
import Grimnir.Native.Writer

/-!
# From the antennas to `csi_samples`

Receivers that capture frames and may restart at any moment, a network, and the aggregator, which
may be restarted too and then starts with an empty queue on the same tables.  The network
delivers what was handed to `sendto` at any moment, in any order, any number of times or never.
-/

namespace Grimnir

open Muninn Geri

namespace Muninn

/-- What happens on a receiver. -/
inductive ReceiverEvent where
  | agents (e : CsiPoolEvent)
  /-- The board restarts, for whatever reason, and comes to the end of `app_main`. -/
  | restart (sock : Int)

/-- The two agents of a receiver, through its restarts. -/
def receiverMachine (libm : Libm) (huginnMac : Struct.Bytes 6) (name : ReceiverName) :
    Machine CsiPool ReceiverEvent CsiPoolOutput where
  step s
    | .agents e => s.step libm huginnMac name e
    | .restart sock => (.silent, .boot sock)

/-- The datagram that a step hands to `sendto`. -/
def CsiPoolOutput.datagram? : CsiPoolOutput → Option (List UInt8)
  | .sendto datagram => some datagram
  | _ => none

end Muninn

namespace Geri

/-- What happens to the aggregator. -/
inductive ProcessEvent where
  | run (e : AggregatorEvent)
  /-- The process is gone, and a new one starts on the tables. -/
  | restart

/-- The aggregator through its restarts. -/
def processMachine (config : IngestConfig) :
    Machine Aggregator ProcessEvent AggregatorResponse where
  step s
    | .run e => s.step config e
    | .restart => (Aggregator.quiet, .boot s.ingest.db)

end Geri

/-- How the receivers and the aggregator are built. -/
structure Site (ι : Type) where
  libm : ι → Libm
  huginnMac : ι → Struct.Bytes 6
  name : ι → ReceiverName
  geri : IngestConfig

/-- The receivers, every datagram that one of them has handed to `sendto`, the oldest first, and
    the aggregator. -/
structure CapturePath (ι : Type) where
  receivers : ι → CsiPool
  air : List (ι × List UInt8)
  geri : Aggregator

inductive CaptureEvent (ι : Type) where
  | receiver (i : ι) (e : ReceiverEvent)
  /-- The `k`-th datagram arrives at the aggregator. -/
  | arrival (k : Nat) (addr : Addr) (wallTime : Timestamp) (loopTime : LoopTime)
  /-- Something else happens to the aggregator. -/
  | geri (e : ProcessEvent)

/-- Who took part in an event, and what it made visible. -/
inductive CaptureOutput where
  | receiver (output : CsiPoolOutput)
  | geri (e : ProcessEvent) (response : AggregatorResponse)
  /-- There is no such datagram. -/
  | nothing

namespace CapturePath

variable {ι : Type} [DecidableEq ι]

/-- An event of the aggregator. -/
def stepGeri (site : Site ι) (s : CapturePath ι) (e : ProcessEvent) :
    CaptureOutput × CapturePath ι :=
  let (response, geri) := (processMachine site.geri).step s.geri e
  (.geri e response, { s with geri := geri })

/-- One event. -/
def step (site : Site ι) (s : CapturePath ι) : CaptureEvent ι → CaptureOutput × CapturePath ι
  | .receiver i e =>
    let (output, pool) :=
      (receiverMachine (site.libm i) (site.huginnMac i) (site.name i)).step (s.receivers i) e
    (.receiver output,
      { s with
        receivers := Function.update s.receivers i pool
        air := s.air ++ (output.datagram?.map fun datagram => (i, datagram)).toList })
  | .arrival k addr wallTime loopTime =>
    match s.air[k]? with
    | none => (.nothing, s)
    | some (_, datagram) => s.stepGeri site (.run (.datagram datagram addr wallTime loopTime))
  | .geri e => s.stepGeri site e

/-- Every receiver has booted, and the aggregator starts on a database. -/
def boot (sock : ι → Int) (db : IngestDb) : CapturePath ι :=
  ⟨fun i => .boot (sock i), [], .boot db⟩

end CapturePath

/-- The whole path of a frame. -/
def captureMachine {ι : Type} [DecidableEq ι] (site : Site ι) :
    Machine (CapturePath ι) (CaptureEvent ι) CaptureOutput :=
  ⟨CapturePath.step site⟩

end Grimnir
