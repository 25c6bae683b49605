import Grimnir.Native.Ingest
import Grimnir.Native.Watchdog

/-!
# Muninn, Geri and the network between them

The watchdog of one Muninn and the aggregator, with the datagrams in flight.  Times are
Muninn's; Geri's loop reads another clock, which differs by a constant.
-/

namespace Grimnir

open Muninn (Watchdog WatchdogConfig WatchdogEvent WifiCsiInfo)
open Geri (Ingest IngestConfig IngestEvent)

/-- The two parties and the network. -/
structure AckLoopConfig where
  watchdog : WatchdogConfig
  ingest : IngestConfig
  /-- Muninn's socket as Geri sees it. -/
  addr : Geri.Addr
  /-- What Geri's clock shows when Muninn's shows zero. -/
  offset : Int
  /-- The longest time that a packet or an ACK is in flight. -/
  delay : Int
  /-- The longest time between two polls. -/
  pollInterval : Int

/-- `ACK_PAYLOAD` of Geri. -/
def Geri.ackPayload : List UInt8 := PyStr.encodeAscii "grimnir-ack"

/-- A packet in flight. -/
structure SentPacket where
  sentAt : Int
  datagram : List UInt8
  deriving DecidableEq, Repr

structure AckLoop where
  muninn : Watchdog
  geri : Ingest
  packets : List SentPacket
  /-- When the ACKs in flight to Muninn were sent. -/
  acks : List Int
  lastPoll : Int
  /-- The time of the latest event. -/
  clock : Int

inductive AckLoopEvent where
  /-- A CSI callback, and the datagram that `udp_send_task` makes of it. -/
  | csi (info : WifiCsiInfo) (datagram : List UInt8)
  /-- A packet in flight reaches Geri. -/
  | deliver (i : Nat) (wallTime : Timestamp)
  /-- An ACK in flight reaches Muninn. -/
  | ack (i : Nat)
  | poll
  /-- Something else happens at Muninn. -/
  | muninn (e : WatchdogEvent)
  /-- Something else happens at Geri. -/
  | geri (e : IngestEvent)

structure TimedLoopEvent where
  now : Int
  event : AckLoopEvent

namespace AckLoop

variable (config : AckLoopConfig)

/-- A packet reaches Geri. -/
def receive (packet : SentPacket) (wallTime : Timestamp) (now : Int) (s : AckLoop) : AckLoop :=
  let (response, geri) := s.geri.datagramReceived config.ingest packet.datagram config.addr
    wallTime (now + config.offset)
  { s with
    geri := geri
    acks := s.acks ++ (response.acks.filter (· == config.addr)).map fun _ => now }

/-- One event, with the reason of a reset. -/
def step (s : AckLoop) (e : TimedLoopEvent) : Muninn.ResetReason × AckLoop :=
  let s := { s with clock := e.now }
  match e.event with
  | .csi info datagram =>
    let s := { s with muninn := s.muninn.csiCallback config.watchdog info e.now }
    if Muninn.matchesHuginn config.watchdog info then
      (none, { s with packets := s.packets ++ [⟨e.now, datagram⟩] })
    else (none, s)
  | .deliver i wallTime =>
    match s.packets[i]? with
    | some packet =>
      (none, { s with packets := s.packets.eraseIdx i }.receive config packet wallTime e.now)
    | none => (none, s)
  | .ack i =>
    if i < s.acks.length then
      (none, { s with
        muninn := s.muninn.udpAckTask Geri.ackPayload e.now
        acks := s.acks.eraseIdx i })
    else (none, s)
  | .poll =>
    let (reset, muninn) := s.muninn.receiverWatchdogTask config.watchdog e.now
    (reset, { s with muninn := muninn, lastPoll := e.now })
  | .muninn event =>
    let (reset, muninn) := s.muninn.step config.watchdog ⟨e.now, event⟩
    (reset, { s with muninn := muninn })
  | .geri event => (none, { s with geri := (s.geri.step config.ingest event).2 })

/-- Muninn starts at `now`, connected, with an aggregator that may have been running. -/
def start (geri : Ingest) (now : Int) : AckLoop where
  muninn := { Watchdog.boot with wifi := ⟨0, true, false⟩ }
  geri := geri
  packets := []
  acks := []
  lastPoll := now
  clock := now

end AckLoop

/-- Muninn and Geri. -/
def ackLoopMachine (config : AckLoopConfig) :
    Machine AckLoop TimedLoopEvent Muninn.ResetReason where
  step s e := s.step config e

end Grimnir
