import Grimnir.Native.Muninn
import Grimnir.Native.Wifi

/-!
# `firmware/muninn/main/main.c`: the ACK watchdog

The statics that `csi_callback`, `udp_ack_task`, `wifi_event_handler`, `udp_send_task` and
`receiver_watchdog_task` share, with one atomic step for each of them.  Times are those of
`esp_timer_get_time`, in microseconds; zero says that there was none.
-/

namespace Grimnir.Muninn

open Struct

/-- What `config.h` gives the watchdog. -/
structure WatchdogConfig where
  /-- `HUGINN_MAC`. -/
  huginnMac : Bytes 6
  /-- `WIFI_MAX_RETRY`. -/
  wifiMaxRetry : Nat
  ackTimeoutUs : Int
  csiGraceUs : Int

/-- The statics. -/
structure Watchdog where
  wifi : WifiState
  lastCsiUs : Int
  firstUnackedCsiUs : Int
  lastAckUs : Int
  ackWatchdogArmed : Bool
  deriving DecidableEq, Repr

inductive WatchdogEvent where
  | wifi (e : WifiEvent)
  | csi (info : WifiCsiInfo)
  /-- `recvfrom` returns a datagram to `udp_ack_task`. -/
  | received (payload : List UInt8)
  /-- `sendto` fails in `udp_send_task`, with its `errno`. -/
  | sendFailed (errno : Int)
  /-- A round of `receiver_watchdog_task`. -/
  | poll

/-- An event and the time at which it is handled. -/
structure TimedEvent where
  now : Int
  event : WatchdogEvent

/-- The reason of a call of `reset_udp_transport`. -/
abbrev ResetReason := Option String

/-- `ACK_PAYLOAD`. -/
def ackPayload : List UInt8 := PyStr.encodeAscii "grimnir-ack"

/-- `EINTR`. -/
def eintr : Int := 4

/-- A frame that `csi_callback` counts as Huginn's. -/
def matchesHuginn (config : WatchdogConfig) (info : WifiCsiInfo) : Bool :=
  info.len ≠ 0 && info.mac == config.huginnMac

/-- A datagram that `udp_ack_task` takes for an ACK; its buffer has 64 bytes. -/
def validAck (payload : List UInt8) : Bool :=
  let buf := payload.take 64
  buf.length == ackPayload.length && buf == ackPayload

namespace Watchdog

/-- The statics at boot. -/
def boot : Watchdog := ⟨⟨0, false, false⟩, 0, 0, 0, false⟩

/-- `clear_ack_watchdog_state`. -/
def clearAckWatchdogState (s : Watchdog) : Watchdog :=
  { s with ackWatchdogArmed := false, lastAckUs := 0, firstUnackedCsiUs := 0 }

/-- `reset_udp_transport`. -/
def resetUdpTransport (reason : String) (s : Watchdog) : ResetReason × Watchdog :=
  (some reason, s.clearAckWatchdogState)

/-- `wifi_event_handler`. -/
def wifiEventHandler (config : WatchdogConfig) (e : WifiEvent) (s : Watchdog) : Watchdog :=
  let s := { s with wifi := (Muninn.wifiEventHandler config.wifiMaxRetry e s.wifi).2 }
  match e with
  -- without a link there is nothing to wait for
  | .staDisconnected => { s.clearAckWatchdogState with lastCsiUs := 0 }
  | _ => s

/-- `csi_callback`. -/
def csiCallback (config : WatchdogConfig) (info : WifiCsiInfo) (now : Int) (s : Watchdog) :
    Watchdog :=
  if matchesHuginn config info then
    { s with
      lastCsiUs := now
      firstUnackedCsiUs := if s.firstUnackedCsiUs = 0 then now else s.firstUnackedCsiUs }
  else s

/-- A round of `udp_ack_task`. -/
def udpAckTask (payload : List UInt8) (now : Int) (s : Watchdog) : Watchdog :=
  if validAck payload then
    { s with lastAckUs := now, ackWatchdogArmed := true, firstUnackedCsiUs := 0 }
  else s

/-- The error path of `udp_send_task`; no other reset runs at the same time. -/
def sendFailed (errno : Int) (s : Watchdog) : ResetReason × Watchdog :=
  if errno ≠ eintr then s.resetUdpTransport "send error" else (none, s)

/-- A round of `receiver_watchdog_task`. -/
def receiverWatchdogTask (config : WatchdogConfig) (now : Int) (s : Watchdog) :
    ResetReason × Watchdog :=
  if !s.wifi.connectedBit then (none, s)
  else if s.lastCsiUs = 0 then (none, s)
  -- Huginn is silent, so no packets go out that Geri could acknowledge
  else if now - s.lastCsiUs > config.csiGraceUs then (none, s.clearAckWatchdogState)
  else if !s.ackWatchdogArmed then
    if s.firstUnackedCsiUs ≠ 0 ∧ now - s.firstUnackedCsiUs > config.ackTimeoutUs then
      s.resetUdpTransport "ACKs never started"
    else (none, s)
  else if s.lastAckUs ≠ 0 ∧ now - s.lastAckUs ≤ config.ackTimeoutUs then (none, s)
  else s.resetUdpTransport "ACK timeout"

/-- One event. -/
def step (config : WatchdogConfig) (s : Watchdog) (e : TimedEvent) : ResetReason × Watchdog :=
  match e.event with
  | .wifi wifi => (none, s.wifiEventHandler config wifi)
  | .csi info => (none, s.csiCallback config info e.now)
  | .received payload => (none, s.udpAckTask payload e.now)
  | .sendFailed errno => s.sendFailed errno
  | .poll => s.receiverWatchdogTask config e.now

end Watchdog

/-- The watchdog with the handlers it watches. -/
def watchdogMachine (config : WatchdogConfig) : Machine Watchdog TimedEvent ResetReason where
  step s e := s.step config e

end Grimnir.Muninn
