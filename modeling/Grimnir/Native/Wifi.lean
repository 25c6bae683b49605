import Grimnir.ForStd.Machine

/-!
# `wifi_event_handler` and `wifi_init_sta` of both firmwares

The event bits and the retry counter, the main task from its first connect attempt to the
end of `wifi_init_sta`, and the station as the driver sees it.  A call of `esp_wifi_connect`
starts an attempt, which ends in `GOT_IP` or `STA_DISCONNECTED`.
-/

namespace Grimnir

/-! ## `wifi_event_handler` -/

/-- `s_wifi_event_group` and `s_retry_count`. -/
structure WifiState where
  retryCount : Nat
  /-- `WIFI_CONNECTED_BIT`. -/
  connectedBit : Bool
  /-- `WIFI_FAIL_BIT`. -/
  failBit : Bool
  deriving DecidableEq, Repr

inductive WifiEvent where
  | staStart
  | staDisconnected
  | gotIp
  deriving DecidableEq, Repr

/-- Where the two handlers differ. -/
structure Firmware where
  /-- The bits are cleared by the event that makes them wrong. -/
  clearsBits : Bool
  /-- `STA_START` calls `esp_wifi_connect`; otherwise `wifi_init_sta` does. -/
  connectsOnStart : Bool

/-- Clearing a bit. -/
def Firmware.clear (fw : Firmware) (bit : Bool) : Bool := bit && !fw.clearsBits

/-- A handler: whether it calls `esp_wifi_connect`, and the state then. -/
def Firmware.handle (fw : Firmware) (maxRetry : Nat) (s : WifiState) :
    WifiEvent → Bool × WifiState
  | .staStart => (fw.connectsOnStart, s)
  | .staDisconnected =>
    let s := { s with connectedBit := fw.clear s.connectedBit }
    -- only an IP sets the counter back
    if s.retryCount < maxRetry then (true, { s with retryCount := s.retryCount + 1 })
    else (false, { s with failBit := true })
  | .gotIp => (false, ⟨0, true, fw.clear s.failBit⟩)

/-- The receiver. -/
def muninn : Firmware := ⟨true, false⟩

/-- The transmitter. -/
def huginn : Firmware := ⟨false, true⟩

/-- `wifi_event_handler` of Muninn. -/
def Muninn.wifiEventHandler (maxRetry : Nat) (e : WifiEvent) (s : WifiState) :
    Bool × WifiState := muninn.handle maxRetry s e

/-- `wifi_event_handler` of Huginn. -/
def Huginn.wifiEventHandler (maxRetry : Nat) (e : WifiEvent) (s : WifiState) :
    Bool × WifiState := huginn.handle maxRetry s e

/-! ## `wifi_init_sta` -/

/-- Where the main task stands. -/
inductive MainTask where
  /-- Before `xEventGroupWaitBits`. -/
  | connecting
  | waiting
  /-- The wait has returned; `connected` is `bits & WIFI_CONNECTED_BIT`. -/
  | woken (connected : Bool)
  /-- `wifi_init_sta` has returned. -/
  | running
  /-- `esp_restart` has been called. -/
  | restarting
  deriving DecidableEq, Repr

/-- A board. -/
structure Board where
  wifi : WifiState
  main : MainTask
  /-- The station has an IP. -/
  online : Bool
  /-- An attempt of `esp_wifi_connect` has not ended. -/
  attempt : Bool
  deriving DecidableEq, Repr

inductive BoardEvent where
  | wifi (e : WifiEvent)
  /-- The main task runs up to its next wait or call. -/
  | main
  /-- Another task calls `esp_restart`. -/
  | restart
  deriving DecidableEq, Repr

namespace Board

variable (fw : Firmware) (maxRetry : Nat)

/-- `xEventGroupWaitBits` for either bit: the bits as they are when it returns. -/
def waitBits (wifi : WifiState) : MainTask :=
  if wifi.connectedBit || wifi.failBit then .woken wifi.connectedBit else .waiting

/-- What the driver does to the station when it posts an event. -/
def station (b : Board) : WifiEvent → Board
  | .staStart => b
  | .staDisconnected => { b with online := false, attempt := false }
  | .gotIp => { b with online := true, attempt := false }

/-- The driver posts an event, and the handler runs; setting a bit wakes the main task. -/
def wifiEvent (b : Board) (e : WifiEvent) : Board :=
  let b := b.station e
  let (connect, wifi) := fw.handle maxRetry b.wifi e
  { b with
    wifi := wifi
    attempt := b.attempt || connect
    main := if b.main = .waiting then waitBits wifi else b.main }

/-- The next step of the main task. -/
def mainStep (b : Board) : Board :=
  match b.main with
  | .connecting => { b with main := waitBits b.wifi }
  | .woken true => { b with main := .running }
  | .woken false => { b with main := .restarting }
  | _ => b

/-- One event; after `esp_restart` there is none. -/
def step (b : Board) (e : BoardEvent) : Board :=
  if b.main = .restarting then b
  else
    match e with
    | .wifi e => b.wifiEvent fw maxRetry e
    | .main => b.mainStep
    | .restart => { b with main := .restarting }

/-- A board right after its first call of `esp_wifi_connect`: in `wifi_init_sta`, or in the
    handler of `STA_START`. -/
def boot : Board :=
  let (connect, wifi) := fw.handle maxRetry ⟨0, false, false⟩ .staStart
  ⟨wifi, .connecting, false, connect || !fw.connectsOnStart⟩

end Board

/-- The boards. -/
def boardMachine (fw : Firmware) (maxRetry : Nat) : Machine Board BoardEvent Unit where
  step b e := ((), b.step fw maxRetry e)

end Grimnir
