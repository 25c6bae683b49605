import Grimnir.ForStd.Fifo
import Grimnir.ForStd.Machine
import Grimnir.Native.Watchdog
import Mathlib.Data.List.FinRange

/-!
# `firmware/muninn/main/main.c`: the pool behind the CSI queue

`app_main` puts a pointer to every entry of `s_csi_pool` into `s_csi_free_queue`.
`csi_callback` takes one, fills the entry and queues it; `udp_send_task` sends it and gives
it back.  One event runs one of the two up to and over its next queue operation or call
into the network stack, so the two interleave at each of these.
-/

namespace Grimnir.Muninn

/-- `CSI_QUEUE_LEN`. -/
def csiQueueLen : Nat := 32

/-- A `csi_entry_t *` that points into `s_csi_pool`, or `NULL`. -/
abbrev EntryPtr := Option (Fin csiQueueLen)

/-- An entry of all zero bytes. -/
def zeroEntry : CsiEntry where
  txMac := CMemory.memset 6 0
  rssi := 0
  noiseFloor := 0
  channel := 0
  bandwidthMhz := 0
  antennaCount := 0
  subcarrierCount := 0
  timestampUs := 0
  amplitude := .replicate maxValues 0
  phase := .replicate maxValues 0
  fits := Nat.zero_le _

/-- Where a call of `csi_callback` stands, with the entry it holds and the contents it is
    about to write. -/
inductive CallbackPoint where
  /-- Not called. -/
  | idle
  /-- At `xQueueReceive(s_csi_free_queue)`. -/
  | taking (contents : CsiEntry)
  /-- At the `memset`. -/
  | clearing (entry : Fin csiQueueLen) (contents : CsiEntry)
  /-- At the assignments. -/
  | filling (entry : Fin csiQueueLen) (contents : CsiEntry)
  /-- At `xQueueSend(s_csi_queue)`. -/
  | queueing (entry : Fin csiQueueLen)
  /-- At `xQueueSend(s_csi_free_queue)`, the queue having been full. -/
  | givingBack (entry : Fin csiQueueLen)

/-- Where `udp_send_task` stands in its loop. -/
inductive SendPoint where
  /-- At `xQueueReceive(s_csi_queue)`. -/
  | receiving
  /-- At `s_sock < 0`. -/
  | checking (entry : Fin csiQueueLen)
  /-- At `xQueueSend(s_csi_free_queue)`, without a socket. -/
  | parking (entry : Fin csiQueueLen)
  /-- In the `vTaskDelay` after it. -/
  | napping
  /-- Building the packet. -/
  | building (entry : Fin csiQueueLen)
  /-- In `sendto` on a socket. -/
  | sending (entry : Fin csiQueueLen) (sock : Int)
  /-- In `reset_udp_transport`. -/
  | resetting (entry : Fin csiQueueLen)
  /-- In the `vTaskDelay` after a failed `sendto`. -/
  | delaying (entry : Fin csiQueueLen)
  /-- At the last `xQueueSend(s_csi_free_queue)`. -/
  | returning (entry : Fin csiQueueLen)

/-- The pool with its two queues, the socket and the static packet buffer, and the two
    agents. -/
structure CsiPool where
  pool : Fin csiQueueLen → CsiEntry
  csiFreeQueue : Fifo EntryPtr csiQueueLen
  csiQueue : Fifo EntryPtr csiQueueLen
  sock : Int
  pktBuf : Struct.Bytes pktBufSize
  callback : CallbackPoint
  task : SendPoint

inductive CsiPoolEvent where
  /-- The driver calls `csi_callback`, in which `esp_timer_get_time()` will be `now`.  It makes
      no second call before the first one returns. -/
  | csi (info : Option WifiCsiInfo) (now : Nat)
  | runCallback
  | runTask
  /-- `sendto` returns, with its `errno` when it failed. -/
  | sendtoReturns (errno : Option Int)
  /-- `reset_udp_transport` returns; `s_sock` is what it and other tasks have made of it. -/
  | resetReturns (sock : Int)
  /-- Another task replaces or closes the socket. -/
  | setSock (sock : Int)

/-- What a step does besides moving on: hand a datagram to `sendto`, or find a queue full. -/
inductive CsiPoolOutput where
  | silent
  | sendto (datagram : List UInt8)
  | queueFull
  deriving DecidableEq, Repr

namespace CsiPool

/-- `*entry = e`. -/
def write (s : CsiPool) (entry : Fin csiQueueLen) (e : CsiEntry) : CsiPool :=
  { s with pool := Function.update s.pool entry e }

/-- `csi_callback` from one queue operation to the next. -/
def runCallback (s : CsiPool) : CsiPoolOutput × CsiPool :=
  match s.callback with
  | .idle => (.silent, s)
  | .taking contents =>
    match s.csiFreeQueue.receive with
    | none => (.silent, { s with callback := .idle })
    | some (none, free) => (.silent, { s with csiFreeQueue := free, callback := .idle })
    | some (some entry, free) =>
      (.silent, { s with csiFreeQueue := free, callback := .clearing entry contents })
  | .clearing entry contents =>
    (.silent, { s.write entry zeroEntry with callback := .filling entry contents })
  | .filling entry contents =>
    (.silent, { s.write entry contents with callback := .queueing entry })
  | .queueing entry =>
    match s.csiQueue.send (some entry) with
    | some queue => (.silent, { s with csiQueue := queue, callback := .idle })
    | none => (.queueFull, { s with callback := .givingBack entry })
  | .givingBack entry =>
    match s.csiFreeQueue.send (some entry) with
    | some free => (.silent, { s with csiFreeQueue := free, callback := .idle })
    -- the result is not looked at
    | none => (.queueFull, { s with callback := .idle })

/-- `udp_send_task` up to its next queue operation or call.  A send with `portMAX_DELAY` waits
    at a full queue, and so does the receive at an empty one. -/
def runTask (name : ReceiverName) (s : CsiPool) : CsiPoolOutput × CsiPool :=
  match s.task with
  | .receiving =>
    match s.csiQueue.receive with
    | none => (.silent, s)
    | some (none, queue) => (.silent, { s with csiQueue := queue })
    | some (some entry, queue) =>
      (.silent, { s with csiQueue := queue, task := .checking entry })
  | .checking entry =>
    if s.sock < 0 then (.silent, { s with task := .parking entry })
    else (.silent, { s with task := .building entry })
  | .parking entry =>
    match s.csiFreeQueue.send (some entry) with
    | some free => (.silent, { s with csiFreeQueue := free, task := .napping })
    | none => (.queueFull, s)
  | .napping => (.silent, { s with task := .receiving })
  | .building entry =>
    let (datagram, pktBuf) := udpSendTask name s.pktBuf (s.pool entry)
    (.sendto datagram, { s with pktBuf := pktBuf, task := .sending entry s.sock })
  | .sending _ _ => (.silent, s)
  | .resetting _ => (.silent, s)
  | .delaying entry => (.silent, { s with task := .returning entry })
  | .returning entry =>
    match s.csiFreeQueue.send (some entry) with
    | some free => (.silent, { s with csiFreeQueue := free, task := .receiving })
    | none => (.queueFull, s)

/-- One event. -/
def step (libm : Libm) (huginnMac : Struct.Bytes 6) (name : ReceiverName) (s : CsiPool) :
    CsiPoolEvent → CsiPoolOutput × CsiPool
  | .csi info now =>
    match s.callback with
    | .idle =>
      -- a frame without data or of another transmitter is dropped before a buffer is taken
      match info.bind fun info => csiCallback libm huginnMac info now with
      | none => (.silent, s)
      | some contents => (.silent, { s with callback := .taking contents })
    | _ => (.silent, s)
  | .runCallback => s.runCallback
  | .runTask => s.runTask name
  | .sendtoReturns errno =>
    match s.task with
    | .sending entry sock =>
      match errno with
      | none => (.silent, { s with task := .returning entry })
      | some errno =>
        if sock = s.sock ∧ errno ≠ eintr then
          (.silent, { s with task := .resetting entry })
        else (.silent, { s with task := .delaying entry })
    | _ => (.silent, s)
  | .resetReturns sock =>
    match s.task with
    | .resetting entry => (.silent, { s with sock := sock, task := .delaying entry })
    | _ => (.silent, s)
  | .setSock sock => (.silent, { s with sock := sock })

/-- What `app_main` has set up when it enables CSI and starts the task: the loop over the pool
    has filled the free queue. -/
def boot (sock : Int) : CsiPool where
  pool := fun _ => zeroEntry
  csiFreeQueue := Fifo.empty.sendAll ((List.finRange csiQueueLen).map some)
  csiQueue := Fifo.empty
  sock := sock
  pktBuf := CMemory.memset pktBufSize 0
  callback := .idle
  task := .receiving

end CsiPool

/-- The two agents of a receiver. -/
def csiPoolMachine (libm : Libm) (huginnMac : Struct.Bytes 6) (name : ReceiverName) :
    Machine CsiPool CsiPoolEvent CsiPoolOutput :=
  ⟨CsiPool.step libm huginnMac name⟩

end Grimnir.Muninn
