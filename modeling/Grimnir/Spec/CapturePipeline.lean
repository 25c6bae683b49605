import Grimnir.Native.CapturePath
import Grimnir.Spec.CsiPoolOwnership
import Grimnir.Spec.WireAgreement

/-!
# The pool as a queue of frames

`csi_callback` and `udp_send_task` pass pointers into a shared pool from one to the other.  Seen
from outside they are one queue of frames: a frame that finds an entry is sent unchanged and after
the frames before it, unless there is no socket when its turn comes or the board restarts.

## Key results

- `Pipelined.runCallback` / `.runTask`: what a move of either agent does to the frames in flight
- `framesKept_of_run`: every captured frame is accounted for in every run
-/

namespace Grimnir.Muninn

open CsiPool

/-- What a frame found at `xQueueReceive(s_csi_free_queue)`. -/
inductive Admission where
  | admitted
  /-- The pool had no free entry. -/
  | refused
  /-- The board restarted before. -/
  | interrupted
  deriving DecidableEq, Repr

/-- What became of an admitted frame. -/
inductive FrameFate where
  /-- It was handed to `sendto`. -/
  | sent
  /-- There was no socket. -/
  | parked
  /-- The board restarted. -/
  | lost
  deriving DecidableEq, Repr

/-- The frames captured so far, the oldest first. -/
structure CaptureBook where
  frames : List (CsiEntry × Admission)
  /-- The admitted frames that are done with. -/
  taken : List (CsiEntry × FrameFate)

/-- The frame that asks for an entry. -/
def CallbackPoint.asking : CallbackPoint → List CsiEntry
  | .taking contents => [contents]
  | _ => []

/-- The admitted frame that is not yet in the CSI queue. -/
def CallbackPoint.pending (pool : Fin csiQueueLen → CsiEntry) : CallbackPoint → List CsiEntry
  | .clearing _ contents => [contents]
  | .filling _ contents => [contents]
  | .queueing entry => [pool entry]
  | _ => []

/-- The entry whose frame is yet to be sent or parked. -/
def SendPoint.pending : SendPoint → List (Fin csiQueueLen)
  | .checking entry => [entry]
  | .building entry => [entry]
  | _ => []

/-- The frames on their way from the callback to `sendto`, the oldest first. -/
def CsiPool.inFlight (s : CsiPool) : List CsiEntry :=
  s.task.pending.map s.pool ++ (s.csiQueue.items.filterMap id).map s.pool ++
    s.callback.pending s.pool

namespace CaptureBook

def empty : CaptureBook := ⟨[], []⟩

/-- The frames that found an entry. -/
def admitted (b : CaptureBook) : List CsiEntry :=
  (b.frames.filter (·.2 = .admitted)).map (·.1)

/-- The frames handed to `sendto`. -/
def sent (b : CaptureBook) : List CsiEntry := (b.taken.filter (·.2 = .sent)).map (·.1)

def enter (contents : CsiEntry) (admission : Admission) (b : CaptureBook) : CaptureBook :=
  { b with frames := b.frames ++ [(contents, admission)] }

def take (entry : CsiEntry) (fate : FrameFate) (b : CaptureBook) : CaptureBook :=
  { b with taken := b.taken ++ [(entry, fate)] }

/-- What an event writes into the book. -/
def record (s : CsiPool) (e : ReceiverEvent) (b : CaptureBook) : CaptureBook :=
  match e with
  | .agents .runCallback =>
    match s.callback with
    | .taking contents =>
      b.enter contents (if s.csiFreeQueue.items = [] then .refused else .admitted)
    | _ => b
  | .agents .runTask =>
    match s.task with
    | .checking entry => if s.sock < 0 then b.take (s.pool entry) .parked else b
    | .building entry => b.take (s.pool entry) .sent
    | _ => b
  | .restart _ =>
    ⟨b.frames ++ s.callback.asking.map fun contents => (contents, .interrupted),
      b.taken ++ s.inFlight.map fun entry => (entry, .lost)⟩
  | .agents _ => b

/-- An admitted frame is the newest of them. -/
private theorem admitted_enter (contents : CsiEntry) (b : CaptureBook) :
    (b.enter contents .admitted).admitted = b.admitted ++ [contents] := by
  simp [admitted, enter]

/-- A frame that found no entry is not admitted. -/
private theorem admitted_enter_of_ne (contents : CsiEntry) {admission : Admission}
    (h : admission ≠ .admitted) (b : CaptureBook) :
    (b.enter contents admission).admitted = b.admitted := by
  simp [admitted, enter, h]

/-- A sent frame is the newest of them. -/
private theorem sent_take (entry : CsiEntry) (b : CaptureBook) :
    (b.take entry .sent).sent = b.sent ++ [entry] := by
  simp [sent, take]

/-- A frame with another fate is not sent. -/
private theorem sent_take_of_ne (entry : CsiEntry) {fate : FrameFate} (h : fate ≠ .sent)
    (b : CaptureBook) : (b.take entry fate).sent = b.sent := by
  simp [sent, take, h]

end CaptureBook

/-- A log of a receiver, newest first. -/
abbrev ReceiverLog := List (ReceiverEvent × CsiPoolOutput)

/-- The frame that a call of `csi_callback` goes on with. -/
def frame? (libm : Libm) (huginnMac : Struct.Bytes 6) : ReceiverEvent → Option CsiEntry
  | .agents (.csi info now) => info.bind fun info => csiCallback libm huginnMac info now
  | _ => none

/-- The frames that were captured, the oldest first. -/
def captured (libm : Libm) (huginnMac : Struct.Bytes 6) (log : ReceiverLog) : List CsiEntry :=
  (log.filterMap fun x => frame? libm huginnMac x.1).reverse

/-- The datagrams handed to `sendto`, the oldest first. -/
def datagrams (log : ReceiverLog) : List (List UInt8) :=
  (log.filterMap fun x => x.2.datagram?).reverse

/-- One more event captures its frame. -/
private theorem captured_cons (libm : Libm) (huginnMac : Struct.Bytes 6)
    (x : ReceiverEvent × CsiPoolOutput) (log : ReceiverLog) :
    captured libm huginnMac (x :: log) =
      captured libm huginnMac log ++ (frame? libm huginnMac x.1).toList := by
  cases hframe : frame? libm huginnMac x.1 <;> simp [captured, hframe]

/-- One more event sends its datagram. -/
theorem datagrams_cons (x : ReceiverEvent × CsiPoolOutput) (log : ReceiverLog) :
    datagrams (x :: log) = datagrams log ++ x.2.datagram?.toList := by
  cases hdatagram : x.2.datagram? <;> simp [datagrams, hdatagram]

/-- The datagram of a frame. -/
def CsiEntry.datagram (entry : CsiEntry) (name : ReceiverName) : List UInt8 :=
  (udpSendTask name (CMemory.memset pktBufSize 0) entry).1

/-- What the packet buffer held before does not matter. -/
private theorem udpSendTask_eq_datagram (name : ReceiverName) (pktBuf : Struct.Bytes pktBufSize)
    (entry : CsiEntry) : (udpSendTask name pktBuf entry).1 = entry.datagram name := by
  rw [CsiEntry.datagram, udpSendTask_datagram, udpSendTask_datagram]

/-- The driver calls `csi_callback` when the call before has returned. -/
def OneCall (s : CsiPool) : ReceiverEvent → Prop
  | .agents (.csi _ _) => s.callback = .idle
  | _ => True

/-- The receiver beside its book. -/
def bookMachine (libm : Libm) (huginnMac : Struct.Bytes 6) (name : ReceiverName) :
    Machine (CsiPool × CaptureBook) ReceiverEvent CsiPoolOutput where
  step s e :=
    let (output, pool) := (receiverMachine libm huginnMac name).step s.1 e
    (output, pool, s.2.record s.1 e)

/-! ## The frames in flight -/

/-- An entry that is queued or in the task's hand is not in the callback's. -/
private theorem CsiPool.Owned.not_mem_callback {s : CsiPool} (h : s.Owned) {entry : Fin csiQueueLen}
    (hplace : some entry ∈ s.csiQueue.items ∨ entry ∈ s.task.hand) :
    entry ∉ s.callback.hand := by
  intro hhand
  have honce := h.once entry
  have hcallback := List.count_pos_iff.mpr hhand
  rcases hplace with hqueue | htask
  · have hqueued := List.count_pos_iff.mpr hqueue
    omega
  · have hheld := List.count_pos_iff.mpr htask
    omega

/-- The task holds the entry whose frame is yet to be sent. -/
private theorem SendPoint.hand_of_mem_pending {point : SendPoint} {entry : Fin csiQueueLen}
    (h : entry ∈ point.pending) : entry ∈ point.hand := by
  cases point with
  | checking held => exact h
  | building held => exact h
  | _ => exact absurd h List.not_mem_nil

/-- It holds no fewer entries than frames to send. -/
private theorem SendPoint.length_pending_le (point : SendPoint) :
    point.pending.length ≤ point.hand.length := by
  cases point <;> simp [pending, hand]

/-- So does the callback. -/
private theorem CallbackPoint.length_pending_le (point : CallbackPoint)
    (pool : Fin csiQueueLen → CsiEntry) : (point.pending pool).length ≤ point.hand.length := by
  cases point <;> simp [pending, hand]

/-- An entry that is written holds the frame. -/
private theorem pool_write_self (s : CsiPool) (entry : Fin csiQueueLen) (e : CsiEntry) :
    (s.write entry e).pool entry = e := Function.update_self ..

/-- A write to the callback's entry touches no frame that is queued or in the task's hand. -/
private theorem CsiPool.Owned.frames_write {s : CsiPool} (h : s.Owned) {held : Fin csiQueueLen}
    (hhand : s.callback.hand = [held]) (e : CsiEntry) :
    s.task.pending.map (s.write held e).pool = s.task.pending.map s.pool ∧
      (s.csiQueue.items.filterMap id).map (s.write held e).pool =
        (s.csiQueue.items.filterMap id).map s.pool := by
  have hkept : ∀ entry, some entry ∈ s.csiQueue.items ∨ entry ∈ s.task.hand →
      (s.write held e).pool entry = s.pool entry := by
    intro entry hplace
    have hother := h.not_mem_callback hplace
    rw [hhand] at hother
    exact write_of_ne e (List.ne_of_not_mem_cons hother)
  constructor
  · exact List.map_congr_left fun entry hmem =>
      hkept entry (.inr (SendPoint.hand_of_mem_pending hmem))
  · refine List.map_congr_left fun entry hmem => hkept entry (.inl ?_)
    obtain ⟨pointer, hpointer, heq⟩ := List.mem_filterMap.mp hmem
    cases heq
    exact hpointer

/-- There are never more frames in flight than entries. -/
private theorem CsiPool.Owned.length_inFlight {s : CsiPool} (h : s.Owned) :
    s.inFlight.length ≤ csiQueueLen := by
  have hlength := h.length
  have htask := s.task.length_pending_le
  have hcallback := s.callback.length_pending_le s.pool
  have hqueue := List.length_filterMap_le id s.csiQueue.items
  simp only [inFlight, List.length_append, List.length_map]
  omega

/-! ## One step -/

/-- The book agrees with the log and the pool. -/
structure Pipelined (libm : Libm) (huginnMac : Struct.Bytes 6) (name : ReceiverName)
    (log : ReceiverLog) (s : CsiPool) (b : CaptureBook) : Prop where
  owned : s.Owned
  captured : captured libm huginnMac log = b.frames.map (·.1) ++ s.callback.asking
  order : b.admitted = b.taken.map (·.1) ++ s.inFlight
  sent : datagrams log = b.sent.map fun entry => entry.datagram name

namespace Pipelined

variable {libm : Libm} {huginnMac : Struct.Bytes 6} {name : ReceiverName} {log : ReceiverLog}
  {s : CsiPool} {b : CaptureBook}

/-- At boot no frame was captured and the pool is free. -/
theorem boot (libm : Libm) (huginnMac : Struct.Bytes 6) (name : ReceiverName) (sock : Int) :
    Pipelined libm huginnMac name [] (.boot sock) .empty where
  owned := owned_boot sock
  captured := rfl
  order := rfl
  sent := rfl

/-- An event that is neither a frame nor a datagram, and leaves the frames in flight. -/
theorem quiet (h : Pipelined libm huginnMac name log s b) {e : ReceiverEvent}
    {output : CsiPoolOutput} {s' : CsiPool} (hframe : frame? libm huginnMac e = none)
    (houtput : output.datagram? = none) (howned : s'.Owned)
    (hasking : s'.callback.asking = s.callback.asking) (hflight : s'.inFlight = s.inFlight) :
    Pipelined libm huginnMac name ((e, output) :: log) s' b where
  owned := howned
  captured := by rw [captured_cons, hframe, hasking, ← h.captured]; exact List.append_nil _
  order := by rw [hflight, h.order]
  sent := by rw [datagrams_cons, houtput, ← h.sent]; exact List.append_nil _

/-- One statement of the callback, by cases on its program point. -/
theorem runCallback (h : Pipelined libm huginnMac name log s b) :
    Pipelined libm huginnMac name ((.agents .runCallback, s.runCallback.1) :: log)
      s.runCallback.2 (b.record s (.agents .runCallback)) := by
  have howned := h.owned.runCallback
  unfold CaptureBook.record CsiPool.runCallback at *
  cases hpoint : s.callback with
  | idle => exact h.quiet rfl rfl h.owned rfl rfl
  | taking contents =>
    rw [hpoint] at howned
    dsimp only at howned ⊢
    have hcaptured := h.captured
    have horder := h.order
    simp only [inFlight, hpoint, CallbackPoint.asking, CallbackPoint.pending,
      List.append_nil] at hcaptured horder
    -- the pool has an entry, or the packet is dropped before it is captured
    cases hreceive : s.csiFreeQueue.receive with
    | none =>
      rw [hreceive] at howned
      rw [if_pos (Fifo.items_of_receive_eq_none hreceive)]
      refine ⟨howned, ?_, ?_, ?_⟩
      · rw [captured_cons, hcaptured]
        simp [frame?, CaptureBook.enter, CallbackPoint.asking]
      · rw [CaptureBook.admitted_enter_of_ne _ (by decide), horder]
        simp [CaptureBook.enter, inFlight, CallbackPoint.pending]
      · rw [datagrams_cons, h.sent]
        exact List.append_nil _
    | some received =>
      obtain ⟨pointer, free⟩ := received
      have hitems := Fifo.items_of_receive hreceive
      cases pointer with
      | none =>
        have hnull : none ∈ s.places := by simp [places, hitems]
        exact absurd hnull h.owned.ne_none
      | some entry =>
        rw [hreceive] at howned
        rw [if_neg (by rw [hitems]; exact List.cons_ne_nil _ _)]
        refine ⟨howned, ?_, ?_, ?_⟩
        · rw [captured_cons, hcaptured]
          simp [frame?, CaptureBook.enter, CallbackPoint.asking]
        · rw [CaptureBook.admitted_enter, horder]
          simp [CaptureBook.enter, inFlight, CallbackPoint.pending]
        · rw [datagrams_cons, h.sent]
          exact List.append_nil _
  -- clearing and filling write the entry in hand, which no queue holds
  | clearing entry contents =>
    rw [hpoint] at howned
    have hhand : s.callback.hand = [entry] := by rw [hpoint]; rfl
    obtain ⟨htask, hqueue⟩ := h.owned.frames_write hhand zeroEntry
    refine h.quiet rfl rfl howned (by rw [hpoint]; rfl) ?_
    change s.task.pending.map (s.write entry zeroEntry).pool ++
      (s.csiQueue.items.filterMap id).map (s.write entry zeroEntry).pool ++ [contents] = _
    rw [htask, hqueue, inFlight, hpoint]
    rfl
  | filling entry contents =>
    rw [hpoint] at howned
    have hhand : s.callback.hand = [entry] := by rw [hpoint]; rfl
    obtain ⟨htask, hqueue⟩ := h.owned.frames_write hhand contents
    refine h.quiet rfl rfl howned (by rw [hpoint]; rfl) ?_
    change s.task.pending.map (s.write entry contents).pool ++
      (s.csiQueue.items.filterMap id).map (s.write entry contents).pool ++
        [(s.write entry contents).pool entry] = _
    rw [htask, hqueue, pool_write_self, inFlight, hpoint]
    rfl
  | queueing entry =>
    -- the entry in hand leaves room for itself
    obtain ⟨queue, hsend⟩ :=
      h.owned.room_csiQueue (holding_of_callback (by rw [hpoint]; rfl)) (some entry)
    rw [hpoint] at howned
    dsimp only at howned ⊢
    rw [hsend] at howned ⊢
    refine h.quiet rfl rfl howned (by rw [hpoint]; rfl) ?_
    simp [inFlight, hpoint, CallbackPoint.pending, Fifo.items_of_send hsend]
  | givingBack entry =>
    rw [hpoint] at howned
    dsimp only at howned ⊢
    split at howned
    · exact h.quiet rfl rfl howned (by rw [hpoint]; rfl) (by rw [inFlight, inFlight, hpoint]; rfl)
    · exact h.quiet rfl rfl howned (by rw [hpoint]; rfl) (by rw [inFlight, inFlight, hpoint]; rfl)

/-- The task moves on without taking a frame from those in flight. -/
theorem task (h : Pipelined libm huginnMac name log s b) {e : ReceiverEvent} {point : SendPoint}
    (hframe : frame? libm huginnMac e = none) (hhand : point.hand = s.task.hand)
    (hpending : point.pending = s.task.pending) :
    Pipelined libm huginnMac name ((e, .silent) :: log) { s with task := point } b :=
  h.quiet hframe rfl (h.owned.task hhand) rfl (by simp only [inFlight, hpending])

/-- The task takes the first frame in flight, and it is sent or not. -/
private theorem takes (h : Pipelined libm huginnMac name log s b) {entry : Fin csiQueueLen}
    {e : ReceiverEvent} {output : CsiPoolOutput} {s' : CsiPool} {fate : FrameFate}
    (hframe : frame? libm huginnMac e = none) (howned : s'.Owned)
    (hasking : s'.callback.asking = s.callback.asking)
    (hflight : s.inFlight = s.pool entry :: s'.inFlight)
    (hsent : output.datagram?.toList =
      if fate = .sent then [(s.pool entry).datagram name] else []) :
    Pipelined libm huginnMac name ((e, output) :: log) s' (b.take (s.pool entry) fate) where
  owned := howned
  captured := by
    rw [captured_cons, hframe, hasking]
    exact (List.append_nil _).trans h.captured
  order := by
    change b.admitted = _
    rw [h.order, hflight]
    simp [CaptureBook.take]
  sent := by
    rw [datagrams_cons, h.sent, hsent]
    split
    · rename_i hfate
      rw [hfate, CaptureBook.sent_take, List.map_append]
      rfl
    · rename_i hfate
      rw [CaptureBook.sent_take_of_ne _ hfate, List.append_nil]

/-- One statement of the task, by cases on its program point. -/
theorem runTask (h : Pipelined libm huginnMac name log s b) :
    Pipelined libm huginnMac name ((.agents .runTask, (s.runTask name).1) :: log)
      (s.runTask name).2 (b.record s (.agents .runTask)) := by
  have howned := h.owned.runTask name
  unfold CaptureBook.record CsiPool.runTask at *
  cases hpoint : s.task with
  | receiving =>
    rw [hpoint] at howned
    dsimp only at howned ⊢
    -- a pointer from the CSI queue is the oldest frame in flight
    cases hreceive : s.csiQueue.receive with
    | none => exact h.quiet rfl rfl h.owned rfl rfl
    | some received =>
      obtain ⟨pointer, queue⟩ := received
      rw [hreceive] at howned
      have hitems := Fifo.items_of_receive hreceive
      cases pointer with
      | none => exact h.quiet rfl rfl howned rfl (by simp [inFlight, hpoint, hitems])
      | some entry =>
        refine h.quiet rfl rfl howned rfl ?_
        simp [inFlight, hpoint, SendPoint.pending, hitems]
  -- without a socket the frame is given up, else it is sent
  | checking entry =>
    dsimp only
    split
    · refine h.takes rfl (h.owned.task (by rw [hpoint]; rfl)) rfl ?_ rfl
      simp [inFlight, hpoint, SendPoint.pending]
    · exact h.task rfl (by rw [hpoint]; rfl) (by rw [hpoint]; rfl)
  | parking entry =>
    rw [hpoint] at howned
    dsimp only at howned ⊢
    split at howned
    · exact h.quiet rfl rfl howned rfl (by simp [inFlight, hpoint, SendPoint.pending])
    · exact h.quiet rfl rfl howned rfl rfl
  | napping => exact h.task rfl (by rw [hpoint]; rfl) (by rw [hpoint]; rfl)
  -- the datagram is built from what the entry holds now
  | building entry =>
    rw [hpoint] at howned
    refine h.takes rfl howned rfl ?_ ?_
    · simp [inFlight, hpoint, SendPoint.pending]
    · rw [if_pos rfl, ← udpSendTask_eq_datagram name s.pktBuf]
      rfl
  | sending entry sock => exact h.quiet rfl rfl h.owned rfl rfl
  | resetting entry => exact h.quiet rfl rfl h.owned rfl rfl
  | delaying entry => exact h.task rfl (by rw [hpoint]; rfl) (by rw [hpoint]; rfl)
  | returning entry =>
    rw [hpoint] at howned
    dsimp only at howned ⊢
    split at howned
    · exact h.quiet rfl rfl howned rfl (by simp [inFlight, hpoint, SendPoint.pending])
    · exact h.quiet rfl rfl howned rfl rfl

/-- A call of `csi_callback`. -/
theorem csi (h : Pipelined libm huginnMac name log s b) {info : Option WifiCsiInfo} {now : Nat}
    (hidle : s.callback = .idle) :
    Pipelined libm huginnMac name ((.agents (.csi info now),
      (s.step libm huginnMac name (.csi info now)).1) :: log)
      (s.step libm huginnMac name (.csi info now)).2 b := by
  have howned : (s.step libm huginnMac name (.csi info now)).2.Owned := h.owned.step _
  simp only [CsiPool.step, hidle] at howned ⊢
  split at howned
  · rename_i hframe
    exact h.quiet hframe rfl howned rfl rfl
  · rename_i contents hframe
    have hcaptured := h.captured
    have horder := h.order
    simp only [inFlight, hidle, CallbackPoint.asking, CallbackPoint.pending,
      List.append_nil] at hcaptured horder
    refine ⟨howned, ?_, ?_, ?_⟩
    · rw [captured_cons, hcaptured, frame?, hframe]
      rfl
    · rw [horder]
      simp [inFlight, CallbackPoint.pending]
    · rw [datagrams_cons, h.sent]
      exact List.append_nil _

/-- A restart loses the frame that asks for an entry and the frames in flight. -/
theorem restart (h : Pipelined libm huginnMac name log s b) (sock : Int) :
    Pipelined libm huginnMac name ((.restart sock, .silent) :: log) (.boot sock)
      (b.record s (.restart sock)) where
  owned := owned_boot sock
  captured := by
    rw [captured_cons, h.captured]
    simp [frame?, CaptureBook.record, CsiPool.boot, CallbackPoint.asking, Function.comp_def]
  order := by
    have horder := h.order
    simp only [CaptureBook.admitted] at horder ⊢
    simp only [CaptureBook.record, List.filter_append, List.map_append, horder]
    simp [List.filter_map, Function.comp_def, CsiPool.boot, inFlight, SendPoint.pending,
      CallbackPoint.pending]
  sent := by
    rw [datagrams_cons, h.sent]
    simp [CsiPoolOutput.datagram?, CaptureBook.sent, CaptureBook.record, List.filter_map,
      Function.comp_def]

/-- One step of the receiver. -/
theorem answer {c : Config CsiPool ReceiverEvent CsiPoolOutput} {e : ReceiverEvent}
    (h : Pipelined libm huginnMac name c.log c.state b) (hcall : OneCall c.state e) :
    Pipelined libm huginnMac name ((receiverMachine libm huginnMac name).answer c e).log
      ((receiverMachine libm huginnMac name).answer c e).state (b.record c.state e) := by
  -- a restart gives the task a socket and leaves the frames where they are
  cases e with
  | restart sock => exact h.restart sock
  | agents e =>
    have howned : (c.state.step libm huginnMac name e).2.Owned := h.owned.step e
    cases e with
    | csi info now => exact h.csi hcall
    | runCallback => exact h.runCallback
    | runTask => exact h.runTask
    | setSock sock => exact h.quiet rfl rfl howned rfl rfl
    | resetReturns sock =>
      simp only [receiverMachine, Machine.answer, CsiPool.step] at howned ⊢
      split at howned
      · rename_i entry hpoint
        exact h.quiet rfl rfl howned rfl (by simp [inFlight, hpoint, SendPoint.pending])
      · exact h.quiet rfl rfl h.owned rfl rfl
    -- the answer of `sendto` comes after the frame has left the order
    | sendtoReturns errno =>
      simp only [receiverMachine, Machine.answer, CsiPool.step]
      split
      · rename_i entry sock hpoint
        cases errno with
        | none => exact h.task rfl (by rw [hpoint]; rfl) (by rw [hpoint]; rfl)
        | some errno =>
          dsimp only
          split
          · exact h.task rfl (by rw [hpoint]; rfl) (by rw [hpoint]; rfl)
          · exact h.task rfl (by rw [hpoint]; rfl) (by rw [hpoint]; rfl)
      · exact h.quiet rfl rfl h.owned rfl rfl

/-- What was sent was captured, in the same order. -/
theorem sent_sublist (h : Pipelined libm huginnMac name log s b) :
    b.sent.Sublist (Muninn.captured libm huginnMac log) := by
  have htaken : b.sent.Sublist (b.taken.map (·.1)) := List.filter_sublist.map _
  have hadmitted : b.admitted.Sublist (b.frames.map (·.1)) := List.filter_sublist.map _
  rw [h.order] at hadmitted
  rw [h.captured]
  exact htaken.trans ((List.sublist_append_left _ _).trans
    (hadmitted.trans (List.sublist_append_left _ _)))

end Pipelined

/-! ## Every run -/

/-- What becomes of the captured frames. -/
structure FramesKept (libm : Libm) (huginnMac : Struct.Bytes 6) (name : ReceiverName)
    (log : ReceiverLog) (s : CsiPool) (b : CaptureBook) : Prop where
  /-- Every captured frame has asked for an entry or does so now. -/
  captured : captured libm huginnMac log = b.frames.map (·.1) ++ s.callback.asking
  /-- The frames that found one are done with or in flight, in this order. -/
  order : b.admitted = b.taken.map (·.1) ++ s.inFlight
  /-- The datagrams are those of the frames sent, unchanged and in order. -/
  sent : datagrams log = b.sent.map fun entry => entry.datagram name
  bounded : s.inFlight.length ≤ csiQueueLen
  /-- A frame is refused only when all entries wait to be sent or are being sent. -/
  exhausted : ∀ contents, s.callback = .taking contents → s.csiFreeQueue.items = [] →
    s.csiQueue.items.length + s.task.hand.length = csiQueueLen

/-- The invariant says what became of the captured frames. -/
theorem Pipelined.kept {libm : Libm} {huginnMac : Struct.Bytes 6} {name : ReceiverName}
    {log : ReceiverLog} {s : CsiPool} {b : CaptureBook}
    (h : Pipelined libm huginnMac name log s b) : FramesKept libm huginnMac name log s b where
  captured := h.captured
  order := h.order
  sent := h.sent
  bounded := h.owned.length_inFlight
  exhausted := by
    intro contents hpoint hfree
    have hlength := h.owned.length
    rw [hfree, hpoint] at hlength
    simpa [CallbackPoint.hand] using hlength

/-- Beside every run of a receiver there is a book. -/
theorem exists_book {libm : Libm} {huginnMac : Struct.Bytes 6} {name : ReceiverName}
    {sock : Int} {c : Config CsiPool ReceiverEvent CsiPoolOutput}
    (hrun : (receiverMachine libm huginnMac name).Run (fun c e => OneCall c.state e)
      ⟨[], .boot sock⟩ c) : ∃ b, Pipelined libm huginnMac name c.log c.state b := by
  apply hrun.invariant (I := fun c => ∃ b, Pipelined libm huginnMac name c.log c.state b)
    ⟨_, .boot libm huginnMac name sock⟩
  rintro c e ⟨b, h⟩ hcall
  exact ⟨_, h.answer hcall⟩

/-- In every run of a receiver, through all its restarts and however the two agents
    interleave. -/
theorem framesKept_of_run {libm : Libm} {huginnMac : Struct.Bytes 6} {name : ReceiverName}
    {sock : Int} {c : Config (CsiPool × CaptureBook) ReceiverEvent CsiPoolOutput}
    (hrun : (bookMachine libm huginnMac name).Run (fun c e => OneCall c.state.1 e)
      ⟨[], .boot sock, .empty⟩ c) :
    FramesKept libm huginnMac name c.log c.state.1 c.state.2 := by
  have hpipelined : Pipelined libm huginnMac name c.log c.state.1 c.state.2 := by
    apply hrun.invariant (I := fun c => Pipelined libm huginnMac name c.log c.state.1 c.state.2)
      (.boot libm huginnMac name sock)
    intro c e h hcall
    exact h.answer (c := ⟨c.log, c.state.1⟩) hcall
  exact hpipelined.kept

/-- The first frame is in the callback's hand when the board restarts, the second one is sent. -/
def restartedRun : List ReceiverEvent :=
  [.agents (.csi (some loudFrame) 10), .agents .runCallback, .agents .runCallback, .restart 4,
    .agents (.csi (some loudFrame) 20), .agents .runCallback, .agents .runCallback,
    .agents .runCallback, .agents .runCallback, .agents .runTask, .agents .runTask,
    .agents .runTask]

/-- A run with a restart in the middle of a capture. -/
theorem framesKept_of_restartedRun :
    let c := (bookMachine zeroLibm loudFrame.mac cellarName).replay ⟨[], .boot 3, .empty⟩
      restartedRun
    c.state.2.taken.map (·.2) = [.lost, .sent] ∧
      FramesKept zeroLibm loudFrame.mac cellarName c.log c.state.1 c.state.2 := by
  have hrun : (bookMachine zeroLibm loudFrame.mac cellarName).Run
      (fun c e => OneCall c.state.1 e) ⟨[], .boot 3, .empty⟩
      ((bookMachine zeroLibm loudFrame.mac cellarName).replay ⟨[], .boot 3, .empty⟩
        restartedRun) :=
    Machine.run_of_admits ⟨rfl, trivial, trivial, trivial, rfl, trivial, trivial, trivial,
      trivial, trivial, trivial, trivial, trivial⟩
  exact ⟨by decide +kernel, framesKept_of_run hrun⟩

end Grimnir.Muninn
