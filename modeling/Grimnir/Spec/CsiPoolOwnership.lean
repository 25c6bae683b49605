import Grimnir.Native.CsiPool
import Mathlib.Data.List.Count

/-!
# Who owns an entry of the CSI pool

Every entry is in one of four places: the free queue, the CSI queue, the hand of
`csi_callback` or the hand of `udp_send_task`.  Each step moves at most one entry from one
place to another, so each entry stays in exactly one, whatever `sendto` and the socket do.
With one entry in a hand neither queue can be full.

## Key results

- `Owned.runCallback` / `.runTask`: one step of either agent
- `Owned.room_csiQueue` / `.room_csiFreeQueue`: an entry in a hand leaves room for it
- `safe_of_run`: what holds of the pool in every reachable state
-/

namespace Grimnir.Muninn

/-- The entry that a call of `csi_callback` holds. -/
def CallbackPoint.hand : CallbackPoint → List (Fin csiQueueLen)
  | .idle => []
  | .taking _ => []
  | .clearing entry _ => [entry]
  | .filling entry _ => [entry]
  | .queueing entry => [entry]
  | .givingBack entry => [entry]

/-- The entry that `udp_send_task` holds. -/
def SendPoint.hand : SendPoint → List (Fin csiQueueLen)
  | .receiving => []
  | .checking entry => [entry]
  | .parking entry => [entry]
  | .napping => []
  | .building entry => [entry]
  | .sending entry _ => [entry]
  | .resetting entry => [entry]
  | .delaying entry => [entry]
  | .returning entry => [entry]

namespace CsiPool

/-- The pointers in all four places. -/
def places (s : CsiPool) : List EntryPtr :=
  s.csiFreeQueue.items ++ s.csiQueue.items ++ s.callback.hand.map some ++ s.task.hand.map some

/-- Every pointer into the pool is in one place, and nothing else is. -/
def Owned (s : CsiPool) : Prop := s.places.Perm ((List.finRange csiQueueLen).map some)

/-- A step that keeps the places up to their order keeps ownership. -/
private theorem Owned.of_count {s s' : CsiPool} (h : Owned s)
    (hcount : ∀ p, s'.places.count p = s.places.count p) : Owned s' :=
  (List.perm_iff_count.mpr hcount).trans h

/-- No null pointer is in any place. -/
theorem Owned.ne_none {s : CsiPool} (h : Owned s) : none ∉ s.places := by
  rw [h.mem_iff]
  simp

/-- The four places hold as many entries as the pool has. -/
theorem Owned.length {s : CsiPool} (h : Owned s) :
    s.csiFreeQueue.items.length + s.csiQueue.items.length + s.callback.hand.length +
      s.task.hand.length = csiQueueLen := by
  have hlength := h.length_eq
  simp only [places, List.length_append, List.length_map, List.length_finRange] at hlength
  exact hlength

/-! ## An entry in a hand leaves room for it -/

/-- An agent holds an entry. -/
def Holding (s : CsiPool) : Prop := 0 < s.callback.hand.length + s.task.hand.length

/-- Whoever holds an entry finds room for it in the CSI queue. -/
theorem Owned.room_csiQueue {s : CsiPool} (h : Owned s) (hhand : s.Holding) (p : EntryPtr) :
    ∃ q, s.csiQueue.send p = some q := by
  have hlength := h.length
  unfold Holding at hhand
  apply Fifo.exists_send
  omega

/-- Whoever holds an entry finds room for it in the free queue. -/
theorem Owned.room_csiFreeQueue {s : CsiPool} (h : Owned s) (hhand : s.Holding) (p : EntryPtr) :
    ∃ q, s.csiFreeQueue.send p = some q := by
  have hlength := h.length
  unfold Holding at hhand
  apply Fifo.exists_send
  omega

/-- A callback with an entry in its hand holds one. -/
theorem holding_of_callback {s : CsiPool} {entry : Fin csiQueueLen}
    (h : s.callback.hand = [entry]) : s.Holding := by
  unfold Holding
  rw [h, List.length_singleton]
  omega

/-- So does a task with an entry in its hand. -/
private theorem holding_of_task {s : CsiPool} {entry : Fin csiQueueLen}
    (h : s.task.hand = [entry]) : s.Holding := by
  unfold Holding
  rw [h, List.length_singleton]
  omega

/-! ## One step -/

/-- Each statement of the callback moves one entry at most, by cases on its program point. -/
theorem Owned.runCallback {s : CsiPool} (h : Owned s) : Owned s.runCallback.2 := by
  unfold CsiPool.runCallback
  -- a call of the pool primitive per point; a failed receive changes nothing
  cases hpoint : s.callback with
  | idle => exact h
  | taking contents =>
    dsimp only
    cases hreceive : s.csiFreeQueue.receive with
    | none =>
      apply h.of_count
      -- the free queue was empty and the packet is dropped
      intro p
      simp [places, hpoint, CallbackPoint.hand]
    | some received =>
      obtain ⟨pointer, free⟩ := received
      have hitems := Fifo.items_of_receive hreceive
      cases pointer with
      | none =>
        have hnull : none ∈ s.places := by simp [places, hitems]
        exact absurd hnull h.ne_none
      | some entry =>
        -- from the free queue into the hand
        apply h.of_count
        intro p
        simp [places, hpoint, CallbackPoint.hand, hitems, List.count_append, List.count_cons]
        omega
  | clearing entry contents =>
    apply h.of_count
    intro p
    simp [places, hpoint, CallbackPoint.hand, write]
  | filling entry contents =>
    apply h.of_count
    intro p
    simp [places, hpoint, CallbackPoint.hand, write]
  | queueing entry =>
    obtain ⟨queue, hsend⟩ :=
      h.room_csiQueue (holding_of_callback (by rw [hpoint]; rfl)) (some entry)
    have hitems := Fifo.items_of_send hsend
    dsimp only
    rw [hsend]
    -- from the hand into the CSI queue
    apply h.of_count
    intro p
    simp [places, hpoint, CallbackPoint.hand, hitems, List.count_append, List.count_cons]
  -- a packet the filter refused goes back to the free queue
  | givingBack entry =>
    obtain ⟨free, hsend⟩ :=
      h.room_csiFreeQueue (holding_of_callback (by rw [hpoint]; rfl)) (some entry)
    have hitems := Fifo.items_of_send hsend
    dsimp only
    rw [hsend]
    apply h.of_count
    intro p
    simp [places, hpoint, CallbackPoint.hand, hitems, List.count_append, List.count_cons]
    omega

/-- Giving the task's entry back moves it from the hand into the free queue. -/
private theorem Owned.giveBack {s : CsiPool} (h : Owned s) {entry : Fin csiQueueLen} {free}
    {point : SendPoint} (hhand : s.task.hand = [entry]) (hpoint : point.hand = [])
    (hsend : s.csiFreeQueue.send (some entry) = some free) :
    Owned { s with csiFreeQueue := free, task := point } := by
  have hitems := Fifo.items_of_send hsend
  apply h.of_count
  intro p
  simp [places, hhand, hpoint, hitems, List.count_append, List.count_cons]
  omega

/-- A move of the task that keeps its hand keeps ownership. -/
theorem Owned.task {s : CsiPool} (h : Owned s) {point : SendPoint}
    (hhand : point.hand = s.task.hand) : Owned { s with task := point } := by
  apply h.of_count
  intro p
  simp [places, hhand]

/-- So does each statement of the task. -/
theorem Owned.runTask {s : CsiPool} (h : Owned s) (name : ReceiverName) :
    Owned (s.runTask name).2 := by
  unfold CsiPool.runTask
  -- one case per point of the send task
  cases hpoint : s.task with
  | receiving =>
    dsimp only
    cases hreceive : s.csiQueue.receive with
    | none => exact h
    | some received =>
      obtain ⟨pointer, queue⟩ := received
      have hitems := Fifo.items_of_receive hreceive
      cases pointer with
      | none =>
        have hnull : none ∈ s.places := by simp [places, hitems]
        exact absurd hnull h.ne_none
      | some entry =>
        -- from the CSI queue into the hand
        apply h.of_count
        intro p
        simp [places, hpoint, SendPoint.hand, hitems, List.count_append, List.count_cons]
        omega
  | checking entry =>
    dsimp only
    split
    · exact h.task (by rw [hpoint]; rfl)
    · exact h.task (by rw [hpoint]; rfl)
  | parking entry =>
    -- without a socket the entry goes back unsent
    have hhand : s.task.hand = [entry] := by rw [hpoint]; rfl
    obtain ⟨free, hsend⟩ := h.room_csiFreeQueue (holding_of_task hhand) (some entry)
    dsimp only
    rw [hsend]
    exact h.giveBack hhand rfl hsend
  | napping => exact h.task (by rw [hpoint]; rfl)
  | building entry =>
    apply h.of_count
    intro p
    simp [places, hpoint, SendPoint.hand]
  | sending entry sock => exact h
  | resetting entry => exact h
  | delaying entry => exact h.task (by rw [hpoint]; rfl)
  | returning entry =>
    have hhand : s.task.hand = [entry] := by rw [hpoint]; rfl
    obtain ⟨free, hsend⟩ := h.room_csiFreeQueue (holding_of_task hhand) (some entry)
    dsimp only
    rw [hsend]
    exact h.giveBack hhand rfl hsend

variable {libm : Libm} {huginnMac : Struct.Bytes 6} {name : ReceiverName}

/-- No event duplicates or loses an entry. -/
theorem Owned.step {s : CsiPool} (h : Owned s) (e : CsiPoolEvent) :
    Owned (s.step libm huginnMac name e).2 := by
  -- a new callback starts only where the last one is done
  cases e with
  | csi info now =>
    simp only [CsiPool.step]
    cases hpoint : s.callback with
    | idle =>
      dsimp only
      split
      · exact h
      · apply h.of_count
        intro p
        simp [places, hpoint, CallbackPoint.hand]
    | _ => exact h
  | runCallback => exact h.runCallback
  | runTask => exact h.runTask name
  | sendtoReturns errno =>
    simp only [CsiPool.step]
    cases hpoint : s.task with
    | sending entry sock =>
      -- a socket call returns: the entry stays in the hand on every branch
      dsimp only
      cases errno with
      | none => exact h.task (by rw [hpoint]; rfl)
      | some errno =>
        dsimp only
        split
        · exact h.task (by rw [hpoint]; rfl)
        · exact h.task (by rw [hpoint]; rfl)
    | _ => exact h
  | resetReturns sock =>
    simp only [CsiPool.step]
    cases hpoint : s.task with
    | resetting entry =>
      have hsock : Owned { s with sock := sock } := h
      exact hsock.task (by show _ = s.task.hand; rw [hpoint]; rfl)
    | _ => exact h
  | setSock sock => exact h

/-- At boot every entry is in the free queue. -/
theorem owned_boot (sock : Int) : Owned (boot sock) := by
  have hfree : (boot sock).csiFreeQueue.items = (List.finRange csiQueueLen).map some := by
    show (Fifo.empty.sendAll _).items = _
    rw [Fifo.items_sendAll (by simp), Fifo.items_empty, List.nil_append]
  unfold Owned places
  rw [hfree]
  simp [boot, CallbackPoint.hand, SendPoint.hand]

/-! ## What ownership gives -/

/-- Each entry is in one place, once. -/
theorem Owned.once {s : CsiPool} (h : Owned s) (entry : Fin csiQueueLen) :
    s.csiFreeQueue.items.count (some entry) + s.csiQueue.items.count (some entry) +
      s.callback.hand.count entry + s.task.hand.count entry = 1 := by
  have hinj := Option.some_injective (Fin csiQueueLen)
  -- among the pointers to all entries each one is there once
  have hcount := h.count_eq (some entry)
  rw [places, List.count_append, List.count_append, List.count_append,
    List.count_map_of_injective _ _ hinj, List.count_map_of_injective _ _ hinj,
    List.count_map_of_injective _ _ hinj,
    List.count_eq_one_of_mem (List.nodup_finRange _) (List.mem_finRange entry)] at hcount
  exact hcount

/-- No send of either agent finds its queue full. -/
private theorem Owned.ne_queueFull {s : CsiPool} (h : Owned s) (e : CsiPoolEvent) :
    (s.step libm huginnMac name e).1 ≠ .queueFull := by
  -- only the three sends can find a full queue
  cases e with
  | csi info now =>
    simp only [CsiPool.step]
    cases s.callback with
    | idle => dsimp only; split <;> simp
    | _ => simp
  | runCallback =>
    simp only [CsiPool.step, CsiPool.runCallback]
    cases hpoint : s.callback with
    | taking contents => dsimp only; split <;> simp
    | queueing entry =>
      -- whoever sends holds an entry, so the queues hold fewer than there are
      have hhand : s.callback.hand = [entry] := by rw [hpoint]; rfl
      obtain ⟨queue, hsend⟩ := h.room_csiQueue (holding_of_callback hhand) (some entry)
      simp [hsend]
    | givingBack entry =>
      have hhand : s.callback.hand = [entry] := by rw [hpoint]; rfl
      obtain ⟨free, hsend⟩ := h.room_csiFreeQueue (holding_of_callback hhand) (some entry)
      simp [hsend]
    | _ => simp
  | runTask =>
    simp only [CsiPool.step, CsiPool.runTask]
    cases hpoint : s.task with
    | receiving => dsimp only; split <;> simp
    | checking entry => dsimp only; split <;> simp
    | parking entry =>
      have hhand : s.task.hand = [entry] := by rw [hpoint]; rfl
      obtain ⟨free, hsend⟩ := h.room_csiFreeQueue (holding_of_task hhand) (some entry)
      simp [hsend]
    | returning entry =>
      have hhand : s.task.hand = [entry] := by rw [hpoint]; rfl
      obtain ⟨free, hsend⟩ := h.room_csiFreeQueue (holding_of_task hhand) (some entry)
      simp [hsend]
    | _ => simp
  | sendtoReturns errno =>
    simp only [CsiPool.step]
    cases s.task with
    | sending entry sock =>
      dsimp only
      cases errno with
      | none => simp
      | some errno => dsimp only; split <;> simp
    | _ => simp
  | resetReturns sock =>
    simp only [CsiPool.step]
    cases s.task with
    | _ => simp
  | setSock sock => simp [CsiPool.step]

/-! ## Who writes an entry -/

/-- Writing one entry leaves the others alone. -/
theorem write_of_ne {s : CsiPool} {entry entry' : Fin csiQueueLen} (e : CsiEntry)
    (h : entry' ≠ entry) : (s.write entry e).pool entry' = s.pool entry' := by
  show Function.update s.pool entry e entry' = s.pool entry'
  rw [Function.update_of_ne h]

/-- Only an entry in the callback's hand is written. -/
private theorem pool_runCallback {s : CsiPool} {entry : Fin csiQueueLen}
    (h : entry ∉ s.callback.hand) : s.runCallback.2.pool entry = s.pool entry := by
  unfold CsiPool.runCallback
  cases hpoint : s.callback with
  | idle => rfl
  | taking contents => dsimp only; split <;> rfl
  | clearing held contents =>
    rw [hpoint] at h
    exact write_of_ne zeroEntry (List.ne_of_not_mem_cons h)
  | filling held contents =>
    rw [hpoint] at h
    exact write_of_ne contents (List.ne_of_not_mem_cons h)
  | queueing held => dsimp only; split <;> rfl
  | givingBack held => dsimp only; split <;> rfl

/-- The send task writes no entry at all. -/
private theorem pool_runTask (s : CsiPool) (name : ReceiverName) :
    (s.runTask name).2.pool = s.pool := by
  unfold CsiPool.runTask
  cases s.task with
  | receiving => dsimp only; split <;> rfl
  | checking entry => dsimp only; split <;> rfl
  | parking entry => dsimp only; split <;> rfl
  | returning entry => dsimp only; split <;> rfl
  | _ => rfl

/-- No event writes an entry that the callback does not hold. -/
private theorem pool_step {s : CsiPool} (e : CsiPoolEvent) {entry : Fin csiQueueLen}
    (h : entry ∉ s.callback.hand) :
    (s.step libm huginnMac name e).2.pool entry = s.pool entry := by
  -- nobody but the callback writes, and only to the entry in its hand
  cases e with
  | csi info now =>
    simp only [CsiPool.step]
    cases s.callback with
    | idle => dsimp only; split <;> rfl
    | _ => rfl
  | runCallback => exact pool_runCallback h
  | runTask => exact congrFun (pool_runTask s name) entry
  | sendtoReturns errno =>
    simp only [CsiPool.step]
    cases s.task with
    | sending held sock =>
      cases errno with
      | none => rfl
      | some errno => dsimp only; split <;> rfl
    | _ => rfl
  | resetReturns sock =>
    simp only [CsiPool.step]
    cases s.task with
    | _ => rfl
  | setSock sock => rfl

/-! ## Every run -/

/-- What holds of the pool at every moment. -/
structure Safe (libm : Libm) (huginnMac : Struct.Bytes 6) (name : ReceiverName)
    (s : CsiPool) : Prop where
  /-- Each entry is in exactly one of the four places. -/
  once : ∀ entry, s.csiFreeQueue.items.count (some entry) +
    s.csiQueue.items.count (some entry) + s.callback.hand.count entry +
    s.task.hand.count entry = 1
  /-- No queue holds a `NULL`. -/
  pointers : none ∉ s.csiFreeQueue.items ∧ none ∉ s.csiQueue.items
  /-- No send that comes next overflows its queue, whoever makes it. -/
  noOverflow : ∀ e, (s.step libm huginnMac name e).1 ≠ .queueFull
  /-- `xQueueSend(s_csi_queue)` succeeds where the callback makes it. -/
  sends : ∀ entry, s.callback = .queueing entry →
    ∃ queue, s.csiQueue.send (some entry) = some queue
  /-- No step writes an entry that waits to be sent or is being sent. -/
  kept : ∀ e entry, some entry ∈ s.csiQueue.items ∨ entry ∈ s.task.hand →
    (s.step libm huginnMac name e).2.pool entry = s.pool entry

/-- The pool is safe wherever every entry has one owner. -/
private theorem Owned.safe {s : CsiPool} (h : Owned s) : s.Safe libm huginnMac name where
  once := h.once
  pointers := by
    have hnull := h.ne_none
    simp only [places, List.mem_append, not_or] at hnull
    exact ⟨hnull.1.1.1, hnull.1.1.2⟩
  noOverflow := h.ne_queueFull
  sends entry hpoint :=
    h.room_csiQueue (holding_of_callback (by rw [hpoint]; rfl)) (some entry)
  kept e entry hplace := by
    -- the entry is somewhere else, so it is not in the callback's hand
    apply pool_step e
    intro hhand
    have honce := h.once entry
    have hcallback := List.count_pos_iff.mpr hhand
    rcases hplace with hqueue | htask
    · have hqueued := List.count_pos_iff.mpr hqueue
      omega
    · have hheld := List.count_pos_iff.mpr htask
      omega

/-- In every run from the end of `app_main`, however the two agents interleave and whatever
    `sendto` and the socket do. -/
theorem safe_of_run (libm : Libm) (huginnMac : Struct.Bytes 6) (name : ReceiverName)
    (sock : Int) (c : Config CsiPool CsiPoolEvent CsiPoolOutput)
    (hrun : (csiPoolMachine libm huginnMac name).Run (fun _ _ => True) ⟨[], boot sock⟩ c) :
    c.state.Safe libm huginnMac name := by
  have howned : Owned c.state := by
    apply hrun.invariant (I := fun c => Owned c.state) (owned_boot sock)
    intro c e h _
    exact h.step e
  exact howned.safe

/-- A C library without floats. -/
def zeroLibm : Libm := ⟨fun _ _ => 0, fun _ _ => 0⟩

/-- A receiver's name. -/
def cellarName : ReceiverName where
  text := "cellar"
  ascii := by simp
  accepted := by decide

/-- A frame of the transmitter 9:8:7:6:5:4. -/
def loudFrame : WifiCsiInfo :=
  ⟨⟨[9, 8, 7, 6, 5, 4], rfl⟩, -30, -92, 11, 1, .none, 2, ⟨[5, 12], rfl⟩⟩

/-- One frame is parked without a socket; the next one fails to be sent while a third comes. -/
def strugglingRun : List CsiPoolEvent :=
  [.csi (some loudFrame) 10, .runCallback, .runCallback, .runCallback, .runCallback,
    .runTask, .runTask, .runTask, .setSock 4, .runTask,
    .csi (some loudFrame) 20, .runCallback, .runCallback, .runCallback, .runCallback,
    .runTask, .runTask, .runTask, .csi (some loudFrame) 30, .runCallback, .runCallback,
    .sendtoReturns (some 12), .resetReturns (-1)]

/-- A run without a socket, with a failed send and a frame that comes meanwhile. -/
theorem safe_strugglingRun :
    ((csiPoolMachine zeroLibm loudFrame.mac cellarName).replay ⟨[], boot (-1)⟩
      strugglingRun).state.Safe zeroLibm loudFrame.mac cellarName := by
  apply safe_of_run zeroLibm loudFrame.mac cellarName (-1)
  apply Machine.run_of_admits
  simp [Machine.Admits, strugglingRun]

/-- After it the callback holds the third entry, the task the second, and the first one is the
    last of the free queue. -/
example :
    let c := (csiPoolMachine zeroLibm loudFrame.mac cellarName).replay ⟨[], boot (-1)⟩
      strugglingRun
    c.state.callback.hand = [⟨2, by decide⟩] ∧ c.state.task.hand = [⟨1, by decide⟩] ∧
      c.state.csiFreeQueue.items.getLast? = some (some ⟨0, by decide⟩) ∧
      c.state.sock = -1 := by
  decide +kernel

end CsiPool

end Grimnir.Muninn
