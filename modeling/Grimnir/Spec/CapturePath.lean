import Grimnir.ForStd.Component
import Grimnir.Spec.CapturePipeline
import Grimnir.Spec.PacketLedger

/-!
# Every row is a captured frame

What the receivers capture goes through two tasks and a pool, a network that loses, repeats and
reorders datagrams, a queue, a cache of receiver ids and a batch, on boards and in a process that
restart at any moment, with a database that fails at any statement.  What comes out in
`csi_samples` is nevertheless made of captured frames, unchanged, each under the name of its
receiver.

## Key results

- `Traced.step`: what any event, error or restart of the aggregator leaves of its packets
- `exists_sources`: the datagrams of all receivers as those of the frames they captured
- `sensed_of_run`: the rows of every run
-/

namespace Grimnir

open Muninn Geri

namespace Geri

/-! ## The packets of the aggregator -/

/-- The packets put on the queue, the oldest first. -/
def putItems (log : List (ProcessEvent × AggregatorResponse)) : List QueueItem :=
  (log.filterMap fun x => x.2.put).reverse

/-- One more event puts its packet on the queue. -/
private theorem putItems_cons (x : ProcessEvent × AggregatorResponse)
    (log : List (ProcessEvent × AggregatorResponse)) :
    putItems (x :: log) = putItems log ++ x.2.put.toList := by
  cases hput : x.2.put <;> simp [putItems, hput]

/-- The rows added are packets put on the queue, in their order, and a process that still
    works has the packets it has not given up. -/
def Traced (before : IngestDb) (items : List QueueItem) (s : Aggregator) : Prop :=
  (∃ kept : List QueueItem, kept.Sublist items ∧ Conserved before kept s) ∨
    (s.await = .returned ∧ s.listening = false) ∧
      ∃ done : List QueueItem, done.Sublist items ∧ Added before s.ingest.db done

namespace Traced

variable {config : IngestConfig} {before : IngestDb} {items : List QueueItem} {s : Aggregator}

/-- What was inserted are some of the packets that were put on the queue. -/
theorem added (h : Traced before items s) :
    ∃ done : List QueueItem, done.Sublist items ∧ Added before s.ingest.db done := by
  rcases h with ⟨kept, hkept, hconserved⟩ | ⟨-, hdone⟩
  · obtain ⟨done, batched, hitems, hadded, -⟩ := hconserved.holding.placed
    refine ⟨done, ?_, hadded⟩
    rw [hitems] at hkept
    exact (List.sublist_append_left _ _).trans hkept
  · exact hdone

/-- A new process starts with nothing in memory. -/
theorem boot {db : IngestDb} {done : List QueueItem} (hdone : done.Sublist items)
    (hadded : Added before db done) : Traced before items (.boot db) := by
  left
  refine ⟨done, hdone, ⟨?_, done, [], ?_, hadded, .nil⟩, .boot db⟩
  · exact fun _ _ hget => nomatch hget
  · exact (List.append_nil done).symm

/-- No packet came or went. -/
theorem quiet (h : Traced before items s) :
    Traced before (items ++ Aggregator.quiet.put.toList) s := by
  rw [show Aggregator.quiet.put.toList = [] from rfl, List.append_nil]
  exact h

/-- The packet in hand is given up. -/
private theorem dropHand {kept : List QueueItem} (hkept : kept.Sublist items)
    (h : Conserved before kept s) : Traced before items { s with await := .queueGet } := by
  obtain ⟨done, batched, hitems, hadded, hbatched⟩ := h.holding.placed
  left
  refine ⟨done ++ (batched ++ s.ingest.queue), ?_,
    ⟨h.holding.cached, done, batched, rfl, hadded, hbatched⟩, .queueGet _ _⟩
  rw [hitems] at hkept
  refine List.Sublist.trans ?_ hkept
  exact (List.Sublist.refl done).append ((List.Sublist.refl batched).append
    (List.sublist_append_right _ _))

/-- The batch is given up. -/
private theorem dropBatch {kept : List QueueItem} (hkept : kept.Sublist items)
    (h : Conserved before kept s) {cause : FlushCause} (hawait : s.await = .insert cause) :
    Traced before items { s with
      await := if cause = .cancelled then .returned else .queueGet
      ingest := { s.ingest with batch := [] } } := by
  obtain ⟨done, batched, hitems, hadded, hbatched⟩ := h.holding.placed
  rw [hitems, hawait] at hkept
  split
  · rename_i hcause
    right
    refine ⟨⟨rfl, ?_⟩, done, (List.sublist_append_left _ _).trans hkept, hadded⟩
    cases hlistening : s.listening with
    | false => rfl
    | true =>
      rw [hcause] at hawait
      exact absurd hawait (h.await.running hlistening).2
  · left
    refine ⟨done ++ s.ingest.queue, ?_, ⟨h.holding.cached, done, [], rfl, hadded, .nil⟩,
      .queueGet _ _⟩
    exact ((List.Sublist.refl done).append (List.sublist_append_right _ _)).trans hkept

/-- A step of a process whose database does what it is asked to. -/
private theorem healthy {kept : List QueueItem} (hkept : kept.Sublist items)
    (h : Conserved before kept s) {e : AggregatorEvent}
    (hhealthy : ∀ result, (s.step config e).1.call = some result → result = .ok ())
    (hopen : ∀ effect now, e ≠ .shutdown effect now) :
    Traced before (items ++ (s.step config e).1.put.toList) (s.step config e).2 :=
  .inl ⟨_, hkept.append (List.Sublist.refl _), h.step e hhealthy hopen⟩

/-- The call that a cancelled writer waits for, when it goes through, adds what it was to add. -/
private theorem added_awaitedCall {kept : List QueueItem} (hkept : kept.Sublist items)
    (h : Conserved before kept s) (now : Timestamp) :
    ∃ done : List QueueItem, done.Sublist items ∧
      Added before (Aggregator.awaitedCall config s.await now s.ingest).2 done := by
  -- what is inserted is followed by what is batched, in hand and queued
  obtain ⟨done, batched, hitems, hadded, hbatched⟩ := h.holding.placed
  rw [hitems] at hkept
  have hdone : done.Sublist items := (List.sublist_append_left _ _).trans hkept
  unfold Aggregator.awaitedCall
  -- the cancelled call commits as it would have done alone
  cases s.await with
  | lookup item =>
    exact ⟨done, hdone, hadded.extends (getOrCreateReceiverId_registers config.receiverMac
      item.pkt.receiverName Tx.noFaults s.ingest.db).1⟩
  | heartbeat item receiverId loopTime =>
    exact ⟨done, hdone, hadded.extends (upsertHeartbeat_extends receiverId now (some item.host)
      Tx.noFaults s.ingest.db)⟩
  -- an insert that commits adds the batch, one that raises adds nothing
  | insert cause =>
    cases hcall : (insertBatch s.ingest.batch Tx.noFaults s.ingest.db).1 with
    | ok r =>
      refine ⟨done ++ batched, ?_, hadded.insertBatch hbatched hcall⟩
      rw [← List.append_assoc] at hkept
      exact (List.sublist_append_left _ _).trans hkept
    | error e =>
      refine ⟨done, hdone, ?_⟩
      dsimp only
      rw [insertBatch_error hcall]
      exact hadded
  -- no call was awaited
  | start => exact ⟨done, hdone, hadded⟩
  | queueGet => exact ⟨done, hdone, hadded⟩
  | returned => exact ⟨done, hdone, hadded⟩

/-- A shutdown inserts what it finds, once. -/
theorem shutdown {kept : List QueueItem} (hkept : kept.Sublist items)
    (h : Conserved before kept s) (effect : Bool) (now : Timestamp) :
    Traced before items (s.shutdown config effect now).2 := by
  have hcall : ∃ done : List QueueItem, done.Sublist items ∧
      Added before (Aggregator.awaitedCall config s.await now s.ingest).2 done :=
    added_awaitedCall hkept h now
  have hdone := added (.inl ⟨kept, hkept, h⟩)
  unfold Aggregator.shutdown
  -- the writer waits for the queue, or for a call
  split
  · rename_i hawait
    split
    · exact .inr ⟨⟨rfl, rfl⟩, hdone⟩
    · rename_i hbatch
      -- the partial batch is yet to be written
      left
      have hholding := h.holding
      rw [hawait] at hholding
      refine ⟨kept, hkept, hholding, ?_, ?_, ?_, ?_⟩
      · exact fun h => nomatch h
      · exact fun _ _ _ h => nomatch h
      · exact fun _ _ hnil => hbatch (List.isEmpty_iff.mpr hnil)
      · exact fun h => nomatch h
  -- the call it waits for is cancelled before or after its commit
  · cases effect with
    | false => exact .inr ⟨⟨rfl, rfl⟩, hdone⟩
    | true => exact .inr ⟨⟨rfl, rfl⟩, hcall⟩

/-- One event of Geri's process. -/
theorem step (h : Traced before items s) (e : AggregatorEvent) :
    Traced before (items ++ (s.step config e).1.put.toList) (s.step config e).2 := by
  -- the writer goes on, or it has returned
  rcases h with ⟨kept, hkept, hconserved⟩ | ⟨⟨hreturned, hclosed⟩, hdone⟩
  · have hquiet : Traced before (items ++ Aggregator.quiet.put.toList) s :=
      quiet (.inl ⟨kept, hkept, hconserved⟩)
    -- one case for each event; the ones that the writer does not wait for change nothing
    cases e with
    -- these events end no call, so the step is a healthy one
    | datagram data addr wallTime loopTime =>
      refine healthy hkept hconserved ?_ fun _ _ => AggregatorEvent.noConfusion
      simp only [Aggregator.step]
      split <;> (intro _ h; cases h)
    | start =>
      refine healthy hkept hconserved ?_ fun _ _ => AggregatorEvent.noConfusion
      simp only [Aggregator.step]
      split <;> (intro _ h; cases h)
    | dequeue loopTime =>
      refine healthy hkept hconserved ?_ fun _ _ => AggregatorEvent.noConfusion
      simp only [Aggregator.step]
      split <;> (intro _ h; cases h)
    | timeout =>
      refine healthy hkept hconserved ?_ fun _ _ => AggregatorEvent.noConfusion
      simp only [Aggregator.step]
      split
      · split <;> (intro _ h; cases h)
      · intro _ h
        cases h
    | lookedUp loopTime faults =>
      simp only [Aggregator.step]
      split
      · rename_i item hawait
        have hholding := hconserved.holding
        rw [hawait] at hholding
        have hlookup := @Holding.lookup config before kept [item] s.ingest hholding
          item.pkt.receiverName faults
        have herror := @lookupReceiver_error config faults item.pkt.receiverName s.ingest
        revert hlookup herror
        cases Ingest.lookupReceiver config faults item.pkt.receiverName s.ingest with
        | mk result ingest =>
          intro hlookup herror
          cases result with
          -- a lookup that raises drops the packet in the hand
          | error e =>
            obtain rfl : ingest = s.ingest := herror rfl
            exact quiet (dropHand hkept hconserved)
          -- a lookup that succeeds registers the receiver, and the packet goes on
          | ok receiverId =>
            obtain ⟨hholding', hid⟩ := hlookup rfl
            exact quiet (.inl ⟨kept, hkept, hholding'.identified hid loopTime s.listening⟩)
      · exact hquiet
    | heartbeatSent now faults =>
      simp only [Aggregator.step]
      split
      · rename_i item receiverId loopTime hawait
        have hholding := hconserved.holding
        rw [hawait] at hholding
        obtain ⟨hsent, hreg⟩ := hholding.sendHeartbeat receiverId item.host loopTime now faults
        have hid := hreg (hconserved.await.atHeartbeat _ _ _ hawait)
        -- the heartbeat never raises, and the packet joins the batch
        exact quiet (.inl ⟨kept, hkept, hsent.append hid s.listening⟩)
      · exact hquiet
    | inserted faults =>
      simp only [Aggregator.step]
      split
      · rename_i cause hawait
        -- the insert commits the batch, or raises and drops it
        cases hcall : (insertBatch s.ingest.batch faults s.ingest.db).1 with
        | ok r => exact quiet (.inl ⟨kept, hkept, hconserved.inserted hawait hcall⟩)
        | error e =>
          have hflush : (Ingest.flush faults s.ingest).2 = { s.ingest with batch := [] } := by
            simp only [Ingest.flush, insertBatch_error hcall]
          rw [hflush]
          exact quiet (dropBatch hkept hconserved hawait)
      · exact hquiet
    | shutdown effect now =>
      simp only [Aggregator.step]
      split
      -- a shutdown puts nothing on the queue
      · have hput : (s.shutdown config effect now).1.put = none := by
          unfold Aggregator.shutdown
          split
          · split <;> rfl
          · rfl
        rw [hput, Option.toList_none, List.append_nil]
        exact shutdown hkept hconserved effect now
      · exact hquiet
  -- a writer that has returned does nothing any more
  · rw [step_returned hclosed hreturned]
    exact quiet (.inr ⟨⟨hreturned, hclosed⟩, hdone⟩)

end Traced

/-- In every run, through errors, shutdowns and restarts, the rows added are packets put on the
    queue. -/
private theorem added_of_run {config : IngestConfig} {db : IngestDb}
    {c : Config Aggregator ProcessEvent AggregatorResponse}
    (hrun : (processMachine config).Run (fun _ _ => True) ⟨[], .boot db⟩ c) :
    ∃ done : List QueueItem, done.Sublist (putItems c.log) ∧
      Added db c.state.ingest.db done := by
  have htraced : Traced db (putItems c.log) c.state := by
    refine hrun.invariant (I := fun c => Traced db (putItems c.log) c.state) ?_ ?_
    · exact .boot (List.nil_sublist _) ⟨[], (List.append_nil _).symm, .nil⟩
    · intro c e h _
      cases e with
      | run e =>
        rw [Machine.answer, putItems_cons]
        exact h.step e
      | restart =>
        obtain ⟨done, hdone, hadded⟩ := h.added
        rw [Machine.answer, putItems_cons]
        exact .boot (hdone.trans (List.sublist_append_left _ _)) hadded
  exact htraced.added

/-- Only a datagram puts a packet on the queue, and it is the packet of the datagram. -/
private theorem put_of_step {config : IngestConfig} {s : Aggregator} {e : AggregatorEvent}
    {item : QueueItem} (h : (s.step config e).1.put = some item) :
    ∃ data addr wallTime loopTime, e = .datagram data addr wallTime loopTime ∧
      parsePacket data = .ok item.pkt ∧ item.wallTime = wallTime := by
  -- only a datagram puts a packet on the queue
  cases e with
  | datagram data addr wallTime loopTime =>
    refine ⟨data, addr, wallTime, loopTime, rfl, ?_⟩
    simp only [Aggregator.step] at h
    split at h
    · change Aggregator.accepted data addr wallTime s.ingest = some item at h
      unfold Aggregator.accepted at h
      split at h
      -- it was parsed, and it found room
      · cases h
      · rename_i pkt hparse
        split at h
        · cases h
          exact ⟨hparse, rfl⟩
        · cases h
    · cases h
  | start => simp only [Aggregator.step] at h; split at h <;> cases h
  | dequeue loopTime => simp only [Aggregator.step] at h; split at h <;> cases h
  | timeout =>
    simp only [Aggregator.step] at h
    split at h
    · split at h <;> cases h
    · cases h
  | lookedUp loopTime faults =>
    simp only [Aggregator.step] at h
    split at h
    · split at h <;> cases h
    · cases h
  | heartbeatSent now faults => simp only [Aggregator.step] at h; split at h <;> cases h
  | inserted faults => simp only [Aggregator.step] at h; split at h <;> cases h
  | shutdown effect now =>
    simp only [Aggregator.step] at h
    split at h
    · unfold Aggregator.shutdown at h
      split at h
      · split at h <;> cases h
      · cases h
    · cases h

end Geri

/-! ## What arrives -/

/-- A log of the path, newest first. -/
abbrev CaptureLog (ι : Type) := List (CaptureEvent ι × CaptureOutput)

section Arrivals

variable {ι : Type} {c : Config (CapturePath ι) (CaptureEvent ι) CaptureOutput}

/-- What the aggregator sees. -/
def geriView : CaptureEvent ι × CaptureOutput → Option (ProcessEvent × AggregatorResponse)
  | (_, .geri e response) => some (e, response)
  | _ => none

/-- The packets that arrived and were put on the queue, with the number of their datagram. -/
def deliveries (log : CaptureLog ι) : List (Nat × QueueItem) :=
  (log.filterMap fun
    | (.arrival k _ _ _, .geri _ response) => response.put.map fun item => (k, item)
    | _ => none).reverse

/-- No datagram is delivered twice. -/
def DeliveredOnce (log : CaptureLog ι) : Prop := ((deliveries log).map (·.1)).Nodup

/-- The driver of every board makes one call at a time, and nobody but the receivers sends to
    the aggregator. -/
def Undisturbed (c : Config (CapturePath ι) (CaptureEvent ι) CaptureOutput) :
    CaptureEvent ι → Prop
  | .receiver i e => OneCall (c.state.receivers i) e
  | .arrival _ _ _ _ => True
  | .geri (.run (.datagram _ _ _ _)) => False
  | .geri _ => True

/-- The packets on the queue are those of the datagrams that arrived. -/
structure Arrived (c : Config (CapturePath ι) (CaptureEvent ι) CaptureOutput) : Prop where
  items : putItems (c.log.filterMap geriView) = (deliveries c.log).map (·.2)
  parsed : ∀ a ∈ deliveries c.log, ∃ x, c.state.air[a.1]? = some x ∧
    parsePacket x.2 = .ok a.2.pkt

/-- Datagrams stay where they are in the air. -/
theorem Arrived.mono (h : Arrived c) {air : List (ι × List UInt8)} {log : CaptureLog ι}
    (harrivals : deliveries log = deliveries c.log)
    (hitems : putItems (log.filterMap geriView) = putItems (c.log.filterMap geriView))
    (sent : List (ι × List UInt8)) (hair : air = c.state.air ++ sent)
    (receivers : ι → CsiPool) (geri : Aggregator) :
    Arrived ⟨log, receivers, air, geri⟩ where
  items := by rw [hitems, harrivals, h.items]
  parsed := by
    intro a ha
    rw [harrivals] at ha
    obtain ⟨x, hx, hparse⟩ := h.parsed a ha
    refine ⟨x, ?_, hparse⟩
    change air[a.1]? = some x
    rw [hair, List.getElem?_append_left (List.getElem?_eq_some_iff.mp hx).1, hx]

/-- An event of Geri is part of its own log. -/
private theorem geriView_cons (e : CaptureEvent ι) (event : ProcessEvent)
    (response : AggregatorResponse)
    (log : CaptureLog ι) : ((e, .geri event response) :: log).filterMap geriView =
      (event, response) :: log.filterMap geriView := rfl

/-- A step of the aggregator that puts nothing on the queue. -/
theorem Arrived.geri (h : Arrived c) {e : CaptureEvent ι} {event : ProcessEvent}
    {response : AggregatorResponse} (hput : response.put = none) (geri : Aggregator) :
    Arrived ⟨(e, .geri event response) :: c.log, { c.state with geri := geri }⟩ := by
  refine h.mono ?_ ?_ [] (List.append_nil _).symm _ _
  · cases e with
    | arrival k addr wallTime loopTime =>
      rw [deliveries, List.filterMap_cons_none (by dsimp only; rw [hput]; rfl)]
      rfl
    | receiver i e => rfl
    | geri e => rfl
  · rw [geriView_cons, putItems_cons, hput]
    exact List.append_nil _

/-- A datagram whose packet is put on the queue. -/
theorem Arrived.arrival (h : Arrived c) {k : Nat} {addr : Addr} {wallTime : Timestamp}
    {loopTime : LoopTime} {event : ProcessEvent} {response : AggregatorResponse}
    {item : QueueItem} (hput : response.put = some item) {x : ι × List UInt8}
    (hair : c.state.air[k]? = some x) (hparse : parsePacket x.2 = .ok item.pkt)
    (geri : Aggregator) :
    Arrived ⟨(.arrival k addr wallTime loopTime, .geri event response) :: c.log,
      { c.state with geri := geri }⟩ := by
  have harrivals : deliveries ((.arrival k addr wallTime loopTime, .geri event response) :: c.log) =
      deliveries c.log ++ [(k, item)] := by
    rw [deliveries, List.filterMap_cons_some (b := (k, item)) (by dsimp only; rw [hput]; rfl),
      List.reverse_cons]
    rfl
  constructor
  · dsimp only
    rw [geriView_cons, putItems_cons, hput, harrivals, List.map_append, h.items]
    rfl
  · intro a ha
    rw [harrivals] at ha
    rcases List.mem_append.mp ha with ha | ha
    · exact h.parsed a ha
    · obtain rfl := List.mem_singleton.mp ha
      exact ⟨x, hair, hparse⟩

end Arrivals

/-! ## The parts of the path -/

variable {ι : Type} [DecidableEq ι]

/-- What receiver `i` sees. -/
def receiverView (i : ι) : CaptureEvent ι × CaptureOutput → Option (ReceiverEvent × CsiPoolOutput)
  | (.receiver j e, .receiver output) => if j = i then some (e, output) else none
  | _ => none

/-- An event of a receiver is part of its log. -/
private theorem receiverView_self (i : ι) (e : ReceiverEvent) (output : CsiPoolOutput) :
    receiverView i (.receiver i e, .receiver output) = some (e, output) := if_pos rfl

/-- An event of another receiver is not. -/
private theorem receiverView_of_ne {i j : ι} (h : j ≠ i) (e : ReceiverEvent)
    (output : CsiPoolOutput) : receiverView i (.receiver j e, .receiver output) = none := if_neg h

/-- A receiver as part of the path. -/
def receiverPart (site : Site ι) (i : ι) : Component (captureMachine site)
    (receiverMachine (site.libm i) (site.huginnMac i) (site.name i)) where
  state s := s.receivers i
  view := receiverView i
  unseen s e h := by
    cases e with
    | receiver j e =>
      change (if j = i then some _ else none) = none at h
      split at h
      · cases h
      · rename_i hj
        exact Function.update_of_ne (Ne.symm hj) _ s.receivers
    | arrival k addr wallTime loopTime =>
      simp only [captureMachine, CapturePath.step]
      split <;> rfl
    | geri e => rfl
  seen s e x h := by
    cases e with
    | receiver j e =>
      change (if j = i then some _ else none) = some x at h
      split at h
      · rename_i hj
        subst hj
        cases h
        refine Prod.ext rfl ?_
        exact (Function.update_self j _ s.receivers).symm
      · cases h
    | arrival k addr wallTime loopTime =>
      simp only [captureMachine, CapturePath.step] at h
      split at h <;> cases h
    | geri e => cases h

/-- The aggregator as part of the path. -/
def geriPart (site : Site ι) : Component (captureMachine site) (processMachine site.geri) where
  state s := s.geri
  view := geriView
  unseen s e h := by
    cases e with
    | receiver j e => rfl
    | arrival k addr wallTime loopTime =>
      simp only [captureMachine, CapturePath.step] at h ⊢
      split at h
      · rfl
      · cases h
    | geri e => cases h
  seen s e x h := by
    cases e with
    | receiver j e => cases h
    | arrival k addr wallTime loopTime =>
      simp only [captureMachine, CapturePath.step] at h ⊢
      split at h
      · cases h
      · cases h
        rfl
    | geri e =>
      cases h
      rfl

/-! ## What the network carries -/

variable {site : Site ι} {c : Config (CapturePath ι) (CaptureEvent ι) CaptureOutput}

/-- The frames that receiver `i` captured, the oldest first. -/
def capturedBy (site : Site ι) (i : ι) (log : CaptureLog ι) : List CsiEntry :=
  captured (site.libm i) (site.huginnMac i) (log.filterMap (receiverView i))

/-- What a receiver has sent is its part of the air. -/
private theorem ofTag_air_answer {i : ι} (e : CaptureEvent ι)
    (h : List.ofTag i c.state.air = datagrams (c.log.filterMap (receiverView i))) :
    List.ofTag i ((captureMachine site).answer c e).state.air =
      datagrams (((captureMachine site).answer c e).log.filterMap (receiverView i)) := by
  -- only the receiver's own events send its datagrams
  cases e with
  | receiver j e =>
    simp only [captureMachine, Machine.answer, CapturePath.step, List.ofTag_append, h]
    generalize ((receiverMachine (site.libm j) (site.huginnMac j) (site.name j)).step
      (c.state.receivers j) e).1 = output
    -- the event is one of this receiver, or of another one
    by_cases hj : j = i
    · subst hj
      rw [List.filterMap_cons_some (receiverView_self j e output), datagrams_cons]
      cases output.datagram? with
      | none => rfl
      | some datagram => exact congrArg _ (List.ofTag_cons_self j datagram [])
    · rw [List.filterMap_cons_none (receiverView_of_ne hj e output)]
      cases output.datagram? with
      | none => exact List.append_nil _
      | some datagram =>
        rw [Option.map_some, Option.toList_some, List.ofTag_cons_of_ne hj, List.ofTag_nil,
          List.append_nil]
  -- what Geri receives was sent before
  | arrival k addr wallTime loopTime =>
    rw [Machine.answer, List.filterMap_cons_none rfl]
    simp only [captureMachine, CapturePath.step]
    split <;> exact h
  | geri e =>
    rw [Machine.answer, List.filterMap_cons_none rfl]
    exact h

/-- One step, by cases on whose it is. -/
theorem Arrived.answer (h : Arrived c) {e : CaptureEvent ι} (hok : Undisturbed c e) :
    Arrived ((captureMachine site).answer c e) := by
  -- a receiver's event sends and puts nothing twice
  cases e with
  | receiver j e =>
    refine h.mono ?_ ?_ _ rfl _ _
    · rfl
    · rfl
  | arrival k addr wallTime loopTime =>
    simp only [captureMachine, Machine.answer, CapturePath.step]
    -- the datagram that arrives is one on the air, or none
    split
    · refine h.mono ?_ ?_ [] (List.append_nil _).symm _ _
      · rfl
      · rfl
    · rename_i j datagram hair
      -- it is dropped, or put on the queue as it was parsed
      cases hput : (c.state.geri.step site.geri
        (.datagram datagram addr wallTime loopTime)).1.put with
      | none => exact h.geri hput _
      | some item =>
        obtain ⟨_, _, _, _, heq, hparse, -⟩ := put_of_step hput
        cases heq
        exact h.arrival hput hair hparse _
  -- nothing but a datagram puts a packet on the queue
  | geri e =>
    cases e with
    | restart => exact h.geri rfl _
    | run e =>
      refine h.geri (Option.eq_none_iff_forall_ne_some.mpr ?_) _
      intro item hput
      obtain ⟨data, addr, wallTime, loopTime, rfl, -⟩ := put_of_step hput
      exact hok

/-! ## Every run -/

/-- The name that Geri reads in a receiver's datagrams. -/
def nameRead (name : ReceiverName) : String :=
  String.ofList (name.text.toList.take (receiverNameMaxLen - 1))

/-- The row shows the frame, under the receiver registered with its name. -/
def Records (site : Site ι) (db : IngestDb) (x : ι × CsiEntry) (row : CsiSample) : Prop :=
  ∃ item : QueueItem, item.pkt = x.2.reading (nameRead (site.name x.1)) ∧ Carries db item row

variable {sock : ι → Int} {db : IngestDb}

/-- The datagrams in the air are those of frames that their receivers captured, each at most
    once. -/
theorem exists_sources (hrun : (captureMachine site).Run Undisturbed ⟨[], .boot sock db⟩ c) :
    ∃ xs : List (ι × CsiEntry),
      c.state.air = xs.map (fun x => (x.1, x.2.datagram (site.name x.1))) ∧
        ∀ i, (List.ofTag i xs).Sublist (capturedBy site i c.log) := by
  -- the datagrams on the air are those of each receiver
  have hair : ∀ i, List.ofTag i c.state.air = datagrams (c.log.filterMap (receiverView i)) := by
    intro i
    refine hrun.invariant (I := fun c => List.ofTag i c.state.air =
      datagrams (c.log.filterMap (receiverView i))) rfl ?_
    exact fun c e h _ => ofTag_air_answer e h
  -- each receiver has kept its books
  have hbook : ∀ i, ∃ b : CaptureBook, List.ofTag i c.state.air =
      b.sent.map (fun entry => entry.datagram (site.name i)) ∧
        b.sent.Sublist (capturedBy site i c.log) := by
    intro i
    have hpart : (receiverMachine (site.libm i) (site.huginnMac i) (site.name i)).Run
        (fun c e => OneCall c.state e) ⟨[], .boot (sock i)⟩ ((receiverPart site i).project c) := by
      apply (receiverPart site i).run hrun
      -- an event of this receiver is one step of its own machine
      intro c e x hok hview
      cases e with
      | receiver j e =>
        change receiverView i (.receiver j e, .receiver _) = some x at hview
        by_cases hj : j = i
        · subst hj
          rw [receiverView_self] at hview
          cases hview
          exact hok
        · rw [receiverView_of_ne hj] at hview
          cases hview
      | arrival k addr wallTime loopTime =>
        simp only [receiverPart, captureMachine, CapturePath.step] at hview
        split at hview <;> cases hview
      | geri e => cases hview
    obtain ⟨b, hpipelined⟩ := exists_book hpart
    exact ⟨b, (hair i).trans hpipelined.sent, hpipelined.sent_sublist⟩
  -- the receivers' books are joined in the order of the air
  choose b hsent hcaptured using hbook
  obtain ⟨xs, hxs, hof⟩ := List.exists_tagged hsent
  exact ⟨xs, hxs, fun i => (hof i).symm ▸ hcaptured i⟩

omit [DecidableEq ι] in
/-- Every arrival of a frame's datagram is a packet that shows the frame. -/
private theorem exists_pairs {xs : List (ι × CsiEntry)}
    (hair : c.state.air = xs.map (fun x => (x.1, x.2.datagram (site.name x.1))))
    (h : Arrived c) {kept : List (Nat × QueueItem)} (hkept : kept.Sublist (deliveries c.log)) :
    ∃ sources : List (ι × CsiEntry), List.Forall₂ (fun a x => xs[a.1]? = some x ∧
      a.2.pkt = x.2.reading (nameRead (site.name x.1))) kept sources := by
  have hparsed : ∀ a ∈ kept, ∃ x, c.state.air[a.1]? = some x ∧ parsePacket x.2 = .ok a.2.pkt :=
    fun a ha => h.parsed a (hkept.subset ha)
  clear hkept
  induction kept with
  | nil => exact ⟨[], .nil⟩
  | cons a kept ih =>
    obtain ⟨sources, hsources⟩ := ih fun a ha => hparsed a (List.mem_cons_of_mem _ ha)
    obtain ⟨y, hy, hparse⟩ := hparsed a List.mem_cons_self
    rw [hair, List.getElem?_map, Option.map_eq_some_iff] at hy
    obtain ⟨x, hx, rfl⟩ := hy
    refine ⟨x :: sources, .cons ⟨hx, ?_⟩ hsources⟩
    rw [CsiEntry.datagram, parsePacket_udpSendTask] at hparse
    exact (Except.ok.inj hparse).symm

/-- In every run, whatever the network, the database and the restarts do: the rows added to
    `csi_samples` show captured frames, each under the name of its receiver.  When the network
    delivers nothing twice, no frame is shown twice. -/
theorem sensed_of_run (hrun : (captureMachine site).Run Undisturbed ⟨[], .boot sock db⟩ c) :
    ∃ (sources : List (ι × CsiEntry)) (rows : List CsiSample),
      c.state.geri.ingest.db.csiSamples = db.csiSamples ++ rows ∧
      List.Forall₂ (Records site c.state.geri.ingest.db) sources rows ∧
      (∀ i, ∀ entry ∈ List.ofTag i sources, entry ∈ capturedBy site i c.log) ∧
      (DeliveredOnce c.log →
        ∀ i, (List.ofTag i sources).Subperm (capturedBy site i c.log)) := by
  -- every datagram on the air is that of a captured frame
  obtain ⟨xs, hair, hcaptured⟩ := exists_sources hrun
  -- every packet on the queue is a datagram that arrived
  have harrived : Arrived c := by
    refine hrun.invariant (I := Arrived) ?_ fun c e h hok => h.answer hok
    exact ⟨rfl, fun _ ha => absurd ha List.not_mem_nil⟩
  -- Geri's part of the run inserts some of the packets put on the queue, in order
  have hpart : (processMachine site.geri).Run (fun _ _ => True) ⟨[], .boot db⟩
      ((geriPart site).project c) := (geriPart site).run hrun fun _ _ _ _ _ => trivial
  obtain ⟨done, hdone, rows, hrows, hcarries⟩ := added_of_run hpart
  change done.Sublist (putItems (c.log.filterMap geriView)) at hdone
  rw [harrived.items, List.sublist_map_iff] at hdone
  -- so each row has the datagram it came from, and the frame that this one shows
  obtain ⟨kept, hkept, rfl⟩ := hdone
  obtain ⟨sources, hsources⟩ := exists_pairs hair harrived hkept
  have hpicks : List.Forall₂ (fun k x => xs[k]? = some x) (kept.map (·.1)) sources :=
    List.forall₂_map_left_iff.mpr (hsources.imp fun _ _ h => h.1)
  refine ⟨sources, rows, hrows, ?_, ?_, ?_⟩
  · refine (hsources.join (List.forall₂_map_left_iff.mp hcarries)).imp ?_
    rintro x row ⟨a, ⟨-, hshows⟩, hrow⟩
    exact ⟨a.2, hshows, hrow⟩
  -- a source is on the air, so its receiver captured it
  · intro i entry hentry
    have hmem := List.mem_of_picks hpicks _ (List.mem_ofTag.mp hentry)
    exact (hcaptured i).subset (List.mem_ofTag.mpr hmem)
  -- delivered once, no datagram is the source of two rows
  · intro honce i
    have hsubperm := List.subperm_of_picks (honce.sublist (hkept.map _)) hpicks
    exact (hsubperm.ofTag i).trans (hcaptured i).subperm

/-- One receiver, and the aggregator as it is deployed. -/
def cellarSite : Site Unit where
  libm _ := CsiPool.zeroLibm
  huginnMac _ := CsiPool.loudFrame.mac
  name _ := CsiPool.cellarName
  geri := plainConfig

/-- A frame is sent and delivered, and the aggregator restarts before it writes the frame's row;
    the second copy of the datagram is written. -/
def redeliveredRun : List (CaptureEvent Unit) :=
  [.receiver () (.agents (.csi (some CsiPool.loudFrame) 10)), .receiver () (.agents .runCallback),
    .receiver () (.agents .runCallback), .receiver () (.agents .runCallback),
    .receiver () (.agents .runCallback), .receiver () (.agents .runTask),
    .receiver () (.agents .runTask), .receiver () (.agents .runTask),
    .arrival 0 ⟨"10.0.0.1", 5005⟩ 5 5, .geri .restart, .arrival 0 ⟨"10.0.0.1", 5005⟩ 6 6,
    .geri (.run .start), .geri (.run (.dequeue 6)), .geri (.run (.lookedUp 6 Tx.noFaults)),
    .geri (.run .timeout), .geri (.run (.inserted Tx.noFaults))]

example : ((captureMachine cellarSite).replay ⟨[], .boot (fun _ => 3) .empty⟩
    redeliveredRun).state.geri.ingest.db.csiSamples.map (·.time) = [6] := by decide +kernel

/-- A datagram that the network delivers twice. -/
theorem sensed_of_redeliveredRun :
    let c := (captureMachine cellarSite).replay ⟨[], .boot (fun _ => 3) .empty⟩ redeliveredRun
    ∃ (sources : List (Unit × CsiEntry)) (rows : List CsiSample),
      c.state.geri.ingest.db.csiSamples = IngestDb.empty.csiSamples ++ rows ∧
      List.Forall₂ (Records cellarSite c.state.geri.ingest.db) sources rows ∧
      (∀ i, ∀ entry ∈ List.ofTag i sources, entry ∈ capturedBy cellarSite i c.log) ∧
      (DeliveredOnce c.log →
        ∀ i, (List.ofTag i sources).Subperm (capturedBy cellarSite i c.log)) := by
  have hrun : (captureMachine cellarSite).Run Undisturbed ⟨[], .boot (fun _ => 3) .empty⟩
      ((captureMachine cellarSite).replay ⟨[], .boot (fun _ => 3) .empty⟩ redeliveredRun) :=
    Machine.run_of_admits ⟨rfl, trivial, trivial, trivial, trivial, trivial, trivial, trivial,
      trivial, trivial, trivial, trivial, trivial, trivial, trivial, trivial, trivial⟩
  exact sensed_of_run hrun

end Grimnir
