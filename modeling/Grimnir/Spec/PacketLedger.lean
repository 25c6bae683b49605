import Grimnir.Spec.ShutdownDrain

/-!
# No packet is lost without an error

A ledger beside the aggregator follows every packet that comes off the queue: it is pending
until a call of the database raises or commits.  The ledger sees the events and how the
calls ended, never the batch.  Against it, `csi_samples` and the batch hold exactly the
packets that no error has cost, in the order in which they were taken.

## Key results

- `Ledger.record`: what an event does to the fates of the packets
- `Balanced.step`: every event but a shutdown keeps tables, batch and ledger in agreement
- `writer_conserves`: what is committed or batched, and what is missing, in every run
-/

namespace Grimnir.Geri

/-- What has become of a packet that came off the queue. -/
inductive Fate where
  /-- In the writer's hand or in its batch. -/
  | pending
  /-- The insert of its batch went through. -/
  | committed
  /-- Its own receiver lookup raised. -/
  | lookupRaised
  /-- The insert of its batch raised. -/
  | insertRaised
  deriving DecidableEq, Repr

structure LedgerEntry where
  item : QueueItem
  fate : Fate
  deriving DecidableEq, Repr

/-- The packets taken off the queue, oldest first. -/
abbrev Ledger := List LedgerEntry

namespace Ledger

def items (ledger : Ledger) : List QueueItem := ledger.map (·.item)

/-- The packets of one fate. -/
def itemsOf (fate : Fate) (ledger : Ledger) : List QueueItem :=
  (ledger.filter fun e => e.fate = fate).map (·.item)

/-- The packets that no error has cost. -/
def kept (ledger : Ledger) : List QueueItem :=
  (ledger.filter fun e => e.fate = .committed || e.fate = .pending).map (·.item)

/-- An insert ends: every pending packet is in its batch. -/
def settle (fate : Fate) (ledger : Ledger) : Ledger :=
  ledger.map fun e => if e.fate = .pending then { e with fate := fate } else e

/-- A lookup raises: it was made for the packet taken last. -/
def giveUp (ledger : Ledger) : Ledger :=
  ledger.dropLast ++ (ledger.getLast?.map fun e => { e with fate := .lookupRaised }).toList

/-- What an event does to the fates, from the result of the call it ends. -/
def record (s : Aggregator) (e : AggregatorEvent) (call : Option (Except DBAPIError Unit))
    (ledger : Ledger) : Ledger :=
  match e with
  | .dequeue _ =>
    match s.await, s.ingest.queue with
    | .queueGet, item :: _ => ledger ++ [⟨item, .pending⟩]
    | _, _ => ledger
  | .lookedUp _ _ =>
    match call with
    | some (.error _) => ledger.giveUp
    | _ => ledger
  | .inserted _ =>
    match call with
    | some (.ok _) => ledger.settle .committed
    | some (.error _) => ledger.settle .insertRaised
    | none => ledger
  | _ => ledger

/-! ## Accounts -/

/-- The packets of a longer ledger, part by part. -/
@[simp] theorem items_append (l m : Ledger) : items (l ++ m) = items l ++ items m :=
  List.map_append

/-- A batch that ends changes the fates of packets, not the packets. -/
@[simp] theorem items_settle (fate : Fate) (ledger : Ledger) :
    (ledger.settle fate).items = ledger.items := by
  simp only [items, settle, List.map_map]
  apply List.map_congr_left
  intro e _
  simp only [Function.comp_apply]
  split <;> rfl

/-- The packets of one fate, part by part. -/
@[simp] theorem itemsOf_append (fate : Fate) (l m : Ledger) :
    itemsOf fate (l ++ m) = itemsOf fate l ++ itemsOf fate m := by
  simp [itemsOf]

/-- The packets no error has cost, part by part. -/
@[simp] theorem kept_append (l m : Ledger) : kept (l ++ m) = kept l ++ kept m := by
  simp [kept]

/-- The packet taken last is the one whose lookup raised. -/
@[simp] theorem giveUp_snoc (l : Ledger) (e : LedgerEntry) :
    giveUp (l ++ [e]) = l ++ [{ e with fate := .lookupRaised }] := by
  simp [giveUp]

/-- A packet on its way is not lost. -/
@[simp] theorem kept_pending (item : QueueItem) : kept [⟨item, .pending⟩] = [item] := rfl

/-- A packet whose lookup raised is lost. -/
@[simp] theorem kept_lookupRaised (item : QueueItem) : kept [⟨item, .lookupRaised⟩] = [] := rfl

/-- A pending packet is counted as pending. -/
@[simp] theorem itemsOf_pending (item : QueueItem) :
    itemsOf .pending [⟨item, .pending⟩] = [item] := rfl

/-- A pending packet is not counted as committed. -/
@[simp] theorem itemsOf_committed_pending (item : QueueItem) :
    itemsOf .committed [⟨item, .pending⟩] = [] := rfl

/-- A packet whose lookup raised has no other fate. -/
private theorem itemsOf_lookupRaised {fate : Fate} (hfate : fate ≠ .lookupRaised)
    (item : QueueItem) : itemsOf fate [⟨item, .lookupRaised⟩] = [] := by
  simp [itemsOf, hfate.symm]

/-- Once committed, everything that no error has cost is committed. -/
private theorem itemsOf_settle_committed (ledger : Ledger) :
    (ledger.settle .committed).itemsOf .committed = ledger.kept := by
  induction ledger with
  | nil => rfl
  | cons e ledger ih =>
    simp only [itemsOf, kept, settle, List.map_cons, List.filter_cons] at ih ⊢
    cases he : e.fate <;> simp [he, ih]

/-- A batch that is committed loses no packet. -/
private theorem kept_settle_committed (ledger : Ledger) :
    (ledger.settle .committed).kept = ledger.kept := by
  induction ledger with
  | nil => rfl
  | cons e ledger ih =>
    simp only [kept, settle, List.map_cons, List.filter_cons] at ih ⊢
    cases he : e.fate <;> simp [he, ih]

/-- A batch that raised commits no packet. -/
private theorem itemsOf_settle_insertRaised (ledger : Ledger) :
    (ledger.settle .insertRaised).itemsOf .committed = ledger.itemsOf .committed := by
  induction ledger with
  | nil => rfl
  | cons e ledger ih =>
    simp only [itemsOf, settle, List.map_cons, List.filter_cons] at ih ⊢
    cases he : e.fate <;> simp [he, ih]

/-- After an insert that raised only the committed packets are left. -/
private theorem kept_settle_insertRaised (ledger : Ledger) :
    (ledger.settle .insertRaised).kept = ledger.itemsOf .committed := by
  induction ledger with
  | nil => rfl
  | cons e ledger ih =>
    simp only [itemsOf, kept, settle, List.map_cons, List.filter_cons] at ih ⊢
    cases he : e.fate <;> simp [he, ih]

/-- After the end of a batch no packet is pending. -/
private theorem itemsOf_pending_settle {fate : Fate} (hfate : fate ≠ .pending) (ledger : Ledger) :
    (ledger.settle fate).itemsOf .pending = [] := by
  induction ledger with
  | nil => rfl
  | cons e ledger ih =>
    simp only [itemsOf, settle, List.map_cons, List.filter_cons] at ih ⊢
    by_cases he : e.fate = .pending
    · simp [he, hfate, ih]
    · simp [he, ih]

end Ledger

/-- The aggregator with its ledger. -/
def ledgerMachine (config : IngestConfig) :
    Machine (Aggregator × Ledger) AggregatorEvent AggregatorResponse where
  step p e :=
    ((p.1.step config e).1, (p.1.step config e).2, p.2.record p.1 e (p.1.step config e).1.call)

variable {config : IngestConfig}

/-! ## The batch -/

/-- The batch is no longer than `BATCH_SIZE`, and shorter unless it is being inserted. -/
structure Fits (config : IngestConfig) (s : Ingest) (await : Await) : Prop where
  le : (s.batch.length : Int) ≤ config.batchSize
  lt : (∀ cause, await ≠ .insert cause) → (s.batch.length : Int) < config.batchSize

/-- A batch below its size is one the loop may await with. -/
private theorem Fits.of_lt {s : Ingest} {await : Await}
    (h : (s.batch.length : Int) < config.batchSize) : Fits config s await :=
  ⟨Int.le_of_lt h, fun _ => h⟩

/-- So is the empty batch, since a batch size is at least one. -/
theorem Fits.nil {s : Ingest} {await : Await} (hbatchSize : 1 ≤ config.batchSize)
    (hbatch : s.batch = []) : Fits config s await := by
  apply Fits.of_lt
  rw [hbatch, List.length_nil]
  omega

/-- Appending below the batch size leaves at most a full batch, and a full one is flushed. -/
private theorem append_fits {item : QueueItem} {receiverId : Int} {s : Ingest}
    (h : (s.batch.length : Int) < config.batchSize) :
    Fits config (Aggregator.append config item receiverId s).2
      (Aggregator.append config item receiverId s).1 := by
  simp only [Aggregator.append]
  split
  · refine ⟨?_, fun hne => absurd rfl (hne .full)⟩
    simp only [List.length_append, List.length_cons, List.length_nil] at *
    omega
  · rename_i hshort
    exact .of_lt (Int.not_le.mp hshort)

/-- Going on with an identified packet keeps the batch within its size. -/
private theorem identified_fits {item : QueueItem} {receiverId : Int} {loopTime : LoopTime}
    {s : Ingest} (h : (s.batch.length : Int) < config.batchSize) :
    Fits config (Aggregator.identified config item receiverId loopTime s).2
      (Aggregator.identified config item receiverId loopTime s).1 := by
  unfold Aggregator.identified
  split
  · exact .of_lt h
  · exact append_fits h

/-- Taking a packet keeps the batch within its size. -/
private theorem taken_fits {item : QueueItem} {loopTime : LoopTime} {s : Ingest}
    (h : (s.batch.length : Int) < config.batchSize) :
    Fits config (Aggregator.taken config item loopTime s).2
      (Aggregator.taken config item loopTime s).1 := by
  unfold Aggregator.taken
  split
  · exact identified_fits h
  · exact .of_lt h

/-! ## Frames -/

variable (config) in
/-- Appending a packet touches neither the queue nor the database, and frees the hand. -/
private theorem append_frame (item : QueueItem) (receiverId : Int) (s : Ingest) :
    (Aggregator.append config item receiverId s).2.queue = s.queue ∧
      (Aggregator.append config item receiverId s).2.db = s.db ∧
      (Aggregator.append config item receiverId s).1.hand = [] := by
  simp only [Aggregator.append]
  split <;> exact ⟨rfl, rfl, rfl⟩

variable (config) in
/-- Going on with an identified packet leaves at most that packet in the hand. -/
private theorem identified_frame (item : QueueItem) (receiverId : Int) (loopTime : LoopTime)
    (s : Ingest) :
    (Aggregator.identified config item receiverId loopTime s).2.queue = s.queue ∧
      (Aggregator.identified config item receiverId loopTime s).2.db = s.db ∧
      ∀ other ∈ (Aggregator.identified config item receiverId loopTime s).1.hand,
        other = item := by
  obtain ⟨hqueue, hdb, hhand⟩ := append_frame config item receiverId s
  unfold Aggregator.identified
  split
  · exact ⟨rfl, rfl, fun _ h => List.mem_singleton.mp h⟩
  · exact ⟨hqueue, hdb, by simp [hhand]⟩

variable (config) in
/-- Taking a packet leaves at most that packet in the hand. -/
private theorem taken_frame (item : QueueItem) (loopTime : LoopTime) (s : Ingest) :
    (Aggregator.taken config item loopTime s).2.queue = s.queue ∧
      (Aggregator.taken config item loopTime s).2.db = s.db ∧
      ∀ other ∈ (Aggregator.taken config item loopTime s).1.hand, other = item := by
  unfold Aggregator.taken
  split
  · exact identified_frame _ _ _ _ _
  · exact ⟨rfl, rfl, fun _ h => List.mem_singleton.mp h⟩

/-! ## The ledger agrees with the writer -/

/-- Tables, batch, hand and queue hold what the ledger says. -/
structure Balanced (config : IngestConfig) (before : IngestDb) (items : List QueueItem)
    (s : Aggregator) (ledger : Ledger) : Prop where
  dequeued : items = ledger.items ++ s.ingest.queue
  conserved : Conserved before (ledger.kept ++ s.ingest.queue) s
  inOrder : ledger.kept = ledger.itemsOf .committed ++ ledger.itemsOf .pending
  committed : s.ingest.db.csiSamples.length =
    before.csiSamples.length + (ledger.itemsOf .committed).length
  hand : ∀ item ∈ s.await.hand, ∃ earlier, ledger = earlier ++ [⟨item, .pending⟩]
  fits : Fits config s.ingest s.await
  listening : s.listening = true

/-- Nothing came off the queue and no call ended. -/
theorem Balanced.idle {before : IngestDb} {items : List QueueItem} {s : Aggregator}
    {ledger : Ledger} (h : Balanced config before items s ledger) :
    Balanced config before (items ++ Aggregator.quiet.put.toList) s ledger := by
  rw [show Aggregator.quiet.put.toList = [] from rfl, List.append_nil]
  exact h

/-- The committed packets are the rows added, the pending ones are the batch and the hand. -/
theorem Balanced.placed {before : IngestDb} {items : List QueueItem} {s : Aggregator}
    {ledger : Ledger} (h : Balanced config before items s ledger) :
    Added before s.ingest.db (ledger.itemsOf .committed) ∧
      ∃ batched, ledger.itemsOf .pending = batched ++ s.await.hand ∧
        List.Forall₂ (Holds s.ingest.db) batched s.ingest.batch := by
  obtain ⟨done, batched, hitems, hadded, hbatched⟩ := h.conserved.holding.placed
  have hlength : done.length = (ledger.itemsOf .committed).length := by
    obtain ⟨rows, hrows, hdone⟩ := hadded
    have hcount := h.committed
    rw [hrows, List.length_append, ← hdone.length_eq] at hcount
    omega
  rw [h.inOrder, ← List.append_assoc batched, ← List.append_assoc done] at hitems
  have hkept := List.append_cancel_right hitems
  -- both lists begin with the packets of the rows
  obtain ⟨hcommitted, hpending⟩ := List.append_inj hkept hlength.symm
  exact ⟨hcommitted ▸ hadded, batched, hpending, hbatched⟩

/-- A lookup that raises is rolled back. -/
theorem lookupReceiver_error {faults : IngestFaults} {name : String} {s : Ingest}
    {e : DBAPIError} (h : (Ingest.lookupReceiver config faults name s).1 = .error e) :
    (Ingest.lookupReceiver config faults name s).2 = s := by
  unfold Ingest.lookupReceiver at h ⊢
  split
  · rfl
  · rename_i hget
    simp only [hget] at h
    split
    · rename_i hcall
      simp only [hcall] at h
      cases h
    · rename_i e' db hcall
      have hdb : (getOrCreateReceiverId config.receiverMac name faults s.db).2 = s.db :=
        Tx.transact_error (congrArg Prod.fst hcall)
      rw [hcall] at hdb
      cases hdb
      rfl

/-- A lookup that raises costs the packet in hand. -/
private theorem Balanced.lookupRaised {before : IngestDb} {items : List QueueItem} {s : Aggregator}
    {ledger : Ledger} (h : Balanced config before items s ledger) {item : QueueItem}
    (hawait : s.await = .lookup item) :
    Balanced config before items { s with await := .queueGet } ledger.giveUp := by
  have hhand : s.await.hand = [item] := by rw [hawait]; rfl
  obtain ⟨earlier, rfl⟩ := h.hand item (by rw [hhand]; exact List.mem_singleton_self item)
  -- the packet in hand is the ledger's last entry, pending until now
  obtain ⟨hadded, batched, hpending, hbatched⟩ := h.placed
  have hcommitted : Ledger.itemsOf .committed [⟨item, .lookupRaised⟩] = [] :=
    Ledger.itemsOf_lookupRaised (by decide) item
  have hpendingNone : Ledger.itemsOf .pending [⟨item, .lookupRaised⟩] = [] :=
    Ledger.itemsOf_lookupRaised (by decide) item
  rw [Ledger.itemsOf_append, Ledger.itemsOf_pending, hhand] at hpending
  have hpending' := List.append_cancel_right hpending
  have hinOrder := h.inOrder
  simp only [Ledger.kept_append, Ledger.kept_pending, Ledger.itemsOf_append,
    Ledger.itemsOf_committed_pending, Ledger.itemsOf_pending, List.append_nil] at hinOrder
  rw [← List.append_assoc] at hinOrder
  have hinOrder' := List.append_cancel_right hinOrder
  rw [Ledger.itemsOf_append, Ledger.itemsOf_committed_pending, List.append_nil] at hadded
  rw [Ledger.giveUp_snoc]
  constructor
  · rw [h.dequeued, Ledger.items_append, Ledger.items_append]
    rfl
  · refine ⟨⟨h.conserved.holding.cached, _, batched, ?_, hadded, hbatched⟩, ?_⟩
    · rw [Ledger.kept_append, Ledger.kept_lookupRaised, List.append_nil, hinOrder', hpending',
        List.append_assoc]
      rfl
    · exact .queueGet _ _
  -- its new fate keeps nothing, so the rows are those of the entries before
  · rw [Ledger.kept_append, Ledger.kept_lookupRaised, List.append_nil, Ledger.itemsOf_append,
      hcommitted, Ledger.itemsOf_append, hpendingNone, List.append_nil, List.append_nil, hinOrder']
  · have hrows := h.committed
    rw [Ledger.itemsOf_append, Ledger.itemsOf_committed_pending] at hrows
    rw [Ledger.itemsOf_append, hcommitted]
    exact hrows
  · exact fun _ hmem => absurd hmem List.not_mem_nil
  · exact .of_lt (h.fits.lt (by rw [hawait]; exact fun _ => Await.noConfusion))
  · exact h.listening

/-- An insert that raises costs the batch. -/
private theorem Balanced.insertRaised {before : IngestDb} {items : List QueueItem} {s : Aggregator}
    {ledger : Ledger} (h : Balanced config before items s ledger)
    (hbatchSize : 1 ≤ config.batchSize) :
    Balanced config before items
      { s with await := .queueGet, ingest := { s.ingest with batch := [] } }
      (ledger.settle .insertRaised) := by
  obtain ⟨hadded, -⟩ := h.placed
  have hsettled := ledger.itemsOf_pending_settle (show Fate.insertRaised ≠ .pending by decide)
  constructor
  · rw [Ledger.items_settle]
    exact h.dequeued
  · refine ⟨⟨h.conserved.holding.cached, _, [], ?_, hadded, .nil⟩, .queueGet _ _⟩
    rw [Ledger.kept_settle_insertRaised]
    rfl
  · rw [Ledger.kept_settle_insertRaised, Ledger.itemsOf_settle_insertRaised, hsettled,
      List.append_nil]
  · rw [Ledger.itemsOf_settle_insertRaised]
    exact h.committed
  · exact fun _ hmem => absurd hmem List.not_mem_nil
  · exact .nil hbatchSize rfl
  · exact h.listening

/-- An insert that goes through commits the batch. -/
private theorem Balanced.insertCommitted {before : IngestDb} {items : List QueueItem}
    {s : Aggregator}
    {ledger : Ledger} (h : Balanced config before items s ledger) {cause : FlushCause}
    (hawait : s.await = .insert cause) (hcause : cause ≠ .cancelled) {faults : IngestFaults}
    (hok : (insertBatch s.ingest.batch faults s.ingest.db).1 = .ok ())
    (hbatchSize : 1 ≤ config.batchSize) :
    Balanced config before items
      { s with await := .queueGet, ingest := (Ingest.flush faults s.ingest).2 }
      (ledger.settle .committed) := by
  -- the pending entries are the batch, in order
  obtain ⟨-, batched, hpending, hbatched⟩ := h.placed
  have hsettled := ledger.itemsOf_pending_settle (show Fate.committed ≠ .pending by decide)
  have hhand : s.await.hand = [] := by rw [hawait]; rfl
  have hconserved := h.conserved.inserted hawait hok
  rw [if_neg hcause] at hconserved
  constructor
  · rw [Ledger.items_settle]
    exact h.dequeued
  · rw [Ledger.kept_settle_committed]
    exact hconserved
  · rw [Ledger.kept_settle_committed, Ledger.itemsOf_settle_committed, hsettled, List.append_nil]
  -- all of them are committed in one statement
  · rw [Ledger.itemsOf_settle_committed, h.inOrder, hpending, hhand, List.append_nil]
    show (insertBatch s.ingest.batch faults s.ingest.db).2.csiSamples.length = _
    rw [insertBatch_ok hok]
    simp only [List.length_append, List.length_map, h.committed, hbatched.length_eq]
    omega
  · exact fun _ hmem => absurd hmem List.not_mem_nil
  · exact .nil hbatchSize rfl
  · exact h.listening

/-- A packet comes off the queue. -/
theorem Balanced.dequeue {before : IngestDb} {items : List QueueItem} {s : Aggregator}
    {ledger : Ledger} (h : Balanced config before items s ledger) (hawait : s.await = .queueGet)
    {item : QueueItem} {queue : List QueueItem} (hqueue : s.ingest.queue = item :: queue)
    (loopTime : LoopTime) :
    Balanced config before items
      { s with
        await := (Aggregator.taken config item loopTime { s.ingest with queue := queue }).1
        ingest := (Aggregator.taken config item loopTime { s.ingest with queue := queue }).2 }
      (ledger ++ [⟨item, .pending⟩]) := by
  -- nothing was in hand, so the pending entries are the batch alone
  obtain ⟨hadded, batched, hpending, hbatched⟩ := h.placed
  obtain ⟨hqueue', hdb, hhand⟩ :=
    taken_frame config item loopTime { s.ingest with queue := queue }
  have hnone : s.await.hand = [] := by rw [hawait]; rfl
  rw [hnone, List.append_nil] at hpending
  constructor
  · rw [h.dequeued, hqueue, hqueue', Ledger.items_append, List.append_assoc]
    rfl
  -- the packet leaves the queue and is held from here on
  · have hholding : Holding before (Ledger.kept (ledger ++ [⟨item, .pending⟩]) ++ queue)
        [item] { s.ingest with queue := queue } := by
      refine ⟨h.conserved.holding.cached, _, batched, ?_, hadded, hbatched⟩
      rw [Ledger.kept_append, Ledger.kept_pending, h.inOrder, hpending]
      simp only [List.append_assoc]
    rw [hqueue']
    exact hholding.taken loopTime s.listening
  · simp only [Ledger.kept_append, Ledger.kept_pending, h.inOrder, Ledger.itemsOf_append,
      Ledger.itemsOf_committed_pending, Ledger.itemsOf_pending, List.append_nil, List.append_assoc]
  · rw [hdb, Ledger.itemsOf_append, Ledger.itemsOf_committed_pending, List.append_nil]
    exact h.committed
  · intro other hother
    exact ⟨ledger, by rw [hhand other hother]⟩
  · exact taken_fits (h.fits.lt (by rw [hawait]; exact fun _ => Await.noConfusion))
  · exact h.listening

/-- A lookup returns. -/
theorem Balanced.lookedUp {before : IngestDb} {items : List QueueItem} {s : Aggregator}
    {ledger : Ledger} (h : Balanced config before items s ledger) {item : QueueItem}
    (hawait : s.await = .lookup item) {faults : IngestFaults} {receiverId : Int}
    {ingest : Ingest}
    (hcall : Ingest.lookupReceiver config faults item.pkt.receiverName s.ingest =
      (.ok receiverId, ingest)) (loopTime : LoopTime) :
    Balanced config before items
      { s with
        await := (Aggregator.identified config item receiverId loopTime ingest).1
        ingest := (Aggregator.identified config item receiverId loopTime ingest).2 }
      ledger := by
  -- the packet stays in hand; only the registry and the cache may have grown
  have hhand : s.await.hand = [item] := by rw [hawait]; rfl
  have hholding := h.conserved.holding
  rw [hhand] at hholding
  obtain ⟨hholding', hid⟩ :=
    hholding.lookup (congrArg Prod.fst hcall)
  obtain ⟨-, hqueue, hbatch, hsamples⟩ :=
    Ingest.lookupReceiver_frame config faults item.pkt.receiverName s.ingest
  rw [hcall] at hholding' hid hqueue hbatch hsamples
  obtain ⟨hqueue', hdb, hhand'⟩ :=
    identified_frame config item receiverId loopTime ingest
  dsimp only at hqueue hbatch hsamples
  constructor
  · rw [hqueue', hqueue]
    exact h.dequeued
  · rw [hqueue', hqueue]
    exact hholding'.identified hid loopTime s.listening
  · exact h.inOrder
  · rw [hdb, hsamples]
    exact h.committed
  · intro other hother
    rw [hhand' other hother]
    exact h.hand item (by rw [hhand]; exact List.mem_singleton_self item)
  · apply identified_fits
    rw [hbatch]
    exact h.fits.lt (by rw [hawait]; exact fun _ => Await.noConfusion)
  · exact h.listening

/-- A heartbeat returns or raises: the packet joins the batch either way. -/
theorem Balanced.heartbeatSent {before : IngestDb} {items : List QueueItem} {s : Aggregator}
    {ledger : Ledger} (h : Balanced config before items s ledger) {item : QueueItem}
    {receiverId : Int} {loopTime : LoopTime}
    (hawait : s.await = .heartbeat item receiverId loopTime) (now : Timestamp)
    (faults : IngestFaults) :
    Balanced config before items
      { s with
        await := (Aggregator.append config item receiverId
          (Ingest.sendHeartbeat receiverId item.host loopTime now faults s.ingest)).1
        ingest := (Aggregator.append config item receiverId
          (Ingest.sendHeartbeat receiverId item.host loopTime now faults s.ingest)).2 }
      ledger := by
  have hhand : s.await.hand = [item] := by rw [hawait]; rfl
  have hholding := h.conserved.holding
  rw [hhand] at hholding
  -- the heartbeat touches no table that the ledger is about
  obtain ⟨hsent, hreg⟩ := hholding.sendHeartbeat receiverId item.host loopTime now faults
  have hid := h.conserved.await.atHeartbeat _ _ _ hawait
  obtain ⟨-, hqueue, hbatch, hsamples⟩ :=
    Ingest.sendHeartbeat_frame receiverId item.host loopTime now faults s.ingest
  obtain ⟨hqueue', hdb, hhand'⟩ := append_frame config item receiverId
    (Ingest.sendHeartbeat receiverId item.host loopTime now faults s.ingest)
  constructor
  · rw [hqueue', hqueue]
    exact h.dequeued
  · rw [hqueue', hqueue]
    exact hsent.append (hreg hid) s.listening
  · exact h.inOrder
  · rw [hdb, hsamples]
    exact h.committed
  · rw [hhand']
    exact fun _ hmem => absurd hmem List.not_mem_nil
  · apply append_fits
    rw [hbatch]
    exact h.fits.lt (by rw [hawait]; exact fun _ => Await.noConfusion)
  · exact h.listening

/-- A datagram joins the queue or does not. -/
theorem Balanced.datagram {before : IngestDb} {items : List QueueItem} {s : Aggregator}
    {ledger : Ledger} (h : Balanced config before items s ledger) (data : List UInt8)
    (addr : Addr) (wallTime : Timestamp) (loopTime : LoopTime) :
    Balanced config before
      (items ++ (Aggregator.accepted data addr wallTime s.ingest).toList)
      { s with
        ingest := (Ingest.datagramReceived config data addr wallTime loopTime s.ingest).2 }
      ledger := by
  obtain ⟨hqueue, -⟩ := datagramReceived_queue config data addr wallTime loopTime s.ingest
  obtain ⟨hbatch, hdb⟩ :=
    Ingest.datagramReceived_frame config data addr wallTime loopTime s.ingest
  constructor
  · rw [hqueue, h.dequeued, List.append_assoc]
  · have hconserved := @Conserved.datagram config _ _ _ h.conserved data addr wallTime loopTime
    rw [hqueue, ← List.append_assoc]
    exact hconserved
  · exact h.inOrder
  · rw [hdb]
    exact h.committed
  · exact h.hand
  · exact ⟨by rw [hbatch]; exact h.fits.le, by rw [hbatch]; exact h.fits.lt⟩
  · exact h.listening

/-- The task starts. -/
theorem Balanced.started {before : IngestDb} {items : List QueueItem} {s : Aggregator}
    {ledger : Ledger} (h : Balanced config before items s ledger) (hawait : s.await = .start) :
    Balanced config before items { s with await := .queueGet } ledger := by
  have hhand : s.await.hand = [] := by rw [hawait]; rfl
  have hholding := h.conserved.holding
  rw [hhand] at hholding
  refine ⟨h.dequeued, ⟨hholding, .queueGet _ _⟩, h.inOrder, h.committed, ?_, ?_, h.listening⟩
  · exact fun _ hmem => absurd hmem List.not_mem_nil
  · exact .of_lt (h.fits.lt (by rw [hawait]; exact fun _ => Await.noConfusion))

/-- The wait for a packet times out: a partial batch is inserted. -/
private theorem Balanced.timedOut {before : IngestDb} {items : List QueueItem} {s : Aggregator}
    {ledger : Ledger} (h : Balanced config before items s ledger) (hawait : s.await = .queueGet)
    (hbatch : s.ingest.batch ≠ []) :
    Balanced config before items { s with await := .insert .timeout } ledger := by
  have hhand : s.await.hand = [] := by rw [hawait]; rfl
  have hholding := h.conserved.holding
  rw [hhand] at hholding
  refine ⟨h.dequeued, ⟨hholding, .insert hbatch fun _ => FlushCause.noConfusion⟩, h.inOrder,
    h.committed, ?_, ⟨h.fits.le, ?_⟩, h.listening⟩
  · exact fun _ hmem => absurd hmem List.not_mem_nil
  · exact fun hne => absurd rfl (hne .timeout)

/-- Every event but a shutdown keeps the ledger right. -/
theorem Balanced.step {before : IngestDb} {items : List QueueItem} {s : Aggregator}
    {ledger : Ledger} (h : Balanced config before items s ledger)
    (hbatchSize : 1 ≤ config.batchSize) (e : AggregatorEvent)
    (hopen : ∀ effect now, e ≠ .shutdown effect now) :
    Balanced config before (items ++ (s.step config e).1.put.toList) (s.step config e).2
      (ledger.record s e (s.step config e).1.call) := by
  -- which of the awaited calls returns decides the lemma
  cases e with
  | datagram data addr wallTime loopTime =>
    simp only [Aggregator.step]
    rw [if_pos h.listening]
    exact h.datagram data addr wallTime loopTime
  | start =>
    simp only [Aggregator.step]
    split
    · rename_i hawait
      exact (h.started hawait).idle
    · exact h.idle
  | dequeue loopTime =>
    simp only [Aggregator.step, Ledger.record]
    cases hawait : s.await with
    | queueGet =>
      cases hqueue : s.ingest.queue with
      | nil => exact h.idle
      | cons item queue =>
        have hput : items ++ Aggregator.quiet.put.toList = items := List.append_nil items
        dsimp only
        rw [hput]
        exact h.dequeue hawait hqueue loopTime
    -- an event of another await changes nothing
    | start => exact h.idle
    | lookup item => exact h.idle
    | heartbeat item receiverId t => exact h.idle
    | insert cause => exact h.idle
    | returned => exact h.idle
  | timeout =>
    simp only [Aggregator.step]
    split
    · rename_i hawait
      split
      · exact h.idle
      · rename_i hbatch
        exact (h.timedOut hawait fun hnil => hbatch (List.isEmpty_iff.mpr hnil)).idle
    · exact h.idle
  | lookedUp loopTime faults =>
    simp only [Aggregator.step, Ledger.record]
    cases hawait : s.await with
    | lookup item =>
      dsimp only
      cases hcall : Ingest.lookupReceiver config faults item.pkt.receiverName s.ingest with
      | mk result ingest =>
        cases result with
        | error e =>
          -- a lookup that raises has changed nothing else
          have hsame := @lookupReceiver_error config _ _ _ _ (congrArg Prod.fst hcall)
          rw [hcall] at hsame
          cases hsame
          dsimp only
          rw [Option.toList_none, List.append_nil]
          exact h.lookupRaised hawait
        | ok receiverId =>
          dsimp only
          rw [Option.toList_none, List.append_nil]
          exact h.lookedUp hawait hcall loopTime
    | start => exact h.idle
    | queueGet => exact h.idle
    | heartbeat item receiverId t => exact h.idle
    | insert cause => exact h.idle
    | returned => exact h.idle
  | heartbeatSent now faults =>
    simp only [Aggregator.step]
    split
    · rename_i item receiverId loopTime hawait
      dsimp only
      rw [Option.toList_none, List.append_nil]
      exact h.heartbeatSent hawait now faults
    · exact h.idle
  | inserted faults =>
    simp only [Aggregator.step, Ledger.record]
    cases hawait : s.await with
    | insert cause =>
      -- the last insert of a shutdown is not one of these
      have hcause : cause ≠ .cancelled := by
        rintro rfl
        exact (h.conserved.await.running h.listening).2 hawait
      dsimp only
      rw [if_neg hcause, Option.toList_none, List.append_nil]
      cases hcall : (insertBatch s.ingest.batch faults s.ingest.db).1 with
      | ok result => exact h.insertCommitted hawait hcause hcall hbatchSize
      | error e =>
        -- the batch is gone although nothing of it was committed
        have hflush : (Ingest.flush faults s.ingest).2 = { s.ingest with batch := [] } := by
          simp only [Ingest.flush, insertBatch_error hcall]
        rw [hflush]
        exact h.insertRaised hbatchSize
    | start => exact h.idle
    | queueGet => exact h.idle
    | lookup item => exact h.idle
    | heartbeat item receiverId t => exact h.idle
    | returned => exact h.idle
  | shutdown effect now => exact absurd rfl (hopen effect now)

/-! ## Runs -/

/-- Nothing cancels the writer. -/
def Uncancelled (e : AggregatorEvent) : Prop := ∀ effect now, e ≠ .shutdown effect now

/-- A writer that has just started holds no packet and no batch. -/
theorem AwaitOk.boot (db : IngestDb) : AwaitOk (Ingest.start db) .start true where
  atStart _ := rfl
  atHeartbeat _ _ _ h := nomatch h
  atInsert _ h := nomatch h
  running _ := ⟨Await.noConfusion, Await.noConfusion⟩

/-- In every run without a cancellation the ledger stays balanced. -/
private theorem balanced_of_run {db : IngestDb} (hbatchSize : 1 ≤ config.batchSize)
    {c : Config (Aggregator × Ledger) AggregatorEvent AggregatorResponse}
    (hrun : (ledgerMachine config).Run (fun _ e => Uncancelled e) ⟨[], .boot db, []⟩ c) :
    Balanced config db (enqueued c.log) c.state.1 c.state.2 := by
  apply hrun.invariant (I := fun c => Balanced config db (enqueued c.log) c.state.1 c.state.2)
  · have hcached : ∀ name id, (Ingest.start db).receiverCache.get? name = some id →
        db.Registered name id := by
      intro _ _ h
      cases h
    have hempty : Placed db [] [] (Ingest.start db) [] [] :=
      ⟨rfl, ⟨[], (List.append_nil _).symm, .nil⟩, .nil⟩
    refine ⟨rfl, ⟨⟨hcached, [], [], hempty⟩, .boot db⟩, rfl, rfl, ?_, .of_lt ?_, rfl⟩
    · exact fun _ h => absurd h List.not_mem_nil
    · show (([] : List BatchEntry).length : Int) < config.batchSize
      simp only [List.length_nil]
      omega
  · intro c e h hopen
    exact h.step hbatchSize e hopen

/-- In every run without a cancellation, whatever the calls of the database do: the rows
    committed so far and then the batch are, in this order, packets taken off the queue, each
    under its own receiver.  The packets that are missing met an error, of their own lookup or
    of the insert of their batch, or are in the writer's hand; and no batch is too long. -/
theorem writer_conserves {db : IngestDb} (hbatchSize : 1 ≤ config.batchSize)
    {c : Config (Aggregator × Ledger) AggregatorEvent AggregatorResponse}
    (hrun : (ledgerMachine config).Run (fun _ e => Uncancelled e) ⟨[], .boot db, []⟩ c) :
    let s := c.state.1
    let ledger := c.state.2
    enqueued c.log = ledger.items ++ s.ingest.queue ∧
      (∃ rows batched, s.ingest.db.csiSamples = db.csiSamples ++ rows ∧
        List.Forall₂ (Carries s.ingest.db) (ledger.itemsOf .committed) rows ∧
        List.Forall₂ (Holds s.ingest.db) batched s.ingest.batch ∧
        ledger.itemsOf .pending = batched ++ s.await.hand ∧
        ledger.kept = ledger.itemsOf .committed ++ batched ++ s.await.hand ∧
        (ledger.itemsOf .committed ++ batched).Sublist ledger.items) ∧
      (s.ingest.batch.length : Int) ≤ config.batchSize := by
  have h := balanced_of_run hbatchSize hrun
  obtain ⟨⟨rows, hrows, hcommitted⟩, batched, hpending, hbatched⟩ := h.placed
  have hkept : c.state.2.kept =
      c.state.2.itemsOf .committed ++ batched ++ c.state.1.await.hand := by
    rw [h.inOrder, hpending, List.append_assoc]
  have hsublist : (c.state.2.itemsOf .committed ++ batched).Sublist c.state.2.items := by
    have hprefix : (c.state.2.itemsOf .committed ++ batched).Sublist c.state.2.kept := by
      rw [hkept]
      exact List.sublist_append_left _ _
    exact hprefix.trans (List.filter_sublist.map _)
  exact ⟨h.dequeued, ⟨rows, batched, hrows, hcommitted, hbatched, hpending, hkept, hsublist⟩,
    h.fits.le⟩

/-! ## A run with an error -/

/-- The database is away. -/
def awayFaults : IngestFaults := fun _ => some ⟨false, "connection refused"⟩

/-- The first packet is lost with its lookup, the second one is batched. -/
def lostThenBatched : List AggregatorEvent :=
  lookupRun ++ [.lookedUp 0 awayFaults, .datagram (bareDatagram 97 6) ⟨"10.0.0.1", 5005⟩ 1 1,
    .dequeue 1, .lookedUp 1 Tx.noFaults]

/-- A run in which one packet is lost to its lookup and another is batched. -/
theorem writer_conserves_lostThenBatched :
    let c := (ledgerMachine plainConfig).replay ⟨[], .boot .empty, []⟩ lostThenBatched
    let s := c.state.1
    let ledger := c.state.2
    ledger.map (·.fate) = [.lookupRaised, .pending] ∧
      enqueued c.log = ledger.items ++ s.ingest.queue ∧
      (∃ rows batched, s.ingest.db.csiSamples = IngestDb.empty.csiSamples ++ rows ∧
        List.Forall₂ (Carries s.ingest.db) (ledger.itemsOf .committed) rows ∧
        List.Forall₂ (Holds s.ingest.db) batched s.ingest.batch ∧
        ledger.itemsOf .pending = batched ++ s.await.hand ∧
        ledger.kept = ledger.itemsOf .committed ++ batched ++ s.await.hand ∧
        (ledger.itemsOf .committed ++ batched).Sublist ledger.items) ∧
      (s.ingest.batch.length : Int) ≤ plainConfig.batchSize := by
  have hopen : (ledgerMachine plainConfig).Admits (fun _ e => Uncancelled e)
      ⟨[], .boot .empty, []⟩ lostThenBatched := by
    refine ⟨?_, ?_, ?_, ?_, ?_, ?_, ?_, trivial⟩ <;> exact fun _ _ => AggregatorEvent.noConfusion
  exact ⟨by decide, writer_conserves (by decide) (Machine.run_of_admits hopen)⟩

end Grimnir.Geri
