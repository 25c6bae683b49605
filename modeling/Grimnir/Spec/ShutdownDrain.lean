import Grimnir.Native.Writer
import Grimnir.Spec.IngestIsolation
import Mathlib.Data.List.Forall2

/-!
# What a shutdown leaves behind

With every call of the database succeeding, each packet put on the queue is in
`csi_samples`, in the batch, in the writer's hand or still queued.  Cancelling the writer
drops the hand and the queue, and the batch as well unless the writer waits for the queue.

## Key results

- `Conserved.step`: no event loses or duplicates a packet while the transport is open
- `drained_iff`: every packet is inserted exactly once when the shutdown meets an empty queue
  and a writer that waits for it or whose insert has committed, and only then
- `steps_round`: awaited to the end, the calls of a round are the one event of `Ingest`
- `shutdown_loses_packet`: a packet in hand is lost
-/

namespace Grimnir.Geri

variable {config : IngestConfig}

/-! ## Receivers -/

/-- `id` is the receiver registered under `name`. -/
def IngestDb.Registered (db : IngestDb) (name : String) (id : Int) : Prop :=
  ∃ receiver ∈ db.receivers, receiver.name = name ∧ receiver.id = id

/-- The samples are the same and every registered receiver still is. -/
structure IngestDb.Extends (db db' : IngestDb) : Prop where
  samples : db'.csiSamples = db.csiSamples
  registered : ∀ {name id}, db.Registered name id → db'.Registered name id

/-- A database that does not change extends itself. -/
theorem IngestDb.Extends.refl (db : IngestDb) : db.Extends db := ⟨rfl, fun h => h⟩

/-- An upsert registers its receiver and keeps all others. -/
private theorem insertReceiver_registers (mac name : String) (db : IngestDb) :
    db.Extends (db.insertReceiver mac name).2 ∧
      (db.insertReceiver mac name).2.Registered name (db.insertReceiver mac name).1 := by
  unfold IngestDb.insertReceiver
  split
  -- the receiver exists, and is set active
  · rename_i receiver hfind
    have hsame : ∀ r, (reactivate name r).id = r.id := by
      intro r
      unfold reactivate
      split <;> rfl
    obtain ⟨hmem, hname⟩ := Table.find?_eq_some_iff.mp hfind
    have hkept : ∀ r ∈ db.receivers, reactivate name r ∈
        db.receivers.update (reactivate name) (name_reactivate name) :=
      fun r hr => Table.mem_update.mpr ⟨r, hr, rfl⟩
    refine ⟨⟨rfl, ?_⟩, reactivate name receiver, hkept receiver hmem, ?_, hsame receiver⟩
    · rintro n i ⟨r, hr, rfl, rfl⟩
      exact ⟨reactivate name r, hkept r hr, name_reactivate name r, hsame r⟩
    · rw [name_reactivate, hname]
  -- a new row, under the next id
  · rename_i hfind
    have hmem : ∀ r, r ∈ db.receivers ∨ r = ⟨db.receiversIdSeq, mac, name, "receiver", true⟩ →
        r ∈ db.receivers.insert ⟨db.receiversIdSeq, mac, name, "receiver", true⟩
          (Table.find?_eq_none_iff.mp hfind) :=
      fun r hr => Table.mem_insert.mpr hr
    refine ⟨⟨rfl, ?_⟩, _, hmem _ (.inr rfl), rfl, rfl⟩
    rintro n i ⟨r, hr, rfl, rfl⟩
    exact ⟨r, hmem r (.inl hr), rfl, rfl⟩

/-- A lookup that returns has registered the receiver it returns. -/
theorem getOrCreateReceiverId_registers (receiverMac : String → String) (name : String)
    (faults : IngestFaults) (db : IngestDb) :
    db.Extends (getOrCreateReceiverId receiverMac name faults db).2 ∧
      ∀ id, (getOrCreateReceiverId receiverMac name faults db).1 = .ok id →
        (getOrCreateReceiverId receiverMac name faults db).2.Registered name id := by
  -- the transaction without faults either finds the receiver or inserts it
  have hrun : ∀ id db', (getOrCreateReceiverIdTx receiverMac name).run Tx.noFaults db =
      .ok (id, db') → db.Extends db' ∧ db'.Registered name id := by
    intro id db' hrun
    cases hfind : db.receivers.find? name with
    | some receiver =>
      rw [run_getOrCreateReceiverIdTx_found hfind] at hrun
      cases hrun
      obtain ⟨hmem, hname⟩ := Table.find?_eq_some_iff.mp hfind
      exact ⟨.refl db, receiver, hmem, hname, rfl⟩
    | none =>
      rw [run_getOrCreateReceiverIdTx_new hfind] at hrun
      cases hrun
      exact insertReceiver_registers _ _ _
  -- with faults, what commits has done the same
  have hoblivious := oblivious_getOrCreateReceiverIdTx receiverMac name
  -- a transaction that raises leaves the database as it was
  refine ⟨?_, ?_⟩
  · exact hoblivious.transact (P := fun db' => db.Extends db') (.refl db)
      fun id db' h => (hrun id db' h).1
  · intro id hok
    exact (hrun id _ (hoblivious _ _ _ (Tx.run_of_transact_ok hok))).2

/-- A heartbeat keeps samples and receivers. -/
theorem upsertHeartbeat_extends (receiverId : Int) (now : Timestamp) (ipAddress : Option String)
    (faults : IngestFaults) (db : IngestDb) :
    db.Extends (upsertHeartbeat receiverId now ipAddress faults db).2 := by
  have hoblivious : (upsertHeartbeatTx ⟨receiverId, now, ipAddress⟩).Oblivious :=
    (Tx.oblivious_execute _ _).bind fun _ => Tx.oblivious_execute _ _
  refine hoblivious.transact (P := fun db' => db.Extends db') (.refl db) ?_
  intro _ db' hrun
  rw [upsertHeartbeatTx, Tx.run_bind, Tx.run_write] at hrun
  cases hrun
  exact ⟨rfl, fun h => h⟩

/-- An insert keeps the receivers. -/
private theorem insertBatch_receivers (batch : List BatchEntry) (faults : IngestFaults)
    (db : IngestDb) : (insertBatch batch faults db).2.receivers = db.receivers := by
  have hoblivious : (insertBatchTx batch).Oblivious :=
    (Tx.oblivious_execute _ _).bind fun _ => Tx.oblivious_execute _ _
  unfold insertBatch
  split
  · rfl
  · refine hoblivious.transact (P := fun db' => db'.receivers = db.receivers) rfl ?_
    intro _ db' hrun
    rw [run_insertBatchTx] at hrun
    unfold IngestDb.insertSamples at hrun
    split at hrun
    · cases hrun
      rfl
    · cases hrun

/-! ## Where a packet is -/

/-- The packets put on the queue so far, oldest first. -/
def enqueued : List (AggregatorEvent × AggregatorResponse) → List QueueItem
  | [] => []
  | (_, r) :: log => enqueued log ++ r.put.toList

/-- The packet in the writer's hand. -/
def Await.hand : Await → List QueueItem
  | .lookup item => [item]
  | .heartbeat item _ _ => [item]
  | _ => []

/-- The entry of a packet, under its own receiver. -/
def Holds (db : IngestDb) (item : QueueItem) (entry : BatchEntry) : Prop :=
  entry.wallTime = item.wallTime ∧ entry.pkt = item.pkt ∧
    db.Registered item.pkt.receiverName entry.receiverId

/-- The row of a packet, under its own receiver. -/
def Carries (db : IngestDb) (item : QueueItem) (row : CsiSample) : Prop :=
  ∃ entry, Holds db item entry ∧ row = ⟨entry.row, none⟩

/-- A packet's entry keeps its receiver. -/
theorem Holds.mono {db db' : IngestDb} {item : QueueItem} {entry : BatchEntry}
    (hext : ∀ {name id}, db.Registered name id → db'.Registered name id)
    (h : Holds db item entry) : Holds db' item entry :=
  ⟨h.1, h.2.1, hext h.2.2⟩

/-- A packet's row keeps its receiver. -/
theorem Carries.mono {db db' : IngestDb} {item : QueueItem} {row : CsiSample}
    (hext : ∀ {name id}, db.Registered name id → db'.Registered name id)
    (h : Carries db item row) : Carries db' item row := by
  obtain ⟨entry, hentry, rfl⟩ := h
  exact ⟨entry, hentry.mono hext, rfl⟩

/-- The packets `done` are the rows added to `before`, in order. -/
def Added (before db : IngestDb) (done : List QueueItem) : Prop :=
  ∃ rows, db.csiSamples = before.csiSamples ++ rows ∧ List.Forall₂ (Carries db) done rows

/-- Every packet of `items` has been inserted exactly once: the rows added to `before` are
    theirs, one for each. -/
def InsertedOnce (before db : IngestDb) (items : List QueueItem) : Prop :=
  ∃ done, done.Perm items ∧ Added before db done

/-- What was added is there under any later registration. -/
theorem Added.extends {before db db' : IngestDb} {done : List QueueItem}
    (h : Added before db done) (hext : db.Extends db') : Added before db' done := by
  obtain ⟨rows, hrows, hdone⟩ := h
  exact ⟨rows, hext.samples.trans hrows, hdone.imp fun _ _ h => h.mono hext.registered⟩

/-- An insert that goes through adds the packets of its batch. -/
theorem Added.insertBatch {before db : IngestDb} {done batched : List QueueItem}
    {batch : List BatchEntry} {faults : IngestFaults} (h : Added before db done)
    (hbatch : List.Forall₂ (Holds db) batched batch)
    (hok : (insertBatch batch faults db).1 = .ok ()) :
    Added before (insertBatch batch faults db).2 (done ++ batched) := by
  obtain ⟨rows, hrows, hdone⟩ := h
  have hext : ∀ {name id}, db.Registered name id →
      (Geri.insertBatch batch faults db).2.Registered name id := by
    intro name id h
    unfold IngestDb.Registered
    rw [insertBatch_receivers]
    exact h
  refine ⟨rows ++ batch.map fun entry => ⟨entry.row, none⟩, ?_, ?_⟩
  · rw [insertBatch_ok hok, hrows, List.append_assoc]
  · refine List.rel_append (hdone.imp fun _ _ h => h.mono hext) ?_
    rw [List.forall₂_map_right_iff]
    exact hbatch.imp fun _ entry h => ⟨entry, h.mono hext, rfl⟩

/-- Packets inserted once are as many as the rows added. -/
theorem InsertedOnce.length_eq {before db : IngestDb} {items : List QueueItem}
    (h : InsertedOnce before db items) :
    db.csiSamples.length = before.csiSamples.length + items.length := by
  obtain ⟨done, hperm, rows, hrows, hdone⟩ := h
  rw [hrows, List.length_append, ← hdone.length_eq, hperm.length_eq]

/-- When the packets inserted are the first ones, all are inserted when there is no other. -/
private theorem Added.insertedOnce_iff {before db : IngestDb} {done left : List QueueItem}
    (h : Added before db done) : InsertedOnce before db (done ++ left) ↔ left = [] := by
  constructor
  · intro honce
    obtain ⟨rows, hrows, hdone⟩ := h
    have hlen := honce.length_eq
    rw [hrows, List.length_append, ← hdone.length_eq, List.length_append] at hlen
    exact List.length_eq_zero_iff.mp (by omega)
  · rintro rfl
    rw [List.append_nil]
    exact ⟨done, List.Perm.refl _, h⟩

/-! ## While the transport is open -/

/-- The database is healthy: the call that an event completes succeeds. -/
def Healthy (config : IngestConfig)
    (c : Config Aggregator AggregatorEvent AggregatorResponse) (e : AggregatorEvent) : Prop :=
  ∀ result, (c.state.step config e).1.call = some result → result = .ok ()

/-- Every packet put on the queue is in `csi_samples`, in the batch, in the writer's hand or
    queued, in this order. -/
structure Placed (before : IngestDb) (items hand : List QueueItem) (s : Ingest)
    (done batched : List QueueItem) : Prop where
  items_eq : items = done ++ (batched ++ (hand ++ s.queue))
  added : Added before s.db done
  batched : List.Forall₂ (Holds s.db) batched s.batch

/-- No packet is lost, with `hand` in the writer's hand. -/
structure Holding (before : IngestDb) (items hand : List QueueItem) (s : Ingest) : Prop where
  cached : ∀ name id, s.receiverCache.get? name = some id → s.db.Registered name id
  placed : ∃ done batched, Placed before items hand s done batched

/-- What the point that the writer waits at says about its variables. -/
structure AwaitOk (s : Ingest) (await : Await) (listening : Bool) : Prop where
  atStart : await = .start → s.batch = []
  atHeartbeat : ∀ item id t, await = .heartbeat item id t →
    s.db.Registered item.pkt.receiverName id
  atInsert : ∀ cause, await = .insert cause → s.batch ≠ []
  running : listening = true → await ≠ .returned ∧ await ≠ .insert .cancelled

/-- No packet is lost. -/
structure Conserved (before : IngestDb) (items : List QueueItem) (s : Aggregator) : Prop where
  holding : Holding before items s.await.hand s.ingest
  await : AwaitOk s.ingest s.await s.listening

/-- The wait for the queue asks nothing of the variables. -/
theorem AwaitOk.queueGet (s : Ingest) (listening : Bool) : AwaitOk s .queueGet listening where
  atStart h := nomatch h
  atHeartbeat _ _ _ h := nomatch h
  atInsert _ h := nomatch h
  running _ := ⟨Await.noConfusion, Await.noConfusion⟩

/-- While a receiver is looked up, the packet is in the hand. -/
theorem AwaitOk.lookup (s : Ingest) (item : QueueItem) (listening : Bool) :
    AwaitOk s (.lookup item) listening where
  atStart h := nomatch h
  atHeartbeat _ _ _ h := nomatch h
  atInsert _ h := nomatch h
  running _ := ⟨Await.noConfusion, Await.noConfusion⟩

/-- While its heartbeat is recorded, the receiver is registered. -/
theorem AwaitOk.heartbeat {s : Ingest} {item : QueueItem} {receiverId : Int}
    (hid : s.db.Registered item.pkt.receiverName receiverId) (loopTime : LoopTime)
    (listening : Bool) : AwaitOk s (.heartbeat item receiverId loopTime) listening where
  atStart h := nomatch h
  atHeartbeat _ _ _ h := by
    cases h
    exact hid
  atInsert _ h := nomatch h
  running _ := ⟨Await.noConfusion, Await.noConfusion⟩

/-- An insert is awaited with rows to insert. -/
theorem AwaitOk.insert {s : Ingest} (hbatch : s.batch ≠ []) {cause : FlushCause}
    {listening : Bool} (hcause : listening = true → cause ≠ .cancelled) :
    AwaitOk s (.insert cause) listening where
  atStart h := nomatch h
  atHeartbeat _ _ _ h := nomatch h
  atInsert _ _ := hbatch
  running h := ⟨Await.noConfusion, fun heq => hcause h (Await.insert.inj heq)⟩

/-- What is nowhere near a packet moves none. -/
theorem Holding.frame {before : IngestDb} {items hand : List QueueItem} {s s' : Ingest}
    (h : Holding before items hand s) (hqueue : s'.queue = s.queue) (hbatch : s'.batch = s.batch)
    (hdb : s'.db = s.db)
    (hcached : ∀ name id, s'.receiverCache.get? name = some id → s.db.Registered name id) :
    Holding before items hand s' := by
  obtain ⟨done, batched, hitems, hadded, hbatched⟩ := h.placed
  refine ⟨by rw [hdb]; exact hcached, done, batched, ?_, ?_, ?_⟩
  · rw [hqueue, hitems]
  · rw [hdb]
    exact hadded
  · rw [hdb, hbatch]
    exact hbatched

/-- Registering receivers loses no packet. -/
theorem Holding.extends {before db' : IngestDb} {items hand : List QueueItem} {s : Ingest}
    (h : Holding before items hand s) (hext : s.db.Extends db') :
    Holding before items hand { s with db := db' } := by
  obtain ⟨done, batched, hplaced⟩ := h.placed
  refine ⟨fun name id hget => hext.registered (h.cached name id hget), done, batched, ?_⟩
  exact ⟨hplaced.items_eq, hplaced.added.extends hext,
    hplaced.batched.imp fun _ _ h => h.mono hext.registered⟩

/-- The packet in hand joins the batch. -/
theorem Holding.append {before : IngestDb} {items : List QueueItem} {item : QueueItem}
    {s : Ingest} {receiverId : Int} (h : Holding before items [item] s)
    (hid : s.db.Registered item.pkt.receiverName receiverId) (listening : Bool) :
    Conserved before items ⟨(Aggregator.append config item receiverId s).2,
      (Aggregator.append config item receiverId s).1, listening⟩ := by
  obtain ⟨done, batched, hitems, hadded, hbatched⟩ := h.placed
  -- the batch is the same whether it is full or not
  have hholding : Holding before items []
      { s with batch := s.batch ++ [⟨item.wallTime, receiverId, item.pkt⟩] } := by
    refine ⟨h.cached, done, batched ++ [item], ?_, hadded, ?_⟩
    · rw [hitems, List.append_assoc, List.nil_append]
    · exact List.rel_append hbatched (.cons ⟨rfl, rfl, hid⟩ .nil)
  simp only [Aggregator.append]
  split
  · refine ⟨hholding, .insert ?_ fun _ => FlushCause.noConfusion⟩
    exact List.append_ne_nil_of_right_ne_nil _ (List.cons_ne_nil _ _)
  · exact ⟨hholding, .queueGet _ _⟩

/-- With its receiver known, the packet in hand joins the batch or waits for a heartbeat. -/
theorem Holding.identified {before : IngestDb} {items : List QueueItem} {item : QueueItem}
    {s : Ingest} {receiverId : Int} (h : Holding before items [item] s)
    (hid : s.db.Registered item.pkt.receiverName receiverId) (loopTime : LoopTime)
    (listening : Bool) :
    Conserved before items ⟨(Aggregator.identified config item receiverId loopTime s).2,
      (Aggregator.identified config item receiverId loopTime s).1, listening⟩ := by
  unfold Aggregator.identified
  split
  · exact ⟨h, .heartbeat hid _ _⟩
  · exact h.append hid listening

/-- A packet that comes off the queue is looked up, or its receiver is cached. -/
theorem Holding.taken {before : IngestDb} {items : List QueueItem} {item : QueueItem}
    {s : Ingest} (h : Holding before items [item] s) (loopTime : LoopTime) (listening : Bool) :
    Conserved before items ⟨(Aggregator.taken config item loopTime s).2,
      (Aggregator.taken config item loopTime s).1, listening⟩ := by
  unfold Aggregator.taken
  split
  · rename_i hget
    exact h.identified (h.cached _ _ hget) loopTime listening
  · exact ⟨h, .lookup _ _ _⟩

/-- A lookup that returns knows the receiver of the packet. -/
theorem Holding.lookup {before : IngestDb} {items hand : List QueueItem} {s : Ingest}
    (h : Holding before items hand s) {name : String} {faults : IngestFaults} {receiverId : Int}
    (hok : (Ingest.lookupReceiver config faults name s).1 = .ok receiverId) :
    Holding before items hand (Ingest.lookupReceiver config faults name s).2 ∧
      (Ingest.lookupReceiver config faults name s).2.db.Registered name receiverId := by
  unfold Ingest.lookupReceiver at hok ⊢
  split
  -- a cached id was registered when it was cached
  · rename_i hget
    simp only [hget] at hok
    cases hok
    exact ⟨h, h.cached _ _ hget⟩
  · rename_i hget
    obtain ⟨hext, hreg⟩ := getOrCreateReceiverId_registers config.receiverMac name faults s.db
    simp only [hget] at hok
    -- the transaction commits, and the id is cached for this name
    split
    · rename_i newId db hcall
      simp only [hcall] at hok hext hreg
      cases hok
      have hnew : db.Registered name receiverId := hreg _ rfl
      have hholding := h.extends hext
      refine ⟨hholding.frame rfl rfl rfl ?_, hnew⟩
      intro other id hother
      -- the cache answers for the new name or as before
      rw [Dict.get?_set] at hother
      split at hother
      · rename_i hname
        cases hother
        subst hname
        exact hnew
      · exact hholding.cached _ _ hother
    -- an error is no id
    · rename_i hcall
      simp only [hcall] at hok
      cases hok

/-- A heartbeat moves no packet. -/
theorem Holding.sendHeartbeat {before : IngestDb} {items hand : List QueueItem} {s : Ingest}
    (h : Holding before items hand s) (receiverId : Int) (host : String) (loopTime : LoopTime)
    (now : Timestamp) (faults : IngestFaults) :
    Holding before items hand
        (Ingest.sendHeartbeat receiverId host loopTime now faults s) ∧
      ∀ {name id}, s.db.Registered name id →
        (Ingest.sendHeartbeat receiverId host loopTime now faults s).db.Registered name id := by
  have hext := upsertHeartbeat_extends receiverId now (some host) faults s.db
  unfold Ingest.sendHeartbeat
  split
  · split
    · rename_i hcall
      rw [hcall] at hext
      have hholding := h.extends hext
      exact ⟨hholding.frame rfl rfl rfl hholding.cached, hext.registered⟩
    · rename_i hcall
      rw [hcall] at hext
      exact ⟨h.extends hext, hext.registered⟩
  · exact ⟨h, fun h => h⟩

variable (config) in
/-- A datagram changes the queue by the packet it puts there, and no table. -/
theorem datagramReceived_queue (data : List UInt8) (addr : Addr) (wallTime : Timestamp)
    (loopTime : LoopTime) (s : Ingest) :
    (Ingest.datagramReceived config data addr wallTime loopTime s).2.queue =
        s.queue ++ (Aggregator.accepted data addr wallTime s).toList ∧
      (Ingest.datagramReceived config data addr wallTime loopTime s).2.receiverCache =
        s.receiverCache := by
  have hcache : (Ingest.maybeSendAck config addr loopTime s).2.receiverCache =
      s.receiverCache := by
    unfold Ingest.maybeSendAck
    split
    · split <;> rfl
    · rfl
  obtain ⟨hqueue, -, -⟩ := Ingest.maybeSendAck_frame config addr loopTime s
  unfold Ingest.datagramReceived Aggregator.accepted
  cases parsePacket data with
  | error failure => exact ⟨(List.append_nil _).symm, rfl⟩
  | ok pkt =>
    simp only [Ingest.putNowait, hqueue]
    split
    · exact ⟨rfl, hcache⟩
    · refine ⟨?_, hcache⟩
      rw [Option.toList_none, List.append_nil]

/-- An accepted packet goes to the end of the queue. -/
theorem Conserved.datagram {before : IngestDb} {items : List QueueItem} {s : Aggregator}
    (h : Conserved before items s) (data : List UInt8) (addr : Addr) (wallTime : Timestamp)
    (loopTime : LoopTime) :
    Conserved before (items ++ (Aggregator.accepted data addr wallTime s.ingest).toList)
      { s with
        ingest := (Ingest.datagramReceived config data addr wallTime loopTime s.ingest).2 } := by
  obtain ⟨hqueue, hcache⟩ :=
    datagramReceived_queue config data addr wallTime loopTime s.ingest
  have hframe := Ingest.datagramReceived_frame config data addr wallTime loopTime s.ingest
  obtain ⟨hbatch, hdb⟩ := hframe
  obtain ⟨done, batched, hitems, hadded, hbatched⟩ := h.holding.placed
  -- a datagram adds to the queue at most, so batch and database are as they were
  refine ⟨⟨?_, done, batched, ?_, ?_, ?_⟩, ?_⟩
  · rw [hcache, hdb]
    exact h.holding.cached
  · rw [hqueue, hitems]
    simp only [List.append_assoc]
  · rw [hdb]
    exact hadded
  · rw [hdb, hbatch]
    exact hbatched
  · refine ⟨?_, ?_, ?_, h.await.running⟩
    · rw [hbatch]
      exact h.await.atStart
    · rw [hdb]
      exact h.await.atHeartbeat
    · rw [hbatch]
      exact h.await.atInsert

/-- An insert that goes through leaves nothing in the batch. -/
theorem Conserved.inserted {before : IngestDb} {items : List QueueItem} {s : Aggregator}
    (h : Conserved before items s) {cause : FlushCause} (hawait : s.await = .insert cause)
    {faults : IngestFaults} (hok : (insertBatch s.ingest.batch faults s.ingest.db).1 = .ok ()) :
    Conserved before items ⟨(Ingest.flush faults s.ingest).2,
      if cause = .cancelled then .returned else .queueGet, s.listening⟩ := by
  obtain ⟨done, batched, hitems, hadded, hbatched⟩ := h.holding.placed
  -- while the batch is inserted, no packet is in the hand
  have hhand : s.await.hand = [] := by rw [hawait]; rfl
  -- an insert touches no receiver
  have hreg : ∀ {name id}, s.ingest.db.Registered name id →
      (Ingest.flush faults s.ingest).2.db.Registered name id := by
    intro name id hid
    unfold IngestDb.Registered
    rw [show (Ingest.flush faults s.ingest).2.db.receivers = s.ingest.db.receivers from
      insertBatch_receivers _ _ _]
    exact hid
  -- the rows of the batch join those that were inserted before
  have hholding : Holding before items [] (Ingest.flush faults s.ingest).2 := by
    refine ⟨fun name id hget => hreg (h.holding.cached name id hget), done ++ batched, [], ?_,
      hadded.insertBatch hbatched hok, .nil⟩
    rw [hitems, hhand, List.append_assoc]
    rfl
  -- the last flush ends the writer, any other one goes on
  by_cases hcause : cause = .cancelled
  · rw [if_pos hcause]
    refine ⟨hholding, ?_, ?_, ?_, ?_⟩
    · exact fun _ => rfl
    · exact fun _ _ _ h => nomatch h
    · exact fun _ h => nomatch h
    · intro hlistening
      rw [hcause] at hawait
      exact absurd hawait (h.await.running hlistening).2
  · rw [if_neg hcause]
    exact ⟨hholding, .queueGet _ _⟩

/-- No event loses a packet while the transport is open. -/
theorem Conserved.step {before : IngestDb} {items : List QueueItem} {s : Aggregator}
    (h : Conserved before items s) (e : AggregatorEvent)
    (hhealthy : ∀ result, (s.step config e).1.call = some result → result = .ok ())
    (hopen : ∀ effect now, e ≠ .shutdown effect now) :
    Conserved before (items ++ (s.step config e).1.put.toList) (s.step config e).2 := by
  have hquiet : Conserved before (items ++ Aggregator.quiet.put.toList) s := by
    rw [show Aggregator.quiet.put.toList = [] from rfl, List.append_nil]
    exact h
  -- one case for each event; one that the writer does not wait for changes nothing
  cases e with
  | datagram data addr wallTime loopTime =>
    simp only [Aggregator.step]
    split
    · exact h.datagram data addr wallTime loopTime
    · exact hquiet
  | start =>
    simp only [Aggregator.step]
    split
    -- the writer begins to wait for the queue
    · rename_i hawait
      have hholding := hquiet.holding
      rw [hawait] at hholding
      exact ⟨hholding, .queueGet _ _⟩
    · exact hquiet
  | dequeue loopTime =>
    simp only [Aggregator.step]
    split
    · rename_i item queue hawait hqueue
      have hholding := hquiet.holding
      rw [hawait] at hholding
      -- the packet moves from the queue to the hand
      obtain ⟨done, batched, hitems, hadded, hbatched⟩ := hholding.placed
      rw [hqueue] at hitems
      have htaken : Holding before (items ++ Aggregator.quiet.put.toList) [item]
          { s.ingest with queue := queue } :=
        ⟨hholding.cached, done, batched, hitems, hadded, hbatched⟩
      exact htaken.taken loopTime s.listening
    · exact hquiet
  | timeout =>
    simp only [Aggregator.step]
    split
    · rename_i hawait
      split
      · exact hquiet
      -- a timeout with an empty batch is one the loop continues after
      · rename_i hbatch
        have hholding := hquiet.holding
        rw [hawait] at hholding
        refine ⟨hholding, .insert ?_ fun _ => FlushCause.noConfusion⟩
        exact fun hnil => hbatch (List.isEmpty_iff.mpr hnil)
    · exact hquiet
  | lookedUp loopTime faults =>
    simp only [Aggregator.step] at hhealthy ⊢
    split
    · rename_i item hawait
      have hholding := hquiet.holding
      rw [hawait] at hholding
      have hlookup : ∀ id, (Ingest.lookupReceiver config faults item.pkt.receiverName
          s.ingest).1 = .ok id → _ := fun id => hholding.lookup
      simp only [hawait] at hhealthy
      revert hhealthy hlookup
      cases Ingest.lookupReceiver config faults item.pkt.receiverName s.ingest with
      | mk result ingest =>
        intro hlookup hhealthy
        cases result with
        -- the call raised, so the event is not a healthy one
        | error e => cases hhealthy _ rfl
        | ok receiverId =>
          obtain ⟨hholding', hid⟩ := hlookup receiverId rfl
          exact hholding'.identified hid loopTime s.listening
    · exact hquiet
  | heartbeatSent now faults =>
    simp only [Aggregator.step]
    split
    · rename_i item receiverId loopTime hawait
      have hholding := hquiet.holding
      rw [hawait] at hholding
      obtain ⟨hsent, hreg⟩ := hholding.sendHeartbeat receiverId item.host loopTime now faults
      -- the heartbeat keeps the receiver registered, and the packet joins the batch
      exact hsent.append (hreg (h.await.atHeartbeat _ _ _ hawait)) s.listening
    · exact hquiet
  | inserted faults =>
    simp only [Aggregator.step] at hhealthy ⊢
    split
    · rename_i cause hawait
      simp only [hawait] at hhealthy
      exact hquiet.inserted hawait (hhealthy _ rfl)
    · exact hquiet
  | shutdown effect now => exact absurd rfl (hopen effect now)

/-- Only a shutdown closes the transport. -/
private theorem listening_step (s : Aggregator) (e : AggregatorEvent)
    (hopen : ∀ effect now, e ≠ .shutdown effect now) :
    (s.step config e).2.listening = s.listening := by
  -- only a shutdown closes the transport
  cases e with
  | datagram data addr wallTime loopTime =>
    simp only [Aggregator.step]
    split <;> rfl
  | start =>
    simp only [Aggregator.step]
    split <;> rfl
  | dequeue loopTime =>
    simp only [Aggregator.step]
    split <;> rfl
  | timeout =>
    simp only [Aggregator.step]
    split
    · split <;> rfl
    · rfl
  | lookedUp loopTime faults =>
    simp only [Aggregator.step]
    split
    · split <;> rfl
    · rfl
  | heartbeatSent now faults =>
    simp only [Aggregator.step]
    split <;> rfl
  | inserted faults =>
    simp only [Aggregator.step]
    split <;> rfl
  | shutdown effect now => exact absurd rfl (hopen effect now)

/-- A shutdown closes the transport. -/
private theorem listening_shutdown (effect : Bool) (now : Timestamp) (s : Aggregator) :
    (s.step config (.shutdown effect now)).2.listening = false := by
  simp only [Aggregator.step]
  split
  · unfold Aggregator.shutdown
    split
    · split <;> rfl
    · rfl
  · rename_i hclosed
    exact Bool.eq_false_iff.mpr hclosed

/-- From the start until the transport is closed, every packet put on the queue is placed. -/
private theorem conserved_of_listening {db : IngestDb}
    {c : Config Aggregator AggregatorEvent AggregatorResponse}
    (hrun : (aggregatorMachine config).Run (Healthy config) ⟨[], .boot db⟩ c) :
    c.state.listening = true → Conserved db (enqueued c.log) c.state := by
  refine hrun.invariant (I := fun c => c.state.listening = true →
    Conserved db (enqueued c.log) c.state) ?_ ?_
  -- at the start nothing is queued, batched or inserted
  · intro _
    refine ⟨⟨?_, [], [], rfl, ⟨[], (List.append_nil _).symm, .nil⟩, .nil⟩, ?_, ?_, ?_, ?_⟩
    · exact fun _ _ hget => nomatch hget
    · exact fun _ => rfl
    · exact fun _ _ _ h => nomatch h
    · exact fun _ h => nomatch h
    · exact fun _ => ⟨Await.noConfusion, Await.noConfusion⟩
  · intro c e hconserved hhealthy hlistening
    -- while the transport is open no shutdown has come
    have hopen : ∀ effect now, e ≠ .shutdown effect now := by
      rintro effect now rfl
      rw [show (((aggregatorMachine config).answer c _).state.listening) = false from
        listening_shutdown effect now c.state] at hlistening
      cases hlistening
    have hbefore : c.state.listening = true :=
      (listening_step c.state e hopen).symm.trans hlistening
    exact (hconserved hbefore).step e hhealthy hopen

/-! ## After the transport is closed -/

/-- A writer that has returned, behind a closed transport, does nothing. -/
theorem step_returned {s : Aggregator} (hclosed : s.listening = false)
    (hreturned : s.await = .returned) (e : AggregatorEvent) :
    s.step config e = (Aggregator.quiet, s) := by
  cases e <;> simp [Aggregator.step, hclosed, hreturned]

variable (config) in
/-- The flush of a cancelled writer is all that is left to do. -/
private theorem step_cancelled {s : Aggregator} (hclosed : s.listening = false)
    (hawait : s.await = .insert .cancelled) (e : AggregatorEvent) :
    s.step config e = (Aggregator.quiet, s) ∨ ∃ faults,
      e = .inserted faults ∧
      s.step config e =
        (⟨[], none, some (insertBatch s.ingest.batch faults s.ingest.db).1⟩,
          ⟨(Ingest.flush faults s.ingest).2, .returned, false⟩) := by
  cases e with
  | inserted faults =>
    refine .inr ⟨faults, rfl, ?_⟩
    simp [Aggregator.step, hclosed, hawait]
  | _ => exact .inl (by simp [Aggregator.step, hclosed, hawait])

/-- Behind a closed transport the writer does its last flush, if it has one, and no more. -/
private theorem closed_of_run {c c' : Config Aggregator AggregatorEvent AggregatorResponse}
    (hclosed : c.state.listening = false)
    (hawait : c.state.await = .returned ∨ c.state.await = .insert .cancelled)
    (hrun : (aggregatorMachine config).Run (Healthy config) c c') :
    c'.state = c.state ∨ ∃ faults,
      c.state.await = .insert .cancelled ∧
      (insertBatch c.state.ingest.batch faults c.state.ingest.db).1 = .ok () ∧
      c'.state = ⟨(Ingest.flush faults c.state.ingest).2, .returned, false⟩ := by
  refine hrun.invariant (I := fun c' => c'.state = c.state ∨ ∃ faults,
    c.state.await = .insert .cancelled ∧
    (insertBatch c.state.ingest.batch faults c.state.ingest.db).1 = .ok () ∧
    c'.state = ⟨(Ingest.flush faults c.state.ingest).2, .returned, false⟩) (.inl rfl) ?_
  -- after the shutdown the writer has returned, or it waits for the last insert
  rintro d e (hsame | ⟨faults, hcancelled, hok, hflushed⟩) hhealthy
  · have hanswer : ((aggregatorMachine config).answer d e).state = (c.state.step config e).2 := by
      rw [← hsame]
      rfl
    rw [hanswer]
    rcases hawait with hdone | hcancelled
    · rw [step_returned hclosed hdone]
      exact .inl rfl
    -- the last insert ends and the writer returns, or the event is not for it
    · rcases step_cancelled config hclosed hcancelled e with
        hquiet | ⟨faults, rfl, hstep⟩
      · rw [hquiet]
        exact .inl rfl
      · have hok := hhealthy (insertBatch c.state.ingest.batch faults c.state.ingest.db).1
          (by rw [hsame, hstep])
        rw [hstep]
        exact .inr ⟨faults, hcancelled, hok, rfl⟩
  · refine .inr ⟨faults, hcancelled, hok, ?_⟩
    -- once it has returned, nothing happens any more
    show (d.state.step config e).2 = _
    rw [step_returned (by rw [hflushed]) (by rw [hflushed]), hflushed]

/-- The shutdown meets an empty queue and a writer that has not started, waits for the queue,
    or is in an `insert_batch` that has committed. -/
def Aggregator.Drains (s : Aggregator) (effect : Bool) : Prop :=
  s.ingest.queue = [] ∧
    (s.await = .start ∨ s.await = .queueGet ∨ ∃ cause, s.await = .insert cause ∧ effect = true)

/-- What the shutdown leaves: the packets inserted, those of a last flush, and those lost. -/
theorem Conserved.shutdown {before : IngestDb} {items : List QueueItem} {s : Aggregator}
    (h : Conserved before items s) (hlistening : s.listening = true) {effect : Bool}
    {now : Timestamp}
    (hhealthy : ∀ result, (s.step config (.shutdown effect now)).1.call = some result →
      result = .ok ()) :
    ∃ done batched left, items = done ++ (batched ++ left) ∧ (left = [] ↔ s.Drains effect) ∧
      Added before (s.step config (.shutdown effect now)).2.ingest.db done ∧
      ((s.step config (.shutdown effect now)).2.await = .returned ∧ batched = [] ∨
        (s.step config (.shutdown effect now)).2.await = .insert .cancelled ∧
        List.Forall₂ (Holds (s.step config (.shutdown effect now)).2.ingest.db) batched
          (s.step config (.shutdown effect now)).2.ingest.batch) := by
  -- what was put on the queue is inserted, in the batch, in the hand or still queued
  obtain ⟨done, batched, hitems, hadded, hbatched⟩ := h.holding.placed
  have hnil : s.ingest.batch = [] → batched = [] := by
    intro hbatch
    rw [hbatch] at hbatched
    exact List.forall₂_nil_right_iff.mp hbatched
  simp only [Aggregator.step, hlistening, if_true] at hhealthy ⊢
  -- one case for each point at which the cancellation can find the writer
  cases hawait : s.await with
  | start =>
    -- it has not started, so only the queue is lost
    simp only [Aggregator.shutdown, hawait] at hhealthy ⊢
    rw [hawait, hnil (h.await.atStart hawait)] at hitems
    refine ⟨done, [], s.ingest.queue, hitems, ?_, ?_, .inl ⟨trivial, rfl⟩⟩
    · simp [Aggregator.Drains, hawait]
    · cases effect <;> exact hadded
  | queueGet =>
    rw [hawait] at hitems
    have hdrains : s.ingest.queue = [] ↔ s.Drains effect := by
      simp [Aggregator.Drains, hawait]
    -- it waits for the queue: a batch that is not empty is flushed first
    by_cases hempty : s.ingest.batch.isEmpty
    · simp only [Aggregator.shutdown, hawait, hempty, if_true]
      exact ⟨done, batched, s.ingest.queue, hitems, hdrains, hadded,
        .inl ⟨trivial, hnil (List.isEmpty_iff.mp hempty)⟩⟩
    · simp only [Aggregator.shutdown, hawait, hempty]
      exact ⟨done, batched, s.ingest.queue, hitems, hdrains, hadded, .inr ⟨rfl, hbatched⟩⟩
  | lookup item =>
    -- it is in a receiver lookup, whose packet is lost with the batch
    simp only [Aggregator.shutdown, hawait] at hhealthy ⊢
    rw [hawait] at hitems
    refine ⟨done, [], _, hitems, ?_, ?_, .inl ⟨trivial, rfl⟩⟩
    · simp [Aggregator.Drains, Await.hand, hawait]
    · cases effect with
      | false => exact hadded
      | true =>
        exact hadded.extends (getOrCreateReceiverId_registers config.receiverMac
          item.pkt.receiverName Tx.noFaults s.ingest.db).1
  | heartbeat item receiverId loopTime =>
    -- it is in a heartbeat, whose packet is lost with the batch
    simp only [Aggregator.shutdown, hawait] at hhealthy ⊢
    rw [hawait] at hitems
    refine ⟨done, [], _, hitems, ?_, ?_, .inl ⟨trivial, rfl⟩⟩
    · simp [Aggregator.Drains, Await.hand, hawait]
    · cases effect with
      | false => exact hadded
      | true =>
        exact hadded.extends (upsertHeartbeat_extends receiverId now (some item.host)
          Tx.noFaults s.ingest.db)
  | insert cause =>
    -- it is in an insert, which has committed or has not
    simp only [Aggregator.shutdown, hawait] at hhealthy ⊢
    rw [hawait] at hitems
    cases effect with
    | false =>
      refine ⟨done, [], _, hitems, ?_, hadded, .inl ⟨trivial, rfl⟩⟩
      -- the batch that is lost is not empty
      have hbatch : batched ≠ [] := by
        rintro rfl
        exact h.await.atInsert cause hawait (List.forall₂_nil_left_iff.mp hbatched)
      simp [Aggregator.Drains, Await.hand, hawait, hbatch]
    | true =>
      have hok := hhealthy _ rfl
      refine ⟨done ++ batched, [], s.ingest.queue, ?_, ?_,
        hadded.insertBatch hbatched hok, .inl ⟨trivial, rfl⟩⟩
      · rw [hitems, List.append_assoc]
        rfl
      · simp [Aggregator.Drains, hawait]
  | returned => exact absurd hawait (h.await.running hlistening).1

/-- With a healthy database every packet put on the queue before the transport closed is
    inserted exactly once if the shutdown drains, and only then. -/
theorem drained_iff {db : IngestDb} {c c' : Config Aggregator AggregatorEvent AggregatorResponse}
    {effect : Bool} {now : Timestamp}
    (hbefore : (aggregatorMachine config).Run (Healthy config) ⟨[], .boot db⟩ c)
    (hlistening : c.state.listening = true)
    (hshutdown : Healthy config c (.shutdown effect now))
    (hafter : (aggregatorMachine config).Run (Healthy config)
      ((aggregatorMachine config).answer c (.shutdown effect now)) c')
    (hreturned : c'.state.await = .returned) :
    InsertedOnce db c'.state.ingest.db (enqueued c.log) ↔ c.state.Drains effect := by
  obtain ⟨done, batched, left, hitems, hleft, hadded, hstop⟩ :=
    (conserved_of_listening hbefore hlistening).shutdown hlistening hshutdown
  have hclosed := closed_of_run (listening_shutdown effect now c.state)
    (hstop.imp (fun h => h.1) fun h => h.1) hafter
  rw [hitems, ← hleft]
  rcases hstop with ⟨hdone, rfl⟩ | ⟨hcancelled, hbatched⟩
  · rcases hclosed with hsame | ⟨faults, hcancelled, -⟩
    · rw [hsame]
      exact hadded.insertedOnce_iff
    · cases hdone.symm.trans hcancelled
  · rcases hclosed with hsame | ⟨faults, -, hok, hflushed⟩
    · rw [hsame] at hreturned
      cases hreturned.symm.trans hcancelled
    · rw [hflushed, ← List.append_assoc]
      exact (hadded.insertBatch hbatched hok).insertedOnce_iff

/-! ## A round without interruption -/

/-- One event after another. -/
def Aggregator.steps (config : IngestConfig) (s : Aggregator) (es : List AggregatorEvent) :
    Aggregator :=
  es.foldl (fun s e => (s.step config e).2) s

/-- A packet joins the batch, and a full batch is inserted. -/
private theorem steps_append (item : QueueItem) (receiverId : Int) (insert : IngestFaults)
    (s : Ingest) (listening : Bool) :
    Aggregator.steps config ⟨(Aggregator.append config item receiverId s).2,
        (Aggregator.append config item receiverId s).1, listening⟩ [.inserted insert] =
      ⟨(Ingest.appendToBatch config ⟨item.wallTime, receiverId, item.pkt⟩ insert s).2,
        .queueGet, listening⟩ := by
  simp only [Aggregator.steps, List.foldl_cons, List.foldl_nil, Aggregator.append,
    Ingest.appendToBatch]
  split <;> rfl

/-- With the receiver known, a heartbeat that is due comes before that. -/
private theorem steps_identified (item : QueueItem) (receiverId : Int) (loopTime : LoopTime)
    (now : Timestamp) (heartbeat insert : IngestFaults) (s : Ingest) (listening : Bool) :
    Aggregator.steps config ⟨(Aggregator.identified config item receiverId loopTime s).2,
        (Aggregator.identified config item receiverId loopTime s).1, listening⟩
        [.heartbeatSent now heartbeat, .inserted insert] =
      ⟨(Ingest.appendToBatch config ⟨item.wallTime, receiverId, item.pkt⟩ insert
        (Ingest.sendHeartbeat receiverId item.host loopTime now heartbeat s)).2,
        .queueGet, listening⟩ := by
  rw [← steps_append]
  by_cases hdue : loopTime - (s.lastHeartbeat.get? receiverId).getD 0 > heartbeatInterval
  · simp only [Aggregator.identified, if_pos hdue]
    rfl
  · simp only [Aggregator.identified, if_neg hdue, Ingest.sendHeartbeat]
    simp only [Aggregator.steps, List.foldl_cons, List.foldl_nil]
    simp only [Aggregator.append]
    split <;> rfl

/-- A round of the loop that nothing interrupts is one event of `Ingest`. -/
theorem steps_round {s : Ingest} {item : QueueItem} {queue : List QueueItem}
    (hrunning : s.running = true) (hqueue : s.queue = item :: queue) (loopTime : LoopTime)
    (now : Timestamp) (lookup heartbeat insert : IngestFaults) (listening : Bool) :
    Aggregator.steps config ⟨s, .queueGet, listening⟩
        [.dequeue loopTime, .lookedUp loopTime lookup, .heartbeatSent now heartbeat,
          .inserted insert] =
      ⟨(s.step config (.dequeue loopTime now lookup heartbeat insert)).2, .queueGet,
        listening⟩ := by
  -- a dequeue of the coarse machine is four events here
  rw [Ingest.step_dequeue config hrunning hqueue]
  have htake : (Aggregator.step config ⟨s, .queueGet, listening⟩ (.dequeue loopTime)).2 =
      ⟨(Aggregator.taken config item loopTime { s with queue := queue }).2,
        (Aggregator.taken config item loopTime { s with queue := queue }).1, listening⟩ := by
    simp only [Aggregator.step, hqueue]
  rw [Aggregator.steps, List.foldl_cons, htake]
  cases hget : s.receiverCache.get? item.pkt.receiverName with
  | some receiverId =>
    -- the receiver is cached, and the lookup is not awaited
    have hlookup : Ingest.lookupReceiver config lookup item.pkt.receiverName
        { s with queue := queue } = (.ok receiverId, { s with queue := queue }) := by
      simp only [Ingest.lookupReceiver, hget]
    have hskip : ((Aggregator.mk
        (Aggregator.identified config item receiverId loopTime { s with queue := queue }).2
        (Aggregator.identified config item receiverId loopTime { s with queue := queue }).1
        listening).step config (.lookedUp loopTime lookup)).2 =
      ⟨(Aggregator.identified config item receiverId loopTime { s with queue := queue }).2,
        (Aggregator.identified config item receiverId loopTime { s with queue := queue }).1,
        listening⟩ := by
      simp only [Aggregator.identified, Aggregator.append]
      split
      · rfl
      · split <;> rfl
    simp only [Aggregator.taken, hget, List.foldl_cons, hskip]
    rw [Ingest.writePacket, hlookup]
    exact steps_identified item receiverId loopTime now heartbeat insert _ listening
  | none =>
    simp only [Aggregator.taken, hget, List.foldl_cons, Aggregator.step, Ingest.writePacket]
    -- a lookup that raises drops the packet, and the writer waits again
    cases Ingest.lookupReceiver config lookup item.pkt.receiverName { s with queue := queue } with
    | mk result ingest =>
      cases result with
      | error e => rfl
      | ok receiverId =>
        exact steps_identified item receiverId loopTime now heartbeat insert ingest listening
/-! ## Runs with one packet -/

/-- An event that ends no call, or one that succeeded, is healthy. -/
private theorem healthy_of_call {c : Config Aggregator AggregatorEvent AggregatorResponse}
    {e : AggregatorEvent}
    (h : (c.state.step config e).1.call = none ∨ (c.state.step config e).1.call = some (.ok ())) :
    Healthy config c e := by
  rintro result hresult
  rcases h with h | h
  · rw [h] at hresult
    cases hresult
  · rw [h] at hresult
    cases hresult
    rfl

/-- A packet is taken off the queue, and its receiver is looked up. -/
def lookupRun : List AggregatorEvent :=
  [.datagram (bareDatagram 97 6) ⟨"10.0.0.1", 5005⟩ 0 0, .start, .dequeue 0]

/-- The aggregator at the lookup. -/
def lookupConfig : Config Aggregator AggregatorEvent AggregatorResponse :=
  (aggregatorMachine plainConfig).replay ⟨[], .boot .empty⟩ lookupRun

/-- The example's run is healthy. -/
private theorem lookupRun_admits :
    (aggregatorMachine plainConfig).Admits (Healthy plainConfig) ⟨[], .boot .empty⟩ lookupRun :=
  ⟨healthy_of_call (.inl rfl), healthy_of_call (.inl rfl), healthy_of_call (.inl rfl), trivial⟩

/-- The aggregator once the packet is in the batch. -/
def batchConfig : Config Aggregator AggregatorEvent AggregatorResponse :=
  (aggregatorMachine plainConfig).answer lookupConfig (.lookedUp 0 Tx.noFaults)

/-- The packet in the batch is written by the last flush. -/
theorem drained_iff_batch :
    InsertedOnce .empty ((aggregatorMachine plainConfig).replay batchConfig
        [.shutdown false 0, .inserted Tx.noFaults]).state.ingest.db (enqueued batchConfig.log) ↔
      batchConfig.state.Drains false := by
  have hbefore := (Machine.run_of_admits lookupRun_admits).snoc (.lookedUp 0 Tx.noFaults)
    (healthy_of_call (.inr rfl))
  have hshutdown : Healthy plainConfig batchConfig (.shutdown false 0) :=
    healthy_of_call (.inl rfl)
  have hafter : (aggregatorMachine plainConfig).Run (Healthy plainConfig)
      ((aggregatorMachine plainConfig).answer batchConfig (.shutdown false 0)) _ :=
    Machine.Run.snoc .refl (.inserted Tx.noFaults) (healthy_of_call (.inr rfl))
  exact drained_iff hbefore rfl hshutdown hafter rfl

/-- A packet whose receiver is being looked up is lost, with every call succeeding. -/
theorem shutdown_loses_packet :
    (aggregatorMachine plainConfig).Run (Healthy plainConfig) ⟨[], .boot .empty⟩ lookupConfig ∧
      Healthy plainConfig lookupConfig (.shutdown false 0) ∧
      ((aggregatorMachine plainConfig).answer lookupConfig (.shutdown false 0)).state.await =
        .returned ∧
      ¬InsertedOnce .empty
        ((aggregatorMachine plainConfig).answer lookupConfig
          (.shutdown false 0)).state.ingest.db (enqueued lookupConfig.log) := by
  refine ⟨Machine.run_of_admits lookupRun_admits, healthy_of_call (.inl rfl), rfl, ?_⟩
  intro honce
  have hlen := honce.length_eq
  rw [show (enqueued lookupConfig.log).length = 1 from by decide] at hlen
  exact absurd hlen (by decide)

end Grimnir.Geri
