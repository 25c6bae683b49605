import Grimnir.Native.Ingest

/-!
# What one event does to the aggregator

Every function of `Ingest` is described once by what it does to the queue, the batch and
`csi_samples`, so that no invariant unfolds the loop again.  The faults of the database are
arbitrary here.

## Key results

- `insertBatch_ok` / `insertBatch_error` / `insertBatch_noFaults`: an insert is all or nothing
- `Ingest.step_effect`: what one event can do
-/

namespace Grimnir.Geri

/-! ## The database -/

/-- Registering a receiver adds no sample. -/
private theorem csiSamples_insertReceiver (mac name : String) (db : IngestDb) :
    (db.insertReceiver mac name).2.csiSamples = db.csiSamples := by
  unfold IngestDb.insertReceiver
  split <;> rfl

/-- A look-up that goes through does so whatever the fault table says. -/
theorem oblivious_getOrCreateReceiverIdTx (receiverMac : String → String) (name : String) :
    (getOrCreateReceiverIdTx receiverMac name).Oblivious := by
  refine (Tx.oblivious_execute _ _).bind fun receiver => ?_
  cases receiver with
  | some receiver => exact fun _ _ _ h => h
  | none =>
    refine (Tx.oblivious_execute _ _).bind fun newId => ?_
    exact (Tx.oblivious_execute _ _).bind fun _ => fun _ _ _ h => h

/-- Without faults a registered receiver is found. -/
theorem run_getOrCreateReceiverIdTx_found {name : String} {receiver : Receiver} {db : IngestDb}
    (hfind : db.receivers.find? name = some receiver) (receiverMac : String → String) :
    (getOrCreateReceiverIdTx receiverMac name).run Tx.noFaults db = .ok (receiver.id, db) := by
  rw [getOrCreateReceiverIdTx, Tx.run_bind, Tx.run_read]
  simp only [hfind]
  rfl

/-- Without faults any other receiver is registered. -/
theorem run_getOrCreateReceiverIdTx_new {name : String} {db : IngestDb}
    (hfind : db.receivers.find? name = none) (receiverMac : String → String) :
    (getOrCreateReceiverIdTx receiverMac name).run Tx.noFaults db =
      .ok ((db.insertReceiver (receiverMac name) name).1,
        (db.insertReceiver (receiverMac name) name).2) := by
  rw [getOrCreateReceiverIdTx, Tx.run_bind, Tx.run_read]
  simp only [hfind]
  rw [Tx.run_bind, Tx.run_execute]
  simp only [Tx.run_bind, Tx.run_write]
  rfl

/-- A lookup leaves the samples alone. -/
private theorem csiSamples_getOrCreateReceiverId (receiverMac : String → String) (name : String)
    (faults : IngestFaults) (db : IngestDb) :
    (getOrCreateReceiverId receiverMac name faults db).2.csiSamples = db.csiSamples := by
  apply (oblivious_getOrCreateReceiverIdTx receiverMac name).transact
    (P := fun db' => db'.csiSamples = db.csiSamples) rfl
  -- whatever raises rolls back, so only the transaction without faults matters
  intro id db' hrun
  cases hfind : db.receivers.find? name with
  | some receiver =>
    rw [run_getOrCreateReceiverIdTx_found hfind] at hrun
    cases hrun
    rfl
  | none =>
    rw [run_getOrCreateReceiverIdTx_new hfind] at hrun
    cases hrun
    exact csiSamples_insertReceiver _ _ _

/-- A heartbeat leaves the samples alone. -/
private theorem csiSamples_upsertHeartbeat (receiverId : Int) (now : Timestamp)
    (ipAddress : Option String) (faults : IngestFaults) (db : IngestDb) :
    (upsertHeartbeat receiverId now ipAddress faults db).2.csiSamples = db.csiSamples := by
  have hoblivious : (upsertHeartbeatTx ⟨receiverId, now, ipAddress⟩).Oblivious :=
    (Tx.oblivious_execute _ _).bind fun _ => Tx.oblivious_execute _ _
  apply hoblivious.transact (P := fun db' => db'.csiSamples = db.csiSamples) rfl
  intro _ db' hrun
  rw [upsertHeartbeatTx, Tx.run_bind, Tx.run_write] at hrun
  cases hrun
  rfl

/-- Without faults `insert_batch` is its `INSERT`. -/
theorem run_insertBatchTx (batch : List BatchEntry) (db : IngestDb) :
    (insertBatchTx batch).run Tx.noFaults db =
      IngestDb.insertSamples (batch.map BatchEntry.row) db := by
  rw [insertBatchTx, Tx.run_bind, Tx.run_execute]
  cases IngestDb.insertSamples (batch.map BatchEntry.row) db <;> rfl

/-- A batch that is inserted is appended, without labels. -/
private theorem insertSamples_ok {rows : List CsiRow} {db db' : IngestDb}
    (h : IngestDb.insertSamples rows db = .ok ((), db')) :
    db'.csiSamples = db.csiSamples ++ rows.map fun r => ⟨r, none⟩ := by
  unfold IngestDb.insertSamples at h
  split at h
  · cases h
    rfl
  · cases h

/-- An insert that goes through adds the row of every entry. -/
theorem insertBatch_ok {batch : List BatchEntry} {faults : IngestFaults} {db : IngestDb}
    (h : (insertBatch batch faults db).1 = .ok ()) :
    (insertBatch batch faults db).2.csiSamples =
      db.csiSamples ++ batch.map fun entry => ⟨entry.row, none⟩ := by
  unfold insertBatch at h ⊢
  split at h
  · rename_i hempty
    rw [if_pos hempty, List.isEmpty_iff.mp hempty, List.map_nil, List.append_nil]
  · rename_i hne
    have hoblivious : (insertBatchTx batch).Oblivious :=
      (Tx.oblivious_execute _ _).bind fun _ => Tx.oblivious_execute _ _
    -- an insert that went through did what it does without faults
    have hrun := hoblivious _ _ _ (Tx.run_of_transact_ok h)
    rw [run_insertBatchTx] at hrun
    rw [if_neg hne, insertSamples_ok hrun, List.map_map]
    rfl

/-- An insert that raises adds nothing. -/
theorem insertBatch_error {batch : List BatchEntry} {faults : IngestFaults} {db : IngestDb}
    {e : DBAPIError} (h : (insertBatch batch faults db).1 = .error e) :
    (insertBatch batch faults db).2 = db := by
  unfold insertBatch at h ⊢
  split at h
  · cases h
  · rename_i hne
    rw [if_neg hne]
    exact Tx.transact_error h

/-- With the database reachable an insert goes through exactly when every row is admitted. -/
theorem insertBatch_noFaults (batch : List BatchEntry) (db : IngestDb) :
    (insertBatch batch Tx.noFaults db).1 = .ok () ↔
      ∀ entry ∈ batch, admitsRow entry.row = true := by
  have hall : (∀ entry ∈ batch, admitsRow entry.row = true) ↔
      (batch.map BatchEntry.row).all admitsRow = true := by
    simp
  rw [hall]
  unfold insertBatch
  split
  · rename_i hempty
    simp [List.isEmpty_iff.mp hempty]
  · unfold Tx.transact
    rw [run_insertBatchTx]
    unfold IngestDb.insertSamples
    by_cases hadmits : (batch.map BatchEntry.row).all admitsRow = true
    · simp [hadmits]
    · simp [hadmits]

/-! ## The event loop -/

/-- The faults of the insert that an event may make. -/
def IngestEvent.insertFaults : IngestEvent → IngestFaults
  | .datagram _ _ _ _ => Tx.noFaults
  | .dequeue _ _ _ _ insert => insert
  | .timeout insert => insert
  | .cancel insert => insert

namespace Ingest

/-- What one event can do: take in a packet, leave the batch and the samples alone, append
    the packet at the head of the queue to the batch, or hand a batch to `insert_batch`. -/
inductive Effect (s : Ingest) (e : IngestEvent) (r : IngestResponse) (s' : Ingest) : Prop where
  | received (data : List UInt8) (addr : Addr) (wallTime : Timestamp) (loopTime : LoopTime)
      (pkt : CsiPacket) (hevent : e = .datagram data addr wallTime loopTime)
      (hparse : parsePacket data = .ok pkt)
      (hqueue : ∀ item ∈ s'.queue, item ∈ s.queue ∨ item.pkt = pkt)
      (hbatch : s'.batch = s.batch) (hdb : s'.db = s.db) (hinserts : r.inserts = [])
  | idle (hqueue : s'.queue ⊆ s.queue) (hbatch : s'.batch = s.batch)
      (hsamples : s'.db.csiSamples = s.db.csiSamples) (hinserts : r.inserts = [])
  | appended (item : QueueItem) (receiverId : Int) (hqueue : s.queue = item :: s'.queue)
      (hbatch : s'.batch = s.batch ++ [⟨item.wallTime, receiverId, item.pkt⟩])
      (hsamples : s'.db.csiSamples = s.db.csiSamples) (hinserts : r.inserts = [])
  | flushed (batch : List BatchEntry) (db : IngestDb) (hqueue : s'.queue ⊆ s.queue)
      (hentries : ∀ entry ∈ batch, entry ∈ s.batch ∨ ∃ item ∈ s.queue, entry.pkt = item.pkt)
      (hbatch : s'.batch = []) (hsamples : db.csiSamples = s.db.csiSamples)
      (hdb : s'.db = (insertBatch batch e.insertFaults db).2)
      (hinserts : r.inserts = [⟨batch, (insertBatch batch e.insertFaults db).1⟩])

variable (config : IngestConfig)

/-- A lookup leaves queue, batch and samples alone. -/
theorem lookupReceiver_frame (faults : IngestFaults) (name : String) (s : Ingest) :
    (lookupReceiver config faults name s).2.running = s.running ∧
      (lookupReceiver config faults name s).2.queue = s.queue ∧
      (lookupReceiver config faults name s).2.batch = s.batch ∧
      (lookupReceiver config faults name s).2.db.csiSamples = s.db.csiSamples := by
  have hsamples := csiSamples_getOrCreateReceiverId config.receiverMac name faults s.db
  unfold lookupReceiver
  split
  · exact ⟨rfl, rfl, rfl, rfl⟩
  · split
    · rename_i hget
      rw [hget] at hsamples
      exact ⟨rfl, rfl, rfl, hsamples⟩
    · rename_i hget
      rw [hget] at hsamples
      exact ⟨rfl, rfl, rfl, hsamples⟩

/-- A heartbeat leaves queue, batch and samples alone. -/
theorem sendHeartbeat_frame (receiverId : Int) (host : String) (loopTime : LoopTime)
    (now : Timestamp) (faults : IngestFaults) (s : Ingest) :
    (sendHeartbeat receiverId host loopTime now faults s).running = s.running ∧
      (sendHeartbeat receiverId host loopTime now faults s).queue = s.queue ∧
      (sendHeartbeat receiverId host loopTime now faults s).batch = s.batch ∧
      (sendHeartbeat receiverId host loopTime now faults s).db.csiSamples =
        s.db.csiSamples := by
  have hsamples := csiSamples_upsertHeartbeat receiverId now (some host) faults s.db
  unfold sendHeartbeat
  split
  · split
    · rename_i hput
      rw [hput] at hsamples
      exact ⟨rfl, rfl, rfl, hsamples⟩
    · rename_i hput
      rw [hput] at hsamples
      exact ⟨rfl, rfl, rfl, hsamples⟩
  · exact ⟨rfl, rfl, rfl, rfl⟩

/-- Sending an ACK touches neither queue nor batch nor database. -/
theorem maybeSendAck_frame (addr : Addr) (now : LoopTime) (s : Ingest) :
    (maybeSendAck config addr now s).2.queue = s.queue ∧
      (maybeSendAck config addr now s).2.batch = s.batch ∧
      (maybeSendAck config addr now s).2.db = s.db := by
  unfold maybeSendAck
  split
  · split
    · exact ⟨rfl, rfl, rfl⟩
    · exact ⟨rfl, rfl, rfl⟩
  · exact ⟨rfl, rfl, rfl⟩

/-- What is in the queue was there, or has just been put there. -/
private theorem mem_queue_putNowait {item other : QueueItem} {s : Ingest}
    (h : other ∈ (putNowait item s).queue) : other ∈ s.queue ∨ other = item := by
  unfold putNowait at h
  split at h
  · exact (List.mem_append.mp h).imp_right List.mem_singleton.mp
  · exact .inl h

/-- Putting a packet on the queue touches neither batch nor database. -/
private theorem putNowait_frame (item : QueueItem) (s : Ingest) :
    (putNowait item s).batch = s.batch ∧ (putNowait item s).db = s.db := by
  unfold putNowait
  split
  · exact ⟨rfl, rfl⟩
  · exact ⟨rfl, rfl⟩

/-- Receiving a datagram touches neither batch nor database. -/
theorem datagramReceived_frame (data : List UInt8) (addr : Addr) (wallTime : Timestamp)
    (loopTime : LoopTime) (s : Ingest) :
    (datagramReceived config data addr wallTime loopTime s).2.batch = s.batch ∧
      (datagramReceived config data addr wallTime loopTime s).2.db = s.db := by
  unfold datagramReceived
  cases parsePacket data with
  | error failure => exact ⟨rfl, rfl⟩
  | ok pkt =>
    obtain ⟨-, hbatch, hdb⟩ := maybeSendAck_frame config addr loopTime s
    obtain ⟨hbatch', hdb'⟩ := putNowait_frame ⟨wallTime, addr.host, pkt⟩
      (maybeSendAck config addr loopTime s).2
    exact ⟨hbatch'.trans hbatch, hdb'.trans hdb⟩

/-- A datagram is dropped, or parsed and put on the queue. -/
private theorem datagramReceived_effect (data : List UInt8) (addr : Addr) (wallTime : Timestamp)
    (loopTime : LoopTime) (s : Ingest) :
    Effect s (.datagram data addr wallTime loopTime)
      (datagramReceived config data addr wallTime loopTime s).1
      (datagramReceived config data addr wallTime loopTime s).2 := by
  obtain ⟨hbatch, hdb⟩ := datagramReceived_frame config data addr wallTime loopTime s
  revert hbatch hdb
  unfold datagramReceived
  cases hparse : parsePacket data with
  | error failure => exact fun _ _ => .idle (List.Subset.refl _) rfl rfl rfl
  | ok pkt =>
    intro hbatch hdb
    obtain ⟨hqueue, -, -⟩ := maybeSendAck_frame config addr loopTime s
    refine .received data addr wallTime loopTime pkt rfl hparse ?_ hbatch hdb rfl
    intro item hitem
    rcases mem_queue_putNowait hitem with hold | hnew
    · rw [hqueue] at hold
      exact .inl hold
    · exact .inr (congrArg QueueItem.pkt hnew)

/-- The writer's round with a packet, by cases on the calls that raise. -/
private theorem writePacket_effect (item : QueueItem) (queue : List QueueItem) (loopTime : LoopTime)
    (now : Timestamp) (lookup heartbeat insert : IngestFaults) (s : Ingest)
    (hs : s.queue = item :: queue) :
    Effect s (.dequeue loopTime now lookup heartbeat insert)
      (writePacket config item loopTime now lookup heartbeat insert { s with queue := queue }).1
      (writePacket config item loopTime now lookup heartbeat insert
        { s with queue := queue }).2 := by
  have hsubset : queue ⊆ s.queue := by
    rw [hs]
    exact List.subset_cons_self _ _
  obtain ⟨-, hqueue, hbatch, hsamples⟩ := lookupReceiver_frame config lookup
    item.pkt.receiverName { s with queue := queue }
  unfold writePacket
  revert hqueue hbatch hsamples
  -- the lookup decides whether the packet is kept
  cases lookupReceiver config lookup item.pkt.receiverName { s with queue := queue } with
  | mk result s₁ =>
    intro hqueue hbatch hsamples
    cases result with
    | error e =>
      refine .idle ?_ hbatch hsamples rfl
      rw [show s₁.queue = queue from hqueue]
      exact hsubset
    | ok receiverId =>
      obtain ⟨-, hqueue', hbatch', hsamples'⟩ :=
        sendHeartbeat_frame receiverId item.host loopTime now heartbeat s₁
      simp only [appendToBatch]
      -- a full batch is inserted at once, a shorter one waits
      split
      · refine .flushed
          ((sendHeartbeat receiverId item.host loopTime now heartbeat s₁).batch ++
            [⟨item.wallTime, receiverId, item.pkt⟩])
          (sendHeartbeat receiverId item.host loopTime now heartbeat s₁).db ?_ ?_ rfl
          (hsamples'.trans hsamples) rfl rfl
        · show (sendHeartbeat receiverId item.host loopTime now heartbeat s₁).queue ⊆ s.queue
          rw [hqueue', show s₁.queue = queue from hqueue]
          exact hsubset
        · intro entry hentry
          rw [hbatch', show s₁.batch = s.batch from hbatch] at hentry
          rcases List.mem_append.mp hentry with hold | hnew
          · exact .inl hold
          · refine .inr ⟨item, by rw [hs]; exact List.mem_cons_self, ?_⟩
            rw [List.mem_singleton.mp hnew]
      · refine .appended item receiverId ?_ ?_ (hsamples'.trans hsamples) rfl
        · rw [hs, show (_ : Ingest).queue = queue from hqueue'.trans hqueue]
        · show (sendHeartbeat receiverId item.host loopTime now heartbeat s₁).batch ++ _ = _
          rw [hbatch', show s₁.batch = s.batch from hbatch]

/-- A running writer takes the head of its queue. -/
theorem step_dequeue {s : Ingest} {item : QueueItem} {queue : List QueueItem}
    (hrunning : s.running = true) (hqueue : s.queue = item :: queue) (loopTime : LoopTime)
    (now : Timestamp) (lookup heartbeat insert : IngestFaults) :
    s.step config (.dequeue loopTime now lookup heartbeat insert) =
      writePacket config item loopTime now lookup heartbeat insert { s with queue := queue } := by
  simp only [step]
  split
  · rename_i hqueue'
    rw [hqueue] at hqueue'
    cases hqueue'
    rfl
  · rename_i hnot
    exact absurd hqueue (hnot item queue hrunning)

/-- A running writer writes its partial batch when the wait times out. -/
theorem step_timeout {s : Ingest} (hrunning : s.running = true) (hbatch : s.batch ≠ [])
    (insert : IngestFaults) : s.step config (.timeout insert) = flush insert s := by
  simp only [step]
  rw [if_pos]
  simpa [hrunning] using hbatch

/-- What one event can do. -/
theorem step_effect (s : Ingest) (e : IngestEvent) :
    Effect s e (s.step config e).1 (s.step config e).2 := by
  have hidle : Effect s e quiet s := .idle (List.Subset.refl _) rfl rfl rfl
  -- one effect per event, idle where the loop has already ended
  cases e with
  | datagram data addr wallTime loopTime => exact datagramReceived_effect config _ _ _ _ _
  | dequeue loopTime now lookup heartbeat insert =>
    simp only [step]
    split
    · rename_i item queue hrunning hqueue
      exact writePacket_effect config item queue loopTime now lookup heartbeat insert s hqueue
    · exact hidle
  | timeout insert =>
    simp only [step]
    split
    · exact .flushed s.batch s.db (List.Subset.refl _) (fun _ h => .inl h) rfl rfl rfl rfl
    · exact hidle
  | cancel insert =>
    simp only [step]
    split
    · split
      · exact .idle (List.Subset.refl _) rfl rfl rfl
      · exact .flushed s.batch s.db (List.Subset.refl _) (fun _ h => .inl h) rfl rfl rfl rfl
    · exact hidle

end Ingest

end Grimnir.Geri
