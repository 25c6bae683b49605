import Grimnir.Spec.IngestEffects
import Grimnir.Spec.ParserCorrect
import Mathlib.Data.Set.Defs

/-!
# One packet's fields and the other packets of its batch

The parser admits every unsigned 16-bit count, `csi_samples` only the ones a `SMALLINT`
holds, and a batch is written all or nothing.  So a batch commits as long as every packet
the senders can get accepted is storable, and no longer.

## Key results

- `admitsRow_iff`: which accepted packets the schema admits
- `Sound.answer`: every event keeps the batches storable and the committed rows in place
- `isolated_iff`: every batch of every run commits exactly when every accepted packet is
  storable
-/

namespace Grimnir.Geri

open Struct Struct.Format

/-- The unsigned fields that `csi_samples` stores fit a `SMALLINT`. -/
def CsiPacket.Storable (pkt : CsiPacket) : Prop :=
  pkt.channel ≤ 32767 ∧ pkt.bandwidthMhz ≤ 32767 ∧ pkt.antennaCount ≤ 32767 ∧
    pkt.subcarrierCount ≤ 32767

private theorem fitsSmallint_int16 (n : Int16) : fitsSmallint n.toInt = true := by
  have hlow := n.le_toInt
  have hhigh := n.toInt_lt
  unfold fitsSmallint
  simp only [Bool.and_eq_true, decide_eq_true_eq]
  omega

private theorem fitsSmallint_natCast (n : Nat) : fitsSmallint n = true ↔ n ≤ 32767 := by
  unfold fitsSmallint
  simp only [Bool.and_eq_true, decide_eq_true_eq]
  omega

/-- The schema admits an accepted packet exactly when its unsigned fields fit: the signed
    ones always do. -/
theorem admitsRow_iff {data : List UInt8} {pkt : CsiPacket} (h : parsePacket data = .ok pkt)
    (wallTime : Timestamp) (receiverId : Int) :
    admitsRow (BatchEntry.mk wallTime receiverId pkt).row = true ↔ pkt.Storable := by
  obtain ⟨_, _, width, header, flat, _, _, _, _, _, _, rfl⟩ := parsePacket_ok h
  obtain ⟨_, _, nameRaw, mac, rssi, noiseFloor, channel, bandwidth, antennas, subcarriers, ts⟩ :=
    header
  unfold admitsRow CsiPacket.Storable
  simp only [BatchEntry.row, packetOf, Option.all_some, Bool.and_eq_true, fitsSmallint_int16,
    fitsSmallint_natCast, true_and, and_assoc]

/-! ## Runs with a reachable database -/

/-- No statement of the event is made to fail. -/
def IngestEvent.Healthy : IngestEvent → Prop
  | .datagram _ _ _ _ => True
  | .dequeue _ _ lookup heartbeat insert =>
    lookup = Tx.noFaults ∧ heartbeat = Tx.noFaults ∧ insert = Tx.noFaults
  | .timeout insert => insert = Tx.noFaults
  | .cancel insert => insert = Tx.noFaults

/-- The event's datagram is one of `D`. -/
def IngestEvent.From (D : Set (List UInt8)) : IngestEvent → Prop
  | .datagram data _ _ _ => data ∈ D
  | _ => True

/-- The senders send datagrams of `D`, and the database is reachable. -/
def Over (D : Set (List UInt8)) (_ : Config Ingest IngestEvent IngestResponse)
    (e : IngestEvent) : Prop :=
  e.From D ∧ e.Healthy

/-- The call of `insert_batch` committed: it returned, and the row of every entry is in
    `csi_samples`. -/
def Committed (db : IngestDb) (call : InsertCall) : Prop :=
  call.result = .ok () ∧ ∀ entry ∈ call.batch, ⟨entry.row, none⟩ ∈ db.csiSamples

/-- Every batch handed to `insert_batch` so far has committed. -/
def AllCommitted (c : Config Ingest IngestEvent IngestResponse) : Prop :=
  ∀ p ∈ c.log, ∀ call ∈ p.2.inserts, Committed c.state.db call

/-- What is queued or batched was accepted from `D`, and every batch has committed. -/
structure Sound (D : Set (List UInt8)) (c : Config Ingest IngestEvent IngestResponse) :
    Prop where
  queue : ∀ item ∈ c.state.queue, ∃ data ∈ D, parsePacket data = .ok item.pkt
  batch : ∀ entry ∈ c.state.batch, ∃ data ∈ D, parsePacket data = .ok entry.pkt
  committed : AllCommitted c

private theorem insertFaults_of_healthy {e : IngestEvent} (h : e.Healthy) :
    e.insertFaults = Tx.noFaults := by
  cases e with
  | datagram => rfl
  | dequeue => exact h.2.2
  | timeout => exact h
  | cancel => exact h

theorem Committed.mono {db db' : IngestDb} {call : InsertCall} (h : Committed db call)
    (hsub : db.csiSamples ⊆ db'.csiSamples) : Committed db' call :=
  ⟨h.1, fun entry hentry => hsub (h.2 entry hentry)⟩

variable {config : IngestConfig} {D : Set (List UInt8)}

/-- An event that calls no `insert_batch` keeps what has committed. -/
private theorem AllCommitted.answer_quiet {c : Config Ingest IngestEvent IngestResponse}
    {e : IngestEvent} (h : AllCommitted c)
    (hinserts : (c.state.step config e).1.inserts = [])
    (hsamples : (c.state.step config e).2.db.csiSamples = c.state.db.csiSamples) :
    AllCommitted ((ingestMachine config).answer c e) := by
  intro p hp call hcall
  rcases List.mem_cons.mp hp with rfl | hp
  · change call ∈ (c.state.step config e).1.inserts at hcall
    rw [hinserts] at hcall
    cases hcall
  · refine (h p hp call hcall).mono ?_
    show _ ⊆ (c.state.step config e).2.db.csiSamples
    rw [hsamples]
    exact List.Subset.refl _

/-- Every event keeps the batches storable and the committed rows in place. -/
theorem Sound.answer {c : Config Ingest IngestEvent IngestResponse} {e : IngestEvent}
    (hstorable : ∀ data ∈ D, ∀ pkt, parsePacket data = .ok pkt → pkt.Storable)
    (h : Sound D c) (hok : Over D c e) : Sound D ((ingestMachine config).answer c e) := by
  obtain ⟨hfrom, hhealthy⟩ := hok
  -- by what the event did to the queue, the batch and the table
  cases Ingest.step_effect config c.state e with
  | received data addr wallTime loopTime pkt hevent hparse hqueue hbatch hdb hinserts =>
    subst hevent
    refine ⟨?_, ?_, h.committed.answer_quiet hinserts (congrArg IngestDb.csiSamples hdb)⟩
    · intro item hitem
      rcases hqueue item hitem with hold | hnew
      · exact h.queue item hold
      · exact ⟨data, hfrom, hnew ▸ hparse⟩
    · show ∀ entry ∈ (c.state.step config _).2.batch, _
      rw [hbatch]
      exact h.batch
  | idle hqueue hbatch hsamples hinserts =>
    refine ⟨fun item hitem => h.queue item (hqueue hitem), ?_,
      h.committed.answer_quiet hinserts hsamples⟩
    show ∀ entry ∈ (c.state.step config _).2.batch, _
    rw [hbatch]
    exact h.batch
  | appended item receiverId hqueue hbatch hsamples hinserts =>
    refine ⟨fun other hother => h.queue other ?_, ?_,
      h.committed.answer_quiet hinserts hsamples⟩
    · rw [hqueue]
      exact List.mem_cons_of_mem _ hother
    · show ∀ entry ∈ (c.state.step config _).2.batch, _
      rw [hbatch]
      intro entry hentry
      rcases List.mem_append.mp hentry with hold | hnew
      · exact h.batch entry hold
      · rw [List.mem_singleton.mp hnew]
        exact h.queue item (by rw [hqueue]; exact List.mem_cons_self)
  | flushed batch db hqueue hentries hbatch hsamples hdb hinserts =>
    rw [insertFaults_of_healthy hhealthy] at hdb hinserts
    -- every entry was accepted from `D`, so the schema admits its row
    have hadmits : ∀ entry ∈ batch, admitsRow entry.row = true := by
      intro entry hentry
      have hparse : ∃ data ∈ D, parsePacket data = .ok entry.pkt := by
        rcases hentries entry hentry with hold | ⟨item, hitem, hpkt⟩
        · exact h.batch entry hold
        · rw [hpkt]
          exact h.queue item hitem
      obtain ⟨data, hdata, hparse⟩ := hparse
      exact (admitsRow_iff hparse _ _).mpr (hstorable data hdata _ hparse)
    have hok := (insertBatch_noFaults batch db).mpr hadmits
    have hrows := insertBatch_ok hok
    rw [hsamples, ← hdb] at hrows
    refine ⟨fun item hitem => h.queue item (hqueue hitem), ?_, ?_⟩
    · show ∀ entry ∈ (c.state.step config _).2.batch, _
      rw [hbatch]
      exact fun entry hentry => nomatch hentry
    · intro p hp call hcall
      -- this event's call has just committed, and the rows of earlier calls stay
      rcases List.mem_cons.mp hp with rfl | hp
      · change call ∈ (c.state.step config e).1.inserts at hcall
        rw [hinserts, List.mem_singleton] at hcall
        subst hcall
        refine ⟨hok, fun entry hentry => ?_⟩
        show _ ∈ (c.state.step config e).2.db.csiSamples
        rw [hrows]
        exact List.mem_append_right _ (List.mem_map.mpr ⟨entry, hentry, rfl⟩)
      · refine (h.committed p hp call hcall).mono ?_
        show _ ⊆ (c.state.step config e).2.db.csiSamples
        rw [hrows]
        exact List.subset_append_left _ _

/-! ## A packet that is not storable -/

/-- With the database reachable every receiver is found or registered. -/
private theorem getOrCreateReceiverId_noFaults (receiverMac : String → String) (name : String)
    (db : IngestDb) : ∃ id db', getOrCreateReceiverId receiverMac name Tx.noFaults db =
      (.ok id, db') := by
  cases hfind : db.receivers.find? name with
  | some receiver =>
    exact ⟨_, _, Tx.transact_ok (run_getOrCreateReceiverIdTx_found hfind receiverMac)⟩
  | none => exact ⟨_, _, Tx.transact_ok (run_getOrCreateReceiverIdTx_new hfind receiverMac)⟩

/-- The lookup through the cache succeeds too. -/
private theorem lookupReceiver_noFaults (config : IngestConfig) (name : String) (s : Ingest) :
    ∃ id s', Ingest.lookupReceiver config Tx.noFaults name s = (.ok id, s') := by
  unfold Ingest.lookupReceiver
  split
  · exact ⟨_, _, rfl⟩
  · obtain ⟨id, db', hget⟩ := getOrCreateReceiverId_noFaults config.receiverMac name s.db
    rw [hget]
    exact ⟨_, _, rfl⟩

/-- The next packet is taken off the queue, with the database reachable. -/
def pull : IngestEvent := .dequeue 0 0 Tx.noFaults Tx.noFaults Tx.noFaults

/-- A packet alone in the queue of a waiting writer is inserted at once, or waits alone in
    the batch. -/
private theorem step_pull (config : IngestConfig) {s : Ingest} {item : QueueItem}
    (hrunning : s.running = true) (hqueue : s.queue = [item]) (hbatch : s.batch = []) :
    ∃ id,
      (∃ db, (s.step config pull).1.inserts = [⟨[⟨item.wallTime, id, item.pkt⟩],
        (insertBatch [⟨item.wallTime, id, item.pkt⟩] Tx.noFaults db).1⟩]) ∨
      ((s.step config pull).2.running = true ∧
        (s.step config pull).2.batch = [⟨item.wallTime, id, item.pkt⟩]) := by
  obtain ⟨id, s₁, hlookup⟩ := lookupReceiver_noFaults config item.pkt.receiverName
    { s with queue := [] }
  obtain ⟨hrunning', -, hbatch', -⟩ := Ingest.lookupReceiver_frame config Tx.noFaults
    item.pkt.receiverName { s with queue := [] }
  rw [hlookup] at hrunning' hbatch'
  obtain ⟨hrunning'', -, hbatch'', -⟩ :=
    Ingest.sendHeartbeat_frame id item.host 0 0 Tx.noFaults s₁
  have hone : (Ingest.sendHeartbeat id item.host 0 0 Tx.noFaults s₁).batch = [] := by
    rw [hbatch'', hbatch']
    exact hbatch
  refine ⟨id, ?_⟩
  -- a `BATCH_SIZE` of one or less flushes at once
  rw [pull, Ingest.step_dequeue config hrunning hqueue, Ingest.writePacket, hlookup]
  simp only [Ingest.appendToBatch, hone, List.nil_append]
  split
  · exact .inl ⟨_, rfl⟩
  · refine .inr ⟨?_, rfl⟩
    show (Ingest.sendHeartbeat id item.host 0 0 Tx.noFaults s₁).running = true
    rw [hrunning'', hrunning']
    exact hrunning

/-- The first packet of a run waits in the queue. -/
private theorem step_first {data : List UInt8} {pkt : CsiPacket}
    (hparse : parsePacket data = .ok pkt) (db : IngestDb) (addr : Addr) :
    ((Ingest.start db).step config (.datagram data addr 0 0)).2 =
      { Ingest.start db with
        queue := [⟨0, addr.host, pkt⟩], lastAckSent := Dict.set .empty addr 0 } := by
  simp only [Ingest.step, Ingest.datagramReceived, hparse]
  rfl

/-- An insert of one packet commits only if the packet is storable. -/
private theorem storable_of_insertBatch {data : List UInt8} {pkt : CsiPacket} {wallTime : Timestamp}
    {id : Int} {db : IngestDb} (hparse : parsePacket data = .ok pkt)
    (h : (insertBatch [⟨wallTime, id, pkt⟩] Tx.noFaults db).1 = .ok ()) : pkt.Storable :=
  (admitsRow_iff hparse wallTime id).mp
    ((insertBatch_noFaults _ db).mp h _ (List.mem_singleton.mpr rfl))

/-- Every batch that any senders of `D` cause to be written commits, in every run, exactly
    when every packet that `parse_packet` accepts from `D` is storable. -/
theorem isolated_iff (config : IngestConfig) (D : Set (List UInt8)) (db : IngestDb) :
    (∀ c, (ingestMachine config).Run (Over D) ⟨[], .start db⟩ c → AllCommitted c) ↔
      ∀ data ∈ D, ∀ pkt, parsePacket data = .ok pkt → pkt.Storable := by
  constructor
  · intro hruns data hdata pkt hparse
    -- the run that receives the packet alone, takes it off the queue and lets the wait time out
    let c₁ := (ingestMachine config).answer ⟨[], .start db⟩ (.datagram data ⟨"", 0⟩ 0 0)
    have hstate : c₁.state = { Ingest.start db with
        queue := [⟨0, "", pkt⟩], lastAckSent := Dict.set .empty ⟨"", 0⟩ 0 } :=
      step_first hparse db ⟨"", 0⟩
    have hrun₁ : (ingestMachine config).Run (Over D) ⟨[], .start db⟩ c₁ :=
      Machine.Run.snoc .refl _ ⟨hdata, trivial⟩
    have hrun₂ := hrun₁.snoc pull ⟨trivial, rfl, rfl, rfl⟩
    obtain ⟨id, ⟨db', hinserts⟩ | ⟨hrunning, hbatch⟩⟩ :=
      step_pull config (show c₁.state.running = true by rw [hstate]; rfl)
        (show c₁.state.queue = [⟨0, "", pkt⟩] by rw [hstate]) (by rw [hstate]; rfl)
    · have hcommit := hruns _ hrun₂ _ List.mem_cons_self ⟨_, _⟩
        (show _ ∈ (c₁.state.step config pull).1.inserts by
          rw [hinserts]; exact List.mem_singleton.mpr rfl)
      exact storable_of_insertBatch hparse hcommit.1
    · have hrun₃ := hrun₂.snoc (.timeout Tx.noFaults) ⟨trivial, rfl⟩
      have hflush := Ingest.step_timeout config hrunning (by rw [hbatch]; simp)
        Tx.noFaults
      have hcommit := hruns _ hrun₃ _ List.mem_cons_self
        ⟨[⟨0, id, pkt⟩], (insertBatch [⟨0, id, pkt⟩] Tx.noFaults
          (c₁.state.step config pull).2.db).1⟩ (by
          show _ ∈ ((c₁.state.step config pull).2.step config (.timeout Tx.noFaults)).1.inserts
          rw [hflush, Ingest.flush, hbatch]
          exact List.mem_singleton.mpr rfl)
      exact storable_of_insertBatch hparse hcommit.1
  -- and where all are storable every call of a run commits
  · intro hstorable c hrun
    have hstart : Sound D ⟨[], Ingest.start db⟩ :=
      ⟨(fun _ h => nomatch h), (fun _ h => nomatch h), (fun _ h => nomatch h)⟩
    exact (hrun.invariant (I := Sound D) hstart fun _ _ h hok => h.answer hstorable hok).committed

/-! ## A poisoned batch -/

/-- A version 1 datagram without samples. -/
def bareDatagram (name : UInt8) (channel : UInt16) : List UInt8 :=
  ((headerFormat nameWidthV1).pack (packetMagic, 1,
    ⟨name :: List.replicate 15 0, rfl⟩, ⟨[0xaa, 0xbb, 0xcc, 0x01, 0x02, 0x03], rfl⟩,
    -40, -95, channel, 20, 1, 0, 0)).1

/-- Two packets that share a batch; the second names channel 40000. -/
def poisonedRun : List IngestEvent :=
  [.datagram (bareDatagram 97 6) ⟨"10.0.0.1", 5005⟩ 0 0,
    .datagram (bareDatagram 98 40000) ⟨"10.0.0.2", 5005⟩ 1 1, pull, pull,
    .timeout Tx.noFaults]

/-- Batches of fifty packets. -/
def plainConfig : IngestConfig where
  batchSize := 50
  ackInterval := 5000000
  receiverMac name := name

/-- No receiver is registered. -/
def IngestDb.empty : IngestDb := ⟨.empty, 1, [], .empty⟩

/-- What the poisoned run leaves. -/
def poisonedConfig : Config Ingest IngestEvent IngestResponse :=
  (ingestMachine plainConfig).replay ⟨[], .start .empty⟩ poisonedRun

/-- The packet on channel 6 is accepted and its row is lost, with the database reachable,
    because a packet on channel 40000 shares its batch. -/
theorem poisoned_batch :
    (ingestMachine plainConfig).Run (Over {d | d = bareDatagram 97 6 ∨ d = bareDatagram 98 40000})
        ⟨[], .start .empty⟩ poisonedConfig ∧
      poisonedConfig.state.db.csiSamples = [] ∧ ¬AllCommitted poisonedConfig := by
  refine ⟨Machine.run_of_admits ?_, by decide, fun hall => ?_⟩
  · exact ⟨⟨.inl rfl, trivial⟩, ⟨.inr rfl, trivial⟩, ⟨trivial, rfl, rfl, rfl⟩,
      ⟨trivial, rfl, rfl, rfl⟩, ⟨trivial, rfl⟩, trivial⟩
  · have hresults : poisonedConfig.log.map (fun p => p.2.inserts.map (·.result)) =
        [[.error smallintOutOfRange], [], [], [], []] := by decide
    have hmem : [.error smallintOutOfRange] ∈
        poisonedConfig.log.map fun p => p.2.inserts.map (·.result) := by
      rw [hresults]
      exact List.mem_cons_self
    obtain ⟨p, hp, hinserts⟩ := List.mem_map.mp hmem
    obtain ⟨call, hcall, hresult⟩ := List.mem_map.mp
      (hinserts.symm ▸ List.mem_singleton.mpr rfl :
        .error smallintOutOfRange ∈ p.2.inserts.map (·.result))
    rw [(hall p hp call hcall).1] at hresult
    cases hresult

end Grimnir.Geri
