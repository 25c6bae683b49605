import Grimnir.Native.WriterClock
import Grimnir.Spec.IngestIsolation
import Mathlib.Data.List.Infix

/-!
# How long a row waits in the batch

`BATCH_TIMEOUT_MS` bounds each wait for a packet and not the age of the batch.  Every packet
starts a new wait, so a row stays as long as packets keep coming and the batch is not full.
Between two timeouts, the rows are cut into blocks of `BATCH_SIZE`; a row of a full block
waits for the last row of its block, a row of the block that is left waits for the timeout,
which comes `BATCH_TIMEOUT_MS` after the last packet.

## Key results

- `Prompt`: packets come in bursts whose blocks are short and leave nothing older behind
- `withinTimeout_iff`: no row is ever older than the timeout exactly in the prompt runs
- `steady_traffic_delays_row`: two packets, 400 ms apart
-/

namespace Grimnir.Geri

/-- What happened between two timeouts. -/
structure Burst where
  /-- When the rows were appended, oldest first. -/
  rows : List Int
  /-- When the last packet was taken, whether its receiver was found or not. -/
  last : Option Int
  deriving DecidableEq, Repr

def Burst.empty : Burst := ⟨[], none⟩

/-- The packets since the last timeout. -/
def openBurst : List (ClockedEvent × Mark) → Burst
  | [] => .empty
  | (_, .quiet) :: log => openBurst log
  | (_, .packet time found) :: log =>
    ⟨if found then (openBurst log).rows ++ [time] else (openBurst log).rows, some time⟩
  | (_, .timeout _) :: _ => .empty

/-- The bursts that a timeout has ended. -/
def closedBursts : List (ClockedEvent × Mark) → List Burst
  | [] => []
  | (_, .quiet) :: log => closedBursts log
  | (_, .packet _ _) :: log => closedBursts log
  | (_, .timeout _) :: log => openBurst log :: closedBursts log

/-- The rows of one insert: `BATCH_SIZE`, or one where it is smaller. -/
def IngestConfig.blockSize (config : IngestConfig) : Nat := max 1 config.batchSize.toNat

namespace Burst

/-- The rows of a block span at most the timeout. -/
def Compact (config : IngestConfig) (timeout : Int) (b : Burst) : Prop :=
  ∀ i j t u, i ≤ j → i / config.blockSize = j / config.blockSize →
    b.rows[i]? = some t → b.rows[j]? = some u → u - t ≤ timeout

/-- The rows after the last full block. -/
def left (config : IngestConfig) (b : Burst) : List Int :=
  b.rows.drop (config.blockSize * (b.rows.length / config.blockSize))

/-- Blocks are short, and the rows left at the timeout came with the last packet. -/
def Closed (config : IngestConfig) (timeout : Int) (b : Burst) : Prop :=
  b.Compact config timeout ∧ ∀ time ∈ b.last, ∀ t ∈ b.left config, time ≤ t

end Burst

/-- Every burst is short and leaves nothing older than its last packet behind; the burst that
    is still open is judged by the present. -/
def Prompt (config : IngestConfig) (timeout : Int) (c : Config Clocked ClockedEvent Mark) :
    Prop :=
  (∀ b ∈ closedBursts c.log, b.Closed config timeout) ∧
    (openBurst c.log).Compact config timeout ∧
    ∀ t ∈ (openBurst c.log).left config, c.state.now - timeout ≤ t

/-- Every row of the batch was appended at most `timeout` ago. -/
def Clocked.WithinTimeout (timeout : Int) (s : Clocked) : Prop :=
  ∀ t ∈ s.appended, s.now - timeout ≤ t

/-! ## Blocks -/

/-- A block has at least one row. -/
private theorem IngestConfig.blockSize_pos (config : IngestConfig) : 0 < config.blockSize := by
  unfold blockSize
  omega

/-- A batch is full when its last row completes a block. -/
private theorem IngestConfig.full_iff (config : IngestConfig) (n : Nat) :
    config.batchSize ≤ ((n % config.blockSize + 1 : Nat) : Int) ↔
      (n + 1) % config.blockSize = 0 := by
  have hpos := config.blockSize_pos
  have hlt := Nat.mod_lt n hpos
  have hmod : (n + 1) % config.blockSize = (n % config.blockSize + 1) % config.blockSize := by
    simp
  rw [hmod]
  generalize n % config.blockSize = r at hlt ⊢
  by_cases hlast : r + 1 = config.blockSize
  · rw [hlast, Nat.mod_self]
    simp only [iff_true]
    unfold blockSize
    omega
  · rw [Nat.mod_eq_of_lt (by omega)]
    simp only [Nat.add_eq_zero_iff, Nat.one_ne_zero, and_false, iff_false]
    unfold blockSize at hlt hlast
    omega

namespace Burst

variable {config : IngestConfig} {timeout : Int}

/-- An empty burst leaves nothing. -/
@[simp] theorem left_empty : Burst.empty.left config = [] := by
  simp [left, Burst.empty]

/-- What is left is shorter than a block. -/
private theorem length_left (b : Burst) :
    (b.left config).length = b.rows.length % config.blockSize := by
  unfold left
  rw [List.length_drop]
  have := Nat.div_add_mod b.rows.length config.blockSize
  omega

/-- A row is left exactly when it comes after the last full block. -/
private theorem mem_left {b : Burst} {t : Int} :
    t ∈ b.left config ↔
      ∃ i, i / config.blockSize = b.rows.length / config.blockSize ∧ b.rows[i]? = some t := by
  have hpos := config.blockSize_pos
  have hmod := Nat.div_add_mod b.rows.length config.blockSize
  unfold left
  rw [List.mem_iff_getElem?]
  simp only [List.getElem?_drop]
  constructor
  -- -- the `k`-th row left is row `length / blockSize * blockSize + k` of the burst
  · rintro ⟨k, hk⟩
    refine ⟨_, ?_, hk⟩
    have hlt := (List.getElem?_eq_some_iff.mp hk).1
    rw [Nat.mul_add_div hpos]
    have : k / config.blockSize = 0 := by
      apply Nat.div_eq_of_lt
      have := Nat.mod_lt b.rows.length hpos
      omega
    omega
  -- -- a row of the open block sits `i % blockSize` past the block's start
  · rintro ⟨i, hi, ht⟩
    have hmod' := Nat.div_add_mod i config.blockSize
    refine ⟨i % config.blockSize, ?_⟩
    rw [← hi, hmod']
    exact ht

/-- A row joins the block that is left, or completes it. -/
private theorem left_snoc (rows : List Int) (last last' : Option Int) (t : Int) :
    (Burst.mk (rows ++ [t]) last').left config =
      if (rows.length + 1) % config.blockSize = 0 then []
      else (Burst.mk rows last).left config ++ [t] := by
  have hpos := config.blockSize_pos
  have hmod := Nat.div_add_mod rows.length config.blockSize
  unfold left
  simp only [List.length_append, List.length_cons, List.length_nil, Nat.zero_add]
  split
  · rename_i hfull
    rw [Nat.mul_div_cancel' (Nat.dvd_of_mod_eq_zero hfull)]
    exact List.drop_of_length_le (by simp)
  · rename_i hshort
    have hsame : (rows.length + 1) / config.blockSize = rows.length / config.blockSize := by
      rw [Nat.succ_div, if_neg (fun h => hshort (Nat.mod_eq_zero_of_dvd h)), Nat.add_zero]
    rw [hsame, List.drop_append_of_le_length (by omega)]

/-- One more row keeps the burst compact exactly when those left are recent. -/
private theorem compact_snoc (htimeout : 0 ≤ timeout) (rows : List Int) (last last' : Option Int)
    (t : Int) :
    (Burst.mk (rows ++ [t]) last').Compact config timeout ↔
      (Burst.mk rows last).Compact config timeout ∧
        ∀ u ∈ (Burst.mk rows last).left config, t - timeout ≤ u := by
  simp only [mem_left]
  unfold Compact
  constructor
  -- -- the spans of the old rows are spans of the longer burst
  · intro h
    have hold : ∀ {i : Nat} {u : Int}, rows[i]? = some u → (rows ++ [t])[i]? = some u := by
      intro i u hu
      rw [List.getElem?_append_left (List.getElem?_eq_some_iff.mp hu).1]
      exact hu
    refine ⟨fun i j u v hij hblock hu hv => h i j u v hij hblock (hold hu) (hold hv), ?_⟩
    rintro u ⟨i, hi, hu⟩
    have hlt := (List.getElem?_eq_some_iff.mp hu).1
    have hspan := h i rows.length u t (Nat.le_of_lt hlt) hi (hold hu) (by simp)
    omega
  · rintro ⟨hcompact, hleft⟩ i j u v hij hblock hu hv
    have hj := (List.getElem?_eq_some_iff.mp hv).1
    simp only [List.length_append, List.length_cons, List.length_nil] at hj
    -- the new row ends its block
    by_cases hlast : j = rows.length
    · subst hlast
      rw [List.getElem?_concat_length] at hv
      cases hv
      by_cases hi : i = rows.length
      · subst hi
        rw [List.getElem?_concat_length] at hu
        cases hu
        omega
      · rw [List.getElem?_append_left (by omega)] at hu
        have := hleft u ⟨i, hblock, hu⟩
        omega
    · rw [List.getElem?_append_left (by omega)] at hu hv
      exact hcompact i j u v hij hblock hu hv

end Burst

/-! ## The aggregator under the clock -/

variable {config : IngestConfig}

variable (config) in
/-- A packet is appended, and a full batch is flushed. -/
private theorem appendToBatch_batch (entry : BatchEntry) (insert : IngestFaults) (s : Ingest) :
    let s' := (Ingest.appendToBatch config entry insert s).2
    s'.running = s.running ∧
      if config.batchSize ≤ ((s.batch.length + 1 : Nat) : Int) then s'.batch = []
      else s'.batch.length = s.batch.length + 1 := by
  have hlength : (s.batch ++ [entry]).length = s.batch.length + 1 := by simp
  simp only [Ingest.appendToBatch, hlength]
  split
  · exact ⟨rfl, rfl⟩
  · exact ⟨rfl, hlength⟩

variable (config) in
/-- What a packet does to the batch. -/
private theorem dequeue_batch {s : Ingest} (hrunning : s.running = true) (hqueue : s.queue ≠ [])
    (loopTime : LoopTime) (now : Timestamp) (lookup heartbeat insert : IngestFaults) :
    let s' := (s.step config (.dequeue loopTime now lookup heartbeat insert)).2
    s'.running = true ∧
      if Clocked.foundReceiver config lookup s then
        if config.batchSize ≤ ((s.batch.length + 1 : Nat) : Int) then s'.batch = []
        else s'.batch.length = s.batch.length + 1
      else s'.batch = s.batch := by
  obtain ⟨item, queue, hitems⟩ := List.exists_cons_of_ne_nil hqueue
  rw [Ingest.step_dequeue config hrunning hitems]
  obtain ⟨hrun, -, hbatch, -⟩ := Ingest.lookupReceiver_frame config lookup
    item.pkt.receiverName { s with queue := queue }
  simp only [Clocked.foundReceiver, hitems, Ingest.writePacket]
  -- -- the lookup fails, or it returns an id and the row goes to the batch
  revert hrun hbatch
  cases Ingest.lookupReceiver config lookup item.pkt.receiverName { s with queue := queue } with
  | mk result s₁ =>
    intro hrun hbatch
    cases result with
    | error e => exact ⟨hrun.trans hrunning, hbatch⟩
    | ok receiverId =>
      obtain ⟨hrun', -, hbatch', -⟩ :=
        Ingest.sendHeartbeat_frame receiverId item.host loopTime now heartbeat s₁
      obtain ⟨hrun'', hfull⟩ := appendToBatch_batch config
        ⟨item.wallTime, receiverId, item.pkt⟩ insert
        (Ingest.sendHeartbeat receiverId item.host loopTime now heartbeat s₁)
      rw [hbatch'.trans hbatch] at hfull
      exact ⟨hrun''.trans (hrun'.trans (hrun.trans hrunning)), hfull⟩

variable (config) in
/-- After a timeout the batch is empty. -/
private theorem timeout_batch {s : Ingest} (hrunning : s.running = true) (insert : IngestFaults) :
    (s.step config (.timeout insert)).2.running = true ∧
      (s.step config (.timeout insert)).2.batch = [] := by
  by_cases hbatch : s.batch = []
  · simp [Ingest.step, hbatch, hrunning]
  · rw [Ingest.step_timeout config hrunning hbatch]
    exact ⟨hrunning, rfl⟩

/-- Receiving a datagram neither starts nor stops the writer. -/
private theorem datagramReceived_running (data : List UInt8) (addr : Addr) (wallTime : Timestamp)
    (loopTime : LoopTime) (s : Ingest) :
    (Ingest.datagramReceived config data addr wallTime loopTime s).2.running = s.running := by
  have hput : ∀ (item : QueueItem) (s : Ingest),
      (Ingest.putNowait item s).running = s.running := by
    intro item s
    unfold Ingest.putNowait
    split <;> rfl
  have hack : (Ingest.maybeSendAck config addr loopTime s).2.running = s.running := by
    unfold Ingest.maybeSendAck
    split
    · split <;> rfl
    · rfl
  unfold Ingest.datagramReceived
  split
  · rfl
  · exact (hput _ _).trans hack

/-- The log tells what is in the batch and since when the writer waits. -/
structure Tracks (config : IngestConfig) (timeout : Int)
    (c : Config Clocked ClockedEvent Mark) : Prop where
  appended : c.state.appended = (openBurst c.log).left config
  batch : c.state.ingest.batch.length = c.state.appended.length
  last : ∀ time ∈ (openBurst c.log).last, time = c.state.since
  opened : (openBurst c.log).rows ≠ [] → (openBurst c.log).last ≠ none ∧ 0 < timeout
  past : ∀ t ∈ (openBurst c.log).rows, t ≤ c.state.since
  since : c.state.since ≤ c.state.now
  running : c.state.ingest.running = true

/-- At the start the batch is empty. -/
theorem Tracks.start (config : IngestConfig) (timeout : Int) (db : IngestDb) (time : Int) :
    Tracks config timeout ⟨[], .start db time⟩ where
  appended := Burst.left_empty.symm
  batch := rfl
  last := by simp [openBurst, Burst.empty]
  opened h := absurd rfl h
  past := by simp [openBurst, Burst.empty]
  since := Int.le_refl time
  running := rfl

/-- The age of the batch, read off the log. -/
private theorem Tracks.within_iff {timeout : Int} {c : Config Clocked ClockedEvent Mark}
    (h : Tracks config timeout c) :
    c.state.WithinTimeout timeout ↔
      ∀ t ∈ (openBurst c.log).left config, c.state.now - timeout ≤ t := by
  rw [← h.appended]
  exact Iff.rfl

/-- A packet whose receiver is found: the batch and the open block grow together. -/
private theorem Tracks.batch_row {timeout : Int} {c : Config Clocked ClockedEvent Mark}
    (h : Tracks config timeout c) {batch' : List BatchEntry}
    (hbatch : if config.batchSize ≤ ((c.state.ingest.batch.length + 1 : Nat) : Int)
      then batch' = [] else batch'.length = c.state.ingest.batch.length + 1) :
    (if batch'.isEmpty then [] else c.state.appended ++ [c.state.now]) =
        (Burst.mk ((openBurst c.log).rows ++ [c.state.now]) (some c.state.now)).left config ∧
      batch'.length =
        (if batch'.isEmpty then [] else c.state.appended ++ [c.state.now]).length := by
  have hlength : c.state.ingest.batch.length =
      (openBurst c.log).rows.length % config.blockSize := by
    rw [h.batch, h.appended, Burst.length_left]
  simp only [hlength, config.full_iff] at hbatch
  rw [Burst.left_snoc _ (openBurst c.log).last]
  -- -- the row fills the batch and is flushed with it, or the block stays open
  split at hbatch
  · rename_i hfull
    subst hbatch
    rw [if_pos hfull]
    exact ⟨rfl, rfl⟩
  · rename_i hshort
    rw [if_neg hshort]
    have hne : batch'.isEmpty = false := by
      cases batch' with
      | nil => simp at hbatch
      | cons _ _ => rfl
    rw [hne, h.appended]
    refine ⟨rfl, ?_⟩
    simp [hbatch, Burst.length_left]

/-- A packet whose receiver is not found leaves the batch as it is. -/
private theorem Tracks.appended_kept {timeout : Int} {c : Config Clocked ClockedEvent Mark}
    (h : Tracks config timeout c) :
    (if c.state.ingest.batch.isEmpty then [] else c.state.appended) = c.state.appended := by
  split
  · rename_i hempty
    have hlength := h.batch
    rw [List.isEmpty_iff.mp hempty] at hlength
    exact (List.length_eq_zero_iff.mp hlength.symm).symm
  · rfl

/-- A packet is taken off the queue: the wait starts again. -/
theorem Tracks.dequeue {timeout : Int} {c : Config Clocked ClockedEvent Mark}
    (h : Tracks config timeout c) (hpositive : 0 < timeout)
    (hqueue : c.state.ingest.queue ≠ []) (loopTime : LoopTime) (now : Timestamp)
    (lookup heartbeat insert : IngestFaults) :
    Tracks config timeout ((clockedMachine config).answer c
      (.event (.dequeue loopTime now lookup heartbeat insert))) := by
  obtain ⟨hrunning, hbatch⟩ :=
    dequeue_batch config h.running hqueue loopTime now lookup heartbeat insert
  have hpast : ∀ t ∈ (openBurst c.log).rows, t ≤ c.state.now :=
    fun t ht => Int.le_trans (h.past t ht) h.since
  simp only [Machine.answer, clockedMachine, Clocked.step]
  -- -- an unknown receiver's packet starts a new wait but adds no row
  cases hfound : Clocked.foundReceiver config lookup c.state.ingest with
  | true =>
    rw [hfound, if_pos rfl] at hbatch
    obtain ⟨happended, hlength⟩ := h.batch_row hbatch
    refine ⟨happended, hlength, ?_, ?_, ?_, Int.le_refl _, hrunning⟩
    · simp [openBurst]
    · simp [openBurst, hpositive]
    · simp only [openBurst, if_true, List.mem_append, List.mem_singleton]
      rintro t (ht | rfl)
      · exact hpast t ht
      · exact Int.le_refl _
  | false =>
    simp only [hfound, Bool.false_eq_true, if_false] at hbatch
    simp only [hbatch, Bool.false_eq_true, if_false, h.appended_kept]
    refine ⟨h.appended, ?_, ?_, ?_, hpast, Int.le_refl _, hrunning⟩
    · simp only [hbatch]
      exact h.batch
    · simp [openBurst]
    · simp [openBurst, hpositive]

/-- A timeout ends the burst and empties the batch. -/
theorem Tracks.timeout {timeout : Int} {c : Config Clocked ClockedEvent Mark}
    (h : Tracks config timeout c) (insert : IngestFaults) :
    Tracks config timeout ((clockedMachine config).answer c (.event (.timeout insert))) := by
  obtain ⟨hrunning, hbatch⟩ := timeout_batch config h.running insert
  refine ⟨Burst.left_empty.symm, ?_, ?_, ?_, ?_, Int.le_refl _, hrunning⟩
  · exact congrArg List.length hbatch
  · simp [Machine.answer, clockedMachine, Clocked.step, openBurst, Burst.empty]
  · exact fun hne => absurd rfl hne
  · simp [Machine.answer, clockedMachine, Clocked.step, openBurst, Burst.empty]

/-- Every timely event keeps the log in step with the batch. -/
theorem Tracks.answer {batchTimeoutMs : Int} {c : Config Clocked ClockedEvent Mark}
    (h : Tracks config (Clocked.batchTimeout batchTimeoutMs) c) {e : ClockedEvent}
    (hok : c.state.Timely batchTimeoutMs e) :
    Tracks config (Clocked.batchTimeout batchTimeoutMs)
      ((clockedMachine config).answer c e) := by
  -- -- the clock only moves `since`; the queue's events keep their own lemmas
  cases e with
  | elapse time =>
    obtain ⟨hlater, -⟩ := hok
    exact ⟨h.appended, h.batch, h.last, h.opened, h.past, Int.le_trans h.since hlater,
      h.running⟩
  | event e =>
    cases e with
    | datagram data addr wallTime loopTime =>
      obtain ⟨hbatch, -⟩ :=
        Ingest.datagramReceived_frame config data addr wallTime loopTime c.state.ingest
      refine ⟨h.appended, ?_, h.last, h.opened, h.past, h.since, ?_⟩
      · exact (congrArg List.length hbatch).trans h.batch
      · exact (datagramReceived_running _ _ _ _ _).trans h.running
    | dequeue loopTime now lookup heartbeat insert =>
      obtain ⟨hpositive, hqueue, -⟩ := hok
      exact h.dequeue hpositive hqueue loopTime now lookup heartbeat insert
    | timeout insert => exact h.timeout insert
    | cancel insert => exact hok.elim

/-! ## Prompt runs -/

/-- The rows a timeout finds are as old as the wait was long, from the last packet on. -/
private theorem Tracks.closed_iff {batchTimeoutMs : Int} {c : Config Clocked ClockedEvent Mark}
    (h : Tracks config (Clocked.batchTimeout batchTimeoutMs) c)
    (hover : 0 < Clocked.batchTimeout batchTimeoutMs →
      c.state.now = c.state.since + Clocked.batchTimeout batchTimeoutMs) :
    (∀ time ∈ (openBurst c.log).last, ∀ t ∈ (openBurst c.log).left config, time ≤ t) ↔
      ∀ t ∈ (openBurst c.log).left config,
        c.state.now - Clocked.batchTimeout batchTimeoutMs ≤ t := by
  by_cases hrows : (openBurst c.log).rows = []
  · simp [Burst.left, hrows]
  · obtain ⟨hlast, hpositive⟩ := h.opened hrows
    obtain ⟨time, htime⟩ := Option.ne_none_iff_exists'.mp hlast
    have hsince : time = c.state.since := h.last time htime
    have hnow := hover hpositive
    rw [htime]
    simp only [Option.mem_some_iff, forall_eq', hsince]
    constructor
    · intro hold t ht
      have := hold t ht
      omega
    · intro hold t ht
      have := hold t ht
      omega

/-- One event keeps a history prompt exactly when no row is too old after it. -/
private theorem prompt_answer {batchTimeoutMs : Int} {c : Config Clocked ClockedEvent Mark}
    (h : Tracks config (Clocked.batchTimeout batchTimeoutMs) c) {e : ClockedEvent}
    (hok : c.state.Timely batchTimeoutMs e) :
    Prompt config (Clocked.batchTimeout batchTimeoutMs) ((clockedMachine config).answer c e) ↔
      Prompt config (Clocked.batchTimeout batchTimeoutMs) c ∧
        ((clockedMachine config).answer c e).state.WithinTimeout
          (Clocked.batchTimeout batchTimeoutMs) := by
  rw [(h.answer hok).within_iff]
  unfold Prompt
  cases e with
  | elapse time =>
    obtain ⟨hlater, -⟩ := hok
    simp only [Machine.answer, clockedMachine, Clocked.step, openBurst, closedBursts]
    -- a row that is young enough later is so now
    constructor
    · rintro ⟨hclosed, hcompact, hleft⟩
      refine ⟨⟨hclosed, hcompact, fun t ht => ?_⟩, hleft⟩
      have := hleft t ht
      omega
    · rintro ⟨⟨hclosed, hcompact, -⟩, hleft⟩
      exact ⟨hclosed, hcompact, hleft⟩
  | event e =>
    cases e with
    | datagram data addr wallTime loopTime =>
      simp only [Machine.answer, clockedMachine, Clocked.step, openBurst, closedBursts]
      exact ⟨fun hprompt => ⟨hprompt, hprompt.2.2⟩, fun hprompt => hprompt.1⟩
    | dequeue loopTime now lookup heartbeat insert =>
      obtain ⟨hpositive, -, -⟩ := hok
      simp only [Machine.answer, clockedMachine, Clocked.step, openBurst, closedBursts]
      cases hfound : Clocked.foundReceiver config lookup c.state.ingest with
      | true =>
        -- the new row is compared with the block that it joins, before the block is cut off
        simp only [if_true]
        rw [Burst.compact_snoc (Int.le_of_lt hpositive) _ (openBurst c.log).last]
        constructor
        · rintro ⟨hclosed, hcompact, hleft⟩
          exact ⟨⟨hclosed, hcompact⟩, hleft⟩
        · rintro ⟨⟨hclosed, hcompact⟩, hleft⟩
          exact ⟨hclosed, hcompact, hleft⟩
      | false =>
        simp only [Bool.false_eq_true, if_false]
        exact ⟨fun hprompt => ⟨hprompt, hprompt.2.2⟩, fun hprompt => hprompt.1⟩
    | timeout insert =>
      -- the open burst is judged for the last time, and an empty one takes its place
      simp only [Machine.answer, clockedMachine, Clocked.step, openBurst, closedBursts,
        Burst.left_empty, List.forall_mem_cons, Burst.Closed, h.closed_iff hok]
      constructor
      · rintro ⟨⟨⟨hcompact, hleft⟩, hclosed⟩, -, -⟩
        exact ⟨⟨hclosed, hcompact, hleft⟩, fun _ ht => absurd ht List.not_mem_nil⟩
      · rintro ⟨⟨hclosed, hcompact, hleft⟩, -⟩
        refine ⟨⟨⟨hcompact, hleft⟩, hclosed⟩, ?_, fun _ ht => absurd ht List.not_mem_nil⟩
        intro i j t u _ _ ht
        simp [Burst.empty] at ht
    | cancel insert => exact hok.elim

/-- While the writer runs, no row of its batch is ever older than the timeout exactly when
    each burst of packets is prompt. -/
theorem withinTimeout_iff {batchTimeoutMs : Int} {db : IngestDb} {time : Int}
    {es : List ClockedEvent}
    (hadmits : (clockedMachine config).Admits (fun c e => c.state.Timely batchTimeoutMs e)
      ⟨[], .start db time⟩ es) :
    (∀ pre, pre <+: es → ((clockedMachine config).replay ⟨[], .start db time⟩
        pre).state.WithinTimeout (Clocked.batchTimeout batchTimeoutMs)) ↔
      Prompt config (Clocked.batchTimeout batchTimeoutMs)
        ((clockedMachine config).replay ⟨[], .start db time⟩ es) := by
  refine Machine.always_iff
    (Tracks config (Clocked.batchTimeout batchTimeoutMs))
    (fun c => c.state.WithinTimeout (Clocked.batchTimeout batchTimeoutMs)) _
    (Tracks.start config _ db time) ?_ (fun c e h hok => h.answer hok)
    (fun c e h hok => prompt_answer h hok) hadmits
  -- nothing has come yet
  simp [Prompt, closedBursts, openBurst, Burst.Compact, Burst.left, Burst.empty,
    Clocked.WithinTimeout, Clocked.start]

/-! ## Steady traffic -/

/-- A packet arrives and is taken. -/
def arrival (time : Int) : List ClockedEvent :=
  [.event (.datagram (bareDatagram 97 6) ⟨"10.0.0.1", 5005⟩ 0 time),
    .event (.dequeue time 0 Tx.noFaults Tx.noFaults Tx.noFaults)]

/-- Two packets 400 ms apart, and a look at the batch 200 ms later. -/
def steadyTraffic : List ClockedEvent :=
  arrival 0 ++ [.elapse 400000] ++ arrival 400000 ++ [.elapse 600000]

/-- The example's packets come in time. -/
private theorem steadyTraffic_admits :
    (clockedMachine plainConfig).Admits (fun c e => c.state.Timely 500 e)
      ⟨[], .start .empty 0⟩ steadyTraffic :=
  ⟨rfl, ⟨by decide, by decide, rfl⟩, ⟨by decide, fun _ => ⟨rfl, by decide⟩⟩, rfl,
    ⟨by decide, by decide, rfl⟩, ⟨by decide, fun _ => ⟨rfl, by decide⟩⟩, trivial⟩

/-- Both sides for packets 400 ms apart. -/
theorem withinTimeout_iff_steady :
    (∀ pre, pre <+: steadyTraffic → ((clockedMachine plainConfig).replay
        ⟨[], .start .empty 0⟩ pre).state.WithinTimeout (Clocked.batchTimeout 500)) ↔
      Prompt plainConfig (Clocked.batchTimeout 500)
        ((clockedMachine plainConfig).replay ⟨[], .start .empty 0⟩ steadyTraffic) :=
  withinTimeout_iff steadyTraffic_admits

/-- The first of two rows waits for 600 ms although `BATCH_TIMEOUT_MS` is 500. -/
theorem steady_traffic_delays_row :
    ¬∀ (config : IngestConfig) (batchTimeoutMs : Int) (db : IngestDb) (time : Int)
      (es : List ClockedEvent),
      (clockedMachine config).Admits (fun c e => c.state.Timely batchTimeoutMs e)
        ⟨[], .start db time⟩ es →
      ((clockedMachine config).replay ⟨[], .start db time⟩ es).state.WithinTimeout
        (Clocked.batchTimeout batchTimeoutMs) := by
  intro h
  have hage := h plainConfig 500 .empty 0 steadyTraffic steadyTraffic_admits 0
    (show (0 : Int) ∈ _ by decide)
  exact absurd hage (by decide)

end Grimnir.Geri
