import Grimnir.ForStd.Throttle
import Grimnir.Spec.IngestIsolation

/-!
# ACKs are throttled per sender

What the aggregator answers to an address depends on the valid datagrams from there alone: it
answers them as a throttle with the interval `ACK_INTERVAL_S` does.  `batch_writer`, the queue
and other senders have no part in it.

## Key results

- `step_invalid` / `step_valid`: what an event does about ACKs
- `acks_of_run`: the ACKs to an address are those of a throttle
- `throttled_of_run`: the rate law, and that other senders do not matter
-/

namespace Grimnir.Geri

open Throttle (Due admitted admitted_pairwise admitted_recent recent_of_not_due)

/-- The last ACK to an address. -/
def Ingest.lastAck (addr : Addr) (s : Ingest) : Option Int := s.lastAckSent.get? addr

/-- The sender and the time of a valid datagram. -/
def IngestEvent.valid : IngestEvent → Option (Addr × LoopTime)
  | .datagram data addr _ loopTime =>
    match parsePacket data with
    | .ok _ => some (addr, loopTime)
    | .error _ => none
  | _ => none

/-- The time of a datagram. -/
def IngestEvent.received : IngestEvent → Option LoopTime
  | .datagram _ _ _ loopTime => some loopTime
  | _ => none

/-- A valid datagram is one that was received. -/
private theorem IngestEvent.received_of_valid {e : IngestEvent} {addr : Addr} {t : LoopTime}
    (h : e.valid = some (addr, t)) : e.received = some t := by
  unfold valid at h
  split at h
  · split at h
    · cases h
      rfl
    · cases h
  · cases h

/-! ## One event -/

namespace Ingest

variable {config : IngestConfig}

/-- Looking a receiver up records no ACK. -/
private theorem lastAckSent_lookupReceiver (config : IngestConfig) (faults : IngestFaults)
    (name : String) (s : Ingest) :
    (lookupReceiver config faults name s).2.lastAckSent = s.lastAckSent := by
  unfold lookupReceiver
  split
  · rfl
  · split <;> rfl

/-- Recording a receiver's heartbeat records no ACK. -/
private theorem lastAckSent_sendHeartbeat (receiverId : Int) (host : String) (loopTime : LoopTime)
    (now : Timestamp) (faults : IngestFaults) (s : Ingest) :
    (sendHeartbeat receiverId host loopTime now faults s).lastAckSent = s.lastAckSent := by
  unfold sendHeartbeat
  split
  · split <;> rfl
  · rfl

/-- Putting a packet on the queue records no ACK. -/
private theorem lastAckSent_putNowait (item : QueueItem) (s : Ingest) :
    (putNowait item s).lastAckSent = s.lastAckSent := by
  unfold putNowait
  split <;> rfl

/-- No ACK is sent, and none is recorded. -/
def NoAck (s : Ingest) (r : IngestResponse × Ingest) : Prop :=
  r.1.acks = [] ∧ r.2.lastAckSent = s.lastAckSent

/-- Appending to the batch sends no ACK, whether it flushes or not. -/
private theorem noAck_appendToBatch (entry : BatchEntry) (faults : IngestFaults) (s : Ingest) :
    NoAck s (appendToBatch config entry faults s) := by
  unfold appendToBatch
  dsimp only
  split <;> exact ⟨rfl, rfl⟩

/-- Writing a packet sends no ACK. -/
private theorem noAck_writePacket (item : QueueItem) (loopTime : LoopTime) (now : Timestamp)
    (lookup heartbeat insert : IngestFaults) (s : Ingest) :
    NoAck s (writePacket config item loopTime now lookup heartbeat insert s) := by
  have hlookup := lastAckSent_lookupReceiver config lookup item.pkt.receiverName s
  unfold writePacket
  split
  · rename_i heq
    rw [heq] at hlookup
    exact ⟨rfl, hlookup⟩
  · rename_i receiverId s' heq
    rw [heq] at hlookup
    obtain ⟨hacks, hlast⟩ := noAck_appendToBatch ⟨item.wallTime, receiverId, item.pkt⟩ insert
      (sendHeartbeat receiverId item.host loopTime now heartbeat s')
    rw [lastAckSent_sendHeartbeat] at hlast
    exact ⟨hacks, hlast.trans hlookup⟩

/-- Only a valid datagram causes an ACK. -/
theorem step_invalid (config : IngestConfig) {e : IngestEvent} (h : e.valid = none) (s : Ingest) :
    NoAck s (s.step config e) := by
  -- only a datagram that parses can be acknowledged
  cases e with
  | datagram data addr wallTime loopTime =>
    unfold IngestEvent.valid at h
    show NoAck s (datagramReceived config data addr wallTime loopTime s)
    unfold datagramReceived
    cases hparse : parsePacket data with
    | error failure => exact ⟨rfl, rfl⟩
    | ok pkt =>
      simp only [hparse] at h
      cases h
  | dequeue loopTime now lookup heartbeat insert =>
    unfold step
    dsimp only
    split
    · exact noAck_writePacket _ _ _ _ _ _ _
    · exact ⟨rfl, rfl⟩
  | timeout insert =>
    unfold step
    dsimp only
    split <;> exact ⟨rfl, rfl⟩
  | cancel insert =>
    unfold step
    dsimp only
    split
    · split <;> exact ⟨rfl, rfl⟩
    · exact ⟨rfl, rfl⟩

/-- An ACK that is due is sent and recorded. -/
private theorem maybeSendAck_of_due {addr : Addr} {now : LoopTime} {s : Ingest}
    (h : Due config.ackInterval (s.lastAck addr) now) : maybeSendAck config addr now s =
      ([addr], { s with lastAckSent := s.lastAckSent.set addr now }) := by
  unfold lastAck at h
  unfold maybeSendAck
  split
  · rename_i last hlast
    rw [if_neg (Int.not_lt.mpr (h last hlast))]
  · rfl

/-- One that is not due is neither sent nor recorded. -/
private theorem maybeSendAck_of_not_due {addr : Addr} {now : LoopTime} {s : Ingest}
    (h : ¬Due config.ackInterval (s.lastAck addr) now) :
    maybeSendAck config addr now s = ([], s) := by
  obtain ⟨last, hlast, hrecent⟩ := recent_of_not_due h
  unfold lastAck at hlast
  unfold maybeSendAck
  rw [hlast]
  exact if_pos hrecent

/-- A valid datagram is answered, and the ACK recorded, exactly when one is due. -/
theorem step_valid (config : IngestConfig) {e : IngestEvent} {sender : Addr} {now : LoopTime}
    (h : e.valid = some (sender, now)) (s : Ingest) :
    (Due config.ackInterval (s.lastAck sender) now ∧ (s.step config e).1.acks = [sender] ∧
      ∀ addr, (s.step config e).2.lastAck addr =
        if sender = addr then some now else s.lastAck addr) ∨
    (¬Due config.ackInterval (s.lastAck sender) now ∧ NoAck s (s.step config e)) := by
  -- the datagram of a valid packet; no other event is valid
  cases e with
  | datagram data addr wallTime loopTime =>
    unfold IngestEvent.valid at h
    cases hparse : parsePacket data with
    | error failure =>
      simp only [hparse] at h
      cases h
    | ok pkt =>
      simp only [hparse, Option.some_inj, Prod.mk.injEq] at h
      obtain ⟨rfl, rfl⟩ := h
      have hstep : s.step config (.datagram data addr wallTime loopTime) =
          (⟨(maybeSendAck config addr loopTime s).1, []⟩,
            putNowait ⟨wallTime, addr.host, pkt⟩ (maybeSendAck config addr loopTime s).2) := by
        simp only [step, datagramReceived, hparse]
      by_cases hdue : Due config.ackInterval (s.lastAck addr) loopTime
      · rw [hstep, maybeSendAck_of_due hdue]
        refine .inl ⟨hdue, rfl, fun addr' => ?_⟩
        unfold lastAck
        rw [lastAckSent_putNowait]
        exact Dict.get?_set _ _ _ _
      · rw [hstep, maybeSendAck_of_not_due hdue]
        exact .inr ⟨hdue, rfl, lastAckSent_putNowait _ s⟩
  | dequeue loopTime now lookup heartbeat insert => cases h
  | timeout insert => cases h
  | cancel insert => cases h

end Ingest

/-! ## A run -/

/-- What has been answered, newest first. -/
abbrev IngestLog := List (IngestEvent × IngestResponse)

/-- The time of the valid datagram from an address that an entry of the log is. -/
def validTime (addr : Addr) (p : IngestEvent × IngestResponse) : Option LoopTime :=
  match p.1.valid with
  | some (sender, t) => if sender = addr then some t else none
  | none => none

/-- The times of the valid datagrams from an address. -/
def validTimes (addr : Addr) (log : IngestLog) : List LoopTime := log.filterMap (validTime addr)

/-- The times of the ACKs to an address. -/
def ackTimes (addr : Addr) (log : IngestLog) : List LoopTime :=
  log.flatMap fun p => (p.2.acks.filter (· = addr)).filterMap fun _ => p.1.received

/-- The loop time has not gone back since an earlier datagram. -/
def InOrder (c : Config Ingest IngestEvent IngestResponse) (e : IngestEvent) : Prop :=
  ∀ now ∈ e.received, ∀ t ∈ c.log.filterMap (·.1.received), t ≤ now

section Cons

variable {e : IngestEvent} {r : IngestResponse} {log : IngestLog} {addr sender : Addr}
  {t : LoopTime}

/-- Any other event adds no time. -/
private theorem validTimes_cons_none (h : e.valid = none) :
    validTimes addr ((e, r) :: log) = validTimes addr log :=
  List.filterMap_cons_none (by simp only [validTime, h])

/-- A valid datagram adds its time to its own address. -/
private theorem validTimes_cons_some (h : e.valid = some (sender, t)) :
    validTimes addr ((e, r) :: log) =
      if sender = addr then t :: validTimes addr log else validTimes addr log := by
  by_cases hsender : sender = addr
  · rw [if_pos hsender]
    exact List.filterMap_cons_some (by simp only [validTime, h, if_pos hsender])
  · rw [if_neg hsender]
    exact List.filterMap_cons_none (by simp only [validTime, h, if_neg hsender])

/-- An event without an ACK adds no time. -/
private theorem ackTimes_cons_quiet (h : r.acks = []) :
    ackTimes addr ((e, r) :: log) = ackTimes addr log := by
  simp only [ackTimes, List.flatMap_cons, h]
  rfl

/-- An ACK adds the time of its datagram to its own address. -/
private theorem ackTimes_cons_ack (hacks : r.acks = [sender]) (he : e.received = some t) :
    ackTimes addr ((e, r) :: log) =
      if sender = addr then t :: ackTimes addr log else ackTimes addr log := by
  simp only [ackTimes, List.flatMap_cons, hacks, he]
  by_cases hsender : sender = addr
  · simp [hsender]
  · simp [hsender]

end Cons

/-- The ACKs to an address are those of a throttle, which has the last of them recorded. -/
def Throttles (config : IngestConfig) (c : Config Ingest IngestEvent IngestResponse) : Prop :=
  ∀ addr, ackTimes addr c.log = admitted config.ackInterval (validTimes addr c.log) ∧
    c.state.lastAck addr = (ackTimes addr c.log).head?

variable {config : IngestConfig} {c : Config Ingest IngestEvent IngestResponse}

/-- One step, by cases on whether the event is a valid datagram of the address. -/
theorem Throttles.answer (h : Throttles config c) (e : IngestEvent) :
    Throttles config ((ingestMachine config).answer c e) := by
  intro addr
  obtain ⟨hacks, hlast⟩ := h addr
  show ackTimes addr ((e, (c.state.step config e).1) :: c.log) =
      admitted config.ackInterval (validTimes addr ((e, (c.state.step config e).1) :: c.log)) ∧
    (c.state.step config e).2.lastAck addr =
      (ackTimes addr ((e, (c.state.step config e).1) :: c.log)).head?
  have hquiet : ∀ {r}, Ingest.NoAck c.state r → r.2.lastAck addr = c.state.lastAck addr := by
    intro r hr
    unfold Ingest.lastAck
    rw [hr.2]
  -- an event without a valid packet leaves the log of acknowledgements alone
  cases he : e.valid with
  | none =>
    have hno := Ingest.step_invalid config he c.state
    rw [ackTimes_cons_quiet hno.1, validTimes_cons_none he, hquiet hno]
    exact ⟨hacks, hlast⟩
  | some v =>
    obtain ⟨sender, now⟩ := v
    rw [validTimes_cons_some he]
    by_cases hsender : sender = addr
    · -- the throttle decides as the code does
      subst hsender
      rw [if_pos rfl, admitted, ← hacks, ← hlast]
      rcases Ingest.step_valid config he c.state with ⟨hdue, hack, hrecord⟩ | ⟨hdue, hno⟩
      · rw [ackTimes_cons_ack hack (IngestEvent.received_of_valid he), if_pos rfl, if_pos hdue,
          hrecord, if_pos rfl]
        exact ⟨rfl, rfl⟩
      · rw [ackTimes_cons_quiet hno.1, if_neg hdue, hquiet hno]
        exact ⟨rfl, hlast⟩
    -- the acknowledgement of one sender says nothing about another
    · rw [if_neg hsender]
      rcases Ingest.step_valid config he c.state with ⟨-, hack, hrecord⟩ | ⟨-, hno⟩
      · rw [ackTimes_cons_ack hack (IngestEvent.received_of_valid he), if_neg hsender, hrecord,
          if_neg hsender]
        exact ⟨hacks, hlast⟩
      · rw [ackTimes_cons_quiet hno.1, hquiet hno]
        exact ⟨hacks, hlast⟩

/-- The ACKs to an address are those of a throttle that sees its valid datagrams. -/
theorem acks_of_run {ok : Config Ingest IngestEvent IngestResponse → IngestEvent → Prop}
    {db : IngestDb} (hrun : (ingestMachine config).Run ok ⟨[], .start db⟩ c) (addr : Addr) :
    ackTimes addr c.log = admitted config.ackInterval (validTimes addr c.log) :=
  (hrun.invariant (I := Throttles config) (fun _ => ⟨rfl, rfl⟩)
    (fun _ e h _ => h.answer e) addr).1

/-! ## The rate law -/

/-- An ACK answers a valid datagram of its address. -/
def Silent (log : IngestLog) : Prop :=
  ∀ p ∈ log, p.2.acks ≠ [] → ∃ addr t, p.1.valid = some (addr, t) ∧ p.2.acks = [addr]

/-- A valid datagram is answered, or follows an ACK to its address by less than the interval. -/
def Answered (interval : Int) (log : IngestLog) : Prop :=
  ∀ later p earlier, log = later ++ p :: earlier → ∀ addr t, p.1.valid = some (addr, t) →
    p.2.acks = [addr] ∨ ∃ t' ∈ ackTimes addr earlier, t' ≤ t ∧ t - t' < interval

/-- Two ACKs to an address are an interval apart. -/
def Spaced (interval : Int) (log : IngestLog) : Prop :=
  ∀ addr, (ackTimes addr log).Pairwise fun later earlier => interval ≤ later - earlier

/-- The valid datagrams of an address are some of all datagrams. -/
private theorem validTimes_sublist (addr : Addr) (log : IngestLog) :
    (validTimes addr log).Sublist (log.filterMap (·.1.received)) := by
  -- each entry adds at most the time of the packet it received
  induction log with
  | nil => exact .slnil
  | cons p log ih =>
    obtain ⟨e, r⟩ := p
    cases he : e.valid with
    | none =>
      rw [validTimes_cons_none he, List.filterMap_cons]
      split
      · exact ih
      · exact ih.cons _
    | some v =>
      obtain ⟨sender, t⟩ := v
      have hcons : ((e, r) :: log).filterMap (·.1.received) = t :: log.filterMap (·.1.received) :=
        List.filterMap_cons_some (IngestEvent.received_of_valid he)
      rw [validTimes_cons_some he, hcons]
      split
      · exact ih.cons_cons t
      · exact ih.cons t

/-- The datagrams came in the order of their times. -/
def Sorted (log : IngestLog) : Prop := (log.filterMap (·.1.received)).Pairwise (· ≥ ·)

/-- A datagram that comes in order keeps the log sorted. -/
theorem Sorted.answer (h : Sorted c.log) {e : IngestEvent} (horder : InOrder c e) :
    Sorted ((ingestMachine config).answer c e).log := by
  show (((e, (c.state.step config e).1) :: c.log).filterMap (·.1.received)).Pairwise (· ≥ ·)
  rw [List.filterMap_cons]
  split
  · exact h
  · rename_i now hnow
    exact List.pairwise_cons.mpr ⟨horder now hnow, h⟩

/-- No event but a valid datagram sends an ACK. -/
theorem Silent.answer (h : Silent c.log) (e : IngestEvent) :
    Silent ((ingestMachine config).answer c e).log := by
  refine List.forall_mem_cons.mpr ⟨fun hacks => ?_, h⟩
  change (c.state.step config e).1.acks ≠ [] at hacks
  show ∃ addr t, e.valid = some (addr, t) ∧ (c.state.step config e).1.acks = [addr]
  cases he : e.valid with
  | none => exact absurd (Ingest.step_invalid config he c.state).1 hacks
  | some v =>
    rcases Ingest.step_valid config he c.state with ⟨-, hack, -⟩ | ⟨-, hno⟩
    · exact ⟨v.1, v.2, rfl, hack⟩
    · exact absurd hno.1 hacks

/-- A datagram that a throttle does not answer comes too soon after another. -/
theorem Answered.answer (h : Answered config.ackInterval c.log) (hthrottles : Throttles config c)
    {e : IngestEvent} (hsorted : Sorted ((ingestMachine config).answer c e).log) :
    Answered config.ackInterval ((ingestMachine config).answer c e).log := by
  intro later p earlier hlog addr t hvalid
  change (e, (c.state.step config e).1) :: c.log = later ++ p :: earlier at hlog
  cases later with
  | cons p' later => exact h later p earlier (List.cons.inj hlog).2 addr t hvalid
  | nil =>
    obtain ⟨rfl, rfl⟩ := List.cons.inj hlog
    rcases Ingest.step_valid config hvalid c.state with ⟨-, hack, -⟩ | ⟨hdue, -⟩
    · exact .inl hack
    · right
      obtain ⟨hacks, hlast⟩ := hthrottles addr
      have htimes := hsorted.sublist (validTimes_sublist addr _)
      change (validTimes addr ((e, (c.state.step config e).1) :: c.log)).Pairwise (· ≥ ·) at htimes
      rw [validTimes_cons_some hvalid, if_pos rfl] at htimes
      rw [hlast, hacks] at hdue
      rw [hacks]
      exact admitted_recent htimes hdue

/-- In a run in order ACKs to an address are an interval apart, a valid datagram is answered or
    follows an ACK to its address by less, and nothing else is answered.  The ACKs to an address
    are the same in every run in which its valid datagrams come at the same times. -/
theorem throttled_of_run {db : IngestDb}
    (hrun : (ingestMachine config).Run InOrder ⟨[], .start db⟩ c) :
    Spaced config.ackInterval c.log ∧ Answered config.ackInterval c.log ∧ Silent c.log ∧
      ∀ {db' : IngestDb} {c' : Config Ingest IngestEvent IngestResponse},
        (ingestMachine config).Run (fun _ _ => True) ⟨[], .start db'⟩ c' →
        ∀ addr, validTimes addr c'.log = validTimes addr c.log →
          ackTimes addr c'.log = ackTimes addr c.log := by
  have hinv : Sorted c.log ∧ Throttles config c ∧ Answered config.ackInterval c.log ∧
      Silent c.log := by
    refine hrun.invariant (I := fun c => Sorted c.log ∧ Throttles config c ∧
      Answered config.ackInterval c.log ∧ Silent c.log) ?_ ?_
    · exact ⟨.nil, fun _ => ⟨rfl, rfl⟩, fun later _ _ h => absurd h (by simp),
        fun _ hp => absurd hp List.not_mem_nil⟩
    · rintro c e ⟨hsorted, hthrottles, hanswered, hsilent⟩ horder
      have hsorted' : Sorted ((ingestMachine config).answer c e).log := hsorted.answer horder
      exact ⟨hsorted', hthrottles.answer e, hanswered.answer hthrottles hsorted', hsilent.answer e⟩
  obtain ⟨hsorted, -, hanswered, hsilent⟩ := hinv
  refine ⟨fun addr => ?_, hanswered, hsilent, fun hrun' addr hsame => ?_⟩
  · rw [acks_of_run hrun addr]
    exact admitted_pairwise (hsorted.sublist (validTimes_sublist addr c.log))
  · rw [acks_of_run hrun addr, acks_of_run hrun' addr, hsame]

/-- Two valid datagrams a second apart, with other traffic between them. -/
def secondApart : List IngestEvent :=
  [.datagram (bareDatagram 97 6) ⟨"10.0.0.1", 5005⟩ 0 0, .datagram [] ⟨"10.0.0.2", 5005⟩ 1 500000,
    pull, .datagram (bareDatagram 97 6) ⟨"10.0.0.1", 5005⟩ 2 1000000]

/-- The datagrams of the first address alone. -/
def secondApartAlone : List IngestEvent :=
  [.datagram (bareDatagram 97 6) ⟨"10.0.0.1", 5005⟩ 7 0,
    .datagram (bareDatagram 97 6) ⟨"10.0.0.1", 5005⟩ 8 1000000]

/-- The ACKs to an address do not depend on the other traffic. -/
theorem throttled_of_run_secondApart :
    ackTimes ⟨"10.0.0.1", 5005⟩
        ((ingestMachine plainConfig).replay ⟨[], .start .empty⟩ secondApart).log =
      ackTimes ⟨"10.0.0.1", 5005⟩
        ((ingestMachine plainConfig).replay ⟨[], .start .empty⟩ secondApartAlone).log := by
  have halone : (ingestMachine plainConfig).Admits InOrder ⟨[], .start .empty⟩
      secondApartAlone := by
    refine ⟨fun now hnow => ?_, fun now hnow => ?_, trivial⟩
    · cases hnow
      decide
    · cases hnow
      decide
  have hall : (ingestMachine plainConfig).Admits (fun _ _ => True) ⟨[], .start .empty⟩
      secondApart := ⟨trivial, trivial, trivial, trivial, trivial⟩
  exact (throttled_of_run (Machine.run_of_admits halone)).2.2.2 (Machine.run_of_admits hall)
    ⟨"10.0.0.1", 5005⟩ (by decide)

end Grimnir.Geri
