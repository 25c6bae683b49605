import Grimnir.Native.AckLoop
import Grimnir.Spec.AckThrottle
import Grimnir.Spec.WatchdogHistory

/-!
# No spurious resets

While packets and ACKs arrive in time, the ACK watchdog of Muninn never resets the transport,
whatever the pattern of CSI.  The timeout runs from the latest ACK, or from the first CSI
when there was none.  CSI that is newer than the throttle allows for has an answer under way,
and CSI that is too old has been noticed by a poll.

## Key results

- `receive_cases`: Geri answers a packet unless it has just answered one
- `Calm.poll`: a poll of a calm system resets nothing
- `Calm.step`: every timely event keeps the system calm
- `calm_of_run`: no run resets the transport
-/

namespace Grimnir

open Muninn (Watchdog WatchdogConfig WatchdogEvent WifiCsiInfo)
open Geri (Ingest IngestConfig IngestEvent)

/-! ## Assumptions -/

/-- How the durations are related. -/
structure AckLoopConfig.Timing (config : AckLoopConfig) : Prop where
  ackInterval : (0 : Int) ≤ config.ingest.ackInterval
  delay : 0 ≤ config.delay
  csiGrace : 0 ≤ config.watchdog.csiGraceUs
  pollInterval : 0 ≤ config.pollInterval
  ackTimeout : 2 * config.delay + config.ingest.ackInterval + config.watchdog.csiGraceUs +
    config.pollInterval < config.watchdog.ackTimeoutUs

/-- Nothing the watchdog reacts to. -/
def Muninn.WatchdogEvent.inert (config : WatchdogConfig) : WatchdogEvent → Prop
  | .wifi e => e ≠ .staDisconnected
  | .csi info => Muninn.matchesHuginn config info = false
  | .received payload => Muninn.validAck payload = false
  | .sendFailed _ => False
  | .poll => False

/-- A datagram of another sender, or an event of `batch_writer`. -/
def Geri.IngestEvent.elsewhere (addr : Geri.Addr) : IngestEvent → Prop
  | .datagram _ sender _ _ => sender ≠ addr
  | _ => True

/-- The event comes before every deadline. -/
structure Timely (config : AckLoopConfig)
    (c : Config AckLoop TimedLoopEvent Muninn.ResetReason) (e : TimedLoopEvent) : Prop where
  clock : c.state.clock ≤ e.now
  packets : ∀ p ∈ c.state.packets, e.now ≤ p.sentAt + config.delay
  acks : ∀ sentAt ∈ c.state.acks, e.now ≤ sentAt + config.delay
  poll : e.now ≤ c.state.lastPoll + config.pollInterval
  /-- Geri accepts the packets of Muninn. -/
  accepted : ∀ info datagram, e.event = .csi info datagram →
    Muninn.matchesHuginn config.watchdog info = true →
      ∃ pkt, Geri.parsePacket datagram = .ok pkt
  /-- Wi-Fi stays connected, sends succeed, and only Geri sends ACKs. -/
  muninn : ∀ event, e.event = .muninn event → event.inert config.watchdog
  geri : ∀ event, e.event = .geri event → event.elsewhere config.addr

/-! ## Geri -/

/-- A datagram from elsewhere has another sender. -/
private theorem Geri.IngestEvent.elsewhere.sender_ne {addr : Geri.Addr} {event : IngestEvent}
    (h : event.elsewhere addr) {v : Geri.Addr × Geri.LoopTime} (hvalid : event.valid = some v) :
    v.1 ≠ addr := by
  unfold valid at hvalid
  split at hvalid
  · split at hvalid
    · cases hvalid
      exact h
    · cases hvalid
  · cases hvalid

/-- What happens elsewhere at Geri does not count for Muninn. -/
private theorem Geri.Ingest.lastAck_elsewhere (config : IngestConfig) {addr : Geri.Addr}
    {event : IngestEvent} (h : event.elsewhere addr) (s : Ingest) :
    (s.step config event).2.lastAck addr = s.lastAck addr := by
  have hquiet : ∀ {r}, NoAck s r → r.2.lastAck addr = s.lastAck addr := by
    intro r hr
    unfold lastAck
    rw [hr.2]
  cases hvalid : event.valid with
  | none => exact hquiet (step_invalid config hvalid s)
  | some v =>
    rcases step_valid config hvalid s with ⟨-, -, hrecord⟩ | ⟨-, hno⟩
    · rw [hrecord, if_neg (h.sender_ne hvalid)]
    · exact hquiet hno

namespace AckLoop

variable {config : AckLoopConfig} {s : AckLoop}

/-- Geri answers a packet unless it has just answered one. -/
theorem receive_cases (config : AckLoopConfig) (s : AckLoop) {packet : SentPacket}
    (wallTime : Timestamp) (now : Int)
    (haccepted : ∃ pkt, Geri.parsePacket packet.datagram = .ok pkt) :
    ∃ geri, (s.receive config packet wallTime now = { s with
          geri := geri, acks := s.acks ++ [now] } ∧
        geri.lastAck config.addr = some (now + config.offset)) ∨
      (s.receive config packet wallTime now = { s with geri := geri } ∧
        ∃ last, geri.lastAck config.addr = some last ∧ s.geri.lastAck config.addr = some last ∧
          now + config.offset - last < config.ingest.ackInterval) := by
  obtain ⟨pkt, hpkt⟩ := haccepted
  -- the datagram is parsed, so Geri takes it for a valid one
  have hvalid : (IngestEvent.datagram packet.datagram config.addr wallTime
      (now + config.offset)).valid = some (config.addr, now + config.offset) := by
    simp only [Geri.IngestEvent.valid, hpkt]
  -- a valid datagram is answered when an ACK is due, and then the ACK is recorded
  have hstep := Geri.Ingest.step_valid config.ingest hvalid s.geri
  obtain ⟨r, hr⟩ : ∃ r, s.geri.step config.ingest (.datagram packet.datagram config.addr wallTime
      (now + config.offset)) = r := ⟨_, rfl⟩
  have hreceive : s.receive config packet wallTime now = { s with
      geri := r.2, acks := s.acks ++ (r.1.acks.filter (· == config.addr)).map fun _ => now } := by
    rw [← hr]
    rfl
  rw [hr] at hstep
  refine ⟨r.2, ?_⟩
  rw [hreceive]
  -- it is answered now, or it was recently enough
  rcases hstep with ⟨-, hack, hrecord⟩ | ⟨hdue, hacks, hsame⟩
  · refine .inl ⟨by simp [hack], ?_⟩
    rw [hrecord, if_pos rfl]
  -- without an ACK the last one is within the interval
  · obtain ⟨last, hlast, hrecent⟩ := Throttle.recent_of_not_due hdue
    refine .inr ⟨by simp [hacks], last, ?_, hlast, hrecent⟩
    rw [← hlast]
    unfold Geri.Ingest.lastAck
    rw [hsame]

end AckLoop

/-! ## What the timeout runs from -/

/-- The time from which the watchdog counts. -/
def Muninn.Watchdog.base (s : Watchdog) : Option Int :=
  if s.ackWatchdogArmed then some s.lastAckUs
  else if s.firstUnackedCsiUs ≠ 0 then some s.firstUnackedCsiUs
  else none

namespace Muninn.Watchdog

variable {config : WatchdogConfig} {s : Watchdog} {now : Int}

/-- A valid ACK is the time from which the watchdog counts. -/
theorem base_udpAckTask (s : Watchdog) (now : Int) {payload : List UInt8}
    (h : validAck payload = true) :
    (s.udpAckTask payload now).base = some now := by
  simp [udpAckTask, h, base]

/-- CSI sets that time only where there is none. -/
theorem base_csiCallback (s : Watchdog) {info : WifiCsiInfo}
    (h : matchesHuginn config info = true) (hnow : now ≠ 0) :
    (s.csiCallback config info now).base = some (s.base.getD now) := by
  simp only [csiCallback, h, if_true, base]
  cases s.ackWatchdogArmed with
  | true => simp
  | false =>
    by_cases hfirst : s.firstUnackedCsiUs = 0
    · simp [hfirst, hnow]
    · simp [hfirst]

/-- A poll that resets is late with respect to the base. -/
theorem base_of_reset (h : (s.receiverWatchdogTask config now).1.isSome)
    (hpos : ∀ b, s.base = some b → 0 < b) :
    now - s.lastCsiUs ≤ config.csiGraceUs ∧
      ∃ b, s.base = some b ∧ config.ackTimeoutUs < now - b := by
  obtain ⟨-, ⟨-, hgrace⟩, hlate⟩ := poll_isSome_iff.mp h
  refine ⟨hgrace, ?_⟩
  unfold base at hpos ⊢
  rcases hlate with ⟨harmed, hlate⟩ | ⟨harmed, hne, hlate⟩
  · simp only [harmed, if_true] at hpos ⊢
    have := hpos s.lastAckUs rfl
    exact ⟨_, rfl, by omega⟩
  · simp only [harmed, Bool.false_eq_true, if_false, ne_eq, hne, not_false_eq_true, if_true]
    exact ⟨_, rfl, hlate⟩

/-- An inert event. -/
theorem step_inert (now : Int) {e : WatchdogEvent} (h : e.inert config)
    (hconn : s.wifi.connectedBit = true) :
    (s.step config ⟨now, e⟩).1 = none ∧ (s.step config ⟨now, e⟩).2.base = s.base ∧
      (s.step config ⟨now, e⟩).2.lastCsiUs = s.lastCsiUs ∧
      (s.step config ⟨now, e⟩).2.wifi.connectedBit = true := by
  cases e with
  | wifi e =>
    cases e with
    | staStart => exact ⟨rfl, rfl, rfl, hconn⟩
    | staDisconnected => exact absurd rfl h
    | gotIp => exact ⟨rfl, rfl, rfl, rfl⟩
  | csi info =>
    have hmatch : matchesHuginn config info = false := h
    simp [step, csiCallback, hmatch, hconn]
  | received payload =>
    have hvalid : validAck payload = false := h
    simp [step, udpAckTask, hvalid, hconn]
  | sendFailed errno => cases h
  | poll => cases h

end Muninn.Watchdog

/-! ## Calm -/

variable {config : AckLoopConfig} {s : AckLoop}

/-- The latest time of a CSI that no poll has missed, counted from `b`. -/
def AckLoopConfig.horizon (config : AckLoopConfig) (b : Int) : Int :=
  b + config.ingest.ackInterval + config.watchdog.csiGraceUs + config.pollInterval

/-- All CSI is recent with respect to `b`, or an answer is under way. -/
def AckLoop.Answered (config : AckLoopConfig) (s : AckLoop) (b : Int) : Prop :=
  s.muninn.lastCsiUs ≤ b + config.ingest.ackInterval ∨
    (∃ p ∈ s.packets, b + config.ingest.ackInterval < p.sentAt ∧
      p.sentAt ≤ config.horizon b) ∨
    ∃ sentAt ∈ s.acks, sentAt ≤ config.horizon b + config.delay

/-- What the clock has passed. -/
structure AckLoop.Past (config : AckLoopConfig) (s : AckLoop) : Prop where
  clock : 0 < s.clock
  csi : s.muninn.lastCsiUs ≤ s.clock
  poll : s.lastPoll ≤ s.clock
  base : ∀ b, s.muninn.base = some b → 0 < b ∧ b ≤ s.clock
  packets : ∀ p ∈ s.packets, p.sentAt ≤ s.clock
  acks : ∀ sentAt ∈ s.acks, sentAt ≤ s.clock
  geri : ∀ last, s.geri.lastAck config.addr = some last → last ≤ s.clock + config.offset

/-- The watchdog has no reason to reset, and will not get one. -/
structure AckLoop.Calm (config : AckLoopConfig) (s : AckLoop) : Prop where
  past : s.Past config
  connected : s.muninn.wifi.connectedBit = true
  accepted : ∀ p ∈ s.packets, ∃ pkt, Geri.parsePacket p.datagram = .ok pkt
  /-- Every packet and every ACK goes back to a CSI. -/
  seen : (∃ b, s.muninn.base = some b) ∨ s.packets ≠ [] ∨ s.acks ≠ [] →
    s.muninn.lastCsiUs ≠ 0
  /-- The last ACK of Geri is under way, or the timeout runs from later. -/
  throttled : ∀ last, s.geri.lastAck config.addr = some last →
    last - config.offset ∈ s.acks ∨ ∀ b, s.muninn.base = some b → last - config.offset ≤ b
  answered : ∀ b, s.muninn.base = some b → s.Answered config b
  /-- The last poll saw a recent CSI, or the timeout runs from later. -/
  polled : ∀ b, s.muninn.base = some b →
    s.lastPoll ≤ s.muninn.lastCsiUs + config.watchdog.csiGraceUs ∨ s.lastPoll ≤ b

namespace AckLoop

variable {now : Int}

/-- Time goes on. -/
theorem Past.advance (h : s.Past config) (hnow : s.clock ≤ now) :
    Past config { s with clock := now } where
  clock := Int.lt_of_lt_of_le h.clock hnow
  csi := Int.le_trans h.csi hnow
  poll := Int.le_trans h.poll hnow
  base b hb := ⟨(h.base b hb).1, Int.le_trans (h.base b hb).2 hnow⟩
  packets p hp := Int.le_trans (h.packets p hp) hnow
  acks a ha := Int.le_trans (h.acks a ha) hnow
  geri last hlast := by
    have := h.geri last hlast
    show last ≤ now + config.offset
    omega

/-- Time passes. -/
theorem Calm.advance (h : s.Calm config) (hnow : s.clock ≤ now) :
    Calm config { s with clock := now } :=
  ⟨h.past.advance hnow, h.connected, h.accepted, h.seen, h.throttled, h.answered, h.polled⟩

/-- A CSI that is too late to count as recent has a packet under way. -/
private theorem Calm.answered_csi (h : s.Calm config) (ht : config.Timing) {muninn : Watchdog}
    (hcsi : muninn.lastCsiUs = s.clock) (datagram : List UInt8)
    (hpoll : s.clock ≤ s.lastPoll + config.pollInterval) :
    Answered config { s with
      muninn := muninn
      packets := s.packets ++ [⟨s.clock, datagram⟩] } (s.muninn.base.getD s.clock) := by
  have hinterval := ht.ackInterval
  have hgrace := ht.csiGrace
  unfold Answered
  rw [hcsi]
  -- the watchdog has nothing to count from, or it counts from `b`
  cases hold : s.muninn.base with
  | none =>
    left
    simp only [Option.getD_none]
    omega
  | some b =>
    simp only [Option.getD_some]
    by_cases hrecent : s.clock ≤ b + config.ingest.ackInterval
    · exact .inl hrecent
    · -- either this packet will be answered, or an older one
      right
      rcases h.answered b hold with hcsi' | ⟨p, hp, hsent⟩ | hack
      -- this packet is later than the interval after `b`, so it will be answered
      · refine .inl ⟨⟨s.clock, datagram⟩, by simp, by simpa using hrecent, ?_⟩
        have hpolled := h.polled b hold
        -- the next poll after `b` is not past
        unfold AckLoopConfig.horizon
        dsimp only
        omega
      · exact .inl ⟨p, List.mem_append_left _ hp, hsent⟩
      · exact .inr hack

/-- A packet that is sent is answered or still on its way. -/
theorem Past.sent (h : s.Past config) {muninn : Watchdog} (hcsi : muninn.lastCsiUs = s.clock)
    (hbase : muninn.base = some (s.muninn.base.getD s.clock)) (datagram : List UInt8) :
    Past config { s with
      muninn := muninn
      packets := s.packets ++ [⟨s.clock, datagram⟩] } := by
  constructor
  case clock => exact h.clock
  case csi => exact Int.le_of_eq hcsi
  case poll => exact h.poll
  -- the time counted from is the present or as before
  case base =>
    intro b hb
    rw [hbase] at hb
    cases hb
    cases hold : s.muninn.base with
    | none => exact ⟨h.clock, Int.le_refl _⟩
    | some b => exact h.base b hold
  case packets =>
    -- the packet that was sent is the newest
    intro p hp
    rcases List.mem_append.mp hp with hp | hp
    · exact h.packets p hp
    · obtain rfl := List.mem_singleton.mp hp
      exact Int.le_refl _
  case acks => exact h.acks
  case geri => exact h.geri

/-- A CSI of Huginn. -/
theorem Calm.csi (h : s.Calm config) (ht : config.Timing) {info : WifiCsiInfo}
    (hmatch : Muninn.matchesHuginn config.watchdog info = true) {datagram : List UInt8}
    (haccepted : ∃ pkt, Geri.parsePacket datagram = .ok pkt)
    (hpoll : s.clock ≤ s.lastPoll + config.pollInterval) :
    Calm config { s with
      muninn := s.muninn.csiCallback config.watchdog info s.clock
      packets := s.packets ++ [⟨s.clock, datagram⟩] } := by
  have hclock := h.past.clock
  -- the callback sets the time to count from only where there was none
  have hbase := Watchdog.base_csiCallback s.muninn hmatch (show s.clock ≠ 0 by omega)
  have hcsi : (s.muninn.csiCallback config.watchdog info s.clock).lastCsiUs = s.clock := by
    simp [Watchdog.csiCallback, hmatch]
  have hconn : (s.muninn.csiCallback config.watchdog info s.clock).wifi = s.muninn.wifi := by
    simp [Watchdog.csiCallback, hmatch]
  -- the fields of `Calm`; the packets are one more, and the CSI is of this moment
  constructor
  case past => exact h.past.sent hcsi hbase datagram
  case connected =>
    rw [hconn]
    exact h.connected
  case accepted =>
    intro p hp
    rcases List.mem_append.mp hp with hp | hp
    · exact h.accepted p hp
    · rw [List.mem_singleton.mp hp]
      exact haccepted
  case seen =>
    intro _
    rw [hcsi]
    omega
  case throttled =>
    intro last hlast
    -- the ACK that throttles is still under way, or not later than the time counted from
    rcases h.throttled last hlast with hflight | hle
    · exact .inl hflight
    · refine .inr fun b hb => ?_
      rw [hbase] at hb
      cases hb
      -- a time that is set now is not earlier than any ACK
      cases hold : s.muninn.base with
      | none =>
        have := h.past.geri last hlast
        simp only [Option.getD_none]
        omega
      | some b => exact hle b hold
  case answered =>
    intro b hb
    rw [hbase] at hb
    cases hb
    exact h.answered_csi ht hcsi datagram hpoll
  case polled =>
    intro b hb
    rw [hbase] at hb
    cases hb
    have hpast := h.past.csi
    rw [hcsi]
    cases hold : s.muninn.base with
    | none => exact .inr h.past.poll
    | some b =>
      -- a poll that saw a recent CSI was not later than this one
      rcases h.polled b hold with hle | hle
      · left
        dsimp only
        omega
      · exact .inr hle

/-- A packet of Muninn reaches Geri. -/
theorem Calm.receive (h : s.Calm config) {packet : SentPacket} {i : Nat}
    (hpacket : s.packets[i]? = some packet)
    (hpackets : ∀ p ∈ s.packets, s.clock ≤ p.sentAt + config.delay) (wallTime : Timestamp) :
    Calm config ({ s with packets := s.packets.eraseIdx i }.receive config packet wallTime
      s.clock) := by
  have hmem : packet ∈ s.packets := List.mem_of_getElem? hpacket
  have hseen : s.muninn.lastCsiUs ≠ 0 :=
    h.seen (.inr (.inl (List.ne_nil_of_mem hmem)))
  -- a packet less leaves the past as it was
  have hpast : Past config { s with packets := s.packets.eraseIdx i } :=
    ⟨h.past.clock, h.past.csi, h.past.poll, h.past.base,
      fun p hp => h.past.packets p (List.mem_of_mem_eraseIdx hp), h.past.acks, h.past.geri⟩
  have haccepted : ∀ p ∈ s.packets.eraseIdx i,
      ∃ pkt, Geri.parsePacket p.datagram = .ok pkt :=
    fun p hp => h.accepted p (List.mem_of_mem_eraseIdx hp)
  -- Geri answers the packet, or has answered another one within the interval
  obtain ⟨geri, ⟨hs, hlast⟩ | ⟨hs, last, hlast, hlast', hsoon⟩⟩ :=
    receive_cases config { s with packets := s.packets.eraseIdx i } wallTime s.clock
      (h.accepted packet hmem)
  · -- the answer is under way
    rw [hs]
    constructor
    case past =>
      refine ⟨hpast.clock, hpast.csi, hpast.poll, hpast.base, hpast.packets, ?_, ?_⟩
      · intro a ha
        rcases List.mem_append.mp ha with ha | ha
        · exact h.past.acks a ha
        · exact Int.le_of_eq (List.mem_singleton.mp ha)
      · intro last heq
        rw [hlast] at heq
        cases heq
        exact Int.le_refl _
    case connected => exact h.connected
    case accepted => exact haccepted
    case seen => exact fun _ => hseen
    -- the recorded ACK is the one under way
    case throttled =>
      intro last heq
      rw [hlast] at heq
      cases heq
      refine .inl (List.mem_append_right _ (List.mem_singleton.mpr ?_))
      omega
    case answered =>
      intro b hb
      -- the CSI is recent, or its packet is answered by this ACK at the latest
      rcases h.answered b hb with hcsi | ⟨p, hp, -, hsent⟩ | ⟨a, ha, hle⟩
      · exact .inl hcsi
      · have := hpackets p hp
        refine .inr (.inr ⟨s.clock, by simp, ?_⟩)
        omega
      · exact .inr (.inr ⟨a, List.mem_append_left _ ha, hle⟩)
    case polled => exact h.polled
  -- the packet is not answered, and no ACK is added
  · rw [hs]
    constructor
    case past =>
      refine ⟨hpast.clock, hpast.csi, hpast.poll, hpast.base, hpast.packets, hpast.acks, ?_⟩
      intro last' heq
      rw [hlast] at heq
      cases heq
      exact h.past.geri last hlast'
    case connected => exact h.connected
    case accepted => exact haccepted
    case seen => exact fun _ => hseen
    case throttled =>
      intro last' heq
      rw [hlast] at heq
      cases heq
      exact h.throttled last hlast'
    case answered =>
      intro b hb
      rcases h.answered b hb with hcsi | ⟨p, hp, hnew, hsent⟩ | hack
      · exact .inl hcsi
      · -- the ACK that throttles this one answers every pending packet
        have := hpackets p hp
        have := h.past.packets p hp
        have := h.past.geri last hlast'
        rcases h.throttled last hlast' with hflight | hle
        · exact .inr (.inr ⟨_, hflight, by omega⟩)
        · have := hle b hb
          omega
      · exact .inr (.inr hack)
    case polled => exact h.polled

/-- An ACK reaches Muninn. -/
theorem Calm.ack (h : s.Calm config) (ht : config.Timing) {i : Nat} (hi : i < s.acks.length) :
    Calm config { s with
      muninn := s.muninn.udpAckTask Geri.ackPayload s.clock
      acks := s.acks.eraseIdx i } := by
  have hvalid : Muninn.validAck Geri.ackPayload = true := by decide
  -- an ACK sets the time to count from to the present
  have hbase := Watchdog.base_udpAckTask s.muninn s.clock hvalid
  have hsame : (s.muninn.udpAckTask Geri.ackPayload s.clock).lastCsiUs = s.muninn.lastCsiUs ∧
      (s.muninn.udpAckTask Geri.ackPayload s.clock).wifi = s.muninn.wifi := by
    simp [Watchdog.udpAckTask, hvalid]
  -- an ACK is under way, so there was CSI
  have hseen : s.muninn.lastCsiUs ≠ 0 := by
    refine h.seen (.inr (.inr fun hnil => ?_))
    simp [hnil] at hi
  have hcsi := h.past.csi
  have hinterval := ht.ackInterval
  -- the fields of `Calm`; whatever was counted from before is forgotten
  constructor
  case past =>
    refine ⟨h.past.clock, ?_, h.past.poll, ?_, h.past.packets, ?_, h.past.geri⟩
    · rw [hsame.1]
      exact hcsi
    · intro b hb
      rw [hbase] at hb
      cases hb
      exact ⟨h.past.clock, Int.le_refl _⟩
    · exact fun a ha => h.past.acks a (List.mem_of_mem_eraseIdx ha)
  case connected =>
    rw [hsame.2]
    exact h.connected
  case accepted => exact h.accepted
  case seen =>
    rw [hsame.1]
    exact fun _ => hseen
  case throttled =>
    -- no ACK is recorded later than the present
    intro last hlast
    have := h.past.geri last hlast
    refine .inr fun b hb => ?_
    rw [hbase] at hb
    cases hb
    omega
  case answered =>
    -- the timeout starts anew, later than all CSI
    intro b hb
    rw [hbase] at hb
    cases hb
    left
    rw [hsame.1]
    omega
  -- the last poll is in the past
  case polled =>
    intro b hb
    rw [hbase] at hb
    cases hb
    exact .inr h.past.poll

/-- A poll of a calm system resets nothing. -/
theorem Calm.poll (h : s.Calm config) (ht : config.Timing)
    (hpackets : ∀ p ∈ s.packets, s.clock ≤ p.sentAt + config.delay)
    (hacks : ∀ a ∈ s.acks, s.clock ≤ a + config.delay) :
    (s.muninn.receiverWatchdogTask config.watchdog s.clock).1 = none := by
  rw [← Option.not_isSome_iff_eq_none]
  intro hreset
  obtain ⟨hgrace, b, hb, hlate⟩ :=
    Watchdog.base_of_reset hreset fun b hb => (h.past.base b hb).1
  have hdelay := ht.delay
  have hinterval := ht.pollInterval
  have htimeout := ht.ackTimeout
  rcases h.answered b hb with hcsi | ⟨p, hp, -, hsent⟩ | ⟨a, ha, hsent⟩
  · omega
  · have := hpackets p hp
    unfold AckLoopConfig.horizon at hsent
    omega
  · have := hacks a ha
    unfold AckLoopConfig.horizon at hsent
    omega

/-- A poll keeps the system calm. -/
theorem Calm.polling (h : s.Calm config) :
    Calm config { s with
      muninn := (s.muninn.receiverWatchdogTask config.watchdog s.clock).2
      lastPoll := s.clock } := by
  -- a poll that does not reset either clears everything or finds recent CSI
  rcases Muninn.poll_state config.watchdog s.muninn s.clock with
    ⟨-, hstate⟩ | ⟨-, hfresh, hstate⟩
  · -- nothing to count from
    rw [hstate]
    refine ⟨⟨h.past.clock, h.past.csi, Int.le_refl _, ?_, h.past.packets, h.past.acks,
      h.past.geri⟩, h.connected, h.accepted, ?_, ?_, ?_, ?_⟩
    · exact fun _ hb => nomatch hb
    · rintro (⟨_, hb⟩ | hflight)
      · cases hb
      · exact h.seen (.inr hflight)
    · exact fun _ _ => .inr fun _ hb => nomatch hb
    · exact fun _ hb => nomatch hb
    · exact fun _ hb => nomatch hb
  -- a connected watchdog with CSI was not stale, so its CSI is recent
  · rw [hstate]
    refine ⟨⟨h.past.clock, h.past.csi, Int.le_refl _, h.past.base, h.past.packets, h.past.acks,
      h.past.geri⟩, h.connected, h.accepted, h.seen, h.throttled, h.answered, ?_⟩
    intro b hb
    have hne := h.seen (.inl ⟨b, hb⟩)
    have hconn := h.connected
    left
    unfold Watchdog.stale at hfresh
    dsimp only
    by_contra hgt
    exact hfresh ⟨hconn, hne, by omega⟩

/-- Something else happens at Muninn. -/
private theorem Calm.inert (h : s.Calm config) {event : WatchdogEvent}
    (hinert : event.inert config.watchdog) :
    (s.muninn.step config.watchdog ⟨s.clock, event⟩).1 = none ∧
      Calm config { s with muninn := (s.muninn.step config.watchdog ⟨s.clock, event⟩).2 } := by
  -- an inert event leaves the CSI, the time to count from and the connection
  obtain ⟨hquiet, hbase, hcsi, hconn⟩ :=
    Watchdog.step_inert s.clock hinert h.connected
  refine ⟨hquiet, ⟨h.past.clock, ?_, h.past.poll, ?_, h.past.packets, h.past.acks,
    h.past.geri⟩, hconn, h.accepted, ?_, ?_, ?_, ?_⟩
  · rw [hcsi]
    exact h.past.csi
  · rw [hbase]
    exact h.past.base
  · rw [hbase, hcsi]
    exact h.seen
  · rw [hbase]
    exact h.throttled
  · rw [hbase]
    intro b hb
    unfold Answered
    rw [hcsi]
    exact h.answered b hb
  · rw [hbase, hcsi]
    exact h.polled

/-- Something else happens at Geri. -/
private theorem Calm.elsewhere (h : s.Calm config) {event : IngestEvent}
    (helsewhere : event.elsewhere config.addr) :
    Calm config { s with geri := (s.geri.step config.ingest event).2 } := by
  have hlast := Geri.Ingest.lastAck_elsewhere config.ingest helsewhere s.geri
  refine ⟨⟨h.past.clock, h.past.csi, h.past.poll, h.past.base, h.past.packets, h.past.acks, ?_⟩,
    h.connected, h.accepted, h.seen, ?_, h.answered, h.polled⟩
  · rw [hlast]
    exact h.past.geri
  · rw [hlast]
    exact h.throttled

/-- A timely event resets nothing and keeps the system calm. -/
theorem Calm.step {c : Config AckLoop TimedLoopEvent Muninn.ResetReason}
    (h : c.state.Calm config) (ht : config.Timing) {e : TimedLoopEvent}
    (htimely : Timely config c e) :
    (c.state.step config e).1 = none ∧ (c.state.step config e).2.Calm config := by
  obtain ⟨now, event⟩ := e
  -- time goes on first, then the event happens
  have hcalm := h.advance htimely.clock
  -- one case for each event
  cases event with
  | csi info datagram =>
    unfold AckLoop.step
    dsimp only
    split
    · rename_i hmatch
      exact ⟨rfl, hcalm.csi ht hmatch (htimely.accepted info datagram rfl hmatch) htimely.poll⟩
    -- a frame of another sender is nothing to the watchdog
    · rename_i hmatch
      have hinert : (WatchdogEvent.csi info).inert config.watchdog :=
        Bool.eq_false_iff.mpr hmatch
      exact hcalm.inert hinert
  | deliver i wallTime =>
    unfold AckLoop.step
    dsimp only
    split
    · rename_i packet hpacket
      exact ⟨rfl, hcalm.receive hpacket htimely.packets wallTime⟩
    · exact ⟨rfl, hcalm⟩
  | ack i =>
    unfold AckLoop.step
    dsimp only
    split
    · rename_i hi
      exact ⟨rfl, hcalm.ack ht hi⟩
    · exact ⟨rfl, hcalm⟩
  | poll => exact ⟨hcalm.poll ht htimely.packets htimely.acks, hcalm.polling⟩
  | muninn event => exact hcalm.inert (htimely.muninn event rfl)
  -- a datagram from elsewhere leaves the ACKs to this board alone
  | geri event => exact ⟨rfl, hcalm.elsewhere (htimely.geri event rfl)⟩

/-- At the start no CSI waits for an answer. -/
private theorem calm_start {geri : Ingest} {now : Int} (hnow : 0 < now)
    (hgeri : ∀ last, geri.lastAck config.addr = some last → last ≤ now + config.offset) :
    (start geri now).Calm config where
  past := ⟨hnow, Int.le_of_lt hnow, Int.le_refl _, (fun _ hb => nomatch hb),
    (fun _ hp => nomatch hp), (fun _ ha => nomatch ha), hgeri⟩
  connected := rfl
  accepted _ hp := nomatch hp
  seen := by simp [start, Watchdog.boot, Watchdog.base]
  throttled _ _ := .inr fun _ hb => nomatch hb
  answered _ hb := nomatch hb
  polled _ hb := nomatch hb

end AckLoop

/-- No run with timely events resets the transport: Geri may have been running before Muninn
    starts. -/
theorem calm_of_run (config : AckLoopConfig) (ht : config.Timing) {geri : Ingest} {start : Int}
    (hstart : 0 < start)
    (hgeri : ∀ last, geri.lastAck config.addr = some last → last ≤ start + config.offset)
    {c : Config AckLoop TimedLoopEvent Muninn.ResetReason}
    (hrun : (ackLoopMachine config).Run (Timely config) ⟨[], .start geri start⟩ c) :
    ∀ x ∈ c.log, x.2 = none := by
  have hcalm : c.state.Calm config ∧ ∀ x ∈ c.log, x.2 = none := by
    refine hrun.invariant (I := fun c => c.state.Calm config ∧ ∀ x ∈ c.log, x.2 = none)
      ⟨AckLoop.calm_start hstart hgeri, fun _ hx => nomatch hx⟩ ?_
    intro c e ⟨hcalm, hlog⟩ htimely
    obtain ⟨hquiet, hnext⟩ := hcalm.step ht htimely
    refine ⟨hnext, fun x hx => ?_⟩
    rcases List.mem_cons.mp hx with rfl | hx
    · exact hquiet
    · exact hlog x hx
  exact hcalm.2

/-! ## The installed durations -/

/-- The durations of `config.h` with packets in flight for at most 100 ms. -/
def installedLoop : AckLoopConfig where
  watchdog := ⟨Muninn.shortConfig.huginnMac, 10, 60000000, 15000000⟩
  ingest := Geri.plainConfig
  addr := ⟨"10.0.0.1", 5005⟩
  offset := 777
  delay := 100000
  pollInterval := 5000000

/-- The durations of `config.h` are related as required. -/
private theorem installedLoop_timing : installedLoop.Timing := by
  constructor <;> decide

/-- A header without values is parsed. -/
private theorem parsePacket_bareDatagram (name : UInt8) (channel : UInt16) :
    ∃ pkt, Geri.parsePacket (Geri.bareDatagram name channel) = .ok pkt := by
  let header : Geri.Header Geri.nameWidthV1 :=
    (Geri.packetMagic, 1, ⟨name :: List.replicate 15 0, rfl⟩,
      ⟨[0xaa, 0xbb, 0xcc, 0x01, 0x02, 0x03], rfl⟩, -40, -95, channel, 20, 1, 0, 0)
  have hparse := Geri.parsePacket_pack header [] [] rfl rfl rfl
  rw [List.flatMap_nil, List.append_nil, List.append_nil] at hparse
  exact ⟨_, hparse⟩

/-- One packet and its ACK. -/
def answeredRun : List TimedLoopEvent :=
  [⟨10, .csi Muninn.huginnFrame (Geri.bareDatagram 97 6)⟩, ⟨20, .deliver 0 0⟩, ⟨30, .ack 0⟩,
    ⟨5000000, .poll⟩]

/-- One packet and its ACK, and no reset. -/
theorem calm_of_answeredRun :
    (((ackLoopMachine installedLoop).replay ⟨[], .start (.start .empty) 1⟩
      answeredRun).log.all fun x => x.2 = none) = true := by
  have hgeri : ∀ last, (Ingest.start .empty).lastAck installedLoop.addr = some last →
      last ≤ 1 + installedLoop.offset := by
    intro last h
    cases h
  -- every event comes before the next deadline
  have hadmits : (ackLoopMachine installedLoop).Admits (Timely installedLoop)
      ⟨[], .start (.start .empty) 1⟩ answeredRun := by
    refine ⟨?_, ?_, ?_, ?_, trivial⟩
    · refine ⟨by decide, by decide, by decide, by decide, ?_, (fun _ h => nomatch h),
        fun _ h => nomatch h⟩
      rintro info datagram ⟨⟩ -
      exact parsePacket_bareDatagram 97 6
    · exact ⟨by decide, by decide, by decide, by decide, (fun _ _ h => nomatch h),
        (fun _ h => nomatch h), fun _ h => nomatch h⟩
    · exact ⟨by decide, by decide, by decide, by decide, (fun _ _ h => nomatch h),
        (fun _ h => nomatch h), fun _ h => nomatch h⟩
    · exact ⟨by decide, by decide, by decide, by decide, (fun _ _ h => nomatch h),
        (fun _ h => nomatch h), fun _ h => nomatch h⟩
  rw [List.all_eq_true]
  intro x hx
  exact decide_eq_true (calm_of_run installedLoop installedLoop_timing (by decide) hgeri
    (Machine.run_of_admits hadmits) x hx)

/-- The poll finds the watchdog armed. -/
example :
    ((ackLoopMachine installedLoop).replay ⟨[], .start (.start .empty) 1⟩
      answeredRun).state.muninn.lastAckUs = 30 := by
  decide

end Grimnir

