import Grimnir.Native.Watchdog

/-!
# When the ACK watchdog fires

The statics of the watchdog are a summary of the events handled so far.  `Due` says in terms
of these events alone when a poll resets the transport.

## Key results

- `poll_isSome_iff`: when a poll resets, in terms of the statics
- `Remembers.answer`: every event keeps the statics in step with the events
- `firesExactly_of_run`: a poll resets exactly when it is due
-/

namespace Grimnir.Muninn

/-! ## The events so far -/

/-- The handled events, newest first. -/
abbrev WatchdogLog := List (TimedEvent × ResetReason)

variable (config : WatchdogConfig)

/-- A CSI callback for a frame of Huginn. -/
def WatchdogEvent.isCsi : WatchdogEvent → Bool
  | .csi info => matchesHuginn config info
  | _ => false

/-- A valid ACK. -/
def WatchdogEvent.isAck : WatchdogEvent → Bool
  | .received payload => validAck payload
  | _ => false

def WatchdogEvent.isDisconnect : WatchdogEvent → Bool
  | .wifi .staDisconnected => true
  | _ => false

/-- The times of some of the events, newest first. -/
def times (p : WatchdogEvent → Bool) (log : WatchdogLog) : List Int :=
  (log.filter fun x => p x.1.event).map (·.1.now)

/-- The last of the Wi-Fi events is a `GOT_IP`. -/
def online : WatchdogLog → Bool
  | [] => false
  | (⟨_, .wifi .gotIp⟩, _) :: _ => true
  | (⟨_, .wifi .staDisconnected⟩, _) :: _ => false
  | _ :: log => online log

/-- The latest CSI since the last disconnect. -/
def latestCsi (log : WatchdogLog) : Option Int :=
  (times (·.isCsi config) (log.takeWhile fun x => !x.1.event.isDisconnect)).head?

/-- A disconnect, a transport reset, or a poll while connected that finds the latest CSI too
    old. -/
def clears (x : TimedEvent × ResetReason) (before : WatchdogLog) : Bool :=
  match x with
  | (_, some _) => true
  | (⟨_, .wifi .staDisconnected⟩, none) => true
  | (⟨now, .poll⟩, none) =>
    online before && (latestCsi config before).any fun csi => now - csi > config.csiGraceUs
  | _ => false

/-- The events since the last clear, or since boot. -/
def sinceClear : WatchdogLog → WatchdogLog
  | [] => []
  | x :: log => if clears config x log then [] else x :: sinceClear log

/-- The latest ACK since the last clear. -/
def latestAck (log : WatchdogLog) : Option Int :=
  (times (·.isAck) (sinceClear config log)).head?

/-- The first CSI since the last clear. -/
def firstCsi (log : WatchdogLog) : Option Int :=
  (times (·.isCsi config) (sinceClear config log)).getLast?

/-- A poll at this time has a reason to reset the transport. -/
structure Due (log : WatchdogLog) (now : Int) : Prop where
  connected : online log = true
  active : ∃ csi, latestCsi config log = some csi ∧ now - csi ≤ config.csiGraceUs
  unanswered :
    (∃ ack, latestAck config log = some ack ∧ now - ack > config.ackTimeoutUs) ∨
      latestAck config log = none ∧
        ∃ csi, firstCsi config log = some csi ∧ now - csi > config.ackTimeoutUs

variable {config} {x : TimedEvent × ResetReason} {log : WatchdogLog}

/-! ## One more event -/

/-- One more event adds its time, if it is of the kind asked for. -/
private theorem times_cons (p : WatchdogEvent → Bool) (x : TimedEvent × ResetReason)
    (log : WatchdogLog) :
    times p (x :: log) = if p x.1.event then x.1.now :: times p log else times p log := by
  simp only [times, List.filter_cons]
  split <;> simp

/-- The times are those of the events of the kind. -/
private theorem mem_times {p : WatchdogEvent → Bool} {t : Int} :
    t ∈ times p log ↔ ∃ x ∈ log, p x.1.event ∧ x.1.now = t := by
  simp only [times, List.mem_map, List.mem_filter, and_assoc]

/-- A clear begins a new stretch. -/
private theorem sinceClear_of_clears (h : clears config x log = true) :
    sinceClear config (x :: log) = [] := by
  simp only [sinceClear, h, if_true]

/-- Any other event is part of the stretch. -/
private theorem sinceClear_of_not_clears (h : clears config x log = false) :
    sinceClear config (x :: log) = x :: sinceClear config log := by
  simp [sinceClear, h]

/-- The stretch is part of the log. -/
private theorem sinceClear_subset : sinceClear config log ⊆ log := by
  induction log with
  | nil => exact List.Subset.refl _
  | cons x log ih =>
    by_cases h : clears config x log = true
    · rw [sinceClear_of_clears h]
      exact List.nil_subset _
    · rw [sinceClear_of_not_clears (Bool.eq_false_iff.mpr h)]
      exact List.cons_subset_cons x ih

/-- A clear forgets the ACKs. -/
private theorem latestAck_of_clears (h : clears config x log = true) :
    latestAck config (x :: log) = none := by
  rw [latestAck, sinceClear_of_clears h]
  rfl

/-- A clear forgets the first CSI. -/
private theorem firstCsi_of_clears (h : clears config x log = true) :
    firstCsi config (x :: log) = none := by
  rw [firstCsi, sinceClear_of_clears h]
  rfl

/-- Between clears an ACK is the latest one. -/
private theorem latestAck_cons (h : clears config x log = false) :
    latestAck config (x :: log) =
      if x.1.event.isAck then some x.1.now else latestAck config log := by
  rw [latestAck, sinceClear_of_not_clears h, times_cons]
  split <;> rfl

/-- Between clears only the first CSI counts. -/
private theorem firstCsi_cons (h : clears config x log = false) :
    firstCsi config (x :: log) =
      if x.1.event.isCsi config then some ((firstCsi config log).getD x.1.now)
      else firstCsi config log := by
  rw [firstCsi, sinceClear_of_not_clears h, times_cons]
  split
  · rw [List.getLast?_cons]
    rfl
  · rfl

/-- The latest CSI is forgotten at a disconnect only. -/
private theorem latestCsi_cons :
    latestCsi config (x :: log) =
      if x.1.event.isDisconnect then none
      else if x.1.event.isCsi config then some x.1.now
      else latestCsi config log := by
  simp only [latestCsi, List.takeWhile_cons]
  cases hdis : x.1.event.isDisconnect with
  | true => rfl
  | false =>
    simp only [Bool.not_false, if_true, times_cons]
    split <;> rfl

/-- What the events remember happened at one of them. -/
private theorem mem_of_latestCsi {t : Int} (h : latestCsi config log = some t) :
    ∃ x ∈ log, x.1.now = t := by
  have hmem := List.mem_of_mem_head? h
  obtain ⟨x, hx, -, ht⟩ := mem_times.mp hmem
  exact ⟨x, (List.takeWhile_sublist _).subset hx, ht⟩

/-- The latest ACK is an event of the log. -/
private theorem mem_of_latestAck {t : Int} (h : latestAck config log = some t) :
    ∃ x ∈ log, x.1.now = t := by
  have hmem := List.mem_of_mem_head? h
  obtain ⟨x, hx, -, ht⟩ := mem_times.mp hmem
  exact ⟨x, sinceClear_subset hx, ht⟩

/-- The first CSI is an event of the log. -/
private theorem mem_of_firstCsi {t : Int} (h : firstCsi config log = some t) :
    ∃ x ∈ log, x.1.now = t := by
  have hmem := List.mem_of_getLast? h
  obtain ⟨x, hx, -, ht⟩ := mem_times.mp hmem
  exact ⟨x, sinceClear_subset hx, ht⟩

/-! ## The statics -/

variable {s : Watchdog} {now : Int}

/-- When a poll resets the transport. -/
theorem poll_isSome_iff :
    (s.receiverWatchdogTask config now).1.isSome ↔
      s.wifi.connectedBit = true ∧
        (s.lastCsiUs ≠ 0 ∧ now - s.lastCsiUs ≤ config.csiGraceUs) ∧
        (s.ackWatchdogArmed = true ∧
            ¬(s.lastAckUs ≠ 0 ∧ now - s.lastAckUs ≤ config.ackTimeoutUs) ∨
          s.ackWatchdogArmed = false ∧
            (s.firstUnackedCsiUs ≠ 0 ∧ now - s.firstUnackedCsiUs > config.ackTimeoutUs)) := by
  unfold Watchdog.receiverWatchdogTask Watchdog.resetUdpTransport
  cases s.wifi.connectedBit <;> cases s.ackWatchdogArmed <;> grind

/-- A poll that clears without a reset. -/
def Watchdog.stale (config : WatchdogConfig) (now : Int) (s : Watchdog) : Prop :=
  s.wifi.connectedBit = true ∧ (s.lastCsiUs ≠ 0 ∧ now - s.lastCsiUs > config.csiGraceUs)

/-- A poll changes nothing unless it clears. -/
theorem poll_state (config : WatchdogConfig) (s : Watchdog) (now : Int) :
    ((s.receiverWatchdogTask config now).1.isSome ∨ s.stale config now) ∧
        (s.receiverWatchdogTask config now).2 = s.clearAckWatchdogState ∨
      (s.receiverWatchdogTask config now).1 = none ∧ ¬s.stale config now ∧
        (s.receiverWatchdogTask config now).2 = s := by
  unfold Watchdog.receiverWatchdogTask Watchdog.resetUdpTransport Watchdog.stale
  cases s.wifi.connectedBit <;> cases s.ackWatchdogArmed <;> grind

/-- The statics tell what the events so far were. -/
structure Remembers (config : WatchdogConfig) (log : WatchdogLog) (s : Watchdog) : Prop where
  positive : ∀ x ∈ log, 0 < x.1.now
  connected : s.wifi.connectedBit = online log
  lastCsi : s.lastCsiUs = (latestCsi config log).getD 0
  armed : s.ackWatchdogArmed = (latestAck config log).isSome
  lastAck : s.lastAckUs = (latestAck config log).getD 0
  /-- Once an ACK has come the field is not read. -/
  firstUnacked : latestAck config log = none →
    s.firstUnackedCsiUs = (firstCsi config log).getD 0

/-- The statics are zero at boot, and nothing has been handled. -/
private theorem remembers_boot : Remembers config [] .boot :=
  ⟨(fun _ h => nomatch h), rfl, rfl, rfl, rfl, fun _ => rfl⟩

/-- Zero stands for nothing. -/
private theorem sentinel_iff {t : Option Int} (hpos : ∀ u, t = some u → 0 < u) (p : Int → Prop) :
    t.getD 0 ≠ 0 ∧ p (t.getD 0) ↔ ∃ u, t = some u ∧ p u := by
  cases t with
  | none => simp
  | some u =>
    have hne : u ≠ 0 := by have := hpos u rfl; omega
    simp [hne]

/-- Times are positive, so a zero static means that there was no CSI. -/
private theorem Remembers.latestCsi_pos (h : Remembers config log s) {t : Int}
    (ht : latestCsi config log = some t) : 0 < t := by
  obtain ⟨x, hx, rfl⟩ := mem_of_latestCsi ht
  exact h.positive x hx

/-- A zero static means that there was no ACK since the last clear. -/
private theorem Remembers.latestAck_pos (h : Remembers config log s) {t : Int}
    (ht : latestAck config log = some t) : 0 < t := by
  obtain ⟨x, hx, rfl⟩ := mem_of_latestAck ht
  exact h.positive x hx

/-- A zero static means that there was no CSI since the last clear. -/
private theorem Remembers.firstCsi_pos (h : Remembers config log s) {t : Int}
    (ht : firstCsi config log = some t) : 0 < t := by
  obtain ⟨x, hx, rfl⟩ := mem_of_firstCsi ht
  exact h.positive x hx

/-- In step with the events, a poll resets exactly when it is due. -/
private theorem Remembers.poll_iff (h : Remembers config log s) :
    (s.receiverWatchdogTask config now).1.isSome ↔ Due config log now := by
  -- the statics are zero when there is nothing to remember
  have hcsi := sentinel_iff (fun _ => h.latestCsi_pos) fun u => now - u ≤ config.csiGraceUs
  have hack := sentinel_iff (fun _ => h.latestAck_pos) fun u => now - u ≤ config.ackTimeoutUs
  have hfirst := sentinel_iff (fun _ => h.firstCsi_pos) fun u => now - u > config.ackTimeoutUs
  rw [poll_isSome_iff, h.connected, h.lastCsi, h.armed, h.lastAck, hcsi, hack]
  -- the poll looks at the latest ACK, or at the first CSI when there was none
  cases hlatest : latestAck config log with
  | some ack =>
    constructor
    -- a late ACK is one that is not within the timeout
    · intro ⟨hconn, hactive, hlate⟩
      refine ⟨hconn, hactive, .inl ⟨ack, hlatest, ?_⟩⟩
      rcases hlate with ⟨-, hnot⟩ | ⟨hnone, -⟩
      · exact Int.not_le.mp fun hle => hnot ⟨ack, rfl, hle⟩
      · cases hnone
    · intro ⟨hconn, hactive, hlate⟩
      refine ⟨hconn, hactive, .inl ⟨rfl, ?_⟩⟩
      intro ⟨u, hu, hle⟩
      rw [hlatest] at hlate
      rcases hlate with ⟨u', hu', hgt⟩ | ⟨hnone, -⟩
      · cases hu
        cases hu'
        exact Int.not_le.mpr hgt hle
      · cases hnone
  -- without an ACK the first CSI since the clear is compared
  | none =>
    rw [h.firstUnacked hlatest, hfirst]
    constructor
    · intro ⟨hconn, hactive, hlate⟩
      refine ⟨hconn, hactive, .inr ⟨hlatest, ?_⟩⟩
      rcases hlate with ⟨hsome, -⟩ | ⟨-, hfirst⟩
      · cases hsome
      · exact hfirst
    · intro ⟨hconn, hactive, hlate⟩
      refine ⟨hconn, hactive, .inr ⟨rfl, ?_⟩⟩
      rw [hlatest] at hlate
      rcases hlate with ⟨u, hu, -⟩ | ⟨-, hfirst⟩
      · cases hu
      · exact hfirst

/-- A poll finds the latest CSI too old. -/
theorem Remembers.stale_iff (h : Remembers config log s) :
    s.stale config now ↔ clears config (⟨now, .poll⟩, none) log = true := by
  have hcsi := sentinel_iff (fun _ => h.latestCsi_pos) fun u => now - u > config.csiGraceUs
  unfold Watchdog.stale clears
  rw [h.connected, h.lastCsi, hcsi, Bool.and_eq_true, Option.any_eq_true]
  simp

/-! ## Every event -/

/-- One more positive time leaves all times positive. -/
private theorem Remembers.positive_cons (h : Remembers config log s) (hx : 0 < x.1.now) :
    ∀ y ∈ x :: log, 0 < y.1.now := by
  simp only [List.mem_cons, forall_eq_or_imp]
  exact ⟨hx, h.positive⟩

/-- An event that clears. -/
theorem Remembers.cleared (h : Remembers config log s) (hx : 0 < x.1.now)
    (hclears : clears config x log = true) {s' : Watchdog}
    (hconn : s'.wifi.connectedBit = online (x :: log))
    (hcsi : s'.lastCsiUs = (latestCsi config (x :: log)).getD 0) :
    Remembers config (x :: log) s'.clearAckWatchdogState where
  positive := h.positive_cons hx
  connected := hconn
  lastCsi := hcsi
  armed := by rw [latestAck_of_clears hclears]; rfl
  lastAck := by rw [latestAck_of_clears hclears]; rfl
  firstUnacked _ := by rw [firstCsi_of_clears hclears]; rfl

/-- An event that is neither a CSI nor an ACK, and does not clear. -/
theorem Remembers.kept (h : Remembers config log s) (hx : 0 < x.1.now)
    (hclears : clears config x log = false) (hack : x.1.event.isAck = false)
    (hcsi : x.1.event.isCsi config = false) (hdis : x.1.event.isDisconnect = false)
    {wifi : WifiState} (hconn : wifi.connectedBit = online (x :: log)) :
    Remembers config (x :: log) { s with wifi := wifi } where
  positive := h.positive_cons hx
  connected := hconn
  lastCsi := by simp [latestCsi_cons, hdis, hcsi, h.lastCsi]
  armed := by simp [latestAck_cons hclears, hack, h.armed]
  lastAck := by simp [latestAck_cons hclears, hack, h.lastAck]
  firstUnacked := by
    simp only [latestAck_cons hclears, hack, firstCsi_cons hclears, hcsi]
    exact h.firstUnacked

/-- A CSI of Huginn. -/
theorem Remembers.csi (h : Remembers config log s) (hnow : 0 < now) (info : WifiCsiInfo) :
    Remembers config ((⟨now, .csi info⟩, none) :: log) (s.csiCallback config info now) := by
  let x : TimedEvent × ResetReason := (⟨now, .csi info⟩, none)
  have hclears : clears config x log = false := rfl
  unfold Watchdog.csiCallback
  -- a frame of another sender changes nothing
  split
  · rename_i hmatch
    have hcsi : x.1.event.isCsi config = true := hmatch
    have hack : x.1.event.isAck = false := rfl
    have hlatest : latestAck config (x :: log) = latestAck config log := by
      rw [latestAck_cons hclears, hack]
      rfl
    -- the fields of `Remembers`; only the CSI is new
    constructor
    case positive => exact h.positive_cons hnow
    case connected => exact h.connected
    case lastCsi => simp [x, latestCsi_cons, WatchdogEvent.isDisconnect, hcsi]
    case armed =>
      rw [hlatest]
      exact h.armed
    case lastAck =>
      rw [hlatest]
      exact h.lastAck
    case firstUnacked =>
      -- as long as no ACK comes, the first CSI since the clear is remembered
      intro hnone
      rw [hlatest] at hnone
      have hfirst := h.firstUnacked hnone
      rw [firstCsi_cons hclears, hcsi, if_pos rfl, Option.getD_some]
      cases hcase : firstCsi config log with
      | none =>
        rw [hcase] at hfirst
        simp only [hfirst, Option.getD_none, if_true]
        rfl
      | some first =>
        -- the field keeps the first CSI
        rw [hcase] at hfirst
        have hne : first ≠ 0 := by have := h.firstCsi_pos hcase; omega
        simp only [hfirst, Option.getD_some, if_neg hne]
  · rename_i hmatch
    exact h.kept hnow hclears rfl (Bool.eq_false_iff.mpr hmatch) rfl h.connected

/-- A datagram. -/
theorem Remembers.received (h : Remembers config log s) (hnow : 0 < now)
    (payload : List UInt8) :
    Remembers config ((⟨now, .received payload⟩, none) :: log) (s.udpAckTask payload now) := by
  let x : TimedEvent × ResetReason := (⟨now, .received payload⟩, none)
  have hclears : clears config x log = false := rfl
  unfold Watchdog.udpAckTask
  -- a datagram that is no ACK changes nothing
  split
  · rename_i hvalid
    have hack : x.1.event.isAck = true := hvalid
    have hlatest : latestAck config (x :: log) = some now := by
      rw [latestAck_cons hclears, hack]
      rfl
    -- an ACK is now the latest, and there is one
    refine ⟨h.positive_cons hnow, h.connected, h.lastCsi, ?_, ?_, fun hnone => ?_⟩
    · rw [hlatest]
      rfl
    · rw [hlatest]
      rfl
    · rw [hlatest] at hnone
      cases hnone
  · rename_i hvalid
    exact h.kept hnow hclears (Bool.eq_false_iff.mpr hvalid) rfl rfl h.connected

/-- A round of the watchdog task. -/
theorem Remembers.poll (h : Remembers config log s) (hnow : 0 < now) :
    Remembers config ((⟨now, .poll⟩, (s.receiverWatchdogTask config now).1) :: log)
      (s.receiverWatchdogTask config now).2 := by
  rcases poll_state config s now with ⟨hclear, hstate⟩ | ⟨hnone, hfresh, hstate⟩
  · rw [hstate]
    refine h.cleared hnow ?_ h.connected h.lastCsi
    cases hreset : (s.receiverWatchdogTask config now).1 with
    | some reason => rfl
    | none =>
      rw [hreset] at hclear
      exact h.stale_iff.mp (by simpa using hclear)
  · rw [hstate, hnone]
    exact h.kept hnow (Bool.eq_false_iff.mpr fun hclears => hfresh (h.stale_iff.mpr hclears))
      rfl rfl rfl h.connected

/-- Every event keeps the statics in step with the events. -/
theorem Remembers.answer {c : Config Watchdog TimedEvent ResetReason}
    (h : Remembers config c.log c.state) {e : TimedEvent} (hnow : 0 < e.now) :
    Remembers config ((watchdogMachine config).answer c e).log
      ((watchdogMachine config).answer c e).state := by
  obtain ⟨log, s⟩ := c
  obtain ⟨now, event⟩ := e
  -- one case for each event
  cases event with
  | wifi e =>
    cases e with
    | staStart => exact h.kept hnow rfl rfl rfl rfl h.connected
    | gotIp => exact h.kept hnow rfl rfl rfl rfl rfl
    -- a disconnect clears what the statics remember
    | staDisconnected =>
      have hbit : (Muninn.wifiEventHandler config.wifiMaxRetry .staDisconnected
          s.wifi).2.connectedBit = false := by
        unfold Muninn.wifiEventHandler Firmware.handle
        dsimp only
        split <;> exact Bool.and_false _
      let s' : Watchdog := { s with
        wifi := (Muninn.wifiEventHandler config.wifiMaxRetry .staDisconnected s.wifi).2
        lastCsiUs := 0 }
      have hcsi : s'.lastCsiUs =
          -- the handler zeroes the time of the latest CSI
          (latestCsi config ((⟨now, .wifi .staDisconnected⟩, none) :: log)).getD 0 := rfl
      exact h.cleared hnow rfl hbit hcsi
  | csi info => exact h.csi hnow info
  | received payload => exact h.received hnow payload
  | sendFailed errno =>
    show Remembers config ((_, (s.sendFailed errno).1) :: log) (s.sendFailed errno).2
    unfold Watchdog.sendFailed
    -- a failed send that resets the transport clears, any other one does not
    split
    · exact h.cleared hnow rfl h.connected h.lastCsi
    · exact h.kept hnow rfl rfl rfl rfl h.connected
  | poll => exact h.poll hnow

/-! ## Runs -/

/-- Times are positive and do not go back. -/
def InOrder : Config Watchdog TimedEvent ResetReason → TimedEvent → Prop :=
  fun c e => 0 < e.now ∧ ∀ x ∈ c.log, x.1.now ≤ e.now

/-- The log of a run, newest first. -/
def Descending (log : WatchdogLog) : Prop := log.Pairwise fun x y => y.1.now ≤ x.1.now

/-- Since an ACK, nothing that the watchdog counts from is older than it. -/
private theorem ack_le (config : WatchdogConfig) (hlog : Descending log) (hx : x ∈ log)
    (hack : x.1.event.isAck = true) :
    (∀ ack, latestAck config log = some ack → x.1.now ≤ ack) ∧
      (latestAck config log = none → ∀ csi, firstCsi config log = some csi → x.1.now ≤ csi) := by
  -- `y` is the latest event, and what it does not clear or replace is as before it
  induction log with
  | nil => cases hx
  | cons y log ih =>
    -- by induction on the log
    obtain ⟨hy, hlog⟩ := List.pairwise_cons.mp hlog
    by_cases hclears : clears config y log = true
    -- a clear leaves nothing to compare with
    · rw [latestAck_of_clears hclears, firstCsi_of_clears hclears]
      exact ⟨(fun _ h => nomatch h), fun _ _ h => nomatch h⟩
    · have hclears : clears config y log = false := Bool.eq_false_iff.mpr hclears
      rw [latestAck_cons hclears, firstCsi_cons hclears]
      have hle : x.1.now ≤ y.1.now := by
        rcases List.mem_cons.mp hx with rfl | hx
        · exact Int.le_refl _
        · exact hy x hx
      -- a later ACK takes the place of this one
      by_cases hyack : y.1.event.isAck = true
      · simpa [hyack] using hle
      · have hmem : x ∈ log := by
          rcases List.mem_cons.mp hx with rfl | hx
          · exact absurd hack hyack
          · exact hx
        obtain ⟨hlatest, hfirst⟩ := ih hlog hmem
        simp only [hyack, if_false, Bool.false_eq_true]
        refine ⟨hlatest, fun hnone csi hcsi => ?_⟩
        -- the first CSI is that of `y`, or it was there before
        split at hcsi
        · cases hcase : firstCsi config log with
          | none =>
            rw [hcase] at hcsi
            cases hcsi
            exact hle
          | some first =>
            rw [hcase] at hcsi
            cases hcsi
            exact hfirst hnone first hcase
        · exact hfirst hnone csi hcsi

/-- When the watchdog fires after the events of `c`. -/
structure FiresExactly (config : WatchdogConfig)
    (c : Config Watchdog TimedEvent ResetReason) : Prop where
  /-- A poll that comes next resets the transport exactly when it is due. -/
  fires : ∀ now, InOrder c ⟨now, .poll⟩ →
    ((c.state.receiverWatchdogTask config now).1.isSome ↔ Due config c.log now)
  /-- No poll resets within the timeout after an ACK. -/
  quiet : ∀ x ∈ c.log, x.1.event.isAck = true → ∀ now, InOrder c ⟨now, .poll⟩ →
    now - x.1.now ≤ config.ackTimeoutUs → (c.state.receiverWatchdogTask config now).1 = none
  armed : c.state.ackWatchdogArmed = true → c.state.lastAckUs ≠ 0

/-- A poll resets the transport exactly when it is due, in every state of every run. -/
theorem firesExactly_of_run (config : WatchdogConfig)
    {c : Config Watchdog TimedEvent ResetReason}
    (hrun : (watchdogMachine config).Run InOrder ⟨[], .boot⟩ c) : FiresExactly config c := by
  -- the invariant is kept by every event
  obtain ⟨hrem, hlog⟩ : Remembers config c.log c.state ∧ Descending c.log := by
    refine hrun.invariant
      (I := fun c => Remembers config c.log c.state ∧ Descending c.log)
      ⟨remembers_boot, List.Pairwise.nil⟩ ?_
    intro c e ⟨hrem, hlog⟩ ⟨hnow, hle⟩
    exact ⟨hrem.answer hnow, List.pairwise_cons.mpr ⟨hle, hlog⟩⟩
  refine ⟨fun _ _ => hrem.poll_iff, ?_, ?_⟩
  · intro x hx hack now _ hsoon
    obtain ⟨hlatest, hfirst⟩ := ack_le config hlog hx hack
    rw [← Option.not_isSome_iff_eq_none, hrem.poll_iff]
    -- whatever the watchdog counts from is not older than the ACK
    intro hdue
    rcases hdue.unanswered with ⟨ack, heq, hlate⟩ | ⟨hnone, csi, heq, hlate⟩
    · have := hlatest ack heq
      omega
    · have := hfirst hnone csi heq
      omega
  -- the field is set only where an ACK was received
  · intro harmed
    rw [hrem.armed] at harmed
    obtain ⟨ack, hack⟩ := Option.isSome_iff_exists.mp harmed
    have := hrem.latestAck_pos hack
    rw [hrem.lastAck, hack, Option.getD_some]
    omega

/-- Timeouts of a minute and a quarter of a minute, in seconds. -/
def shortConfig : WatchdogConfig := ⟨⟨[1, 2, 3, 4, 5, 6], rfl⟩, 10, 60, 15⟩

/-- A frame of Huginn. -/
def huginnFrame : WifiCsiInfo :=
  ⟨shortConfig.huginnMac, -40, -90, 6, 0, .none, 2, ⟨[3, 4], rfl⟩⟩

/-- CSI flows, and no ACK ever comes. -/
def silentRun : List TimedEvent :=
  [⟨1, .wifi .gotIp⟩, ⟨2, .csi huginnFrame⟩, ⟨50, .csi huginnFrame⟩, ⟨60, .poll⟩]

/-- CSI flows without ACKs, and the watchdog fires as the history says. -/
theorem firesExactly_of_silentRun :
    FiresExactly shortConfig ((watchdogMachine shortConfig).replay ⟨[], .boot⟩ silentRun) := by
  refine firesExactly_of_run shortConfig (Machine.run_of_admits ?_)
  simp [Machine.Admits, silentRun, InOrder, Machine.answer]

/-- The poll at 60 was early; one at 63 resets the transport. -/
example :
    let c := (watchdogMachine shortConfig).replay ⟨[], .boot⟩ silentRun
    c.log.head?.map (·.2) = some none ∧
      (c.state.receiverWatchdogTask shortConfig 63).1 = some "ACKs never started" := by
  decide

end Grimnir.Muninn
