import Grimnir.Native.Wifi

/-!
# Boards that go offline

A disconnect that finds the retry counter used up sets `WIFI_FAIL_BIT` and starts no
attempt.  While `wifi_init_sta` waits for the bits it restarts the board; once that wait has
returned nothing reads the bit any more.

## Key results

- `recoverable_step_iff`: which events leave a board without a way back
- `recoverable_of_run`: the runs in which every board can come back
- `offline_for_good`: both firmwares can get stuck
-/

namespace Grimnir.Board

variable (fw : Firmware) (maxRetry : Nat)

/-- The main task has been told to restart the board, or has done so. -/
def willRestart (b : Board) : Bool :=
  match b.main with
  | .connecting => b.wifi.failBit && !b.wifi.connectedBit
  | .waiting => false
  | .woken connected => !connected
  | .running => false
  | .restarting => true

/-- The station has an IP, an attempt is outstanding, or the board restarts. -/
def Recoverable (b : Board) : Prop :=
  b.online = true ∨ b.attempt = true ∨ b.willRestart = true

/-- The main task takes a fail bit that is set now for a failed start. -/
def awaitsBits (b : Board) : Bool :=
  match b.main with
  | .connecting => !fw.clear b.wifi.connectedBit
  | .waiting => true
  | .woken connected => !connected
  | .running => false
  | .restarting => true

/-- The event is not a disconnect that finds the retries used up after the wait. -/
def Survives (b : Board) (e : BoardEvent) : Prop :=
  e = .wifi .staDisconnected → b.wifi.retryCount < maxRetry ∨ b.awaitsBits fw = true

/-- The main task waits only while no bit is set. -/
def NoLostBit (b : Board) : Prop :=
  b.main = .waiting → b.wifi.connectedBit = false ∧ b.wifi.failBit = false

instance (b : Board) : Decidable b.Recoverable :=
  inferInstanceAs (Decidable (_ ∨ _ ∨ _))

variable {fw maxRetry} {b : Board}

/-! ## One event -/

private theorem waitBits_eq_waiting {wifi : WifiState} (h : waitBits wifi = .waiting) :
    wifi.connectedBit = false ∧ wifi.failBit = false := by
  unfold waitBits at h
  split at h
  · cases h
  · rename_i hbits
    simpa using hbits

private theorem noLostBit_wifiEvent (e : WifiEvent) :
    (b.wifiEvent fw maxRetry e).NoLostBit := by
  intro hwaiting
  have hmain : (b.station e).main = b.main := by cases e <;> rfl
  unfold wifiEvent at hwaiting ⊢
  dsimp only at hwaiting ⊢
  rw [hmain] at hwaiting
  split at hwaiting
  · exact waitBits_eq_waiting hwaiting
  · rename_i hne
    exact absurd hwaiting hne

private theorem noLostBit_step (h : b.NoLostBit) (e : BoardEvent) :
    (b.step fw maxRetry e).NoLostBit := by
  unfold step
  split
  · exact h
  · cases e with
    | wifi e => exact noLostBit_wifiEvent e
    | main =>
      intro hwaiting
      unfold mainStep at hwaiting ⊢
      dsimp only at hwaiting ⊢
      split at hwaiting
      · exact waitBits_eq_waiting hwaiting
      · cases hwaiting
      · cases hwaiting
      · exact h hwaiting
    | restart => exact fun hwaiting => nomatch hwaiting

/-- The main task only passes the restart on. -/
private theorem recoverable_mainStep (h : b.Recoverable) : b.mainStep.Recoverable := by
  obtain ⟨⟨retryCount, connectedBit, failBit⟩, main, online, attempt⟩ := b
  unfold Recoverable willRestart mainStep at *
  cases main with
  | connecting => cases connectedBit <;> cases failBit <;> simp_all [waitBits]
  | woken connected => cases connected <;> simp_all
  | _ => exact h

/-- A start event takes nothing away. -/
private theorem recoverable_staStart (h : b.Recoverable) :
    (b.wifiEvent fw maxRetry .staStart).Recoverable := by
  rcases h with honline | hattempt | hrestart
  · exact .inl honline
  · exact .inr (.inl (by simp [wifiEvent, station, hattempt]))
  · have hmain : b.main ≠ .waiting := by
      intro hmain
      simp [willRestart, hmain] at hrestart
    exact .inr (.inr (by simpa [wifiEvent, station, Firmware.handle, willRestart, hmain]
      using hrestart))

/-- A disconnect: either an attempt starts, or the main task learns of the failure. -/
private theorem recoverable_staDisconnected_iff (hbits : b.NoLostBit) :
    (b.wifiEvent fw maxRetry .staDisconnected).Recoverable ↔
      b.wifi.retryCount < maxRetry ∨ b.awaitsBits fw = true := by
  obtain ⟨⟨retryCount, connectedBit, failBit⟩, main, online, attempt⟩ := b
  unfold Recoverable willRestart wifiEvent awaitsBits NoLostBit at *
  by_cases hretry : retryCount < maxRetry
  · simp [station, Firmware.handle, hretry]
  · cases main with
    | waiting =>
      obtain ⟨hconn, hfail⟩ := hbits rfl
      dsimp only at hconn hfail
      simp [station, Firmware.handle, hretry, hconn, waitBits, Firmware.clear]
    | _ => simp [station, Firmware.handle, hretry]

/-- The events that leave a board a way back are those that it survives. -/
theorem recoverable_step_iff (hbits : b.NoLostBit) (h : b.Recoverable) (e : BoardEvent) :
    (b.step fw maxRetry e).Recoverable ↔ b.Survives fw maxRetry e := by
  unfold step Survives
  split
  · rename_i hmain
    have hawaits : b.awaitsBits fw = true := by simp [awaitsBits, hmain]
    simp [h, hawaits]
  · cases e with
    | wifi e =>
      cases e with
      | staStart => simp [recoverable_staStart h]
      | staDisconnected => simp [recoverable_staDisconnected_iff hbits]
      | gotIp => simp [Recoverable, wifiEvent, station]
    | main => simp [recoverable_mainStep h]
    | restart => simp [Recoverable, willRestart]

/-! ## Runs -/

private theorem recoverable_boot (fw : Firmware) (maxRetry : Nat) :
    (boot fw maxRetry).Recoverable ∧ (boot fw maxRetry).NoLostBit := by
  refine ⟨.inr (.inl ?_), fun hwaiting => nomatch hwaiting⟩
  cases h : fw.connectsOnStart <;> simp [boot, Firmware.handle, h]

/-- A board that survives every event of a run, whichever events the driver posts, can come
    back in every state of the run; and an event leaves it without a way back only if it does
    not survive that event. -/
theorem recoverable_of_run (fw : Firmware) (maxRetry : Nat)
    {c : Config Board BoardEvent Unit}
    (hrun : (boardMachine fw maxRetry).Run (fun c e => c.state.Survives fw maxRetry e)
      ⟨[], boot fw maxRetry⟩ c) :
    c.state.Recoverable ∧
      ∀ e, ((boardMachine fw maxRetry).answer c e).state.Recoverable ↔
        c.state.Survives fw maxRetry e := by
  obtain ⟨hrec, hbits⟩ : c.state.Recoverable ∧ c.state.NoLostBit := by
    refine hrun.invariant (I := fun c => c.state.Recoverable ∧ c.state.NoLostBit)
      (recoverable_boot fw maxRetry) ?_
    intro c e ⟨hrec, hbits⟩ hsurvives
    exact ⟨(recoverable_step_iff hbits hrec e).mpr hsurvives, noLostBit_step hbits e⟩
  exact ⟨hrec, recoverable_step_iff hbits hrec⟩

/-- The driver posts an event only about a connection or an attempt. -/
def Posted (c : Config Board BoardEvent Unit) : BoardEvent → Prop
  | .wifi .staStart => False
  | .wifi _ => c.state.online = true ∨ c.state.attempt = true
  | _ => True

/-- The board connects and starts, and the access point goes away. -/
def outage : List BoardEvent :=
  [.main, .wifi .gotIp, .main, .wifi .staDisconnected, .wifi .staDisconnected]

/-- A board that reconnects after a disconnect. -/
theorem recoverable_of_reconnect :
    let c := (boardMachine muninn 1).replay ⟨[], boot muninn 1⟩
      [.main, .wifi .gotIp, .main, .wifi .staDisconnected, .wifi .gotIp]
    c.state.Recoverable ∧ ∀ e, ((boardMachine muninn 1).answer c e).state.Recoverable ↔
      c.state.Survives muninn 1 e := by
  refine recoverable_of_run muninn 1 (Machine.run_of_admits ?_)
  refine ⟨fun h => ?_, fun h => ?_, fun h => ?_, fun _ => ?_, fun h => ?_, trivial⟩
  · cases h
  · cases h
  · cases h
  · decide
  · cases h

private theorem outage_stuck {fw : Firmware} (hfw : fw = muninn ∨ fw = huginn) :
    ¬∀ maxRetry, 0 < maxRetry → ∀ c,
      (boardMachine fw maxRetry).Run Posted ⟨[], boot fw maxRetry⟩ c → c.state.Recoverable := by
  intro hall
  have hposted : (boardMachine fw 1).Admits Posted ⟨[], boot fw 1⟩ outage := by
    rcases hfw with rfl | rfl <;>
      exact ⟨trivial, .inr rfl, trivial, .inl rfl, .inr rfl, trivial⟩
  have hrec := hall 1 (by decide) _ (Machine.run_of_admits hposted)
  have hstuck : ¬((boardMachine fw 1).replay ⟨[], boot fw 1⟩ outage).state.Recoverable := by
    rcases hfw with rfl | rfl <;> decide
  exact hstuck hrec

/-- Both firmwares can be left offline, with no attempt and no restart. -/
theorem offline_for_good :
    (¬∀ maxRetry, 0 < maxRetry → ∀ c, (boardMachine muninn maxRetry).Run Posted
        ⟨[], boot muninn maxRetry⟩ c → c.state.Recoverable) ∧
      ¬∀ maxRetry, 0 < maxRetry → ∀ c, (boardMachine huginn maxRetry).Run Posted
        ⟨[], boot huginn maxRetry⟩ c → c.state.Recoverable :=
  ⟨outage_stuck (.inl rfl), outage_stuck (.inr rfl)⟩

end Grimnir.Board
