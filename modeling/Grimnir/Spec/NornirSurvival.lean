import Grimnir.Native.Nornir

/-!
# Which failures Nornir outlives

Every handler of `main.py` catches `FrekiError`, and none the transport failures of `httpx`.
So `main` stays in its loops, and the heartbeat of a running job goes on, as long as no call
but the daemon heartbeat ends in a transport failure.

## Key results

- `Steady.step`: one event leaves `main` in its loops when it is survivable
- `outlives_of_run`: a run of survivable events
- `transport_fatal`: an awaited call that is not survived
- `listing_fatal`: one failure of the list of queued jobs ends the daemon
-/

namespace Grimnir.Nornir

variable {config : NornirConfig}

/-- The event is no signal, and no call it ends, other than the daemon heartbeat, had a
    transport failure. -/
def NornirEvent.Survivable : NornirEvent → Prop
  | .signal => False
  | .registered outcome => ∀ text, outcome ≠ .error (.transport text)
  | .listed outcome => ∀ text, outcome ≠ .error (.transport text)
  | .claimed outcome => ∀ text, outcome ≠ .error (.transport text)
  | .uploaded outcome => ∀ text, outcome ≠ .error (.transport text)
  | .reported outcome => ∀ text, outcome ≠ .error (.transport text)
  | .jobHeartbeat outcome => ∀ text, outcome ≠ .error (.transport text)
  | _ => True

/-- The job's heartbeat task runs and no exception is on its way out of `_execute_job`. -/
def Work.Steady : Work → Prop
  | .executing _ hb step => hb ≠ .died ∧ ∀ raising, step = .joining raising → raising = false
  | _ => True

/-- `main` is in one of its loops, and nothing is about to end it. -/
def Stage.Steady : Stage → Prop
  | .registering | .registerWait => True
  | .working _ _ work => work.Steady
  | .left _ => False

/-- What the daemon does for as long as it is not stopped: `main` stays in its registration
    or claim loop, and while a job is training a heartbeat is in flight or the next one is
    sent after `JOB_HEARTBEAT_S`. -/
structure Outlives (config : NornirConfig) (d : Daemon) : Prop where
  inLoop : ∀ raising, d.stage ≠ .left raising
  heartbeating : ∀ daemonId hb job jobHb,
    d.stage = .working daemonId hb (.executing job jobHb .training) →
      jobHb = .sending ∨
      (d.step config .jobHeartbeatDue).1 = some (.heartbeatJob job.id daemonId job.claimToken)

/-- A steady daemon goes on until it is stopped. -/
private theorem Stage.Steady.outlives {d : Daemon} (h : d.stage.Steady) : Outlives config d where
  inLoop raising hleft := by
    rw [hleft] at h
    exact h
  heartbeating daemonId hb job jobHb hstage := by
    rw [hstage] at h
    cases jobHb with
    | waiting =>
      right
      simp only [Daemon.step, hstage]
      rfl
    | sending => exact .inl rfl
    | died => exact absurd rfl h.1

/-! ## One step -/

/-- The claim loop is steady. -/
private theorem steady_claimLoop (daemonId : Nat) (hb : Heartbeat) :
    (claimLoop false daemonId hb).2.Steady := trivial

/-- So is trying the next job. -/
private theorem steady_tryClaim (daemonId : Nat) (hb : Heartbeat) (jobs : List Nat) :
    (tryClaim false daemonId hb jobs).2.Steady := by
  cases jobs with
  | nil => trivial
  | cons jobId rest => trivial

/-- Joining a live heartbeat task raises nothing. -/
private theorem steady_join {hb jobHb : Heartbeat} (daemonId : Nat) (job : ClaimedJobOut)
    (halive : jobHb ≠ .died) : (join false daemonId hb job false jobHb).2.Steady := by
  cases jobHb with
  | waiting => trivial
  | sending => exact ⟨Heartbeat.noConfusion, fun _ h => (JobStep.joining.inj h).symm⟩
  | died => exact absurd rfl halive

/-- A heartbeat dies of transport failures only. -/
private theorem afterHeartbeat_ne_died {outcome : Except CallError Unit}
    (h : ∀ text, outcome ≠ .error (.transport text)) : afterHeartbeat outcome ≠ .died := by
  cases outcome with
  | ok _ => exact Heartbeat.noConfusion
  | error e =>
    cases e with
    | freki status text => exact Heartbeat.noConfusion
    | transport text => exact absurd rfl (h text)

/-- After a report without a transport failure the loop goes on. -/
private theorem steady_afterReport {daemonId : Nat} {hb jobHb : Heartbeat} {job : ClaimedJobOut}
    {outcome : Except CallError Unit} (halive : jobHb ≠ .died)
    (h : ∀ text, outcome ≠ .error (.transport text)) :
    (afterReport false daemonId hb job jobHb outcome).2.Steady := by
  cases outcome with
  | ok _ => exact steady_join daemonId job halive
  | error e =>
    cases e with
    | freki status text => exact steady_join daemonId job halive
    | transport text => exact absurd rfl (h text)

/-- Whether a claim is lost (409) or refused, the next job is tried. -/
theorem afterClaim_freki (stop : Bool) (daemonId : Nat) (hb : Heartbeat) (rest : List Nat)
    (status : Nat) (text : String) :
    afterClaim stop daemonId hb rest (.error (.freki status text)) =
      tryClaim stop daemonId hb rest := by
  by_cases hlost : status = 409
  · simp only [afterClaim, claimResult, if_pos hlost]
  · simp only [afterClaim, claimResult, if_neg hlost]

/-- A survivable event leaves a steady daemon steady. -/
theorem Stage.Steady.advance {stage : Stage} (hsteady : stage.Steady) {e : NornirEvent}
    (h : e.Survivable) : (advance config false stage e).2.Steady := by
  unfold Nornir.advance
  split
  -- the registration and the pause after a failed one
  · rename_i outcome
    cases outcome with
    | ok daemonId => exact steady_claimLoop daemonId .waiting
    | error exc =>
      cases exc with
      | freki status text => trivial
      | transport text => exact absurd rfl (h text)
  · trivial
  -- the list of queued jobs and the claims
  · rename_i daemonId hb outcome
    cases outcome with
    | ok queued => exact steady_tryClaim daemonId hb queued.reverse
    | error exc =>
      cases exc with
      | freki status text => trivial
      | transport text => exact absurd rfl (h text)
  · rename_i daemonId hb jobId rest outcome
    cases outcome with
    | ok job => exact ⟨Heartbeat.noConfusion, fun _ h => nomatch h⟩
    | error exc =>
      cases exc with
      | freki status text =>
        rw [afterClaim_freki]
        exact steady_tryClaim daemonId hb rest
      | transport text => exact absurd rfl (h text)
  -- the training job, the upload and the report
  · rename_i outcome
    cases outcome with
    | ok trained => exact ⟨hsteady.1, fun _ h => nomatch h⟩
    | error exc => exact ⟨hsteady.1, fun _ h => nomatch h⟩
  · rename_i daemonId hb job jobHb trained outcome
    cases outcome with
    | ok modelId => exact ⟨hsteady.1, fun _ h => nomatch h⟩
    | error exc =>
      cases exc with
      | freki status text => exact ⟨hsteady.1, fun _ h => nomatch h⟩
      | transport text => exact absurd rfl (h text)
  · exact steady_afterReport hsteady.1 h
  · exact steady_afterReport hsteady.1 h
  -- the pause between two rounds of the claim loop
  · rename_i daemonId hb
    exact steady_claimLoop daemonId hb
  -- the heartbeat in flight has ended, and `_execute_job` with it
  · rename_i daemonId hb job raising outcome
    rw [hsteady.2 raising rfl]
    exact steady_join daemonId job (afterHeartbeat_ne_died h)
  · exact ⟨Heartbeat.noConfusion, hsteady.2⟩
  · exact ⟨afterHeartbeat_ne_died h, hsteady.2⟩
  · exact hsteady
  · exact hsteady
  · exact hsteady

/-- The daemon has not been stopped, and is steady. -/
def Daemon.Running (d : Daemon) : Prop := d.stop = false ∧ d.stage.Steady

/-- A survivable event leaves the daemon running. -/
theorem Daemon.Running.step {d : Daemon} (hrunning : d.Running) {e : NornirEvent}
    (h : e.Survivable) : (d.step config e).2.Running := by
  obtain ⟨hstop, hsteady⟩ := hrunning
  have hadvance : (advance config false d.stage e).2.Steady := hsteady.advance h
  cases e with
  | signal => exact h.elim
  | _ =>
    simp only [Daemon.step, hstop]
    exact ⟨rfl, hadvance⟩

/-! ## What is not survived -/

/-- While an exception is on its way out, nothing is steady. -/
private theorem not_steady_join {hb jobHb : Heartbeat} (daemonId : Nat) (job : ClaimedJobOut) :
    ¬(join false daemonId hb job true jobHb).2.Steady := by
  cases jobHb with
  | waiting => exact fun h => h
  | sending => exact fun h => nomatch h.2 true rfl
  | died => exact fun h => h

/-- What is not free of transport failures is one. -/
private theorem transport_of_not {β : Type} {outcome : Except CallError β}
    (h : ¬∀ text, outcome ≠ .error (.transport text)) :
    ∃ text, outcome = .error (.transport text) := by
  by_contra hnone
  exact h fun text heq => hnone ⟨text, heq⟩

/-- An awaited call that ends in a transport failure, other than the daemon heartbeat, ends
    the daemon or the heartbeat of its job. -/
theorem transport_fatal {stage : Stage} {e : NornirEvent} (h : ¬e.Survivable)
    (hsignal : e ≠ .signal) :
    advance config false stage e = (none, stage) ∨
      ¬(advance config false stage e).2.Steady := by
  unfold Nornir.advance
  split
  · obtain ⟨text, rfl⟩ := transport_of_not h
    exact .inr fun h => h
  · exact absurd trivial h
  · obtain ⟨text, rfl⟩ := transport_of_not h
    exact .inr fun h => h
  · obtain ⟨text, rfl⟩ := transport_of_not h
    exact .inr fun h => h
  · exact absurd trivial h
  · rename_i daemonId hb job jobHb trained outcome
    obtain ⟨text, rfl⟩ := transport_of_not h
    exact .inr (not_steady_join daemonId job)
  · rename_i daemonId hb job jobHb outcome
    obtain ⟨text, rfl⟩ := transport_of_not h
    exact .inr (not_steady_join daemonId job)
  · rename_i daemonId hb job jobHb outcome
    obtain ⟨text, rfl⟩ := transport_of_not h
    exact .inr (not_steady_join daemonId job)
  · exact absurd trivial h
  -- the heartbeat task has raised, and so does the `await` of it
  · obtain ⟨text, rfl⟩ := transport_of_not h
    exact .inr fun h => h
  · exact absurd trivial h
  · obtain ⟨text, rfl⟩ := transport_of_not h
    exact .inr fun h => h.1 rfl
  · exact absurd trivial h
  · exact absurd trivial h
  · exact .inl rfl

/-! ## Runs -/

/-- As long as every event is survivable, the daemon stays in its loops and its jobs keep
    their heartbeat. -/
theorem outlives_of_run {c : Config Daemon NornirEvent (Option FrekiCall)}
    (hrun : (nornirMachine config).Run (fun _ e => e.Survivable) ⟨[], .boot⟩ c) :
    Outlives config c.state := by
  have hrunning : c.state.Running := by
    refine hrun.invariant (I := fun c => c.state.Running) ⟨rfl, trivial⟩ ?_
    intro c e hrunning h
    exact hrunning.step h
  exact hrunning.2.outlives

/-- The configuration of the examples. -/
def plainNornir : NornirConfig := ⟨"nornir-1", "cellar", "", ""⟩

/-- Freki refuses a listing, and the daemon waits for the next round. -/
theorem outlives_of_run_refused :
    Outlives plainNornir ((nornirMachine plainNornir).replay ⟨[], .boot⟩
      [.registered (.ok 1), .listed (.error (.freki 503 "unavailable"))]).state :=
  outlives_of_run (Machine.run_of_admits
    ⟨(fun _ h => nomatch h), (fun _ h => nomatch h), trivial⟩)

/-- One listing that gets no reply ends the daemon, with no signal. -/
theorem listing_fatal :
    ¬∀ (config : NornirConfig) (c : Config Daemon NornirEvent (Option FrekiCall)),
      (nornirMachine config).Run (fun _ e => e ≠ .signal) ⟨[], .boot⟩ c →
        Outlives config c.state := by
  intro h
  have hlives := h plainNornir ((nornirMachine plainNornir).replay ⟨[], .boot⟩
    [.registered (.ok 1), .listed (.error (.transport "connection refused"))])
    (Machine.run_of_admits ⟨NornirEvent.noConfusion, NornirEvent.noConfusion, trivial⟩)
  exact hlives.inLoop true rfl

end Grimnir.Nornir
