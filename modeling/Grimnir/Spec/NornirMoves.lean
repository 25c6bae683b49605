import Grimnir.Native.NornirFleet
import Grimnir.Spec.NornirSurvival

/-!
# What one event does to the job of a daemon

`_execute_job` trains, uploads and completes, or fails on the way; every other event leaves
the job as it is or ends it.  `Daemon.step_moves` says so once, with the call that is made.

## Key results

- `Daemon.step_moves`: what one event does
-/

namespace Grimnir.Nornir

variable {config : NornirConfig}

/-- The job in execution, and where. -/
def Work.job? : Work → Option (ClaimedJobOut × JobStep)
  | .executing job _ step => some (job, step)
  | _ => none

def Stage.job? : Stage → Option (ClaimedJobOut × JobStep)
  | .working _ _ work => work.job?
  | _ => none

/-- A job is in execution in the claim loop only. -/
theorem Stage.job?_eq_some {stage : Stage} {job : ClaimedJobOut} {step : JobStep}
    (h : stage.job? = some (job, step)) :
    ∃ daemonId hb jobHb, stage = .working daemonId hb (.executing job jobHb step) := by
  cases stage with
  | working daemonId hb work =>
    cases work with
    | executing job' jobHb step' =>
      cases h
      exact ⟨daemonId, hb, jobHb, rfl⟩
    | _ => cases h
  | _ => cases h

/-- The job that an upload or a report is about. -/
def FrekiCall.about : FrekiCall → Option Nat
  | .uploadModel form => form.trainingJobId
  | .completeJob jobId _ _ => some jobId
  | .failJob jobId _ _ _ => some jobId
  | _ => none

/-- How an event moves the job of a daemon, and the call it makes. -/
inductive Move (config : NornirConfig) (before : Option (ClaimedJobOut × JobStep))
    (e : NornirEvent) : Option FrekiCall → Option (ClaimedJobOut × JobStep) → Prop where
  /-- The job stays where it is; a call is a heartbeat. -/
  | keep (call : Option FrekiCall)
      (hcall : ∀ c ∈ call, e.inBackground = true ∧ c.about = none)
      (hupload : ∀ job t outcome, before = some (job, .uploading t) → e ≠ .uploaded outcome) :
      Move config before e call before
  /-- No job is executed any more; a call is about none. -/
  | ended (call : Option FrekiCall)
      (hcall : ∀ c ∈ call, e.inBackground = false ∧ c.about = none) :
      Move config before e call none
  /-- Only the heartbeat in flight is awaited. -/
  | joining (job : ClaimedJobOut) (step : JobStep) (raising : Bool)
      (hbefore : before = some (job, step)) :
      Move config before e none (some (job, .joining raising))
  | begin (job : ClaimedJobOut) (hevent : e = .claimed (.ok job)) :
      Move config before e none (some (job, .training))
  | upload (job : ClaimedJobOut) (trained : Trained) (hbefore : before = some (job, .training))
      (hcall : e.inBackground = false) :
      Move config before e (some (.uploadModel (uploadForm config job trained)))
        (some (job, .uploading trained))
  | fail (job : ClaimedJobOut) (step : JobStep) (daemonId : Nat) (text : String)
      (hbefore : before = some (job, step))
      (hstep : step = .training ∨ ∃ trained, step = .uploading trained)
      (hcall : e.inBackground = false) :
      Move config before e (some (.failJob job.id daemonId job.claimToken text))
        (some (job, .failing))
  | complete (job : ClaimedJobOut) (trained : Trained) (modelId daemonId : Nat)
      (hbefore : before = some (job, .uploading trained))
      (hevent : e = .uploaded (.ok modelId)) :
      Move config before e (some (.completeJob job.id daemonId job.claimToken))
        (some (job, .completing))

/-- What the loops of `main` do when no job is executed. -/
def Loops (next : Next) : Prop :=
  next.2.job? = none ∧ ∀ c ∈ next.1, c.about = none

/-- Back in a loop, the job has ended. -/
theorem Loops.ended {before : Option (ClaimedJobOut × JobStep)} {e : NornirEvent} {next : Next}
    (h : Loops next) (hfore : e.inBackground = false) :
    Move config before e next.1 next.2.job? := by
  rw [h.1]
  exact .ended next.1 fun c hc => ⟨hfore, h.2 c hc⟩

/-- The start of a round. -/
private theorem loops_claimLoop (stop : Bool) (daemonId : Nat) (hb : Heartbeat) :
    Loops (claimLoop stop daemonId hb) := by
  cases stop with
  | false => exact ⟨rfl, fun c hc => by cases hc; rfl⟩
  | true => exact ⟨rfl, fun c hc => nomatch hc⟩

/-- The wait between two rounds. -/
private theorem loops_idle (stop : Bool) (daemonId : Nat) (hb : Heartbeat) :
    Loops (idle stop daemonId hb) := by
  cases stop with
  | false => exact ⟨rfl, fun c hc => nomatch hc⟩
  | true => exact ⟨rfl, fun c hc => nomatch hc⟩

/-- The next claim of a round. -/
private theorem loops_tryClaim (stop : Bool) (daemonId : Nat) (hb : Heartbeat) (jobs : List Nat) :
    Loops (tryClaim stop daemonId hb jobs) := by
  cases jobs with
  | nil => exact loops_idle stop daemonId hb
  | cons jobId rest => exact ⟨rfl, fun c hc => by cases hc; rfl⟩

/-- The end of `main`. -/
private theorem loops_left (raising : Bool) : Loops (none, .left raising) :=
  ⟨rfl, fun _ hc => nomatch hc⟩

/-- The way back from `_execute_job`. -/
private theorem loops_afterJob (stop : Bool) (daemonId : Nat) (hb : Heartbeat) (raising : Bool) :
    Loops (afterJob stop daemonId hb raising) := by
  cases raising with
  | false => exact loops_claimLoop stop daemonId hb
  | true => exact loops_left true

/-- The `finally` of `_execute_job` ends the job or waits for its heartbeat. -/
private theorem join_moves (stop : Bool) (daemonId : Nat) (hb : Heartbeat) (job : ClaimedJobOut)
    (step : JobStep) (raising : Bool) (jobHb : Heartbeat) {e : NornirEvent}
    (hfore : e.inBackground = false) :
    Move config (some (job, step)) e (join stop daemonId hb job raising jobHb).1
      (join stop daemonId hb job raising jobHb).2.job? := by
  cases jobHb with
  | waiting => exact (loops_afterJob stop daemonId hb raising).ended hfore
  | sending => exact .joining job step raising rfl
  | died => exact (loops_afterJob stop daemonId hb true).ended hfore

/-- After a report the job has ended, or its heartbeat task is joined first. -/
private theorem afterReport_moves (stop : Bool) (daemonId : Nat) (hb : Heartbeat)
    (job : ClaimedJobOut)
    (step : JobStep) (jobHb : Heartbeat) (outcome : Except CallError Unit) {e : NornirEvent}
    (hfore : e.inBackground = false) :
    Move config (some (job, step)) e (afterReport stop daemonId hb job jobHb outcome).1
      (afterReport stop daemonId hb job jobHb outcome).2.job? := by
  cases outcome with
  | ok _ => exact join_moves stop daemonId hb job step false jobHb hfore
  | error exc =>
    cases exc with
    | freki status text => exact join_moves stop daemonId hb job step false jobHb hfore
    | transport text => exact join_moves stop daemonId hb job step true jobHb hfore

/-- What one event does to the job of a daemon that is not stopped by it. -/
private theorem advance_moves (stop : Bool) (stage : Stage) (e : NornirEvent) :
    Move config stage.job? e (advance config stop stage e).1
      (advance config stop stage e).2.job? := by
  unfold advance
  split
  -- the registration loop
  · rename_i outcome
    cases outcome with
    | ok daemonId => exact (loops_claimLoop stop daemonId .waiting).ended rfl
    | error exc =>
      cases exc with
      | freki status text =>
        cases stop with
        | false => exact .ended none fun c hc => nomatch hc
        | true => exact .ended none fun c hc => nomatch hc
      | transport text => exact (loops_left true).ended rfl
  · exact .ended _ fun c hc => by cases hc; exact ⟨rfl, rfl⟩
  -- the claim loop
  · rename_i daemonId hb outcome
    cases outcome with
    | ok queued => exact (loops_tryClaim stop daemonId hb queued.reverse).ended rfl
    | error exc =>
      cases exc with
      | freki status text => exact (loops_idle stop daemonId hb).ended rfl
      | transport text => exact (loops_left true).ended rfl
  · rename_i daemonId hb jobId rest outcome
    cases outcome with
    | ok job => exact .begin job rfl
    | error exc =>
      cases exc with
      | freki status text =>
        rw [afterClaim_freki]
        exact (loops_tryClaim stop daemonId hb rest).ended rfl
      | transport text => exact (loops_left true).ended rfl
  -- `_execute_job`
  · rename_i daemonId hb job jobHb outcome
    cases outcome with
    | ok trained => exact .upload job trained rfl rfl
    | error exc => exact .fail job .training daemonId _ rfl (.inl rfl) rfl
  · rename_i daemonId hb job jobHb trained outcome
    cases outcome with
    | ok modelId => exact .complete job trained modelId daemonId rfl rfl
    | error exc =>
      cases exc with
      | freki status text =>
        exact .fail job (.uploading trained) daemonId _ rfl (.inr ⟨trained, rfl⟩) rfl
      | transport text => exact join_moves stop daemonId hb job (.uploading trained) true jobHb rfl
  · rename_i daemonId hb job jobHb outcome
    exact afterReport_moves stop daemonId hb job .completing jobHb outcome rfl
  · rename_i daemonId hb job jobHb outcome
    exact afterReport_moves stop daemonId hb job .failing jobHb outcome rfl
  -- the pause between two rounds of the claim loop
  · rename_i daemonId hb
    exact (loops_claimLoop stop daemonId hb).ended rfl
  -- the heartbeats
  · rename_i daemonId hb job raising outcome
    exact join_moves stop daemonId hb job (.joining raising) raising (afterHeartbeat outcome) rfl
  · refine Move.keep _ ?_ (fun _ _ _ _ h => nomatch h)
    rintro c ⟨⟩
    exact ⟨rfl, rfl⟩
  · exact Move.keep none (fun c hc => nomatch hc) (fun _ _ _ _ h => nomatch h)
  · refine Move.keep _ ?_ (fun _ _ _ _ h => nomatch h)
    rintro c ⟨⟩
    exact ⟨rfl, rfl⟩
  · exact Move.keep none (fun c hc => nomatch hc) (fun _ _ _ _ h => nomatch h)
  -- nothing is awaited that the event would end
  · rename_i hupload _ _ _ _ _ _ _ _
    refine Move.keep none (fun c hc => nomatch hc) ?_
    intro job trained outcome hbefore hevent
    obtain ⟨daemonId, hb, jobHb, hstage⟩ := Stage.job?_eq_some hbefore
    exact hupload daemonId hb job jobHb trained outcome hstage hevent

/-- What one event does to the job of a daemon. -/
theorem Daemon.step_moves (d : Daemon) (e : NornirEvent) :
    Move config d.stage.job? e (d.step config e).1 (d.step config e).2.stage.job? := by
  cases e with
  | signal =>
    have hkeep : (stopped d.stage).job? = d.stage.job? := by
      cases d.stage with
      | working daemonId hb work => cases work <;> rfl
      | _ => rfl
    simp only [Daemon.step, hkeep]
    apply Move.keep none
    · intro c hc
      cases hc
    · intro _ _ _ _ h
      cases h
  | _ => exact advance_moves d.stop d.stage _

end Grimnir.Nornir
