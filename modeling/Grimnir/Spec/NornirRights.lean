import Grimnir.Spec.JobOwnership
import Grimnir.Spec.ModelRegistry
import Grimnir.Spec.NornirMoves

/-!
# The rights of a daemon

A successful claim gives one daemon the right to upload one model for the job and to report
on it once.  The right passes from the answer of the claim to the training job, to the
upload on its way and to the stored row; no event of the daemon makes a second one.

## Key results

- `Held.unique`: a job is held by one daemon
- `serveCall_effect`: what comes of serving a call
- `Move.uploadRight`, `Move.reportRight`: what an event does to the rights of a daemon
-/

namespace Grimnir.Nornir

open JobDb

/-! ## Reading the log -/

/-- What a run of the fleet has shown, newest first. -/
abbrev FleetLog := List (FleetEvent × FleetResponse)

/-- The requests to the job queue. -/
def jobLog (log : FleetLog) : JobLog := log.filterMap (·.2.job)

/-- The rows that daemons have inserted. -/
def uploads (log : FleetLog) : List (Nat × ModelOut) := log.filterMap (·.2.uploaded)

/-- One more entry adds its request to the queue. -/
theorem jobLog_cons (x : FleetEvent × FleetResponse) (log : FleetLog) :
    jobLog (x :: log) = x.2.job.toList ++ jobLog log := by
  unfold jobLog
  rw [List.filterMap_cons]
  cases x.2.job <;> rfl

/-- One more entry adds the row that it stored. -/
theorem uploads_cons (x : FleetEvent × FleetResponse) (log : FleetLog) :
    uploads (x :: log) = x.2.uploaded.toList ++ uploads log := by
  unfold uploads
  rw [List.filterMap_cons]
  cases x.2.uploaded <;> rfl

/-- The call reports on the job. -/
def FrekiCall.reports (jobId : Nat) : FrekiCall → Bool
  | .completeJob id _ _ => id = jobId
  | .failJob id _ _ _ => id = jobId
  | _ => false

/-- How often a daemon has reported on a job. -/
def reports (log : FleetLog) (pid jobId : Nat) : Nat :=
  log.countP fun x => x.2.sent.any fun p => p.1 = pid && p.2.reports jobId

/-- The event is the answer of a successful claim of the job. -/
def NornirEvent.claims (jobId : Nat) : NornirEvent → Bool
  | .claimed (.ok job) => job.id = jobId
  | _ => false

/-- How often a daemon has begun to execute a job. -/
def executions (log : FleetLog) (pid jobId : Nat) : Nat :=
  log.countP fun x => x.2.received.any fun p => p.1 = pid && p.2.claims jobId

/-- Daemon `pid` made a claim of the job that succeeded. -/
def Held (log : JobLog) (pid jobId : Nat) : Prop :=
  ∃ p ∈ claims log, p.jobId = jobId ∧ p.actor = pid

/-- A claim that succeeded stays in the log. -/
theorem Held.cons {log : JobLog} {pid jobId : Nat} (h : Held log pid jobId)
    (x : JobEvent × Grimnir.JobResult) : Held (x :: log) pid jobId := by
  obtain ⟨p, hp, hid, hactor⟩ := h
  refine ⟨p, ?_, hid, hactor⟩
  rw [claims_cons]
  exact List.mem_append_right _ hp

/-- No job was claimed twice. -/
theorem claimCount_le_one {log : JobLog} {db : JobDb} (h : Owned log db) (jobId : Nat) :
    claimCount log jobId ≤ 1 := by
  by_cases hzero : claimCount log jobId = 0
  · omega
  · obtain ⟨k, hk, rfl⟩ := h.known jobId hzero
    exact h.once k hk

/-- The claims of one job are at most one. -/
theorem claims_of_job {log : JobLog} {db : JobDb} (h : Owned log db) {jobId : Nat} {p : Claim}
    (hp : p ∈ claims log) (hid : p.jobId = jobId) :
    (claims log).filter (fun q => q.jobId = jobId) = [p] := by
  have hmem : p ∈ (claims log).filter fun q => q.jobId = jobId :=
    List.mem_filter.mpr ⟨hp, by simpa using hid⟩
  have hlen : ((claims log).filter fun q => q.jobId = jobId).length ≤ 1 := by
    rw [← List.countP_eq_length_filter]
    exact claimCount_le_one h jobId
  obtain ⟨q, hq⟩ := List.length_eq_one_iff.mp
    (Nat.le_antisymm hlen (List.length_pos_of_mem hmem))
  rw [hq] at hmem ⊢
  rw [List.mem_singleton.mp hmem]

/-- A job is held by one daemon. -/
theorem Held.unique {log : JobLog} {db : JobDb} (h : Owned log db) {pid pid' jobId : Nat}
    (hheld : Held log pid jobId) (hheld' : Held log pid' jobId) : pid = pid' := by
  obtain ⟨p, hp, hid, rfl⟩ := hheld
  obtain ⟨q, hq, hid', rfl⟩ := hheld'
  have hone := (claims_of_job h hp hid).symm.trans (claims_of_job h hq hid')
  cases hone
  rfl

/-- A row is complete because it was, or because this request completed it. -/
theorem complete_of_step {secret : String} {db : JobDb} {e : JobEvent} {k : TrainingJob}
    (hk : k ∈ (db.step secret e).2.jobs) (hstatus : k.status = .complete) :
    (∃ j ∈ db.jobs, j.id = k.id ∧ j.status = .complete) ∨
      ∃ actor provided body now, e = .control .complete actor provided k.id body now := by
  have heff := step_effect secret db e
  generalize (db.step secret e).1 = res at heff
  generalize (db.step secret e).2 = db' at heff hk
  -- a written row that is complete was completed
  have hwritten {j j' : TrainingJob} (hw : Wrote j j' db db') (hj' : j'.status ≠ .complete) :
      ∃ j ∈ db.jobs, j.id = k.id ∧ j.status = .complete := by
    rcases (hw.mem k).mp hk with rfl | ⟨hold, -⟩
    · exact absurd hstatus hj'
    · exact ⟨k, hold, rfl, hstatus⟩
  cases heff with
  | refused _ f => exact .inl ⟨k, hk, rfl, hstatus⟩
  | registered _ _ _ _ _ _ hjobs _ =>
    rw [hjobs] at hk
    exact .inl ⟨k, hk, rfl, hstatus⟩
  | created rooms spec now =>
    rcases mem_insertJob.mp hk with hk | rfl
    · exact .inl ⟨k, hk, rfl, hstatus⟩
    · cases hstatus
  | claimed _ _ _ _ _ j hj hqueued _ hwrote =>
    exact .inl (hwritten hwrote JobStatus.noConfusion)
  | controlled kind actor provided body now j hj howner _ hwrote =>
    -- of the three controls only `complete` writes that status
    cases kind with
    | heartbeat =>
      refine .inl (hwritten hwrote ?_)
      show j.status ≠ .complete
      rw [(runningFor_iff.mp howner).1]
      exact JobStatus.noConfusion
    | complete =>
      rcases (hwrote.mem k).mp hk with rfl | ⟨hold, -⟩
      · exact .inr ⟨actor, provided, body, now, rfl⟩
      · exact .inl ⟨k, hold, rfl, hstatus⟩
    | fail error => exact .inl (hwritten hwrote JobStatus.noConfusion)
  | cancelled now j hj hlive _ hwrote => exact .inl (hwritten hwrote JobStatus.noConfusion)
  | reaped timeout now =>
    -- a sweep fails running rows and inserts queued ones
    rcases mem_reap.mp hk with ⟨j, hj, rfl⟩ | hcopy
    · by_cases hrunning : j.status = .running
      · unfold reapRow at hstatus
        split at hstatus
        · cases hstatus
        · rw [hrunning] at hstatus
          cases hstatus
      · rw [reapRow_of_not_running hrunning] at hstatus ⊢
        exact .inl ⟨j, hj, rfl, hstatus⟩
    · obtain ⟨id, spec, -, rfl, -⟩ := mem_copies hcopy
      cases hstatus

/-! ## The registry -/

/-- The rows of the registry, with the jobs they belong to. -/
def modelKeys (db : ModelDb) : List (Nat × Option Nat) :=
  db.models.rows.map fun m => (m.id, m.trainingJobId)

/-- How many models a job has. -/
def modelCount (db : ModelDb) (jobId : Nat) : Nat :=
  (modelKeys db).countP fun k => k.2 = some jobId

/-- One more row counts for the job it belongs to. -/
theorem modelCount_append {db db' : ModelDb} {k : Nat × Option Nat}
    (h : modelKeys db' = modelKeys db ++ [k]) (jobId : Nat) :
    modelCount db' jobId = modelCount db jobId + (decide (k.2 = some jobId)).toNat := by
  unfold modelCount
  rw [h, List.countP_append, List.countP_singleton]
  by_cases hjob : k.2 = some jobId <;> simp [hjob]

/-- An upload adds a row of its job or nothing. -/
theorem uploadModel_keys (py : Pydantic) (build : Build) (secret : String)
    (provided : Option String) (form : ModelForm) (jobExists : Nat → Bool) (now : Timestamp)
    (db : ModelDb) :
    (∃ f db', uploadModel py build secret provided form jobExists now db = (.error f, db') ∧
        modelKeys db' = modelKeys db) ∨
      ∃ out db', uploadModel py build secret provided form jobExists now db = (.ok out, db') ∧
        out.trainingJobId = form.trainingJobId ∧
        modelKeys db' = modelKeys db ++ [(out.id, form.trainingJobId)] := by
  rcases uploadModel_stores py build secret provided form jobExists now db with
    ⟨f, db', hres, hsame⟩ | ⟨metrics, members, fc, -, -, -, hres⟩
  · exact .inl ⟨f, db', hres, by rw [modelKeys, hsame, modelKeys]⟩
  · refine .inr ⟨_, _, hres, rfl, ?_⟩
    simp [modelKeys, ModelDb.insertModel, TrainedModel.out]

/-- Writing a row leaves every model with its job. -/
private theorem writeRow_keys {w : ModelDb.RowWrite} {db db' : ModelDb}
    (h : db.writeRow w = .ok db') : modelKeys db' = modelKeys db := by
  unfold ModelDb.writeRow at h
  split at h
  · cases h
    simp only [modelKeys, Table.rows_update, List.map_map]
    refine List.map_congr_left fun m _ => ?_
    cases w <;> simp only [Function.comp_apply, ModelDb.RowWrite.apply] <;> split <;> rfl
  · cases h

/-- So do the row writes of a statement, by induction on their order. -/
private theorem writeRows_keys {order : List ModelDb.RowWrite} {db db' : ModelDb}
    (h : ModelDb.writeRows order db = .ok db') : modelKeys db' = modelKeys db := by
  induction order generalizing db with
  | nil =>
    cases h
    rfl
  | cons w order ih =>
    obtain ⟨written, hwrite, hrest⟩ := Except.bind_eq_ok.mp h
    exact (ih hrest).trans (writeRow_keys hwrite)

/-- An activation leaves every row with its job. -/
theorem activateModel_keys (id : Nat) (order : List ModelDb.RowWrite) (db : ModelDb) :
    modelKeys (db.activateModel id order).2 = modelKeys db := by
  unfold ModelDb.activateModel
  split
  · rfl
  · rename_i hwrites
    split
    · rfl
    · split
      · exact writeRows_keys hwrites
      · exact writeRows_keys hwrites

/-! ## Serving a call -/

/-- The job that a call completes. -/
def FrekiCall.completes : FrekiCall → Option Nat
  | .completeJob jobId _ _ => some jobId
  | _ => none

/-- A completion is about the job it completes. -/
theorem about_of_completes {c : FrekiCall} {jobId : Nat} (h : c.completes = some jobId) :
    c.about = some jobId := by
  cases c with
  | completeJob id daemonId token => exact h
  | _ => cases h

/-- What comes of serving a call of daemon `pid`. -/
inductive ServeEffect (secret : String) (pid : Nat) (call : FrekiCall) (jobs : JobDb)
    (models : ModelDb) : Served → Prop where
  /-- Nothing is claimed, completed or stored. -/
  | quiet (answer : NornirEvent) (job : Option (JobEvent × Grimnir.JobResult)) (jobs' : JobDb)
      (models' : ModelDb)
      (hjobs : job = none ∧ jobs' = jobs ∨ ∃ e, job = some (e, (jobs.step secret e).1) ∧
        jobs' = (jobs.step secret e).2 ∧ claimedBy (e, (jobs.step secret e).1) = none ∧
        ∀ actor provided jobId body now, e = .control .complete actor provided jobId body now →
          call.completes = some jobId)
      (hclaims : ∀ jobId, answer.claims jobId = false)
      (hupload : ∀ modelId, answer ≠ .uploaded (.ok modelId))
      (hrefused : ∀ form, call = .uploadModel form → ∃ error, answer = .uploaded (.error error))
      (hkeys : modelKeys models' = modelKeys models) :
      ServeEffect secret pid call jobs models ⟨answer, job, none, jobs', models'⟩
  | claimed (e : JobEvent) (p : Claim) (out : ClaimedJobOut) (hactor : p.actor = pid)
      (hid : out.id = p.jobId) (hclaim : claimedBy (e, (jobs.step secret e).1) = some p)
      (hcomplete : ∀ actor provided jobId body now,
        e ≠ .control .complete actor provided jobId body now)
      (hcall : ∀ form, call ≠ .uploadModel form) (habout : call.about = none) :
      ServeEffect secret pid call jobs models
        ⟨.claimed (.ok out), some (e, (jobs.step secret e).1), none, (jobs.step secret e).2,
          models⟩
  | uploaded (form : ModelForm) (out : ModelOut) (models' : ModelDb)
      (hcall : call = .uploadModel form) (hjob : out.trainingJobId = form.trainingJobId)
      (hkeys : modelKeys models' = modelKeys models ++ [(out.id, form.trainingJobId)]) :
      ServeEffect secret pid call jobs models
        ⟨.uploaded (.ok out.id), none, some out, jobs, models'⟩

/-- A control request claims and stores nothing, and completes at most its own job. -/
private theorem serveControl_effect (secret : String) (pid : Nat) (provided : Option String)
    (kind : ControlKind) (jobId daemonId : Nat) (claimToken : String) (now : Timestamp)
    {wrap : Except CallError Unit → NornirEvent} {call : FrekiCall} (jobs : JobDb)
    (models : ModelDb)
    (hcomplete : kind = .complete → call.completes = some jobId)
    (hclaims : ∀ outcome jobId, (wrap outcome).claims jobId = false)
    (hupload : ∀ outcome modelId, wrap outcome ≠ .uploaded (.ok modelId))
    (hcall : ∀ form, call ≠ .uploadModel form) :
    ServeEffect secret pid call jobs models
      (serveControl secret pid provided kind jobId daemonId claimToken now wrap jobs models) := by
  unfold serveControl
  split
  · exact .quiet _ none jobs _ (.inl ⟨rfl, rfl⟩) (hclaims _) (hupload _)
      (fun form h => absurd h (hcall form)) rfl
  · rename_i body _
    refine .quiet _ _ _ _ (.inr ⟨_, rfl, rfl, rfl, ?_⟩) (hclaims _) (hupload _)
      (fun form h => absurd h (hcall form)) rfl
    intro actor provided' jobId' body' now' heq
    cases heq
    exact hcomplete rfl

/-- A claim is refused or answered with the claimed job. -/
theorem claim_answer (secret : String) (actor : Nat) (provided : Option String)
    (jobId daemonId : Nat) (token : String) (now : Timestamp) (jobs : JobDb) :
    (∃ f, (jobs.step secret (.claim actor provided jobId daemonId token now)).1 = .error f) ∨
      ∃ out, (jobs.step secret (.claim actor provided jobId daemonId token now)).1 =
        .ok (.claimed out) ∧ out.id = jobId := by
  have heff := step_effect secret jobs (.claim actor provided jobId daemonId token now)
  generalize (jobs.step secret (.claim actor provided jobId daemonId token now)).1 = res at heff
  generalize (jobs.step secret (.claim actor provided jobId daemonId token now)).2 = db' at heff
  cases heff with
  | refused _ f => exact .inl ⟨f, rfl⟩
  | claimed _ _ _ _ _ j hj hqueued _ hwrote => exact .inr ⟨_, rfl, rfl⟩

/-- What comes of serving a call. -/
theorem serveCall_effect (inst : Installation) (pid : Nat) (call : FrekiCall) (svc : Service)
    (jobs : JobDb) (models : ModelDb) :
    ServeEffect inst.mlControlSecret pid call jobs models
      (serveCall inst pid call svc jobs models) := by
  -- one case a request: the three controls share `serveControl_effect`
  cases call with
  | heartbeatDaemon name host =>
    exact .quiet _ _ _ _ (.inr ⟨_, rfl, rfl, rfl, fun _ _ _ _ _ h => nomatch h⟩) (fun _ => rfl)
      (fun _ h => nomatch h) (fun _ h => nomatch h) rfl
  | listQueuedJobs limit =>
    exact .quiet _ _ _ _ (.inl ⟨rfl, rfl⟩) (fun _ => rfl) (fun _ h => nomatch h)
      (fun _ h => nomatch h) rfl
  | claimJob jobId daemonId =>
    rcases claim_answer inst.mlControlSecret pid
      (header (inst.daemons pid).mlControlSharedSecret) jobId daemonId svc.claimToken svc.now
      jobs with ⟨f, hres⟩ | ⟨out, hres, hid⟩
    · -- a refused claim changes nothing in the books
      simp only [serveCall, hres]
      refine .quiet _ _ _ _ (.inr ⟨_, by rw [hres], rfl, by rw [hres]; rfl, ?_⟩) ?_ ?_ ?_ rfl
      · exact fun _ _ _ _ _ h => nomatch h
      · exact fun _ => rfl
      · exact fun _ h => nomatch h
      · exact fun _ h => nomatch h
    · simp only [serveCall, hres]
      have heff : ServeEffect inst.mlControlSecret pid (.claimJob jobId daemonId) jobs models _ :=
        .claimed (.claim pid (header (inst.daemons pid).mlControlSharedSecret) jobId daemonId
          svc.claimToken svc.now) ⟨pid, jobId, daemonId, svc.claimToken⟩ out rfl hid
          (by rw [hres]; rfl) (fun _ _ _ _ _ h => nomatch h) (fun _ h => nomatch h) rfl
      rw [hres] at heff
      exact heff
  | heartbeatJob jobId daemonId claimToken =>
    exact serveControl_effect _ pid _ .heartbeat jobId daemonId claimToken svc.now jobs models
      (fun h => nomatch h) (fun _ _ => rfl) (fun _ _ h => nomatch h) (fun _ h => nomatch h)
  | uploadModel form =>
    unfold serveCall
    dsimp only
    rcases uploadModel_keys inst.py svc.build inst.modelUploadSecret
      (header (inst.daemons pid).modelUploadSharedSecret) form
      (fun id => (jobs.jobs.find? id).isSome) svc.now models with
      -- the upload is refused, or its row goes in under the form's own job id
      ⟨f, models', hres, hkeys⟩ | ⟨out, models', hres, hjob, hkeys⟩
    · rw [hres]
      exact .quiet _ _ _ models' (.inl ⟨rfl, rfl⟩) (fun _ => rfl) (fun _ h => nomatch h)
        (fun form _ => ⟨_, rfl⟩) hkeys
    · rw [hres]
      exact .uploaded form out models' rfl hjob hkeys
  | completeJob jobId daemonId claimToken =>
    exact serveControl_effect _ pid _ .complete jobId daemonId claimToken svc.now jobs models
      (fun _ => rfl) (fun _ _ => rfl) (fun _ _ h => nomatch h) (fun _ h => nomatch h)
  | failJob jobId daemonId claimToken error =>
    exact serveControl_effect _ pid _ (.fail error) jobId daemonId claimToken svc.now jobs models
      (fun h => nomatch h) (fun _ _ => rfl) (fun _ _ h => nomatch h) (fun _ h => nomatch h)

namespace ServeEffect
variable {secret : String} {pid : Nat} {call : FrekiCall} {jobs : JobDb} {models : ModelDb}
  {served : Served}

/-- The queue stays in agreement with its log. -/
theorem owned (h : ServeEffect secret pid call jobs models served) {log : JobLog}
    (howned : Owned log jobs) : Owned (served.job.toList ++ log) served.jobs := by
  cases h with
  | quiet answer job jobs' models' hjobs hclaims hupload hrefused hkeys =>
    rcases hjobs with ⟨rfl, rfl⟩ | ⟨e, rfl, rfl, -⟩
    · exact howned
    · exact howned.effect (step_effect secret jobs e)
  | claimed e p out hactor hid hclaim hcomplete hcall habout =>
    exact howned.effect (step_effect secret jobs e)
  | uploaded form out models' hcall hjob hkeys => exact howned

/-- A claim is counted when its answer says so. -/
theorem claimCount (h : ServeEffect secret pid call jobs models served) (log : JobLog)
    (jobId : Nat) :
    JobDb.claimCount (served.job.toList ++ log) jobId =
      JobDb.claimCount log jobId + (served.answer.claims jobId).toNat := by
  cases h with
  | quiet answer job jobs' models' hjobs hclaims hupload hrefused hkeys =>
    rw [hclaims]
    rcases hjobs with ⟨rfl, -⟩ | ⟨e, rfl, -, hclaim, -⟩
    · rfl
    · show JobDb.claimCount ((e, _) :: log) jobId = _
      rw [claimCount_cons, hclaim]
      rfl
  | claimed e p out hactor hid hclaim hcomplete hcall habout =>
    show JobDb.claimCount ((e, _) :: log) jobId = _
    rw [claimCount_cons, hclaim, Option.any_some, ← hid]
    show _ = _ + (decide (out.id = jobId)).toNat
    by_cases hjob : out.id = jobId <;> simp [hjob]
  | uploaded form out models' hcall hjob hkeys => rfl

/-- The answer to a claim is the daemon's own. -/
theorem held (h : ServeEffect secret pid call jobs models served) (log : JobLog) {jobId : Nat}
    (hclaims : served.answer.claims jobId = true) : Held (served.job.toList ++ log) pid jobId := by
  cases h with
  | quiet answer job jobs' models' hjobs hnone hupload hrefused hkeys =>
    rw [hnone] at hclaims
    cases hclaims
  | claimed e p out hactor hid hclaim hcomplete hcall habout =>
    have hjob : out.id = jobId := of_decide_eq_true hclaims
    refine ⟨p, ?_, hid.symm.trans hjob, hactor⟩
    show p ∈ claims ((e, _) :: log)
    rw [claims_cons, hclaim]
    exact List.mem_append_left _ (List.mem_singleton.mpr rfl)
  | uploaded form out models' hcall hjob hkeys => cases hclaims

end ServeEffect

/-- A claim that succeeded is in any longer log. -/
theorem Held.append {log : JobLog} {pid jobId : Nat} (h : Held log pid jobId)
    (job : Option (JobEvent × Grimnir.JobResult)) : Held (job.toList ++ log) pid jobId := by
  cases job with
  | none => exact h
  | some x => exact h.cons x

/-! ## The rights of a daemon -/

/-- The call uploads a model of the job. -/
def FrekiCall.uploads (jobId : Nat) : FrekiCall → Bool
  | .uploadModel form => form.trainingJobId = some jobId
  | _ => false

/-- The awaited call is a claim of the job that succeeded. -/
def Pending.claims (jobId : Nat) (p : Pending) : Bool := p.answer.any (NornirEvent.claims jobId)

/-- The awaited call is an upload for the job that is not served yet. -/
def Pending.uploads (jobId : Nat) (p : Pending) : Bool :=
  p.answer.isNone && p.call.uploads jobId

/-- The job is training. -/
def trains (jobId : Nat) : Option (ClaimedJobOut × JobStep) → Bool
  | some (job, .training) => job.id = jobId
  | _ => false

/-- The job is training or its model on the way. -/
def unreported (jobId : Nat) : Option (ClaimedJobOut × JobStep) → Bool
  | some (job, .training) => job.id = jobId
  | some (job, .uploading _) => job.id = jobId
  | _ => false

/-- The uploads for a job that the daemon can still cause. -/
def Line.uploadRight (jobId : Nat) (l : Line) : Nat :=
  (trains jobId l.daemon.stage.job?).toNat + (l.pending.any (Pending.claims jobId)).toNat +
    (l.pending.any (Pending.uploads jobId)).toNat

/-- The reports on a job that the daemon can still send. -/
def Line.reportRight (jobId : Nat) (l : Line) : Nat :=
  (unreported jobId l.daemon.stage.job?).toNat + (l.pending.any (Pending.claims jobId)).toNat

/-- The daemon has to do with the job. -/
def Line.Holds (jobId : Nat) (l : Line) : Prop :=
  (∃ job step, l.daemon.stage.job? = some (job, step) ∧ job.id = jobId) ∨
    ∃ p, l.pending = some p ∧ (p.call.about = some jobId ∨ p.claims jobId = true)

/-- The awaited call after an event: a new one, or as before. -/
def nextPending (pending : Option Pending) (e : NornirEvent) (call : Option FrekiCall) :
    Option Pending :=
  match call with
  | none => pending
  | some call => if e.inBackground then pending else some ⟨call, none⟩

/-- The requests nobody waits for, after an event. -/
def nextLate (pid : Nat) (late : List (Nat × FrekiCall)) (e : NornirEvent)
    (call : Option FrekiCall) : List (Nat × FrekiCall) :=
  match call with
  | none => late
  | some call => if e.inBackground then (pid, call) :: late else late

/-- Waking a daemon, with what it awaits afterwards and what nobody waits for any more. -/
theorem wake_eq (pid : Nat) (pending : Option Pending) (e : NornirEvent) (s : Fleet) :
    s.wake config pid pending e =
      (((s.lines pid).daemon.step config e).1.map fun call => (pid, call),
        { s.setLine pid ⟨((s.lines pid).daemon.step config e).2,
            nextPending pending e ((s.lines pid).daemon.step config e).1⟩ with
          late := nextLate pid s.late e ((s.lines pid).daemon.step config e).1 }) := by
  unfold Fleet.wake nextPending nextLate
  cases (s.lines pid).daemon.step config e with
  | mk call daemon =>
    cases call with
    | none => rfl
    | some call =>
      dsimp only
      split <;> rfl

section Move
variable {before after : Option (ClaimedJobOut × JobStep)} {e : NornirEvent}
  {call : Option FrekiCall}

/-- A call about no job leaves what is awaited for a job. -/
theorem uploads_of_about {c : FrekiCall} (h : c.about = none) (jobId : Nat) :
    c.uploads jobId = false := by
  cases c with
  | uploadModel form =>
    have hnone : form.trainingJobId = none := h
    simp [FrekiCall.uploads, hnone]
  | _ => rfl

/-- An upload is about the job of its model. -/
theorem about_of_uploads {c : FrekiCall} {jobId : Nat} (h : c.uploads jobId = true) :
    c.about = some jobId := by
  cases c with
  | uploadModel form => exact of_decide_eq_true h
  | _ => cases h

/-- A call that is about no job reports on none. -/
private theorem reports_of_about {c : FrekiCall} (h : c.about = none) (jobId : Nat) :
    c.reports jobId = false := by
  cases c with
  | completeJob => cases h
  | failJob => cases h
  | _ => rfl

/-- A new call without a right leaves the awaited rights as they were. -/
theorem nextPending_any {q : Pending → Bool} {pending : Option Pending}
    (hq : ∀ c ∈ call, q ⟨c, none⟩ = false) :
    ((nextPending pending e call).any q).toNat ≤ (pending.any q).toNat := by
  unfold nextPending
  split
  · exact Nat.le_refl _
  · rename_i c
    split
    · exact Nat.le_refl _
    · rw [Option.any_some, hq c rfl]
      exact Nat.zero_le _

/-- No event gives a daemon the right to an upload but the answer to its claim. -/
theorem Move.uploadRight (h : Move config before e call after) (pending : Option Pending)
    (jobId : Nat) :
    (trains jobId after).toNat +
        ((nextPending pending e call).any (Pending.claims jobId)).toNat +
        ((nextPending pending e call).any (Pending.uploads jobId)).toNat ≤
      (trains jobId before).toNat + (pending.any (Pending.claims jobId)).toNat +
        (pending.any (Pending.uploads jobId)).toNat + (e.claims jobId).toNat := by
  -- claims in flight can only be answered, never added by a move
  have hclaims : ((nextPending pending e call).any (Pending.claims jobId)).toNat ≤
      (pending.any (Pending.claims jobId)).toNat :=
    nextPending_any fun _ _ => rfl
  have huploads (hfree : ∀ c ∈ call, c.uploads jobId = false) :
      ((nextPending pending e call).any (Pending.uploads jobId)).toNat ≤
        (pending.any (Pending.uploads jobId)).toNat :=
    nextPending_any fun c hc => by rw [Pending.uploads, hfree c hc, Bool.and_false]
  cases h with
  | keep _ hcall _ =>
    have := huploads fun c hc => uploads_of_about (hcall c hc).2 jobId
    omega
  | ended _ hcall =>
    have := huploads fun c hc => uploads_of_about (hcall c hc).2 jobId
    have hnone : (trains jobId none).toNat = 0 := rfl
    omega
  | joining job step raising hbefore =>
    have := huploads fun c hc => nomatch hc
    have hnone : (trains jobId (some (job, .joining raising))).toNat = 0 := rfl
    omega
  | begin job hevent =>
    have := huploads fun c hc => nomatch hc
    -- the training job is the claimed one
    have hbegun : (trains jobId (some (job, .training))).toNat = (e.claims jobId).toNat := by
      rw [hevent]
      rfl
    omega
  | upload job trained hbefore hcall =>
    have hnone : (trains jobId (some (job, .uploading trained))).toNat = 0 := rfl
    -- the right of the training job becomes that of the upload
    have hright : ((nextPending pending e (some (.uploadModel
        (uploadForm config job trained)))).any (Pending.uploads jobId)).toNat =
          (trains jobId before).toNat := by
      simp [nextPending, hcall, hbefore, Pending.uploads, FrekiCall.uploads, uploadForm, trains]
    omega
  | fail job step daemonId text hbefore hstep hcall =>
    have := huploads fun c hc => by cases hc; rfl
    have hnone : (trains jobId (some (job, .failing))).toNat = 0 := rfl
    omega
  | complete job trained modelId daemonId hbefore hevent =>
    have := huploads fun c hc => by cases hc; rfl
    have hnone : (trains jobId (some (job, .completing))).toNat = 0 := rfl
    omega

/-- A report uses up the right to it. -/
theorem Move.reportRight (h : Move config before e call after) (pending : Option Pending)
    (jobId : Nat) :
    (call.any (FrekiCall.reports jobId)).toNat + ((unreported jobId after).toNat +
        ((nextPending pending e call).any (Pending.claims jobId)).toNat) ≤
      (unreported jobId before).toNat + (pending.any (Pending.claims jobId)).toNat +
        (e.claims jobId).toNat := by
  -- as above for the claims; a call about no job reports none
  have hclaims : ((nextPending pending e call).any (Pending.claims jobId)).toNat ≤
      (pending.any (Pending.claims jobId)).toNat :=
    nextPending_any fun _ _ => rfl
  have hreports (hfree : ∀ c ∈ call, c.about = none) :
      (call.any (FrekiCall.reports jobId)).toNat = 0 := by
    cases call with
    | none => rfl
    | some c => rw [Option.any_some, reports_of_about (hfree c rfl)]; rfl
  -- each move compares the right it spends with the right it was given
  cases h with
  | keep _ hcall _ =>
    have := hreports fun c hc => (hcall c hc).2
    omega
  | ended _ hcall =>
    have := hreports fun c hc => (hcall c hc).2
    have hnone : (unreported jobId none).toNat = 0 := rfl
    omega
  | joining job step raising hbefore =>
    have := hreports fun c hc => nomatch hc
    have hnone : (unreported jobId (some (job, .joining raising))).toNat = 0 := rfl
    omega
  | begin job hevent =>
    have := hreports fun c hc => nomatch hc
    have hbegun : (unreported jobId (some (job, .training))).toNat = (e.claims jobId).toNat := by
      rw [hevent]
      rfl
    omega
  | upload job trained hbefore hcall =>
    have hsame : (unreported jobId (some (job, .uploading trained))).toNat =
        (unreported jobId before).toNat := by
      rw [hbefore]
      rfl
    have hnone : ((some (FrekiCall.uploadModel (uploadForm config job trained))).any
        (FrekiCall.reports jobId)).toNat = 0 := rfl
    omega
  | fail job step daemonId text hbefore hstep hcall =>
    have hnone : (unreported jobId (some (job, .failing))).toNat = 0 := rfl
    have hright : ((some (FrekiCall.failJob job.id daemonId job.claimToken text)).any
        (FrekiCall.reports jobId)).toNat = (unreported jobId before).toNat := by
      rcases hstep with rfl | ⟨trained, rfl⟩
      · rw [hbefore]
        rfl
      · rw [hbefore]
        rfl
    omega
  | complete job trained modelId daemonId hbefore hevent =>
    have hnone : (unreported jobId (some (job, .completing))).toNat = 0 := rfl
    have hright : ((some (FrekiCall.completeJob job.id daemonId job.claimToken)).any
        (FrekiCall.reports jobId)).toNat = (unreported jobId before).toNat := by
      rw [hbefore]
      rfl
    omega

/-- Only the answer to a claim gives a daemon something to do with a job. -/
theorem Move.holds (h : Move config before e call after) {pending : Option Pending} {jobId : Nat}
    (hafter : (∃ job step, after = some (job, step) ∧ job.id = jobId) ∨
      ∃ p, nextPending pending e call = some p ∧
        (p.call.about = some jobId ∨ p.claims jobId = true)) :
    (∃ job step, before = some (job, step) ∧ job.id = jobId) ∨
      (∃ p, pending = some p ∧ (p.call.about = some jobId ∨ p.claims jobId = true)) ∨
      e.claims jobId = true := by
  -- a call about a job is about the one in execution
  have hpending (hcall : ∀ c ∈ call, ∀ id, c.about = some id →
      ∃ job step, before = some (job, step) ∧ job.id = id) :
      (∃ p, nextPending pending e call = some p ∧
        (p.call.about = some jobId ∨ p.claims jobId = true)) →
      (∃ job step, before = some (job, step) ∧ job.id = jobId) ∨
        (∃ p, pending = some p ∧ (p.call.about = some jobId ∨ p.claims jobId = true)) ∨
        e.claims jobId = true := by
    rintro ⟨p, hp, hjob⟩
    unfold nextPending at hp
    split at hp
    · exact .inr (.inl ⟨p, hp, hjob⟩)
    · rename_i c
      split at hp
      · exact .inr (.inl ⟨p, hp, hjob⟩)
      · cases hp
        rcases hjob with habout | hclaims
        · exact .inl (hcall c rfl jobId habout)
        · cases hclaims
  have hfree {c : FrekiCall} (habout : c.about = none) (id : Nat) (h : c.about = some id) :
      ∃ job step, before = some (job, step) ∧ job.id = id := by
    rw [habout] at h
    cases h
  -- first the stage behind the move, then the call it leaves in flight
  rcases hafter with ⟨job', step', hstage, rfl⟩ | hnext
  · cases h with
    | keep _ hcall _ => exact .inl ⟨job', step', hstage, rfl⟩
    | ended _ hcall => cases hstage
    | joining job step raising hbefore =>
      cases hstage
      exact .inl ⟨_, _, hbefore, rfl⟩
    | begin job hevent =>
      cases hstage
      refine .inr (.inr ?_)
      rw [hevent]
      exact decide_eq_true rfl
    | upload job trained hbefore hcall =>
      cases hstage
      exact .inl ⟨_, _, hbefore, rfl⟩
    | fail job step daemonId text hbefore hstep hcall =>
      cases hstage
      exact .inl ⟨_, _, hbefore, rfl⟩
    | complete job trained modelId daemonId hbefore hevent =>
      cases hstage
      exact .inl ⟨_, _, hbefore, rfl⟩
  · refine hpending ?_ hnext
    -- a call names the job that the stage before it is about
    cases h with
    | keep _ hcall _ => exact fun c hc id habout => hfree (hcall c hc).2 id habout
    | ended _ hcall => exact fun c hc id habout => hfree (hcall c hc).2 id habout
    | joining job step raising hbefore => exact fun c hc => nomatch hc
    | begin job hevent => exact fun c hc => nomatch hc
    | upload job trained hbefore hcall =>
      rintro c ⟨⟩ id ⟨⟩
      exact ⟨job, .training, hbefore, rfl⟩
    | fail job step daemonId text hbefore hstep hcall =>
      rintro c ⟨⟩ id ⟨⟩
      exact ⟨job, step, hbefore, rfl⟩
    | complete job trained modelId daemonId hbefore hevent =>
      rintro c ⟨⟩ id ⟨⟩
      exact ⟨job, .uploading trained, hbefore, rfl⟩

/-- An upload in progress is awaited. -/
theorem Move.uploading (h : Move config before e call after) (pending : Option Pending)
    {job : ClaimedJobOut} {trained : Trained} (hafter : after = some (job, .uploading trained)) :
    nextPending pending e call = some ⟨.uploadModel (uploadForm config job trained), none⟩ ∨
      nextPending pending e call = pending ∧ before = some (job, .uploading trained) ∧
        ∀ outcome, e ≠ .uploaded outcome := by
  cases h with
  | keep _ hcall hupload =>
    refine .inr ⟨?_, hafter, fun outcome => hupload job trained outcome hafter⟩
    unfold nextPending
    split
    · rfl
    · rename_i c
      rw [if_pos (hcall c rfl).1]
  | ended _ hcall => cases hafter
  | joining job step raising hbefore => cases hafter
  | begin job hevent => cases hafter
  | upload job' trained' hbefore hcall =>
    cases hafter
    left
    simp only [nextPending, hcall, Bool.false_eq_true, if_false]
  | fail job step daemonId text hbefore hstep hcall => cases hafter
  | complete job trained modelId daemonId hbefore hevent => cases hafter

/-- A completion is sent when the upload has returned. -/
theorem Move.completes (h : Move config before e call after) {c : FrekiCall} (hc : c ∈ call)
    {jobId : Nat} (hcompletes : c.completes = some jobId) :
    ∃ job trained modelId, before = some (job, .uploading trained) ∧ job.id = jobId ∧
      e = .uploaded (.ok modelId) := by
  have hfree (habout : c.about = none) : c.completes = none := by
    cases c with
    | completeJob => cases habout
    | _ => rfl
  cases h with
  | keep _ hcall _ =>
    rw [hfree (hcall c hc).2] at hcompletes
    cases hcompletes
  | ended _ hcall =>
    rw [hfree (hcall c hc).2] at hcompletes
    cases hcompletes
  | joining job step raising hbefore => cases hc
  | begin job hevent => cases hc
  | upload job trained hbefore hcall =>
    cases hc
    cases hcompletes
  | fail job step daemonId text hbefore hstep hcall =>
    cases hc
    cases hcompletes
  | complete job trained modelId daemonId hbefore hevent =>
    cases hc
    cases hcompletes
    exact ⟨job, trained, modelId, hbefore, rfl, hevent⟩

/-- The calls of the heartbeat tasks are about no job. -/
theorem Move.about_of_background (h : Move config before e call after) {c : FrekiCall}
    (hc : c ∈ call) (hback : e.inBackground = true) : c.about = none := by
  cases h with
  | keep _ hcall _ => exact (hcall c hc).2
  | ended _ hcall => exact (hcall c hc).2
  | joining job step raising hbefore => cases hc
  | begin job hevent => cases hc
  | upload job trained hbefore hcall =>
    rw [hcall] at hback
    cases hback
  | fail job step daemonId text hbefore hstep hcall =>
    rw [hcall] at hback
    cases hback
  | complete job trained modelId daemonId hbefore hevent =>
    rw [hevent] at hback
    cases hback

end Move

end Grimnir.Nornir
