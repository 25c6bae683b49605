import Grimnir.ForStd.Component
import Grimnir.Spec.JobLineage
import Grimnir.Spec.JobModels
import Grimnir.Spec.ModelServing
import Grimnir.Spec.TrainingProvenance

/-!
# Where the model of a job comes from

A client submits a spec, the reaper copies the job any number of times, one daemon claims one
of the copies, trains on what it reads from the label store and uploads what it got.  Requests
are lost, served late or served when nobody waits any more; the row that is stored for a job is
still the outcome of the training, by the daemon that claimed the job, for the spec that was
submitted.

## Key results

- `jobQueue`: the job queue of a fleet is a component of it
- `Accounted.exists_root`: every job goes back to a submitted one
- `Origins.answer`: every event keeps what is known of the origin of the models
- `madeFor_of_run`: where the stored models come from, in every run
-/

namespace Grimnir

/-! ## The spec of a job -/

namespace JobDb

variable {log : JobLog} {db db' : JobDb} {j j' : TrainingJob}

/-- A row that was inserted was submitted or is a copy. -/
private theorem of_mem_inserted {id : Nat} (h : id ∈ inserted log) :
    (∃ spec, (id, spec) ∈ created log) ∨ ∃ a, (a, id) ∈ requeues log := by
  induction log with
  | nil => cases h
  | cons x log ih =>
    rw [created_cons, requeues_cons]
    rcases List.mem_append.mp h with hold | hnew
    · rcases ih hold with ⟨spec, hspec⟩ | ⟨a, ha⟩
      · exact .inl ⟨spec, List.mem_append_right _ hspec⟩
      · exact .inr ⟨a, List.mem_append_right _ ha⟩
    · rcases List.mem_append.mp hnew with hcreated | hcopied
      · obtain ⟨p, hp, rfl⟩ := List.mem_map.mp hcreated
        exact .inl ⟨p.2, List.mem_append_left _ hp⟩
      · obtain ⟨p, hp, rfl⟩ := List.mem_map.mp hcopied
        exact .inr ⟨p.1, List.mem_append_left _ hp⟩

/-- Every job goes back to a submitted one, whose spec it carries on. -/
theorem Accounted.exists_root (h : Accounted log db) (hj : j ∈ db.jobs) :
    ∃ i, (i, j.spec) ∈ JobDb.created log ∧ Lineage log i j.id := by
  -- by induction on the id: a copy is younger than what it repeats
  obtain ⟨n, hn⟩ : ∃ n, j.id = n := ⟨_, rfl⟩
  induction n using Nat.strong_induction_on generalizing j with
  | _ n ih =>
    have hinserted : j.id ∈ inserted log := by
      rw [← h.ids]
      exact List.mem_map_of_mem hj
    rcases of_mem_inserted hinserted with ⟨spec, hspec⟩ | ⟨a, ha⟩
    · obtain ⟨k, hk, hid, hkspec⟩ := h.submitted _ hspec
      obtain rfl := db.jobs.eq_of_key_eq hk hj hid
      exact ⟨k.id, hkspec ▸ hspec, .refl⟩
    · obtain ⟨hlt, k, hk, k', hk', rfl, hid, hsame⟩ := h.copied _ ha
      obtain rfl := db.jobs.eq_of_key_eq hk' hj hid
      obtain ⟨i, hi, hlineage⟩ := ih k.id (hn ▸ hlt) hk rfl
      exact ⟨i, hsame ▸ hi, hlineage.tail ha⟩

/-- A written row keeps its id and its spec, so what was answered of the jobs stays true. -/
theorem Wrote.kept (h : Wrote j j' db db') (hj : j ∈ db.jobs) (hid : j'.id = j.id)
    (hspec : j'.spec = j.spec) : Kept db db' := by
  intro k hk
  by_cases hkj : k.id = j.id
  · obtain rfl := db.jobs.eq_of_key_eq hk hj hkj
    exact ⟨j', (h.mem j').mpr (.inl rfl), hid, hspec⟩
  · exact ⟨k, (h.mem k).mpr (.inr ⟨hk, hkj⟩), rfl, rfl⟩

/-- No request changes the id or the spec of a job. -/
theorem Effect.kept {e : JobEvent} {res : JobResult} (h : Effect db e res db') : Kept db db' := by
  cases h with
  | refused _ f => exact fun k hk => ⟨k, hk, rfl, rfl⟩
  | registered _ _ _ _ _ _ hjobs _ =>
    intro k hk
    rw [← hjobs] at hk
    exact ⟨k, hk, rfl, rfl⟩
  | created rooms spec now => exact fun k hk => ⟨k, mem_insertJob.mpr (.inl hk), rfl, rfl⟩
  | claimed _ _ _ _ _ j hj _ _ hwrote => exact hwrote.kept hj rfl rfl
  | controlled kind _ _ _ _ j hj _ _ hwrote => cases kind <;> exact hwrote.kept hj rfl rfl
  | cancelled _ j hj _ _ hwrote => exact hwrote.kept hj rfl rfl
  | reaped timeout now =>
    intro k hk
    refine ⟨reapRow timeout now k, mem_reap.mpr (.inl ⟨k, hk, rfl⟩), id_reapRow timeout now k, ?_⟩
    unfold reapRow
    split <;> rfl

/-- What was answered to a claim is what the table says of the job. -/
def AnsweredTruly (log : JobLog) (db : JobDb) : Prop :=
  ∀ x ∈ log, ∀ out, x.2 = .ok (.claimed out) → ∃ j ∈ db.jobs, j.id = out.id ∧ j.spec = out.spec

/-- Claims stay truly answered, by cases on what the request did. -/
theorem AnsweredTruly.effect {e : JobEvent} {res : JobResult} (h : AnsweredTruly log db)
    (heff : Effect db e res db') : AnsweredTruly ((e, res) :: log) db' := by
  intro x hx out hout
  rcases List.mem_cons.mp hx with rfl | hx
  · cases heff with
    | claimed _ _ _ _ _ j hj _ _ hwrote =>
      cases hout
      exact ⟨_, (hwrote.mem _).mpr (.inl rfl), rfl, rfl⟩
    | _ => cases hout
  · obtain ⟨j, hj, hid, hspec⟩ := h x hx out hout
    obtain ⟨j', hj', hid', hspec'⟩ := heff.kept j hj
    exact ⟨j', hj', hid'.trans hid, hspec'.trans hspec⟩

/-- The spec that a claim was answered with was submitted, and the job goes back to it. -/
private theorem exists_root_of_claim {secret : String} {c : Config JobDb JobEvent JobResult}
    (hrun : (jobMachine secret).Run (fun _ _ => True) ⟨[], JobDb.empty⟩ c)
    {e : JobEvent} {out : ClaimedJobOut} (hclaim : (e, .ok (.claimed out)) ∈ c.log) :
    ∃ i, (i, out.spec) ∈ created c.log ∧ Lineage c.log i out.id := by
  have hbooks : Accounted c.log c.state ∧ AnsweredTruly c.log c.state := by
    refine hrun.invariant (I := fun c => Accounted c.log c.state ∧ AnsweredTruly c.log c.state)
      ⟨accounted_empty, fun _ hx => nomatch hx⟩ ?_
    intro c e h _
    have heff := step_effect secret c.state e
    exact ⟨h.1.effect heff, h.2.effect heff⟩
  obtain ⟨j, hj, hid, hspec⟩ := hbooks.2 _ hclaim out rfl
  obtain ⟨i, hcreated, hlineage⟩ := hbooks.1.exists_root hj
  exact ⟨i, hspec ▸ hcreated, hid ▸ hlineage⟩

end JobDb

/-! ## The row of an upload -/

/-- An upload adds the row of its form or nothing. -/
private theorem uploadModel_row (py : Pydantic) (build : Build) (secret : String)
    (provided : Option String) (form : ModelForm) (jobExists : Nat → Bool) (now : Timestamp)
    (db : ModelDb) :
    (∃ f db', uploadModel py build secret provided form jobExists now db = (.error f, db') ∧
        db'.models = db.models) ∨
      ∃ out db' m, uploadModel py build secret provided form jobExists now db = (.ok out, db') ∧
        db'.models.rows = db.models.rows ++ [m] ∧ out.id = m.id ∧ FromForm m form := by
  rcases uploadModel_stores py build secret provided form jobExists now db with
    hrefused | ⟨metrics, members, fc, hmetrics, hdoc, -, hres⟩
  · exact .inl hrefused
  · exact .inr ⟨_, _, _, hres, rfl, rfl, rfl, rfl, hmetrics, hdoc, rfl⟩

namespace Nornir

open JobDb

variable {inst : Installation}

/-! ## The job queue of a fleet -/

/-- The job queue answers one request or is left alone. -/
def Queued (secret : String) (db : JobDb) (job : Option (JobEvent × Grimnir.JobResult))
    (db' : JobDb) : Prop :=
  job = none ∧ db' = db ∨
    ∃ e, job = some (e, (db.step secret e).1) ∧ db' = (db.step secret e).2

/-- Serving a call asks the job queue once or not at all. -/
private theorem serveCall_jobs (inst : Installation) (pid : Nat) (call : FrekiCall) (svc : Service)
    (jobs : JobDb) (models : ModelDb) :
    Queued inst.mlControlSecret jobs (serveCall inst pid call svc jobs models).job
      (serveCall inst pid call svc jobs models).jobs := by
  have heff := serveCall_effect inst pid call svc jobs models
  generalize serveCall inst pid call svc jobs models = served at heff
  cases heff with
  | quiet _ _ _ _ hjobs _ _ _ _ =>
    rcases hjobs with hidle | ⟨e, hjob, hdb, -⟩
    · exact .inl hidle
    · exact .inr ⟨e, hjob, hdb⟩
  | claimed e _ _ _ _ _ _ _ _ => exact .inr ⟨e, rfl, rfl⟩
  | uploaded _ _ _ _ _ _ => exact .inl ⟨rfl, rfl⟩

/-- Waking a daemon does not touch the job queue. -/
private theorem jobs_wake (config : NornirConfig) (pid : Nat) (pending : Option Pending)
    (e : NornirEvent) (s : Fleet) : (s.wake config pid pending e).2.jobs = s.jobs := by
  rw [wake_eq]
  rfl

/-- No event of a fleet makes more than one request to the job queue. -/
private theorem step_jobs (inst : Installation) (s : Fleet) (e : FleetEvent) :
    Queued inst.mlControlSecret s.jobs (s.step inst e).1.job (s.step inst e).2.jobs := by
  have hquiet : Queued inst.mlControlSecret s.jobs none s.jobs := .inl ⟨rfl, rfl⟩
  -- only a served call and a client's request reach the queue
  cases e with
  | own pid e =>
    unfold Fleet.step
    dsimp only
    split
    · exact hquiet
    · exact .inl ⟨rfl, jobs_wake _ pid _ e s⟩
  -- a call that is awaited is served
  | serve pid svc =>
    unfold Fleet.step
    dsimp only
    split
    · exact serveCall_jobs inst pid _ svc s.jobs s.models
    · exact hquiet
  -- so is one that nobody waits for any more
  | serveLate i svc =>
    unfold Fleet.step
    dsimp only
    split
    · exact serveCall_jobs inst _ _ svc s.jobs s.models
    · exact hquiet
  | reply pid =>
    unfold Fleet.step
    dsimp only
    split
    · exact .inl ⟨rfl, jobs_wake _ pid _ _ s⟩
    · exact hquiet
  | lose pid error =>
    unfold Fleet.step
    dsimp only
    split
    · exact .inl ⟨rfl, jobs_wake _ pid _ _ _⟩
    · exact hquiet
  | client e =>
    cases e with
    | createJob rooms spec now => exact .inr ⟨_, rfl, rfl⟩
    | cancel jobId now => exact .inr ⟨_, rfl, rfl⟩
    | reap timeout now => exact .inr ⟨_, rfl, rfl⟩
    | upload provided form build now => exact hquiet
    | activate modelId order => exact hquiet

/-- The job queue of a fleet is a component of it. -/
def jobQueue (inst : Installation) :
    Component (fleetMachine inst) (jobMachine inst.mlControlSecret) where
  state s := s.jobs
  view x := x.2.job
  unseen := by
    intro s e hview
    rcases step_jobs inst s e with ⟨-, hdb⟩ | ⟨je, hjob, -⟩
    · exact hdb
    · rw [show (s.step inst e).1.job = none from hview] at hjob
      cases hjob
  seen := by
    intro s e x hview
    rcases step_jobs inst s e with ⟨hjob, -⟩ | ⟨je, hjob, hdb⟩
    · rw [show (s.step inst e).1.job = some x from hview] at hjob
      cases hjob
    · rw [show (s.step inst e).1.job = some x from hview] at hjob
      cases hjob
      exact Prod.ext rfl hdb.symm

/-! ## What a daemon was given and what it made -/

/-- Freki answered a claim of daemon `pid` with the job. -/
def Told (log : FleetLog) (pid : Nat) (job : ClaimedJobOut) : Prop :=
  ∃ provided daemonId token now,
    (JobEvent.claim pid provided job.id daemonId token now, Except.ok (.claimed job)) ∈ jobLog log

/-- An answer to a claim stays in the log. -/
theorem Told.cons {log : FleetLog} {pid : Nat} {job : ClaimedJobOut} (h : Told log pid job)
    (x : FleetEvent × FleetResponse) : Told (x :: log) pid job := by
  obtain ⟨provided, daemonId, token, now, hmem⟩ := h
  refine ⟨provided, daemonId, token, now, ?_⟩
  rw [jobLog_cons]
  exact List.mem_append_right _ hmem

/-- The daemon has the right of the claim. -/
theorem Told.held {log : FleetLog} {pid : Nat} {job : ClaimedJobOut} (h : Told log pid job) :
    Held (jobLog log) pid job.id := by
  obtain ⟨provided, daemonId, token, now, hmem⟩ := h
  exact ⟨⟨pid, job.id, daemonId, token⟩, List.mem_filterMap.mpr ⟨_, hmem, rfl⟩, rfl, rfl⟩

/-- The event is what may end the call. -/
inductive Answers : FrekiCall → NornirEvent → Prop where
  | heartbeatDaemon (name host : String) (outcome : Except CallError Nat) :
      Answers (.heartbeatDaemon name host) (.registered outcome)
  | listQueuedJobs (limit : Nat) (outcome : Except CallError (List Nat)) :
      Answers (.listQueuedJobs limit) (.listed outcome)
  | claimJob (jobId daemonId : Nat) (outcome : Except CallError ClaimedJobOut) :
      Answers (.claimJob jobId daemonId) (.claimed outcome)
  | heartbeatJob (jobId daemonId : Nat) (token : String) (outcome : Except CallError Unit) :
      Answers (.heartbeatJob jobId daemonId token) (.jobHeartbeat outcome)
  | uploadModel (form : ModelForm) (outcome : Except CallError Nat) :
      Answers (.uploadModel form) (.uploaded outcome)
  | completeJob (jobId daemonId : Nat) (token : String) (outcome : Except CallError Unit) :
      Answers (.completeJob jobId daemonId token) (.reported outcome)
  | failJob (jobId daemonId : Nat) (token error : String) (outcome : Except CallError Unit) :
      Answers (.failJob jobId daemonId token error) (.reported outcome)

/-- Any call may fail. -/
private theorem answers_failure (error : CallError) (call : FrekiCall) :
    Answers call (call.failure error) := by
  cases call <;> constructor

/-- A control request is answered by the wrapped outcome. -/
private theorem serveControl_answers {call : FrekiCall} {wrap : Except CallError Unit → NornirEvent}
    (hwrap : ∀ outcome, Answers call (wrap outcome)) (secret : String) (pid : Nat)
    (provided : Option String) (kind : ControlKind) (jobId daemonId : Nat) (token : String)
    (now : Timestamp) (jobs : JobDb) (models : ModelDb) :
    Answers call
      (serveControl secret pid provided kind jobId daemonId token now wrap jobs models).answer := by
  unfold serveControl
  split <;> exact hwrap _

/-- Freki answers a call with an event that may end it. -/
private theorem serveCall_answers (inst : Installation) (pid : Nat) (call : FrekiCall)
    (svc : Service) (jobs : JobDb) (models : ModelDb) :
    Answers call (serveCall inst pid call svc jobs models).answer := by
  cases call with
  | heartbeatDaemon name host => constructor
  | listQueuedJobs limit => constructor
  | claimJob jobId daemonId => constructor
  | heartbeatJob jobId daemonId token =>
    exact serveControl_answers (.heartbeatJob jobId daemonId token) _ pid _ _ _ _ _ _ jobs models
  | uploadModel form =>
    unfold serveCall
    dsimp only
    split <;> constructor
  | completeJob jobId daemonId token =>
    exact serveControl_answers (.completeJob jobId daemonId token) _ pid _ _ _ _ _ _ jobs models
  | failJob jobId daemonId token error =>
    exact serveControl_answers (.failJob jobId daemonId token error) _ pid _ _ _ _ _ _ jobs models

/-- A claim that is answered with a job is in the log with this answer. -/
private theorem told_of_serveCall {inst : Installation} {pid : Nat} {call : FrekiCall}
    {svc : Service} {jobs : JobDb} {models : ModelDb} {job : ClaimedJobOut}
    (h : (serveCall inst pid call svc jobs models).answer = .claimed (.ok job)) :
    ∃ provided daemonId token now, (serveCall inst pid call svc jobs models).job =
      some (.claim pid provided job.id daemonId token now, .ok (.claimed job)) := by
  have hends := serveCall_answers inst pid call svc jobs models
  rw [h] at hends
  cases hends with
  | claimJob jobId daemonId _ =>
    rcases claim_answer inst.mlControlSecret pid
      (header (inst.daemons pid).mlControlSharedSecret) jobId daemonId svc.claimToken svc.now
      jobs with ⟨f, hres⟩ | ⟨out, hres, rfl⟩
    · simp only [serveCall, hres] at h
      cases h
    · simp only [serveCall, hres] at h ⊢
      cases h
      exact ⟨_, _, _, _, rfl⟩

/-- Control of a job leaves the registry alone. -/
theorem serveControl_models (secret : String) (pid : Nat) (provided : Option String)
    (kind : ControlKind) (jobId daemonId : Nat) (token : String) (now : Timestamp)
    (wrap : Except CallError Unit → NornirEvent) (jobs : JobDb) (models : ModelDb) :
    (serveControl secret pid provided kind jobId daemonId token now wrap jobs models).models =
      models := by
  unfold serveControl
  split <;> rfl

/-- The rows after a call are those before it, and at most the row of the form it carries. -/
private theorem serveCall_models (inst : Installation) (pid : Nat) (call : FrekiCall)
    (svc : Service) (jobs : JobDb) (models : ModelDb) :
    (serveCall inst pid call svc jobs models).models.models = models.models ∨
      ∃ form m out, call = .uploadModel form ∧
        (serveCall inst pid call svc jobs models).models.models.rows = models.models.rows ++ [m] ∧
        (serveCall inst pid call svc jobs models).uploaded = some out ∧ out.id = m.id ∧
        FromForm m form := by
  -- only an upload stores a row, the one that its form describes
  cases call with
  | uploadModel form =>
    simp only [serveCall]
    rcases uploadModel_row inst.py svc.build inst.modelUploadSecret
      (header (inst.daemons pid).modelUploadSharedSecret) form
      (fun id => (jobs.jobs.find? id).isSome) svc.now models with
      ⟨f, models', hres, hsame⟩ | ⟨out, models', m, hres, hrows, hid, hform⟩
    · rw [hres]
      exact .inl hsame
    · rw [hres]
      exact .inr ⟨form, m, out, rfl, hrows, rfl, hid, hform⟩
  | heartbeatJob jobId daemonId token =>
    exact .inl (congrArg (·.models) (serveControl_models _ pid _ _ _ _ _ _ _ jobs models))
  | completeJob jobId daemonId token =>
    exact .inl (congrArg (·.models) (serveControl_models _ pid _ _ _ _ _ _ _ jobs models))
  | failJob jobId daemonId token error =>
    exact .inl (congrArg (·.models) (serveControl_models _ pid _ _ _ _ _ _ _ jobs models))
  | claimJob jobId daemonId => exact .inl rfl
  | heartbeatDaemon name host => exact .inl rfl
  | listQueuedJobs limit => exact .inl rfl

section Move
variable {config : NornirConfig} {before after : Option (ClaimedJobOut × JobStep)}
  {e : NornirEvent} {call : Option FrekiCall} {job : ClaimedJobOut} {step : JobStep}

/-- A job in execution was in execution, or has just been claimed. -/
theorem Move.executing (h : Move config before e call after) (hafter : after = some (job, step)) :
    (∃ step', before = some (job, step')) ∨ e = .claimed (.ok job) := by
  -- a job is in execution since the event, or it was before
  cases h with
  | keep _ _ _ => exact .inl ⟨step, hafter⟩
  | ended _ _ => cases hafter
  | joining job' step' raising hbefore =>
    cases hafter
    exact .inl ⟨step', hbefore⟩
  | begin job' hevent =>
    cases hafter
    exact .inr hevent
  | upload job' trained hbefore _ =>
    cases hafter
    exact .inl ⟨.training, hbefore⟩
  | fail job' step' daemonId text hbefore _ _ =>
    cases hafter
    exact .inl ⟨step', hbefore⟩
  | complete job' trained modelId daemonId hbefore _ =>
    cases hafter
    exact .inl ⟨.uploading trained, hbefore⟩

/-- A model of a job is uploaded when its training returns. -/
private theorem trained_of_upload {d : Daemon} {form : ModelForm} {jobId : Nat}
    (h : (d.step config e).1 = some (.uploadModel form)) (hform : form.trainingJobId = some jobId) :
    ∃ job trained, d.stage.job? = some (job, .training) ∧ e = .trained (.ok trained) ∧
      form = uploadForm config job trained := by
  -- the call is explained by how the event moves the job
  have hmove : Move config d.stage.job? e (d.step config e).1 (d.step config e).2.stage.job? :=
    d.step_moves e
  rw [h] at hmove
  have habout : (FrekiCall.uploadModel form).about ≠ none := by
    rw [FrekiCall.about, hform]
    exact Option.some_ne_none jobId
  generalize hafter : (d.step config e).2.stage.job? = after at hmove
  -- neither a heartbeat nor a loop of `main` is about a job
  cases hmove with
  | keep _ hcall _ => exact absurd (hcall _ rfl).2 habout
  | ended _ hcall => exact absurd (hcall _ rfl).2 habout
  | upload job trained hbefore _ =>
    refine ⟨job, ?_⟩
    obtain ⟨daemonId, hb, jobHb, hstage⟩ := Stage.job?_eq_some hbefore
    obtain ⟨stop, stage⟩ := d
    subst hstage
    -- while the job trains, every other call is a heartbeat or the report of a failure
    cases e with
    | trained outcome =>
      cases outcome with
      | ok trained' =>
        exact ⟨trained', hbefore, rfl, FrekiCall.uploadModel.inj (Option.some.inj h).symm⟩
      | error exc => cases h
    | _ => cases hb <;> cases jobHb <;> cases h

end Move

/-! ## The origin of the models -/

section Origins
variable {R : Nat → SpecDoc → Trained → Prop}

/-- `run_job` returned `trained` to daemon `pid`, which sent it off as the model of the job. -/
def Returned (inst : Installation) (log : FleetLog) (pid : Nat) (job : ClaimedJobOut)
    (trained : Trained) : Prop :=
  ∃ response, (FleetEvent.own pid (.trained (.ok trained)), response) ∈ log ∧
    response.sent = some (pid, .uploadModel (uploadForm (inst.daemons pid) job trained))

/-- The form is what a daemon uploads when `run_job` has returned for a job that it was told
    of. -/
def Earned (inst : Installation) (R : Nat → SpecDoc → Trained → Prop) (log : FleetLog) (pid : Nat)
    (form : ModelForm) : Prop :=
  ∃ job trained, Told log pid job ∧ Returned inst log pid job trained ∧ R pid job.spec trained ∧
    form = uploadForm (inst.daemons pid) job trained

/-- A client other than the daemons has uploaded the row, and Freki has answered with it. -/
def UploadedByClient (log : FleetLog) (m : TrainedModel) : Prop :=
  ∃ provided form build now response out,
    (FleetEvent.client (.upload provided form build now), response) ∈ log ∧
      response.clientRow = some out ∧ out.id = m.id ∧ FromForm m form

/-- Freki has answered an upload of daemon `pid` with the row. -/
def UploadedBy (log : FleetLog) (pid : Nat) (m : TrainedModel) : Prop :=
  ∃ out, (pid, out) ∈ uploads log ∧ out.id = m.id

/-- What is known of jobs and models that are held by daemons, on their way or stored. -/
structure Origins (inst : Installation) (R : Nat → SpecDoc → Trained → Prop) (log : FleetLog)
    (s : Fleet) : Prop where
  answers : ∀ pid call e, (s.lines pid).pending = some ⟨call, some e⟩ → Answers call e
  claimed : ∀ pid call job, (s.lines pid).pending = some ⟨call, some (.claimed (.ok job))⟩ →
    Told log pid job
  executing : ∀ pid job step, (s.lines pid).daemon.stage.job? = some (job, step) →
    Told log pid job
  awaited : ∀ pid form answer, (s.lines pid).pending = some ⟨.uploadModel form, answer⟩ →
    ∀ jobId, form.trainingJobId = some jobId → Earned inst R log pid form
  late : ∀ x ∈ s.late, ∀ form, x.2 = .uploadModel form →
    ∀ jobId, form.trainingJobId = some jobId → Earned inst R log x.1 form
  stored : ∀ m ∈ s.models.models, ∀ jobId, m.trainingJobId = some jobId →
    (∃ pid form, Earned inst R log pid form ∧ UploadedBy log pid m ∧ FromForm m form) ∨
      UploadedByClient log m

/-- What `run_job` returned stays in the log. -/
theorem Returned.cons {log : FleetLog} {pid : Nat} {job : ClaimedJobOut} {trained : Trained}
    (h : Returned inst log pid job trained) (x : FleetEvent × FleetResponse) :
    Returned inst (x :: log) pid job trained := by
  obtain ⟨response, hmem, hsent⟩ := h
  exact ⟨response, List.mem_cons_of_mem _ hmem, hsent⟩

/-- An upload by another client stays in the log. -/
theorem UploadedByClient.cons {log : FleetLog} {m : TrainedModel} (h : UploadedByClient log m)
    (x : FleetEvent × FleetResponse) : UploadedByClient (x :: log) m := by
  obtain ⟨provided, form, build, now, response, out, hmem, hrow⟩ := h
  exact ⟨provided, form, build, now, response, out, List.mem_cons_of_mem _ hmem, hrow⟩

/-- An upload that was answered stays in the log. -/
private theorem UploadedBy.cons {log : FleetLog} {pid : Nat} {m : TrainedModel}
    (h : UploadedBy log pid m) (x : FleetEvent × FleetResponse) : UploadedBy (x :: log) pid m := by
  obtain ⟨out, hmem, hid⟩ := h
  refine ⟨out, ?_, hid⟩
  rw [uploads_cons]
  exact List.mem_append_right _ hmem

/-- Clients that leave the models of jobs to the daemons have uploaded none. -/
theorem not_uploadedByClient {log : FleetLog} {m : TrainedModel} {jobId : Nat}
    (hjob : m.trainingJobId = some jobId) (h : ∀ x ∈ log, x.1.leavesJobModels) :
    ¬UploadedByClient log m := by
  rintro ⟨provided, form, build, now, response, out, hmem, -, -, hform⟩
  have hnone : form.trainingJobId = none := h _ hmem
  rw [hform.trainingJobId, hnone] at hjob
  cases hjob

/-- A form that was earned stays earned. -/
theorem Earned.cons {log : FleetLog} {pid : Nat} {form : ModelForm}
    (h : Earned inst R log pid form) (x : FleetEvent × FleetResponse) :
    Earned inst R (x :: log) pid form := by
  obtain ⟨job, trained, htold, hreturned, hR, hform⟩ := h
  exact ⟨job, trained, htold.cons x, hreturned.cons x, hR, hform⟩

/-- A stored row of a job keeps its origin, active or not. -/
private theorem Origins.stored_cons {log : FleetLog} {s : Fleet} (h : Origins inst R log s)
    {m : TrainedModel} (hm : ModelDb.Holds m s.models) {jobId : Nat}
    (hjob : m.trainingJobId = some jobId) (x : FleetEvent × FleetResponse) :
    (∃ pid form, Earned inst R (x :: log) pid form ∧ UploadedBy (x :: log) pid m ∧
        FromForm m form) ∨
      UploadedByClient (x :: log) m := by
  obtain ⟨active, hmem⟩ := hm
  rcases h.stored _ hmem jobId hjob with ⟨pid, form, hearned, huploaded, hform⟩ | hclient
  · exact .inl ⟨pid, form, hearned.cons x, huploaded.cons x, hform.setActive⟩
  · obtain ⟨provided, form, build, now, response, out, hmem, hrow, hid, hform⟩ := hclient.cons x
    exact .inr ⟨provided, form, build, now, response, out, hmem, hrow, hid, hform.setActive⟩

/-- At the start no daemon holds a job, nothing is on its way and the registry is empty. -/
private theorem origins_boot (inst : Installation) (R : Nat → SpecDoc → Trained → Prop) :
    Origins inst R [] (Fleet.boot inst) where
  answers _ _ _ h := by cases h
  claimed _ _ _ h := by cases h
  executing _ _ _ h := by cases h
  awaited _ _ _ h := by cases h
  late _ h := by cases h
  stored _ h := by cases h

/-- The origins stay in the log. -/
theorem Origins.cons {log : FleetLog} {s : Fleet} (h : Origins inst R log s)
    (x : FleetEvent × FleetResponse) : Origins inst R (x :: log) s where
  answers := h.answers
  claimed pid call job hpending := (h.claimed pid call job hpending).cons x
  executing pid job step hstage := (h.executing pid job step hstage).cons x
  awaited pid form answer hpending jobId hform :=
    (h.awaited pid form answer hpending jobId hform).cons x
  late y hy form hcall jobId hform := (h.late y hy form hcall jobId hform).cons x
  stored _ hm _ hjob := h.stored_cons (ModelDb.holds_of_mem hm) hjob x

/-- A daemon that is woken keeps what is known, when its training gives what `R` says. -/
theorem Origins.wake {log : FleetLog} {s : Fleet} (h : Origins inst R log s) {pid : Nat}
    {pending : Option Pending} {e : NornirEvent} {late : List (Nat × FrekiCall)}
    {received : Option (Nat × NornirEvent)} (hends : Ends pid s pending e late received)
    (htrains : ∀ job trained, (s.lines pid).daemon.stage.job? = some (job, .training) →
      e = .trained (.ok trained) → R pid job.spec trained)
    {x : FleetEvent × FleetResponse}
    (hevent : ∀ trained, e = .trained (.ok trained) → x.1 = .own pid e)
    (hsent : x.2.sent = ({ s with late := late }.wake (inst.daemons pid) pid pending e).1) :
    Origins inst R (x :: log)
      ({ s with late := late }.wake (inst.daemons pid) pid pending e).2 := by
  -- the daemon handles the event, and sends what it sends
  obtain ⟨call, daemon, hstep⟩ :
      ∃ call daemon, (s.lines pid).daemon.step (inst.daemons pid) e = (call, daemon) := ⟨_, _, rfl⟩
  have hmove : Move (inst.daemons pid) (s.lines pid).daemon.stage.job? e
      ((s.lines pid).daemon.step (inst.daemons pid) e).1
      ((s.lines pid).daemon.step (inst.daemons pid) e).2.stage.job? :=
    (s.lines pid).daemon.step_moves e
  rw [wake_eq] at hsent ⊢
  change Origins inst R (x :: log) { s.setLine pid _ with late := _ }
  change x.2.sent = ((s.lines pid).daemon.step (inst.daemons pid) e).1.map _ at hsent
  rw [hstep] at hmove hsent ⊢
  dsimp only at hmove hsent ⊢
  -- what a daemon sends in the background is about no job
  have hback : ∀ c ∈ call, e.inBackground = true → c.about = none :=
    fun c hc => hmove.about_of_background hc
  -- what the daemon uploads now
  have hearned : ∀ form, FrekiCall.uploadModel form ∈ call → ∀ jobId,
      form.trainingJobId = some jobId → Earned inst R (x :: log) pid form := by
    intro form hcall jobId hform
    -- the form is that of the job which has just been trained
    obtain ⟨job, trained, hjob, he, rfl⟩ :=
      trained_of_upload ((congrArg Prod.fst hstep).trans hcall) hform
    refine ⟨job, trained, (h.executing pid job _ hjob).cons x, ⟨x.2, ?_, ?_⟩,
      htrains job trained hjob he, rfl⟩
    · rw [← he, ← hevent trained he]
      exact List.mem_cons_self
    · rw [hsent, hcall]
      rfl
  constructor
  case answers =>
    intro p c answer hpending
    -- an awaited call with an answer is an old one
    rcases hends.of_pending hpending with hold | ⟨-, c', -, hnew⟩
    · exact h.answers p c answer hold
    · cases hnew
  case claimed =>
    intro p c job hpending
    rcases hends.of_pending hpending with hold | ⟨-, c', -, hnew⟩
    · exact (h.claimed p c job hold).cons x
    · cases hnew
  case executing =>
    intro p job step hstage
    refine Told.cons ?_ x
    -- only the daemon that wakes has moved
    by_cases hp : p = pid
    · subst hp
      change ((s.setLine p _).lines p).daemon.stage.job? = _ at hstage
      rw [lines_setLine_self] at hstage
      rcases hmove.executing hstage with ⟨step', hbefore⟩ | he
      · exact h.executing p job step' hbefore
      · -- the answer to the claim is received
        cases hends with
        | own _ hown =>
          rw [he] at hown
          cases hown
        | reply c _ hpending => exact h.claimed p c job (he ▸ hpending)
        | lose c _ error _ => cases c <;> cases he
    · change ((s.setLine pid _).lines p).daemon.stage.job? = _ at hstage
      rw [lines_setLine_of_ne hp] at hstage
      exact h.executing p job step hstage
  case awaited =>
    intro p form answer hpending jobId hform
    -- the form is awaited already, or uploaded now
    rcases hends.of_pending hpending with hold | ⟨rfl, c, hc, hnew⟩
    · exact (h.awaited p form answer hold jobId hform).cons x
    · cases hnew
      exact hearned form hc jobId hform
  case late =>
    intro y hy form hy2 jobId hform
    refine Earned.cons ?_ x
    -- an abandoned upload was so before, or its daemon has just given it up
    rcases mem_nextLate hback hy with hy | hnone
    · rcases hends.mem_late hy with hy | ⟨rfl, answer, hpending⟩
      · exact h.late y hy form hy2 jobId hform
      · exact h.awaited y.1 form answer (hy2 ▸ hpending) jobId hform
    · rw [hy2, FrekiCall.about, hform] at hnone
      cases hnone
  case stored => exact fun m hm jobId hjob => h.stored_cons (ModelDb.holds_of_mem hm) hjob x

/-- A call that is handed over was awaited or abandoned before. -/
theorem Handed.source {pid : Nat} {call : FrekiCall} {answer : NornirEvent} {s s' : Fleet}
    (h : Handed pid call answer s s') :
    (s.lines pid).pending = some ⟨call, none⟩ ∨ (pid, call) ∈ s.late := by
  cases h with
  | awaited h _ _ => exact .inl h
  | late i h _ _ => exact .inr (List.mem_of_getElem? h)

/-- Serving a request keeps what is known. -/
theorem Origins.served {log : FleetLog} {s s' : Fleet} (h : Origins inst R log s) {pid : Nat}
    {call : FrekiCall} {svc : Service}
    (hhanded : Handed pid call (serveCall inst pid call svc s.jobs s.models).answer s s')
    (hmodels : s'.models = (serveCall inst pid call svc s.jobs s.models).models)
    {x : FleetEvent × FleetResponse}
    (hx : x.2.job = (serveCall inst pid call svc s.jobs s.models).job)
    (hrow : x.2.uploaded =
      (serveCall inst pid call svc s.jobs s.models).uploaded.map fun out => (pid, out)) :
    Origins inst R (x :: log) s' := by
  constructor
  case answers =>
    intro p c e hpending
    -- the answer is the one that Freki has just given, or an old one
    rcases hhanded.of_pending hpending with hold | ⟨-, -, hnew⟩
    · exact h.answers p c e hold
    · cases hnew
      exact serveCall_answers inst pid call svc s.jobs s.models
  case claimed =>
    intro p c job hpending
    rcases hhanded.of_pending hpending with hold | ⟨rfl, -, hnew⟩
    · exact (h.claimed p c job hold).cons x
    -- a job is known from the answer to a claim
    · obtain ⟨-, hanswer⟩ := Pending.mk.inj hnew
      obtain ⟨provided, daemonId, token, now, hjob⟩ :=
        told_of_serveCall (Option.some.inj hanswer).symm
      refine ⟨provided, daemonId, token, now, ?_⟩
      rw [jobLog_cons, hx, hjob]
      exact List.mem_cons_self
  case executing =>
    intro p job step hstage
    rw [hhanded.daemon_eq] at hstage
    exact (h.executing p job step hstage).cons x
  case awaited =>
    intro p form answer hpending jobId hform
    refine Earned.cons ?_ x
    -- serving the upload does not change its form
    rcases hhanded.of_pending hpending with hold | ⟨rfl, hold, hnew⟩
    · exact h.awaited p form answer hold jobId hform
    · cases hnew
      exact h.awaited p form none hold jobId hform
  case late =>
    intro y hy form hy2 jobId hform
    exact (h.late y (hhanded.mem_late hy) form hy2 jobId hform).cons x
  case stored =>
    intro m hm jobId hjob
    rw [hmodels] at hm
    -- the registry is as it was, or has one more row
    rcases serveCall_models inst pid call svc s.jobs s.models with
      hsame | ⟨form, m', out, rfl, hrows, hout, hid, hform⟩
    · rw [hsame] at hm
      exact h.stored_cons (ModelDb.holds_of_mem hm) hjob x
    · rw [Table.mem_def, hrows] at hm
      rcases List.mem_append.mp hm with hm | hm
      · exact h.stored_cons (ModelDb.holds_of_mem hm) hjob x
      · -- the row of the upload that is served
        obtain rfl := List.mem_singleton.mp hm
        have huploaded : UploadedBy (x :: log) pid m := by
          refine ⟨out, ?_, hid⟩
          rw [uploads_cons, hrow, hout]
          exact List.mem_cons_self
        refine .inl ⟨pid, form, Earned.cons ?_ x, huploaded, hform⟩
        have hjob' : form.trainingJobId = some jobId := hform.trainingJobId.symm.trans hjob
        -- the daemon awaits the upload, or has given it up
        rcases hhanded.source with hpending | hlate
        · exact h.awaited pid form none hpending jobId hjob'
        · exact h.late (pid, .uploadModel form) hlate form rfl jobId hjob'

/-- What the other clients do to the registry adds at most the row of the form that they
    upload. -/
private theorem clientStep_models (inst : Installation) (s : Fleet) (e : ClientEvent)
    {m : TrainedModel} (hm : m ∈ (s.clientStep inst e).2.models.models) :
    ModelDb.Holds m s.models ∨
      ∃ provided form build now out, e = .upload provided form build now ∧
        (s.clientStep inst e).1.clientRow = some out ∧ out.id = m.id ∧ FromForm m form := by
  -- only an upload stores a row
  cases e with
  | createJob rooms spec now => exact .inl (ModelDb.holds_of_mem hm)
  | cancel jobId' now => exact .inl (ModelDb.holds_of_mem hm)
  | reap timeout now => exact .inl (ModelDb.holds_of_mem hm)
  | upload provided form build now =>
    simp only [Fleet.clientStep] at hm ⊢
    rcases uploadModel_row inst.py build inst.modelUploadSecret provided form
      (fun id => (s.jobs.jobs.find? id).isSome) now s.models with
      -- it was refused, or its form is in the last row
      ⟨f, models', hres, hsame⟩ | ⟨out, models', m', hres, hrows, hid, hform⟩
    · rw [hres, Table.mem_def, hsame] at hm
      exact .inl (ModelDb.holds_of_mem hm)
    · rw [hres, Table.mem_def, hrows] at hm
      rcases List.mem_append.mp hm with hm | hm
      · exact .inl (ModelDb.holds_of_mem hm)
      · obtain rfl := List.mem_singleton.mp hm
        exact .inr ⟨provided, form, build, now, out, rfl, by rw [hres]; rfl, hid, hform⟩
  | activate modelId order =>
    exact .inl (ModelDb.noNewRows_activateModel s.models modelId order m hm)

/-- No client has to do with the daemons. -/
private theorem clientStep_daemons (inst : Installation) (s : Fleet) (e : ClientEvent) :
    (s.clientStep inst e).2.lines = s.lines ∧ (s.clientStep inst e).2.late = s.late := by
  cases e <;> exact ⟨rfl, rfl⟩

/-- A client's request leaves the daemons alone, and a row it stores is an upload of its own. -/
theorem Origins.client {log : FleetLog} {s : Fleet} (h : Origins inst R log s) (e : ClientEvent) :
    Origins inst R ((.client e, (s.clientStep inst e).1) :: log) (s.clientStep inst e).2 := by
  obtain ⟨hlines, hlate⟩ := clientStep_daemons inst s e
  have hsame := h.cons (.client e, (s.clientStep inst e).1)
  -- no line and no abandoned request has changed
  constructor
  case answers =>
    rw [hlines]
    exact hsame.answers
  case claimed =>
    rw [hlines]
    exact hsame.claimed
  case executing =>
    rw [hlines]
    exact hsame.executing
  case awaited =>
    rw [hlines]
    exact hsame.awaited
  case late =>
    rw [hlate]
    exact hsame.late
  case stored =>
    intro m hm jobId hjob
    -- a new row is the client's own upload
    rcases clientStep_models inst s e hm with
      hheld | ⟨provided, form, build, now, out, rfl, hrow, hid, hform⟩
    · exact h.stored_cons hheld hjob _
    · exact .inr ⟨provided, form, build, now, _, out, List.mem_cons_self, hrow, hid, hform⟩

/-- Whenever `run_job` of a daemon returns, it has made what `R` says of the spec of its job. -/
def TrainsBy (R : Nat → SpecDoc → Trained → Prop) (c : Config Fleet FleetEvent FleetResponse)
    (e : FleetEvent) : Prop :=
  ∀ pid trained, e = .own pid (.trained (.ok trained)) → ∀ job,
    (c.state.lines pid).daemon.stage.job? = some (job, .training) → R pid job.spec trained

/-- Every event keeps what is known. -/
theorem Origins.answer {c : Config Fleet FleetEvent FleetResponse}
    (h : Origins inst R c.log c.state) (e : FleetEvent) (htrains : TrainsBy R c e) :
    Origins inst R ((fleetMachine inst).answer c e).log
      ((fleetMachine inst).answer c e).state := by
  obtain ⟨log, s⟩ := c
  show Origins inst R ((e, (s.step inst e).1) :: log) (s.step inst e).2
  -- one case for each event of the fleet
  cases e with
  | own pid e =>
    simp only [Fleet.step]
    split
    · exact h.cons _
    -- the daemon's own event is a training that ends or one that moves no job
    · rename_i hends
      refine h.wake (.own e (Bool.eq_false_iff.mpr hends)) ?_ (fun _ _ => rfl) rfl
      rintro job trained hjob rfl
      exact htrains pid trained rfl job hjob
  | serve pid svc =>
    unfold Fleet.step
    dsimp only
    split
    -- the call is served while its daemon waits
    · rename_i call hpending
      let served := serveCall inst pid call svc s.jobs s.models
      have hhanded : Handed pid call served.answer s
          { s.setLine pid ⟨(s.lines pid).daemon, some ⟨call, some served.answer⟩⟩ with
            jobs := served.jobs, models := served.models } := .awaited hpending rfl rfl
      exact h.served hhanded rfl rfl rfl
    · exact h.cons _
  | serveLate i svc =>
    unfold Fleet.step
    dsimp only
    split
    -- the call is served though nobody waits for it
    · rename_i pid call hlate
      let served := serveCall inst pid call svc s.jobs s.models
      have hhanded : Handed pid call served.answer s
          { s with jobs := served.jobs, models := served.models, late := s.late.eraseIdx i } :=
        .late i hlate rfl rfl
      exact h.served hhanded rfl rfl rfl
    · exact h.cons _
  | reply pid =>
    unfold Fleet.step
    dsimp only
    split
    · rename_i call answer hpending
      -- no answer of Freki is the end of a training
      have hno : ∀ trained, answer ≠ .trained (.ok trained) := by
        rintro trained rfl
        cases h.answers pid call _ hpending
      exact h.wake (.reply call answer hpending) (fun _ trained _ he => absurd he (hno trained))
        (fun trained he => absurd he (hno trained)) rfl
    · exact h.cons _
  | lose pid error =>
    unfold Fleet.step
    dsimp only
    split
    · rename_i call answer hpending
      -- losing a call is no end of a training either
      have hno : ∀ trained, call.failure error ≠ .trained (.ok trained) := by
        intro trained hlost
        have hfailure := answers_failure error call
        rw [hlost] at hfailure
        cases hfailure
      exact h.wake (.lose call answer error hpending)
        (fun _ trained _ he => absurd he (hno trained)) (fun trained he => absurd he (hno trained))
        rfl
    · exact h.cons _
  | client e => exact h.client e

end Origins

/-! ## From the label store to the registry -/

/-- What the daemons train with, and the label store that they read. -/
structure Workshop where
  numerals : Numerals
  py : Pydantic
  build : Nat → Build
  trainer : Nat → Trainer
  store : LabelSystem
  mirrored : store.Mirrored

/-- What `run_job` of a daemon may return for a spec: its export is served during any run of the
    label store. -/
structure Workshop.Runs (w : Workshop) (pid : Nat) (spec : SpecDoc)
    (stores : Nat → Config LabelSystem LabelEvent (Except Failure Unit)) (e : Export)
    (result : JobResult) : Prop where
  reads : ReadDuring w.store stores
  export_eq : ∃ fuel, iterTrainingData w.numerals spec.exportArgs (fun _ => none)
    (fun k => (stores k).state.db) fuel = e
  finished : e.ending = .finished
  returns : runJob w.py (w.build pid) (w.trainer pid) spec (.ok e.stream) = .ok result

/-- What is sent to Freki of a result. -/
def JobResult.trained (result : JobResult) : Trained where
  modelBytes := result.modelBytes
  metrics := .obj result.metrics.rows
  featureConfig := result.featureConfig

/-- The daemons run their jobs in the workshop. -/
def Workshop.TrainsJobs (w : Workshop) :
    Config Fleet FleetEvent FleetResponse → FleetEvent → Prop :=
  TrainsBy fun pid spec trained => ∃ stores e result,
    w.Runs pid spec stores e result ∧ trained = result.trained

/-- The row holds what `run_job` returned to daemon `pid` for the job. -/
structure MadeFor (inst : Installation) (w : Workshop) (log : FleetLog) (m : TrainedModel)
    (job : ClaimedJobOut) (pid : Nat) (result : JobResult) : Prop where
  /-- A client has submitted the spec, and the job is that submission or goes back to it. -/
  submitted : ∃ i, (i, job.spec) ∈ created (jobLog log) ∧ Lineage (jobLog log) i job.id
  /-- Freki has answered a claim of the daemon with the job. -/
  told : Told log pid job
  returned : Returned inst log pid job result.trained
  /-- The row is what the daemon then sent, and Freki has answered its upload with it. -/
  row : FromForm m (uploadForm (inst.daemons pid) job result.trained)
  uploaded : UploadedBy log pid m
  /-- The model is fitted to what the label store held while it was read. -/
  trained : ∃ stores e windowSize cuts, w.Runs pid job.spec stores e result ∧
    TrainedOn (w.trainer pid) job.spec stores e windowSize cuts result

/-- The row of a job is what its daemon made, or a client other than the daemons uploaded it. -/
def HasOrigin (inst : Installation) (w : Workshop) (log : FleetLog) (m : TrainedModel)
    (jobId : Nat) : Prop :=
  (∃ job pid result, job.id = jobId ∧ MadeFor inst w log m job pid result) ∨
    UploadedByClient log m

/-- The job queue of a fleet runs as a job queue does. -/
private theorem run_jobLog {ok : Config Fleet FleetEvent FleetResponse → FleetEvent → Prop}
    {c : Config Fleet FleetEvent FleetResponse}
    (hrun : (fleetMachine inst).Run ok ⟨[], .boot inst⟩ c) :
    (jobMachine inst.mlControlSecret).Run (fun _ _ => True) ⟨[], JobDb.empty⟩
      ⟨jobLog c.log, c.state.jobs⟩ :=
  (jobQueue inst).run hrun fun _ _ _ _ _ => trivial

/-- The row of a job has its origin, active or not. -/
theorem hasOrigin_of_holds {w : Workshop} {c : Config Fleet FleetEvent FleetResponse}
    (hrun : (fleetMachine inst).Run w.TrainsJobs ⟨[], .boot inst⟩ c) {m : TrainedModel}
    (hm : ModelDb.Holds m c.state.models) {jobId : Nat} (hjob : m.trainingJobId = some jobId) :
    HasOrigin inst w c.log m jobId := by
  have horigins : Origins inst _ c.log c.state :=
    hrun.invariant (I := fun c => Origins inst _ c.log c.state) (origins_boot inst _)
      fun c e h htrains => h.answer e htrains
  obtain ⟨active, hmem⟩ := hm
  rcases horigins.stored _ hmem jobId hjob with
    ⟨pid, form, ⟨job, trained, htold, hreturned, ⟨stores, e, result, hruns, rfl⟩, rfl⟩, huploaded,
      hform⟩ | ⟨provided, form, build, now, response, out, hupload, hrow, hid, hform⟩
  · have hid : job.id = jobId := Option.some.inj (hform.trainingJobId.symm.trans hjob)
    obtain ⟨fuel, hexport⟩ := hruns.export_eq
    obtain ⟨windowSize, cuts, htrained⟩ :=
      trainedOn_of_mirrored w.numerals w.mirrored hruns.reads hexport hruns.returns
    have hclaim := htold
    obtain ⟨provided, daemonId, token, now, hanswered⟩ := hclaim
    exact .inl ⟨job, pid, result, hid, exists_root_of_claim (run_jobLog hrun) hanswered, htold,
      hreturned, hform.setActive, huploaded, stores, e, windowSize, cuts, hruns, htrained⟩
  · exact .inr ⟨provided, form, build, now, response, out, hupload, hrow, hid, hform.setActive⟩

/-- Where the stored models come from: in every run of daemons, clients, the reaper and a network
    that loses and delays requests. -/
theorem madeFor_of_run (w : Workshop) {c : Config Fleet FleetEvent FleetResponse}
    (hrun : (fleetMachine inst).Run w.TrainsJobs ⟨[], .boot inst⟩ c) {m : TrainedModel}
    (hm : m ∈ c.state.models.models) {jobId : Nat} (hjob : m.trainingJobId = some jobId) :
    HasOrigin inst w c.log m jobId :=
  hasOrigin_of_holds hrun (ModelDb.holds_of_mem hm) hjob

/-- The example's store mirrors its labelled samples. -/
private theorem oneRoomStore_mirrored : LabelSystem.oneRoomStore.Mirrored :=
  (LabelSystem.mirrored_iff (by decide) rfl rfl).mpr LabelSystem.oneRoomStore_mirrors

/-- A workshop over the store of one sample. -/
def kitchenWorkshop : Workshop where
  numerals := noNumerals
  py := exactPydantic
  build _ := .current
  trainer _ := tallyTrainer
  store := LabelSystem.oneRoomStore
  mirrored := oneRoomStore_mirrored

/-- A job over the kitchen, in windows of one row. -/
def kitchenJob : JobSpec := { kitchenSpec with hyperparams := [("window_size", .int 1)] }

/-- The export of the job, when the sample has been labelled. -/
def kitchenExport : Export :=
  iterTrainingData noNumerals kitchenJob.dump.exportArgs (fun _ => none)
    (fun _ => labelledKitchen.state.db) 1

/-- What a daemon makes of the job. -/
def kitchenTrained : Trained :=
  match runJob exactPydantic .current tallyTrainer kitchenJob.dump (.ok kitchenExport.stream) with
  | .ok result => result.trained
  | .error _ => ⟨[], .obj [], .obj []⟩

/-- Once the sample is labelled and synced, `run_job` can return the example's model. -/
private theorem kitchenWorkshop_runs : ∃ stores e result,
    kitchenWorkshop.Runs 0 kitchenJob.dump stores e result ∧ kitchenTrained = result.trained := by
  have hreads : ReadDuring LabelSystem.oneRoomStore fun _ => labelledKitchen :=
    ⟨Machine.run_of_admits ⟨trivial, trivial, trivial, trivial⟩, fun _ => .refl⟩
  cases hjob : runJob exactPydantic .current tallyTrainer kitchenJob.dump
      (.ok kitchenExport.stream) with
  | ok result =>
    refine ⟨_, kitchenExport, result, ⟨hreads, ⟨1, rfl⟩, by decide +kernel, hjob⟩, ?_⟩
    rw [kitchenTrained, hjob]
  | error exc =>
    have hok : (runJob exactPydantic .current tallyTrainer kitchenJob.dump
        (.ok kitchenExport.stream)).toOption.isSome = true := by
      decide +kernel
    rw [hjob] at hok
    cases hok

/-- The job is submitted, claimed, trained and completed. -/
def kitchenRun : List FleetEvent :=
  let svc : Service := ⟨5, "0123456789abcdef", [1], .current⟩
  [.client (.createJob [⟨"kitchen", 0, 0⟩] kitchenJob 0),
    .serve 0 svc, .reply 0,
    .serve 0 svc, .reply 0,
    .serve 0 svc, .reply 0,
    .own 0 (.trained (.ok kitchenTrained)),
    .serve 0 svc, .reply 0,
    .serve 0 svc, .reply 0]

/-- Only the return of `run_job` is asked about. -/
theorem trainsJobs_of_ne {w : Workshop} {c : Config Fleet FleetEvent FleetResponse}
    {e : FleetEvent} (he : ∀ pid outcome, e ≠ .own pid (.trained outcome)) : w.TrainsJobs c e :=
  fun pid _ htrained => absurd htrained (he pid _)

/-- The example's daemon returns what its workshop makes of the kitchen job. -/
theorem trainsJobs_kitchenTrained {c : Config Fleet FleetEvent FleetResponse}
    (h : ((c.state.lines 0).daemon.stage.job?).map (·.1.spec) = some kitchenJob.dump) :
    kitchenWorkshop.TrainsJobs c (.own 0 (.trained (.ok kitchenTrained))) := by
  intro pid trained htrained job hjob
  cases htrained
  rw [hjob] at h
  rw [show job.spec = kitchenJob.dump from Option.some.inj h]
  exact kitchenWorkshop_runs

/-- The example's run keeps to the workshop. -/
private theorem kitchenRun_admits :
    (fleetMachine openInstallation).Admits kitchenWorkshop.TrainsJobs
      ⟨[], .boot openInstallation⟩ kitchenRun := by
  refine ⟨?_, ?_, ?_, ?_, ?_, ?_, ?_, trainsJobs_kitchenTrained rfl, ?_, ?_, ?_, ?_, trivial⟩
  all_goals exact trainsJobs_of_ne fun _ _ => FleetEvent.noConfusion

/-- The model in the registry was made for job 1. -/
theorem madeFor_of_kitchenRun :
    ∃ m ∈ ((fleetMachine openInstallation).replay ⟨[], .boot openInstallation⟩
        kitchenRun).state.models.models, ∃ job pid result, job.id = 1 ∧
      MadeFor openInstallation kitchenWorkshop ((fleetMachine openInstallation).replay
        ⟨[], .boot openInstallation⟩ kitchenRun).log m job pid result := by
  have hstored : ∃ m ∈ ((fleetMachine openInstallation).replay ⟨[], .boot openInstallation⟩
      kitchenRun).state.models.models.rows, m.trainingJobId = some 1 := by
    decide +kernel
  obtain ⟨m, hm, hjob⟩ := hstored
  rcases madeFor_of_run kitchenWorkshop (Machine.run_of_admits kitchenRun_admits) hm hjob with
    hmade | hclient
  · exact ⟨m, hm, hmade⟩
  · exact absurd hclient (not_uploadedByClient hjob (by decide +kernel))

end Nornir

end Grimnir
