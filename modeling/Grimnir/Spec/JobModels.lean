import Grimnir.Spec.JobBooks

/-!
# The models of jobs

In every state that daemons, clients, the reaper and a lossy network can reach, when only the
daemons upload models that name a job, a job has at most one model, its uploader holds the one
successful claim of the job, and a complete job has its model.

## Key results

- `Booked.answer`: every event keeps the books
- `modelsOfJobs_of_run`: what holds of jobs, models and daemons in every state of every run
-/

namespace Grimnir.Nornir

open JobDb

variable {inst : Installation}

/-- The books are in order. -/
structure Booked (inst : Installation) (log : FleetLog) (s : Fleet) : Prop where
  rights : Rights log s
  evidence : Evidence inst log s

variable {log : FleetLog} {s : Fleet}

private theorem booked_boot (inst : Installation) : Booked inst [] (Fleet.boot inst) where
  -- no job, no model and no call in flight
  rights := {
    owned := owned_empty
    upload := fun _ _ => Nat.le_refl _
    report := fun _ _ => Nat.le_refl _
    begun := fun _ _ => Nat.le_refl _
    held := by
      rintro pid jobId (⟨job, step, hstage, -⟩ | ⟨p, hp, habout | hclaims⟩)
      · cases hstage
      · cases hp
        cases habout
      · cases hp
        cases hclaims
    heldLate := fun _ h => nomatch h
    heldUpload := fun _ h => nomatch h }
  evidence := {
    stored := fun _ h => nomatch h
    kept := fun _ h => nomatch h
    uploading := fun _ _ _ h => nomatch h
    answered := fun _ _ _ h => nomatch h
    completing := by
      intro pid p hp jobId hcompletes
      cases hp
      cases hcompletes
    completingLate := fun _ h => nomatch h
    completed := fun _ h => nomatch h
    sent := fun _ h => nomatch h }

/-- A daemon that is woken keeps the books. -/
theorem Booked.wake (h : Booked inst log s) {pid : Nat} {pending : Option Pending}
    {e : NornirEvent} {late : List (Nat × FrekiCall)} {received : Option (Nat × NornirEvent)}
    (hends : Ends pid s pending e late received) (x : FleetEvent) :
    Booked inst
      ((x, ⟨none, none, ({ s with late := late }.wake (inst.daemons pid) pid pending e).1,
        received, none⟩) :: log)
      ({ s with late := late }.wake (inst.daemons pid) pid pending e).2 := by
  obtain ⟨call, daemon, hmove, hwake⟩ := wake_moves (inst.daemons pid) pid pending e late s
  rw [hwake]
  exact ⟨h.rights.wake hends x hmove, h.evidence.wake hends x hmove⟩

/-- So does serving a request. -/
theorem Booked.served (h : Booked inst log s) {pid : Nat} {call : FrekiCall} {svc : Service}
    {s' : Fleet}
    (hhanded : Handed pid call (serveCall inst pid call svc s.jobs s.models).answer s s')
    (hjobs : s'.jobs = (serveCall inst pid call svc s.jobs s.models).jobs)
    (hmodels : s'.models = (serveCall inst pid call svc s.jobs s.models).models)
    (x : FleetEvent) :
    Booked inst
      ((x, ⟨(serveCall inst pid call svc s.jobs s.models).job,
        (serveCall inst pid call svc s.jobs s.models).uploaded.map fun out => (pid, out),
        none, none, none⟩) :: log) s' := by
  have heff := serveCall_effect inst pid call svc s.jobs s.models
  exact ⟨h.rights.served heff hhanded hjobs hmodels x,
    h.evidence.served heff hhanded hjobs hmodels x⟩

theorem Booked.outside (h : Booked inst log s) {s' : Fleet}
    {job : Option (JobEvent × Grimnir.JobResult)} (hout : Outside s s' job) (x : FleetEvent)
    (row : Option ModelOut) :
    Booked inst ((x, { Fleet.quiet with job := job, clientRow := row }) :: log) s' :=
  ⟨h.rights.outside hout x row, h.evidence.outside hout x row⟩

/-- Every event keeps the books, when clients leave the models of jobs to the daemons. -/
theorem Booked.answer {c : Config Fleet FleetEvent FleetResponse}
    (h : Booked inst c.log c.state) (e : FleetEvent) (hleaves : e.leavesJobModels) :
    Booked inst ((fleetMachine inst).answer c e).log ((fleetMachine inst).answer c e).state := by
  obtain ⟨log, s⟩ := c
  have hquiet : Booked inst ((e, Fleet.quiet) :: log) s := h.outside (.refl s) e none
  show Booked inst ((e, (s.step inst e).1) :: log) (s.step inst e).2
  -- whoever acts, the call's effect on the books is `served` or `wake`
  cases e with
  | own pid e =>
    simp only [Fleet.step]
    split
    · exact hquiet
    · rename_i hends
      exact h.wake (.own e (Bool.eq_false_iff.mpr hends)) _
  -- Freki answers a call that is waited for
  | serve pid svc =>
    unfold Fleet.step
    dsimp only
    split
    · rename_i call hpending
      let served := serveCall inst pid call svc s.jobs s.models
      have hhanded : Handed pid call served.answer s
          { s.setLine pid ⟨(s.lines pid).daemon, some ⟨call, some served.answer⟩⟩ with
            jobs := served.jobs, models := served.models } := .awaited hpending rfl rfl
      exact h.served hhanded rfl rfl _
    · exact hquiet
  -- and one that its caller no longer waits for
  | serveLate i svc =>
    unfold Fleet.step
    dsimp only
    split
    · rename_i pid call hlate
      let served := serveCall inst pid call svc s.jobs s.models
      have hhanded : Handed pid call served.answer s
          { s with jobs := served.jobs, models := served.models, late := s.late.eraseIdx i } :=
        .late i hlate rfl rfl
      exact h.served hhanded rfl rfl _
    · exact hquiet
  | reply pid =>
    unfold Fleet.step
    dsimp only
    split
    · rename_i call answer hpending
      exact h.wake (.reply call answer hpending) _
    · exact hquiet
  | lose pid error =>
    unfold Fleet.step
    dsimp only
    split
    · rename_i call answer hpending
      exact h.wake (.lose call answer error hpending) _
    · exact hquiet
  -- another client's request is not about a job's model
  | client e =>
    obtain ⟨job, row, hout, hresponse⟩ := clientStep_outside inst s hleaves
    show Booked inst ((_, (s.clientStep inst e).1) :: log) (s.clientStep inst e).2
    rw [hresponse]
    exact h.outside hout _ row

/-! ## What the books say -/

/-- What holds of the jobs, their models and the daemons. -/
structure ModelsOfJobs (c : Config Fleet FleetEvent FleetResponse) : Prop where
  atMostOne : ∀ jobId, modelCount c.state.models jobId ≤ 1
  /-- The uploader is the daemon of the one claim of the job that succeeded. -/
  uploader : ∀ m ∈ c.state.models.models, ∀ jobId, m.trainingJobId = some jobId → ∃ p,
    (claims (jobLog c.log)).filter (fun q => q.jobId = jobId) = [p] ∧
      (∃ x ∈ uploads c.log, x.2.id = m.id) ∧
      ∀ x ∈ uploads c.log, x.2.id = m.id → x.1 = p.actor
  complete : ∀ job ∈ c.state.jobs.jobs, job.status = .complete →
    modelCount c.state.models job.id = 1
  /-- No daemon executes a job twice, and no execution is reported on twice. -/
  once : ∀ pid jobId, executions c.log pid jobId ≤ 1 ∧ reports c.log pid jobId ≤ 1
  /-- A completion is sent when the upload for the job returns, with success. -/
  uploadFirst : ∀ x ∈ c.log, ∀ pid jobId daemonId token,
    x.2.sent = some (pid, .completeJob jobId daemonId token) → ∃ out,
      x.2.received = some (pid, .uploaded (.ok out.id)) ∧ (pid, out) ∈ uploads c.log ∧
        out.trainingJobId = some jobId

private theorem mem_modelKeys {db : ModelDb} {m : TrainedModel} (h : m ∈ db.models) :
    (m.id, m.trainingJobId) ∈ modelKeys db := List.mem_map_of_mem h

/-- A row has one job. -/
private theorem job_of_key {db : ModelDb} {m : TrainedModel} (h : m ∈ db.models) {job : Option Nat}
    (hkey : (m.id, job) ∈ modelKeys db) : job = m.trainingJobId := by
  obtain ⟨k, hk, hpair⟩ := List.mem_map.mp hkey
  obtain ⟨hid, rfl⟩ := Prod.mk.inj hpair
  rw [db.models.eq_of_key_eq hk h hid]

private theorem Booked.modelsOfJobs {c : Config Fleet FleetEvent FleetResponse}
    (h : Booked inst c.log c.state) : ModelsOfJobs c := by
  obtain ⟨hrights, hev⟩ := h
  have hone : ∀ jobId, claimCount (jobLog c.log) jobId ≤ 1 := claimCount_le_one hrights.owned
  -- one claim a job at most, and at most one model a claim
  have hmost : ∀ jobId, modelCount c.state.models jobId ≤ 1 := by
    intro jobId
    have := hrights.upload 0 jobId
    have := hone jobId
    omega
  -- a model's job was held by the process that uploaded it
  refine ⟨hmost, ?_, ?_, ?_, hev.sent⟩
  · intro m hm jobId hjob
    obtain ⟨x, hx, hid, hxjob⟩ := hev.stored _ (mem_modelKeys hm) jobId hjob
    obtain ⟨p, hp, hpjob, hactor⟩ := hrights.heldUpload x hx jobId hxjob
    refine ⟨p, claims_of_job hrights.owned hp hpjob, ⟨x, hx, hid⟩, ?_⟩
    -- another upload of this row was for this job, hence by its holder
    intro y hy hyid
    have hyjob : y.2.trainingJobId = m.trainingJobId := by
      refine job_of_key hm ?_
      rw [← hyid]
      exact hev.kept y hy
    exact (hrights.heldUpload y hy jobId (hyjob.trans hjob)).unique hrights.owned
      ⟨p, hp, hpjob, rfl⟩
  -- a completed job has the model that its completion names
  · intro job hjob hstatus
    obtain ⟨x, hx, hxjob⟩ := hev.completed job hjob hstatus
    refine Nat.le_antisymm (hmost job.id) ?_
    exact List.countP_pos_iff.mpr ⟨_, hev.kept x hx, by simpa using hxjob⟩
  · intro pid jobId
    have := hrights.begun pid jobId
    have := hrights.report pid jobId
    have := hone jobId
    exact ⟨by omega, by omega⟩

/-- Completed jobs have their model: in every state of every run in which only daemons upload
    models that name a job. -/
theorem modelsOfJobs_of_run {c : Config Fleet FleetEvent FleetResponse}
    (hrun : (fleetMachine inst).Run (fun _ e => e.leavesJobModels) ⟨[], .boot inst⟩ c) :
    ModelsOfJobs c := by
  have hbooked : Booked inst c.log c.state := by
    refine hrun.invariant (I := fun c => Booked inst c.log c.state) (booked_boot inst) ?_
    intro c e h hleaves
    exact h.answer e hleaves
  exact hbooked.modelsOfJobs

/-- An installation without secrets. -/
def openInstallation : Installation := ⟨exactPydantic, "", "", fun _ => plainNornir⟩

/-- A daemon registers, claims the one queued job, trains a model, uploads it and
    completes the job. -/
def completeRun : List FleetEvent :=
  let svc : Service := ⟨5, "0123456789abcdef", [1], .current⟩
  [.client (.createJob [⟨"kitchen", 0, 0⟩] JobDb.kitchenSpec 0),
    .serve 0 svc, .reply 0,
    .serve 0 svc, .reply 0,
    .serve 0 svc, .reply 0,
    .own 0 (.trained (.ok ⟨[0], .obj [], (FeatureConfig.default .current).dump⟩)),
    .serve 0 svc, .reply 0,
    .serve 0 svc, .reply 0]

theorem modelsOfJobs_of_completeRun :
    ModelsOfJobs ((fleetMachine openInstallation).replay ⟨[], .boot openInstallation⟩
      completeRun) :=
  modelsOfJobs_of_run (Machine.run_of_admits
    ⟨trivial, trivial, trivial, trivial, trivial, trivial, trivial, trivial, trivial, trivial,
      trivial, trivial, trivial⟩)

/-- The job is complete then, and has its model. -/
example :
    let c := (fleetMachine openInstallation).replay ⟨[], .boot openInstallation⟩ completeRun
    c.state.jobs.jobs.rows.map (·.status) = [.complete] ∧ modelCount c.state.models 1 = 1 := by
  decide

end Grimnir.Nornir
