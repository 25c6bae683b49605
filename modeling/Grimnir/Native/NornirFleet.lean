import Grimnir.Native.Nornir

/-!
# Nornir daemons and one Freki

Any number of daemons over the job queue and the model registry.  A request that a daemon
sends is served at most once: while the daemon waits for it, after the daemon has given up,
or never.  A call that is not answered, or whose answer is lost, ends in an error.  Other
clients create and cancel jobs, run the reaper, and upload and activate models.
-/

namespace Grimnir.Nornir

/-- What the requests of a run have in common. -/
structure Installation where
  py : Pydantic
  mlControlSecret : String
  modelUploadSecret : String
  daemons : Nat → NornirConfig

/-- What a replica of Freki adds to a request it serves. -/
structure Service where
  now : Timestamp
  /-- `secrets.token_urlsafe`. -/
  claimToken : String
  /-- The answer of `list_jobs`. -/
  queued : List Nat
  build : Build

/-- The call that a daemon awaits, with what will end it. -/
structure Pending where
  call : FrekiCall
  answer : Option NornirEvent

/-- A daemon and its awaited call. -/
structure Line where
  daemon : Daemon
  pending : Option Pending

structure Fleet where
  jobs : JobDb
  models : ModelDb
  lines : Nat → Line
  /-- The requests nobody waits for: those of the heartbeat tasks and those given up. -/
  late : List (Nat × FrekiCall)

/-- What clients other than the daemons do. -/
inductive ClientEvent where
  | createJob (rooms : List Room) (spec : JobSpec) (now : Timestamp)
  | cancel (jobId : Nat) (now : Timestamp)
  | reap (timeout : Int) (now : Timestamp)
  | upload (provided : Option String) (form : ModelForm) (build : Build) (now : Timestamp)
  | activate (modelId : Nat) (order : List ModelDb.RowWrite)

/-- The client uploads no model that names a job. -/
def ClientEvent.leavesJobModels : ClientEvent → Prop
  | .upload _ form _ _ => form.trainingJobId = none
  | _ => True

instance : DecidablePred ClientEvent.leavesJobModels
  | .upload _ form _ _ => inferInstanceAs (Decidable (form.trainingJobId = none))
  | .createJob _ _ _ | .cancel _ _ | .reap _ _ | .activate _ _ => isTrue trivial

inductive FleetEvent where
  /-- The daemon is woken by something else than its awaited call. -/
  | own (pid : Nat) (e : NornirEvent)
  /-- Freki serves the awaited call. -/
  | serve (pid : Nat) (svc : Service)
  /-- Freki serves a request nobody waits for. -/
  | serveLate (i : Nat) (svc : Service)
  /-- The answer arrives. -/
  | reply (pid : Nat)
  /-- The awaited call ends in an error. -/
  | lose (pid : Nat) (error : CallError)
  | client (e : ClientEvent)

/-- Only daemons upload models that name a job. -/
def FleetEvent.leavesJobModels : FleetEvent → Prop
  | .client e => e.leavesJobModels
  | _ => True

instance : DecidablePred FleetEvent.leavesJobModels
  | .client e => inferInstanceAs (Decidable e.leavesJobModels)
  | .own _ _ | .serve _ _ | .serveLate _ _ | .reply _ | .lose _ _ => isTrue trivial

/-- What an event makes visible. -/
structure FleetResponse where
  /-- The request to the job queue, with its result. -/
  job : Option (JobEvent × Grimnir.JobResult)
  /-- The row that an upload by a daemon has inserted. -/
  uploaded : Option (Nat × ModelOut)
  /-- The call that a daemon makes. -/
  sent : Option (Nat × FrekiCall)
  /-- How the awaited call of a daemon ends. -/
  received : Option (Nat × NornirEvent)
  /-- The row that an upload by another client has inserted. -/
  clientRow : Option ModelOut

/-! ## Serving a call -/

/-- How a failed request appears to the client. -/
def refusal : Failure → CallError
  | .http exc => .freki exc.statusCode exc.detail
  | .internal _ => .freki 500 "Internal Server Error"
  | .uncaught _ => .freki 500 "Internal Server Error"

/-- `{SECRET_HEADER: secret}`, when there is a secret. -/
def header (secret : String) : Option String := if secret = "" then none else some secret

/-- `JobControlBody.model_validate`. -/
def controlBody (daemonId : Nat) (claimToken : String) : Option JobControlBody :=
  if h : 16 ≤ claimToken.length ∧ claimToken.length ≤ 255 then some ⟨daemonId, claimToken, h⟩
  else none

/-- Status 422 for a body that does not validate. -/
def unprocessable : CallError := .freki 422 "Unprocessable Entity"

/-- What comes of a request. -/
structure Served where
  answer : NornirEvent
  job : Option (JobEvent × Grimnir.JobResult)
  uploaded : Option ModelOut
  jobs : JobDb
  models : ModelDb

/-- A heartbeat, completion or failure of a job. -/
def serveControl (secret : String) (pid : Nat) (provided : Option String) (kind : ControlKind)
    (jobId daemonId : Nat) (claimToken : String) (now : Timestamp)
    (wrap : Except CallError Unit → NornirEvent) (jobs : JobDb) (models : ModelDb) : Served :=
  match controlBody daemonId claimToken with
  | none => ⟨wrap (.error unprocessable), none, none, jobs, models⟩
  | some body =>
    let e : JobEvent := .control kind pid provided jobId body now
    let (r, jobs') := jobs.step secret e
    let outcome : Except CallError Unit :=
      match r with
      | .ok _ => .ok ()
      | .error f => .error (refusal f)
    ⟨wrap outcome, some (e, r), none, jobs', models⟩

/-- Freki serves a call of daemon `pid`. -/
def serveCall (inst : Installation) (pid : Nat) (call : FrekiCall) (svc : Service)
    (jobs : JobDb) (models : ModelDb) : Served :=
  let control := header (inst.daemons pid).mlControlSharedSecret
  match call with
  | .heartbeatDaemon name host =>
    let e : JobEvent := .daemonHeartbeat control name host svc.now
    let (r, jobs') := jobs.step inst.mlControlSecret e
    let outcome : Except CallError Nat :=
      match r with
      | .ok (.daemon (some row)) => .ok row.id
      | .ok _ => .error (.freki 500 "Internal Server Error")
      | .error f => .error (refusal f)
    ⟨.registered outcome, some (e, r), none, jobs', models⟩
  | .listQueuedJobs _ => ⟨.listed (.ok svc.queued), none, none, jobs, models⟩
  | .claimJob jobId daemonId =>
    let e : JobEvent := .claim pid control jobId daemonId svc.claimToken svc.now
    let (r, jobs') := jobs.step inst.mlControlSecret e
    let outcome : Except CallError ClaimedJobOut :=
      match r with
      | .ok (.claimed out) => .ok out
      | .ok _ => .error (.freki 500 "Internal Server Error")
      | .error f => .error (refusal f)
    ⟨.claimed outcome, some (e, r), none, jobs', models⟩
  | .heartbeatJob jobId daemonId claimToken =>
    serveControl inst.mlControlSecret pid control .heartbeat jobId daemonId claimToken svc.now
      .jobHeartbeat jobs models
  | .uploadModel form =>
    match uploadModel inst.py svc.build inst.modelUploadSecret
        (header (inst.daemons pid).modelUploadSharedSecret) form
        (fun id => (jobs.jobs.find? id).isSome) svc.now models with
    | (.ok out, models') => ⟨.uploaded (.ok out.id), none, some out, jobs, models'⟩
    | (.error f, models') => ⟨.uploaded (.error (refusal f)), none, none, jobs, models'⟩
  | .completeJob jobId daemonId claimToken =>
    serveControl inst.mlControlSecret pid control .complete jobId daemonId claimToken svc.now
      .reported jobs models
  | .failJob jobId daemonId claimToken error =>
    serveControl inst.mlControlSecret pid control (.fail error) jobId daemonId claimToken svc.now
      .reported jobs models

/-- How a call ends in an error. -/
def FrekiCall.failure (error : CallError) : FrekiCall → NornirEvent
  | .heartbeatDaemon _ _ => .registered (.error error)
  | .listQueuedJobs _ => .listed (.error error)
  | .claimJob _ _ => .claimed (.error error)
  | .heartbeatJob _ _ _ => .jobHeartbeat (.error error)
  | .uploadModel _ => .uploaded (.error error)
  | .completeJob _ _ _ => .reported (.error error)
  | .failJob _ _ _ _ => .reported (.error error)

/-! ## Steps -/

/-- The event ends the awaited call of `main`. -/
def NornirEvent.endsCall : NornirEvent → Bool
  | .registered _ | .listed _ | .claimed _ | .uploaded _ | .reported _ => true
  | _ => false

/-- The call of this event is made by a heartbeat task. -/
def NornirEvent.inBackground : NornirEvent → Bool
  | .jobHeartbeatDue | .daemonHeartbeatDue => true
  | _ => false

namespace Fleet

/-- Nothing. -/
def quiet : FleetResponse := ⟨none, none, none, none, none⟩

def setLine (pid : Nat) (line : Line) (s : Fleet) : Fleet :=
  { s with lines := fun p => if p = pid then line else s.lines p }

/-- Event `e` reaches the daemon `pid`, whose awaited call is then `pending` unless it makes
    another one. -/
def wake (config : NornirConfig) (pid : Nat) (pending : Option Pending) (e : NornirEvent)
    (s : Fleet) : Option (Nat × FrekiCall) × Fleet :=
  let (call, daemon) := (s.lines pid).daemon.step config e
  match call with
  | none => (none, s.setLine pid ⟨daemon, pending⟩)
  | some call =>
    if e.inBackground then
      -- the call of a heartbeat task does not hold up `main`
      (some (pid, call),
        { s.setLine pid ⟨daemon, pending⟩ with late := (pid, call) :: s.late })
    else (some (pid, call), s.setLine pid ⟨daemon, some ⟨call, none⟩⟩)

/-- What the other clients do. -/
def clientStep (inst : Installation) (s : Fleet) : ClientEvent → FleetResponse × Fleet
  | .createJob rooms spec now =>
    let (r, jobs) := s.jobs.step inst.mlControlSecret (.createJob rooms spec now)
    ({ quiet with job := some (.createJob rooms spec now, r) }, { s with jobs := jobs })
  | .cancel jobId now =>
    let (r, jobs) := s.jobs.step inst.mlControlSecret (.cancel jobId now)
    ({ quiet with job := some (.cancel jobId now, r) }, { s with jobs := jobs })
  | .reap timeout now =>
    let (r, jobs) := s.jobs.step inst.mlControlSecret (.reap timeout now)
    ({ quiet with job := some (.reap timeout now, r) }, { s with jobs := jobs })
  | .upload provided form build now =>
    let result := uploadModel inst.py build inst.modelUploadSecret provided form
      (fun id => (s.jobs.jobs.find? id).isSome) now s.models
    ({ quiet with clientRow := result.1.toOption }, { s with models := result.2 })
  | .activate modelId order =>
    (quiet, { s with models := (s.models.activateModel modelId order).2 })

/-- One event. -/
def step (inst : Installation) (s : Fleet) : FleetEvent → FleetResponse × Fleet
  | .own pid e =>
    if e.endsCall then (quiet, s)
    else
      let (sent, s) := s.wake (inst.daemons pid) pid (s.lines pid).pending e
      ({ quiet with sent := sent }, s)
  | .serve pid svc =>
    match (s.lines pid).pending with
    | some ⟨call, none⟩ =>
      let served := serveCall inst pid call svc s.jobs s.models
      (⟨served.job, served.uploaded.map fun out => (pid, out), none, none, none⟩,
        { s.setLine pid ⟨(s.lines pid).daemon, some ⟨call, some served.answer⟩⟩ with
          jobs := served.jobs, models := served.models })
    | _ => (quiet, s)
  | .serveLate i svc =>
    match s.late[i]? with
    | some (pid, call) =>
      let served := serveCall inst pid call svc s.jobs s.models
      (⟨served.job, served.uploaded.map fun out => (pid, out), none, none, none⟩,
        { s with jobs := served.jobs, models := served.models, late := s.late.eraseIdx i })
    | none => (quiet, s)
  | .reply pid =>
    match (s.lines pid).pending with
    | some ⟨_, some answer⟩ =>
      let (sent, s) := s.wake (inst.daemons pid) pid none answer
      ({ quiet with sent := sent, received := some (pid, answer) }, s)
    | _ => (quiet, s)
  | .lose pid error =>
    match (s.lines pid).pending with
    | some ⟨call, answer⟩ =>
      -- what was not served yet can still be
      let late := if answer.isNone then (pid, call) :: s.late else s.late
      let (sent, s) :=
        { s with late := late }.wake (inst.daemons pid) pid none (call.failure error)
      ({ quiet with sent := sent, received := some (pid, call.failure error) }, s)
    | none => (quiet, s)
  | .client e => s.clientStep inst e

/-- An empty installation, whose daemons have started. -/
def boot (inst : Installation) : Fleet where
  jobs := .empty
  models := .empty
  lines pid :=
    let config := inst.daemons pid
    ⟨.boot, some ⟨.heartbeatDaemon config.daemonName config.daemonHost, none⟩⟩
  late := []

end Fleet

/-- The daemons with their Freki. -/
def fleetMachine (inst : Installation) : Machine Fleet FleetEvent FleetResponse where
  step s e := s.step inst e

end Grimnir.Nornir
