import Grimnir.Native.JobDb
import Grimnir.Native.MlAuth

/-!
# `freki/routers/training_jobs.py` and `training_daemons.py`

Claim, heartbeat, complete, fail and cancel are one conditional `UPDATE … RETURNING` with
their own `WHERE`, `SET` and refusal: `updateJob` is that pattern, each endpoint its
instance.
-/

namespace Grimnir

/-! ## Request and response bodies -/

/-- A validated `JobSpec`. -/
structure JobSpec where
  modelType : String
  hyperparams : List (String × Json)
  featureConfig : FeatureConfig
  timeStart : Timestamp
  timeEnd : Timestamp
  rooms : List String
  roomsBounds : 1 ≤ rooms.length ∧ rooms.length ≤ 32

/-- The spec of a request, with its `feature_config` as it was sent. -/
structure JobRequest where
  modelType : String
  hyperparams : List (String × Json)
  featureConfig : Option Json
  timeStart : Timestamp
  timeEnd : Timestamp
  rooms : List String

/-- `feature_config: FeatureConfig = Field(default_factory=FeatureConfig)` in a given build. -/
def JobRequest.validateFeatureConfig (py : Pydantic) (build : Build) (request : JobRequest) :
    Except (List FieldError) FeatureConfig :=
  FeatureConfig.validate py build (request.featureConfig.getD (.obj []))

/-- `JobSpec.model_validate` in a given build. -/
def JobRequest.validate (py : Pydantic) (build : Build) (request : JobRequest) :
    Except (List FieldError) JobSpec :=
  let few : List FieldError :=
    if request.rooms.length < 1 then
      [⟨"rooms", "List should have at least 1 item after validation, not 0"⟩] else []
  let many : List FieldError :=
    if 32 < request.rooms.length then
      [⟨"rooms",
        s!"List should have at most 32 items after validation, not {request.rooms.length}"⟩]
    else []
  match request.validateFeatureConfig py build with
  | .error errors => .error (errors ++ few ++ many)
  | .ok featureConfig =>
    if h : 1 ≤ request.rooms.length ∧ request.rooms.length ≤ 32 then
      .ok ⟨request.modelType, request.hyperparams, featureConfig, request.timeStart,
        request.timeEnd, request.rooms, h⟩
    else .error (few ++ many)

/-- `body.spec.model_dump(mode="json")`. -/
def JobSpec.dump (spec : JobSpec) : SpecDoc where
  modelType := spec.modelType
  hyperparams := spec.hyperparams
  featureConfig := spec.featureConfig.dump
  timeStart := spec.timeStart
  timeEnd := spec.timeEnd
  rooms := spec.rooms

/-- `JobControlBody`. -/
structure JobControlBody where
  daemonId : Nat
  claimToken : String
  claimTokenBounds : 16 ≤ claimToken.length ∧ claimToken.length ≤ 255
  deriving DecidableEq, Repr

/-- `JobOut`: a job without its claim token. -/
structure JobOut where
  id : Nat
  status : JobStatus
  spec : SpecDoc
  daemonId : Option Nat
  createdAt : Timestamp
  claimedAt : Option Timestamp
  heartbeatAt : Option Timestamp
  completedAt : Option Timestamp
  error : Option String

/-- `ClaimedJobOut`. -/
structure ClaimedJobOut extends JobOut where
  claimToken : String

def TrainingJob.out (j : TrainingJob) : JobOut where
  id := j.id
  status := j.status
  spec := j.spec
  daemonId := j.daemonId
  createdAt := j.createdAt
  claimedAt := j.claimedAt
  heartbeatAt := j.heartbeatAt
  completedAt := j.completedAt
  error := j.error

/-! ## Creating a job -/

/-- `create_job`, with the rooms its `SELECT` finds. -/
def createJob (rooms : List Room) (spec : JobSpec) (now : Timestamp) (db : JobDb) :
    Except Failure JobOut × JobDb :=
  if spec.timeEnd ≤ spec.timeStart then
    (.error (.http ⟨422, "time_end must be after time_start"⟩), db)
  else
    let unknown := spec.rooms.filter fun r => !(rooms.map (·.name)).contains r
    if unknown ≠ [] then
      let names := ", ".intercalate (unknown.insertionSort (· ≤ ·))
      (.error (.http ⟨422, s!"Unknown room(s): {names}"⟩), db)
    else (.ok (JobDb.newJob db.jobsIdSeq spec.dump now).out, db.insertJob spec.dump now)

/-! ## Listing jobs -/

/-- `max(1, min(limit, 500))`. -/
def clampLimit (limit : Int) : Nat := (max 1 (min limit 500)).toNat

/-- The jobs that pass the optional `WHERE status = …`. -/
def JobDb.withStatus (status : Option JobStatus) (db : JobDb) : List TrainingJob :=
  db.jobs.rows.filter fun j => status.all fun s => j.status = s

/-- What `list_jobs` may return: `ORDER BY created_at DESC` leaves the order of the jobs of
    one instant open. -/
def ListsJobs (status : Option JobStatus) (limit : Int) (db : JobDb)
    (jobs : List TrainingJob) : Prop :=
  ∃ ordered : List TrainingJob, ordered.Perm (db.withStatus status) ∧
    ordered.Pairwise (fun a b => b.createdAt ≤ a.createdAt) ∧
    jobs = ordered.take (clampLimit limit)

/-- `list_jobs` on a server that sorts stably. -/
def listJobs (status : Option JobStatus) (limit : Int) (db : JobDb) : List TrainingJob :=
  ((db.withStatus status).insertionSort fun a b => b.createdAt ≤ a.createdAt).take
    (clampLimit limit)

theorem listsJobs_listJobs (status : Option JobStatus) (limit : Int) (db : JobDb) :
    ListsJobs status limit db (listJobs status limit db) := by
  refine ⟨_, List.perm_insertionSort _ _, ?_, rfl⟩
  have htotal : Std.Total fun a b : TrainingJob => b.createdAt ≤ a.createdAt :=
    ⟨fun a b => Int.le_total b.createdAt a.createdAt⟩
  have htrans : IsTrans TrainingJob fun a b => b.createdAt ≤ a.createdAt :=
    ⟨fun a b c hab hbc => Int.le_trans hbc hab⟩
  exact List.pairwise_insertionSort _ _

/-! ## The conditional updates -/

/-- `UPDATE … RETURNING`; an empty result is rolled back and refused with 409. -/
def updateJob (conflict : String) (jobId : Nat) (guard : TrainingJob → Bool)
    (set : TrainingJob → TrainingJob) (hset : ∀ j, (set j).id = j.id) (db : JobDb) :
    Except Failure TrainingJob × JobDb :=
  match db.conditionalUpdate jobId guard set hset with
  | .error exc => (.error (.internal exc), db)
  | .ok (none, _) => (.error (.http ⟨409, conflict⟩), db)
  | .ok (some job, db') => (.ok job, db')

/-- The `SET` of `claim_job`. -/
def claimed (daemonId : Nat) (claimToken : String) (now : Timestamp) (j : TrainingJob) :
    TrainingJob :=
  { j with
    status := .running, daemonId := some daemonId, claimToken := some claimToken,
    claimedAt := some now, heartbeatAt := some now }

/-- `claim_job`, with the token `secrets.token_urlsafe` returns. -/
def claimJob (secret : String) (provided : Option String) (jobId daemonId : Nat)
    (claimToken : String) (now : Timestamp) (db : JobDb) :
    Except Failure ClaimedJobOut × JobDb :=
  match requireMlControlSecret secret provided with
  | .error f => (.error f, db)
  | .ok _ =>
    if !db.hasDaemon daemonId then (.error (.http ⟨404, "Unknown daemon_id"⟩), db)
    else
      match updateJob "Job not available for claim" jobId (fun j => j.status = .queued)
          (claimed daemonId claimToken now) (fun _ => rfl) db with
      | (.error f, db') => (.error f, db')
      | (.ok job, db') => (.ok { toJobOut := job.out, claimToken := claimToken }, db')

/-- The `WHERE` of heartbeat, complete and fail. -/
def runningFor (body : JobControlBody) (j : TrainingJob) : Bool :=
  j.status = .running && j.daemonId = some body.daemonId &&
    j.claimToken = some body.claimToken

/-- The endpoints only the owner of a job may call: heartbeat, complete and fail. -/
def controlJob (set : TrainingJob → TrainingJob) (hset : ∀ j, (set j).id = j.id)
    (secret : String) (provided : Option String) (jobId : Nat) (body : JobControlBody)
    (db : JobDb) : Except Failure JobOut × JobDb :=
  match requireMlControlSecret secret provided with
  | .error f => (.error f, db)
  | .ok _ =>
    match updateJob "Job is not running for this daemon" jobId (runningFor body) set hset db with
    | (.error f, db') => (.error f, db')
    | (.ok job, db') => (.ok job.out, db')

/-- The `SET` of `heartbeat_job`. -/
def heartbeaten (now : Timestamp) (j : TrainingJob) : TrainingJob :=
  { j with heartbeatAt := some now }

/-- The `SET` of `complete_job`. -/
def completed (now : Timestamp) (j : TrainingJob) : TrainingJob :=
  { j with status := .complete, completedAt := some now, claimToken := none }

/-- The `SET` of `fail_job`. -/
def failed (error : String) (now : Timestamp) (j : TrainingJob) : TrainingJob :=
  { j with status := .failed, completedAt := some now, error := some error, claimToken := none }

/-- The `SET` of `cancel_job`. -/
def cancelled (now : Timestamp) (j : TrainingJob) : TrainingJob :=
  { j with status := .cancelled, completedAt := some now, claimToken := none }

/-- `heartbeat_job`. -/
def heartbeatJob (now : Timestamp) (secret : String) (provided : Option String)
    (jobId : Nat) (body : JobControlBody) (db : JobDb) : Except Failure JobOut × JobDb :=
  controlJob (heartbeaten now) (fun _ => rfl) secret provided jobId body db

/-- `complete_job`. -/
def completeJob (now : Timestamp) (secret : String) (provided : Option String)
    (jobId : Nat) (body : JobControlBody) (db : JobDb) : Except Failure JobOut × JobDb :=
  controlJob (completed now) (fun _ => rfl) secret provided jobId body db

/-- `fail_job`. -/
def failJob (error : String) (now : Timestamp) (secret : String) (provided : Option String)
    (jobId : Nat) (body : JobControlBody) (db : JobDb) : Except Failure JobOut × JobDb :=
  controlJob (failed error now) (fun _ => rfl) secret provided jobId body db

/-- `cancel_job`, which asks for no secret. -/
def cancelJob (jobId : Nat) (now : Timestamp) (db : JobDb) : Except Failure JobOut × JobDb :=
  match updateJob "Job is not queued or running" jobId
      (fun j => j.status = .queued || j.status = .running) (cancelled now) (fun _ => rfl) db with
  | (.error f, db') => (.error f, db')
  | (.ok job, db') => (.ok job.out, db')

/-! ## Daemons -/

/-- `heartbeat` of `training_daemons.py`: register a daemon or bump its `last_seen`. -/
def daemonHeartbeat (secret : String) (provided : Option String) (name host : String)
    (now : Timestamp) (db : JobDb) : Except Failure (Option TrainingDaemon) × JobDb :=
  match requireMlControlSecret secret provided with
  | .error f => (.error f, db)
  | .ok _ =>
    let db' := db.upsertDaemon name host now
    (.ok (db'.daemons.find? name), db')

end Grimnir
