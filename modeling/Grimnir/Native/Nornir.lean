import Grimnir.Native.JobSystem
import Grimnir.Native.TrainedModels

/-!
# `nornir/main.py`: the training daemon

`main` from one `await` to the next, with its registration loop, its claim loop and the two
heartbeat tasks.  An event is what ends an `await`; a call of `FrekiClient` ends with what
it returns, with a `FrekiError` or with a transport failure.  What `run_job` does is an
outcome: every exception it raises is caught.
-/

namespace Grimnir.Nornir

/-! ## `freki_client.py` -/

/-- What a call of `FrekiClient` raises. -/
inductive CallError where
  /-- `FrekiError`: the reply has an unexpected status. -/
  | freki (status : Nat) (text : String)
  /-- `httpx.HTTPError`: there is no reply. -/
  | transport (text : String)
  deriving DecidableEq, Repr

/-- The calls that `main.py` makes. -/
inductive FrekiCall where
  | heartbeatDaemon (name host : String)
  | listQueuedJobs (limit : Nat)
  | claimJob (jobId daemonId : Nat)
  | heartbeatJob (jobId daemonId : Nat) (claimToken : String)
  | uploadModel (form : ModelForm)
  | completeJob (jobId daemonId : Nat) (claimToken : String)
  | failJob (jobId daemonId : Nat) (claimToken error : String)

/-- `claim_job`: a 409 says that someone else won. -/
def claimResult : Except CallError ClaimedJobOut → Except CallError (Option ClaimedJobOut)
  | .ok job => .ok (some job)
  | .error (.freki status text) => if status = 409 then .ok none else .error (.freki status text)
  | .error (.transport text) => .error (.transport text)

/-- `error[:2000]`. -/
def clip (error : String) : String := String.ofList (error.toList.take 2000)

/-! ## The state of `main` -/

/-- What `run_job` returns. -/
structure Trained where
  modelBytes : List UInt8
  metrics : Json
  featureConfig : Json

/-- A heartbeat task. -/
inductive Heartbeat where
  /-- `wait_for(stop.wait(), timeout=…)`. -/
  | waiting
  /-- A heartbeat is in flight. -/
  | sending
  /-- The task has raised. -/
  | died
  deriving DecidableEq, Repr

/-- Where `_execute_job` waits. -/
inductive JobStep where
  | training
  | failing
  | uploading (trained : Trained)
  | completing
  /-- `await hb_task`; `raising` when an exception is on its way out. -/
  | joining (raising : Bool)

/-- Where the claim loop waits. -/
inductive Work where
  | listing
  /-- `claim_job`, with the jobs to try after this one. -/
  | claiming (jobId : Nat) (rest : List Nat)
  | executing (job : ClaimedJobOut) (hb : Heartbeat) (at_ : JobStep)
  /-- `wait_for(stop_event.wait(), timeout=POLL_INTERVAL_S)`. -/
  | pollWait

/-- Where `main` waits. -/
inductive Stage where
  | registering
  | registerWait
  | working (daemonId : Nat) (hb : Heartbeat) (work : Work)
  /-- `main` has left its loops, at most to wait for the daemon heartbeat. -/
  | left (raising : Bool)

/-- What the environment variables give the daemon. -/
structure NornirConfig where
  daemonName : String
  daemonHost : String
  mlControlSharedSecret : String
  modelUploadSharedSecret : String

/-- A daemon; `stop` is `stop_event`. -/
structure Daemon where
  stop : Bool
  stage : Stage

inductive NornirEvent where
  /-- SIGINT or SIGTERM. -/
  | signal
  /-- `POLL_INTERVAL_S` have passed. -/
  | timeout
  | registered (outcome : Except CallError Nat)
  | listed (outcome : Except CallError (List Nat))
  | claimed (outcome : Except CallError ClaimedJobOut)
  /-- `run_job` returns or raises. -/
  | trained (outcome : Except String Trained)
  | uploaded (outcome : Except CallError Nat)
  /-- `complete_job` or `fail_job` ends. -/
  | reported (outcome : Except CallError Unit)
  /-- `JOB_HEARTBEAT_S` have passed. -/
  | jobHeartbeatDue
  | jobHeartbeat (outcome : Except CallError Unit)
  /-- `DAEMON_HEARTBEAT_S` have passed. -/
  | daemonHeartbeatDue
  | daemonHeartbeat (outcome : Except CallError Unit)

/-! ## `main` -/

variable (config : NornirConfig)

/-- A call that is made, and where `main` waits then. -/
abbrev Next := Option FrekiCall × Stage

/-- `_register_daemon`. -/
def register : Next :=
  (some (.heartbeatDaemon config.daemonName config.daemonHost), .registering)

/-- The head of the claim loop. -/
def claimLoop (stop : Bool) (daemonId : Nat) (hb : Heartbeat) : Next :=
  if stop then (none, .left false)
  else (some (.listQueuedJobs 50), .working daemonId hb .listing)

/-- The end of a round that ran nothing. -/
def idle (stop : Bool) (daemonId : Nat) (hb : Heartbeat) : Next :=
  if stop then (none, .left false) else (none, .working daemonId hb .pollWait)

/-- The `for` loop of `_claim_and_run`. -/
def tryClaim (stop : Bool) (daemonId : Nat) (hb : Heartbeat) : List Nat → Next
  | [] => idle stop daemonId hb
  | jobId :: rest => (some (.claimJob jobId daemonId), .working daemonId hb (.claiming jobId rest))

/-- `_claim_and_run` once the list of queued jobs, newest first, is there. -/
def afterList (stop : Bool) (daemonId : Nat) (hb : Heartbeat) :
    Except CallError (List Nat) → Next
  | .ok queued => tryClaim stop daemonId hb queued.reverse
  | .error (.freki _ _) => idle stop daemonId hb
  | .error (.transport _) => (none, .left true)

/-- `_claim_and_run` after a claim. -/
def afterClaim (stop : Bool) (daemonId : Nat) (hb : Heartbeat) (rest : List Nat)
    (outcome : Except CallError ClaimedJobOut) : Next :=
  match claimResult outcome with
  | .ok (some job) => (none, .working daemonId hb (.executing job .waiting .training))
  | .ok none => tryClaim stop daemonId hb rest
  | .error (.freki _ _) => tryClaim stop daemonId hb rest
  | .error (.transport _) => (none, .left true)

/-- `_execute_job` is over. -/
def afterJob (stop : Bool) (daemonId : Nat) (hb : Heartbeat) (raising : Bool) : Next :=
  if raising then (none, .left true) else claimLoop stop daemonId hb

/-- The `finally` of `_execute_job`: the heartbeat task is stopped and awaited. -/
def join (stop : Bool) (daemonId : Nat) (hb : Heartbeat) (job : ClaimedJobOut)
    (raising : Bool) : Heartbeat → Next
  | .waiting => afterJob stop daemonId hb raising
  | .sending => (none, .working daemonId hb (.executing job .sending (.joining raising)))
  | .died => afterJob stop daemonId hb true

/-- `fail_job`, from one of the two handlers of `_execute_job`. -/
def reportFailure (daemonId : Nat) (hb : Heartbeat) (job : ClaimedJobOut) (jobHb : Heartbeat)
    (error : String) : Next :=
  (some (.failJob job.id daemonId job.claimToken (clip error)),
    .working daemonId hb (.executing job jobHb .failing))

/-- The form of `upload_model`. -/
def uploadForm (job : ClaimedJobOut) (trained : Trained) : ModelForm where
  name := s!"job-{job.id}-{config.daemonName}"
  metrics := .ok trained.metrics
  featureConfig := .ok trained.featureConfig
  trainingJobId := some job.id
  modelData := trained.modelBytes

/-- `_execute_job` after `run_job`. -/
def afterTraining (daemonId : Nat) (hb : Heartbeat) (job : ClaimedJobOut) (jobHb : Heartbeat) :
    Except String Trained → Next
  | .ok trained =>
    (some (.uploadModel (uploadForm config job trained)),
      .working daemonId hb (.executing job jobHb (.uploading trained)))
  | .error exc => reportFailure daemonId hb job jobHb s!"training error: {exc}"

/-- `_execute_job` after the upload. -/
def afterUpload (stop : Bool) (daemonId : Nat) (hb : Heartbeat) (job : ClaimedJobOut)
    (jobHb : Heartbeat) : Except CallError Nat → Next
  | .ok _ =>
    (some (.completeJob job.id daemonId job.claimToken),
      .working daemonId hb (.executing job jobHb .completing))
  | .error (.freki _ text) => reportFailure daemonId hb job jobHb s!"model upload error: {text}"
  | .error (.transport _) => join stop daemonId hb job true jobHb

/-- `_execute_job` after `complete_job` or `fail_job`, whose `FrekiError` is only logged. -/
def afterReport (stop : Bool) (daemonId : Nat) (hb : Heartbeat) (job : ClaimedJobOut)
    (jobHb : Heartbeat) : Except CallError Unit → Next
  | .ok _ => join stop daemonId hb job false jobHb
  | .error (.freki _ _) => join stop daemonId hb job false jobHb
  | .error (.transport _) => join stop daemonId hb job true jobHb

/-- A heartbeat task after its call, whose `FrekiError` is only logged. -/
def afterHeartbeat : Except CallError Unit → Heartbeat
  | .ok _ => .waiting
  | .error (.freki _ _) => .waiting
  | .error (.transport _) => .died

/-- What an event does to `main` where it waits.  A call that is not awaited does not end. -/
def advance (stop : Bool) : Stage → NornirEvent → Next
  | .registering, .registered outcome =>
    match outcome with
    | .ok daemonId => claimLoop stop daemonId .waiting
    | .error (.freki _ _) => (none, if stop then .left false else .registerWait)
    | .error (.transport _) => (none, .left true)
  | .registerWait, .timeout => register config
  | .working daemonId hb .listing, .listed outcome => afterList stop daemonId hb outcome
  | .working daemonId hb (.claiming _ rest), .claimed outcome =>
    afterClaim stop daemonId hb rest outcome
  | .working daemonId hb (.executing job jobHb .training), .trained outcome =>
    afterTraining config daemonId hb job jobHb outcome
  | .working daemonId hb (.executing job jobHb (.uploading _)), .uploaded outcome =>
    afterUpload stop daemonId hb job jobHb outcome
  | .working daemonId hb (.executing job jobHb .completing), .reported outcome =>
    afterReport stop daemonId hb job jobHb outcome
  | .working daemonId hb (.executing job jobHb .failing), .reported outcome =>
    afterReport stop daemonId hb job jobHb outcome
  | .working daemonId hb .pollWait, .timeout => claimLoop stop daemonId hb
  -- the heartbeat of the job
  | .working daemonId hb (.executing job .sending (.joining raising)), .jobHeartbeat outcome =>
    join stop daemonId hb job raising (afterHeartbeat outcome)
  | .working daemonId hb (.executing job .waiting step), .jobHeartbeatDue =>
    (some (.heartbeatJob job.id daemonId job.claimToken),
      .working daemonId hb (.executing job .sending step))
  | .working daemonId hb (.executing job .sending step), .jobHeartbeat outcome =>
    (none, .working daemonId hb (.executing job (afterHeartbeat outcome) step))
  -- the heartbeat of the daemon
  | .working daemonId .waiting work, .daemonHeartbeatDue =>
    (some (.heartbeatDaemon config.daemonName config.daemonHost),
      .working daemonId .sending work)
  | .working daemonId .sending work, .daemonHeartbeat outcome =>
    (none, .working daemonId (afterHeartbeat outcome) work)
  | stage, _ => (none, stage)

/-- A signal sets `stop_event` and wakes the two waits for it. -/
def stopped : Stage → Stage
  | .registerWait => .left false
  | .working _ _ .pollWait => .left false
  | stage => stage

/-- One event: the call it makes and the next state. -/
def Daemon.step (d : Daemon) : NornirEvent → Option FrekiCall × Daemon
  | .signal => (none, ⟨true, stopped d.stage⟩)
  | e =>
    let (call, stage) := advance config d.stop d.stage e
    (call, ⟨d.stop, stage⟩)

/-- The daemon with its first registration under way. -/
def Daemon.boot : Daemon := ⟨false, .registering⟩

/-- The daemon. -/
def nornirMachine : Machine Daemon NornirEvent (Option FrekiCall) where
  step d e := d.step config e

end Grimnir.Nornir
