import Grimnir.Native.TrainingJobs
import Grimnir.ForStd.Machine

/-!
# The job queue as a system

Any number of daemons, clients and Freki replicas talk to one table.  An event is one
request as the server executes it, so requests may be lost, repeated, delayed or
reordered at will; the log of a run holds the answers.  `actor` names the process that
sends a request, whatever `daemon_id` it writes into it.
-/

namespace Grimnir

/-- The requests only the owner of a job may make. -/
inductive ControlKind where
  | heartbeat | complete | fail (error : String)
  deriving DecidableEq, Repr

inductive JobEvent where
  | daemonHeartbeat (provided : Option String) (name host : String) (now : Timestamp)
  | createJob (rooms : List Room) (spec : JobSpec) (now : Timestamp)
  | claim (actor : Nat) (provided : Option String) (jobId daemonId : Nat)
      (claimToken : String) (now : Timestamp)
  | control (kind : ControlKind) (actor : Nat) (provided : Option String) (jobId : Nat)
      (body : JobControlBody) (now : Timestamp)
  | cancel (jobId : Nat) (now : Timestamp)
  | reap (timeout : Int) (now : Timestamp)

inductive JobResponse where
  | daemon (row : Option TrainingDaemon)
  | job (out : JobOut)
  | claimed (out : ClaimedJobOut)
  | reaped (failedIds requeuedIds : List Nat)

abbrev JobResult := Except Failure JobResponse

/-- Wrap an endpoint's answer. -/
def answered {α : Type} (wrap : α → JobResponse) (r : Except Failure α × JobDb) :
    JobResult × JobDb :=
  (r.1.map wrap, r.2)

/-- The endpoint of a control request. -/
def ControlKind.endpoint : ControlKind → Timestamp → String → Option String → Nat →
    JobControlBody → JobDb → Except Failure JobOut × JobDb
  | .heartbeat => heartbeatJob
  | .complete => completeJob
  | .fail error => failJob error

/-- One request, or one run of the reaper. -/
def JobDb.step (secret : String) (db : JobDb) : JobEvent → JobResult × JobDb
  | .daemonHeartbeat provided name host now =>
    answered .daemon (daemonHeartbeat secret provided name host now db)
  | .createJob rooms spec now => answered .job (createJob rooms spec now db)
  | .claim _ provided jobId daemonId claimToken now =>
    answered .claimed (claimJob secret provided jobId daemonId claimToken now db)
  | .control kind _ provided jobId body now =>
    answered .job (kind.endpoint now secret provided jobId body db)
  | .cancel jobId now => answered .job (cancelJob jobId now db)
  | .reap timeout now =>
    let ((failedIds, requeuedIds), db') := db.reap timeout now
    (.ok (.reaped failedIds requeuedIds), db')

/-- The job queue of an installation whose control secret is `secret`. -/
def jobMachine (secret : String) : Machine JobDb JobEvent JobResult := ⟨JobDb.step secret⟩

/-- The empty queue. -/
def JobDb.empty : JobDb where
  jobs := Table.empty
  jobsIdSeq := 1
  daemons := Table.empty
  daemonsIdSeq := 1
  jobsIdBelow := fun _ hj => nomatch hj
  claimTokens := List.nodup_nil

end Grimnir
