import Grimnir.Native.Schema
import Grimnir.Native.Features
import Mathlib.Data.List.Sort

/-!
# `training_jobs` and `training_daemons`

The two tables behind the job queue.  The partial unique index on `claim_token` and the
sequence behind `training_jobs.id` are fields.  `conditionalUpdate` is the statement that
claim, heartbeat, complete, fail and cancel share; `reap` is `_REAP_SQL`.
-/

namespace Grimnir

inductive JobStatus where
  | queued | running | failed | complete | cancelled
  deriving DecidableEq, Repr

/-- The JSONB document in `training_jobs.spec`. -/
structure SpecDoc where
  modelType : String
  hyperparams : List (String × Json)
  featureConfig : Json
  timeStart : Timestamp
  timeEnd : Timestamp
  rooms : List String

/-- A row of `training_jobs`. -/
structure TrainingJob where
  id : Nat
  status : JobStatus
  spec : SpecDoc
  daemonId : Option Nat
  claimToken : Option String
  createdAt : Timestamp
  claimedAt : Option Timestamp
  heartbeatAt : Option Timestamp
  completedAt : Option Timestamp
  error : Option String

/-- A row of `training_daemons`. -/
structure TrainingDaemon where
  id : Nat
  name : String
  host : String
  lastSeen : Timestamp
  deriving DecidableEq, Repr

/-- The job queue.  Daemons are never deleted and `claim_job` looks the daemon up, so the
    foreign key on `daemon_id` never fires and is left out. -/
structure JobDb where
  jobs : Table TrainingJob (·.id)
  jobsIdSeq : Nat
  daemons : Table TrainingDaemon (·.name)
  daemonsIdSeq : Nat
  jobsIdBelow : ∀ j ∈ jobs, j.id < jobsIdSeq
  claimTokens : (jobs.rows.filterMap (·.claimToken)).Nodup

namespace JobDb

/-- What `idx_training_jobs_claim_token` raises. -/
def duplicateClaimToken : DBAPIError :=
  ⟨true, "duplicate key value violates unique constraint \"idx_training_jobs_claim_token\""⟩

/-- One row of `UPDATE … WHERE id = job_id AND guard SET …`. -/
def updateRow (jobId : Nat) (guard : TrainingJob → Bool) (set : TrainingJob → TrainingJob)
    (j : TrainingJob) : TrainingJob :=
  if j.id = jobId && guard j then set j else j

theorem id_updateRow {jobId : Nat} {guard : TrainingJob → Bool}
    {set : TrainingJob → TrainingJob} (hset : ∀ j, (set j).id = j.id) (j : TrainingJob) :
    (updateRow jobId guard set j).id = j.id := by
  unfold updateRow
  split
  · exact hset j
  · rfl

/-- `UPDATE training_jobs SET … WHERE id = job_id AND guard RETURNING training_jobs`. -/
def conditionalUpdate (jobId : Nat) (guard : TrainingJob → Bool)
    (set : TrainingJob → TrainingJob) (hset : ∀ j, (set j).id = j.id) (db : JobDb) :
    Except DBAPIError (Option TrainingJob × JobDb) :=
  let jobs := db.jobs.update (updateRow jobId guard set) (id_updateRow hset)
  if htokens : (jobs.rows.filterMap (·.claimToken)).Nodup then
    .ok ((db.jobs.find? jobId).bind fun j => if guard j then some (set j) else none,
      { db with
        jobs := jobs
        jobsIdBelow := by
          intro j hj
          obtain ⟨j₀, hj₀, rfl⟩ := Table.mem_update.mp hj
          rw [id_updateRow hset]
          exact db.jobsIdBelow j₀ hj₀
        claimTokens := htokens })
  else .error duplicateClaimToken

/-- A new row: `status` and `created_at` from their defaults, every other column `NULL`. -/
def newJob (id : Nat) (spec : SpecDoc) (now : Timestamp) : TrainingJob where
  id := id
  status := .queued
  spec := spec
  daemonId := none
  claimToken := none
  createdAt := now
  claimedAt := none
  heartbeatAt := none
  completedAt := none
  error := none

theorem newJob_fresh (db : JobDb) (spec : SpecDoc) (now : Timestamp) :
    ∀ j ∈ db.jobs, j.id ≠ (newJob db.jobsIdSeq spec now).id :=
  fun j hj => (db.jobsIdBelow j hj).ne

/-- `INSERT INTO training_jobs (spec)`. -/
def insertJob (spec : SpecDoc) (now : Timestamp) (db : JobDb) : JobDb where
  jobs := db.jobs.insert (newJob db.jobsIdSeq spec now) (db.newJob_fresh spec now)
  jobsIdSeq := db.jobsIdSeq + 1
  daemons := db.daemons
  daemonsIdSeq := db.daemonsIdSeq
  jobsIdBelow := by
    intro j hj
    rcases Table.mem_insert.mp hj with hj | rfl
    · exact Nat.lt_succ_of_lt (db.jobsIdBelow j hj)
    · exact Nat.lt_succ_self _
  claimTokens := by
    rw [Table.rows_insert, List.filterMap_append]
    simpa [newJob] using db.claimTokens

/-! ## `_REAP_SQL` -/

/-- `status = 'running' AND heartbeat_at IS NOT NULL AND heartbeat_at < NOW() - timeout`. -/
def stale (timeout : Int) (now : Timestamp) (j : TrainingJob) : Bool :=
  j.status = .running && j.heartbeatAt.any fun t => t < now - timeout

/-- The `SET` of the `reaped` sub-statement. -/
def orphaned (now : Timestamp) (j : TrainingJob) : TrainingJob :=
  { j with
    status := .failed, completedAt := some now, error := some "daemon heartbeat timeout",
    claimToken := none }

/-- One row of the `reaped` sub-statement. -/
def reapRow (timeout : Int) (now : Timestamp) (j : TrainingJob) : TrainingJob :=
  if stale timeout now j then orphaned now j else j

theorem id_reapRow (timeout : Int) (now : Timestamp) (j : TrainingJob) :
    (reapRow timeout now j).id = j.id := by
  unfold reapRow; split <;> rfl

theorem claimToken_reapRow (timeout : Int) (now : Timestamp) (j : TrainingJob) :
    (reapRow timeout now j).claimToken = if stale timeout now j then none else j.claimToken := by
  unfold reapRow; split <;> rfl

/-- The rows the `reaped` sub-statement returns. -/
def reaped (timeout : Int) (now : Timestamp) (db : JobDb) : List TrainingJob :=
  db.jobs.rows.filter (stale timeout now)

/-- The `reaped` sub-statement. -/
def failStale (timeout : Int) (now : Timestamp) (db : JobDb) : JobDb :=
  { db with
    jobs := db.jobs.update (reapRow timeout now) (id_reapRow timeout now)
    jobsIdBelow := by
      intro j hj
      obtain ⟨j₀, hj₀, rfl⟩ := Table.mem_update.mp hj
      rw [id_reapRow]
      exact db.jobsIdBelow j₀ hj₀
    claimTokens := by
      -- reaping only takes tokens away
      rw [Table.rows_update, List.filterMap_map]
      refine db.claimTokens.sublist ?_
      induction db.jobs.rows with
      | nil => exact List.Sublist.slnil
      | cons j js ih =>
        rw [List.filterMap_cons, List.filterMap_cons, Function.comp_apply, claimToken_reapRow]
        cases stale timeout now j with
        | true =>
          cases j.claimToken with
          | none => exact ih
          | some t => exact ih.cons _
        | false =>
          cases j.claimToken with
          | none => exact ih
          | some t => exact ih.cons_cons _ }

/-- `INSERT INTO training_jobs (spec) SELECT spec FROM reaped RETURNING id`. -/
def requeue (now : Timestamp) : List SpecDoc → JobDb → List Nat × JobDb
  | [], db => ([], db)
  | spec :: specs, db =>
    let (ids, db') := requeue now specs (insertJob spec now db)
    (db.jobsIdSeq :: ids, db')

/-- `_REAP_SQL`: the reaped ids, their copies' ids and the table it leaves. -/
def reap (timeout : Int) (now : Timestamp) (db : JobDb) : (List Nat × List Nat) × JobDb :=
  let rows := reaped timeout now db
  let (requeuedIds, db') := requeue now (rows.map (·.spec)) (failStale timeout now db)
  ((rows.map (·.id), requeuedIds), db')

/-! ## `training_daemons` -/

/-- `INSERT INTO training_daemons … ON CONFLICT (name) DO UPDATE`.  The sequence moves on a
    conflict too. -/
def upsertDaemon (name host : String) (now : Timestamp) (db : JobDb) : JobDb :=
  { db with
    daemons := db.daemons.upsert
      (fun old new => { old with host := new.host, lastSeen := new.lastSeen })
      (fun _ _ => rfl) ⟨db.daemonsIdSeq, name, host, now⟩
    daemonsIdSeq := db.daemonsIdSeq + 1 }

/-- `SELECT id FROM training_daemons WHERE id = …`. -/
def hasDaemon (db : JobDb) (daemonId : Nat) : Bool :=
  db.daemons.rows.any fun d => d.id = daemonId

end JobDb

end Grimnir
