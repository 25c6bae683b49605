import Grimnir.Native.JobSystem
import Grimnir.Native.LabelSystem

/-!
# Freki's label store and job queue together

`create_job` reads `rooms` and inserts the job in one request, with other requests in
between: a rename or a deletion of a room may commit after the `SELECT` and before the
`INSERT`.  Every other request is one event of the machine it belongs to.
-/

namespace Grimnir

/-- The event is a whole `create_job` request. -/
def JobEvent.isCreateJob : JobEvent → Bool
  | .createJob .. => true
  | _ => false

/-- The tables with the `create_job` requests that have read `rooms` and not yet inserted. -/
structure FrekiSystem where
  labels : LabelSystem
  jobs : JobDb
  requests : List (List Room × JobSpec)

inductive FrekiEvent where
  | labels (e : LabelEvent)
  /-- The `SELECT` of `create_job`. -/
  | selectRooms (spec : JobSpec)
  /-- The rest of the `create_job` at this position. -/
  | insertJob (i : Nat) (now : Timestamp)
  | job (e : JobEvent) (h : e.isCreateJob = false)

/-- What an event is answered with; a `SELECT` of a request under way is not answered. -/
inductive FrekiAnswer where
  | labels (res : Except Failure Unit)
  | job (res : JobResult)
  | pending

/-- One event. -/
def FrekiSystem.step (secret : String) (s : FrekiSystem) : FrekiEvent → FrekiAnswer × FrekiSystem
  | .labels e =>
    let (res, labels) := s.labels.step e
    (.labels res, { s with labels := labels })
  | .selectRooms spec =>
    (.pending, { s with requests := s.requests ++ [(s.labels.db.rooms.rows, spec)] })
  | .insertJob i now =>
    match s.requests[i]? with
    | none => (.pending, s)
    | some (rooms, spec) =>
      let (res, jobs) := s.jobs.step secret (.createJob rooms spec now)
      (.job res, { s with jobs := jobs, requests := s.requests.eraseIdx i })
  | .job e _ =>
    let (res, jobs) := s.jobs.step secret e
    (.job res, { s with jobs := jobs })

/-- Freki, with the secret of its machine-only endpoints. -/
def frekiMachine (secret : String) : Machine FrekiSystem FrekiEvent FrekiAnswer :=
  ⟨FrekiSystem.step secret⟩

end Grimnir
