import Grimnir.Native.JobSystem

/-!
# What one request does to the job queue

Every endpoint writes one row or refuses and changes nothing; the reaper fails the stale
rows and appends a copy of each.  `JobDb.step_effect` says so once, for every request.

## Key results

- `updateJob_cases`: a conditional update writes the one matching row or nothing
- `reap_eq`: what `_REAP_SQL` leaves and returns
- `step_effect`, `step_of_error`: the effects of all requests
-/

namespace Grimnir

namespace JobDb

/-- The row `j` became `j'`, every other row is as it was. -/
structure Wrote (j j' : TrainingJob) (db db' : JobDb) : Prop where
  mem : ∀ x, x ∈ db'.jobs ↔ x = j' ∨ (x ∈ db.jobs ∧ x.id ≠ j.id)
  ids : db'.jobs.rows.map (·.id) = db.jobs.rows.map (·.id)
  seq : db'.jobsIdSeq = db.jobsIdSeq

variable {jobId : Nat} {guard : TrainingJob → Bool} {set : TrainingJob → TrainingJob}
  {hset : ∀ j, (set j).id = j.id} {db db' : JobDb} {j : TrainingJob}

/-- A conditional update that returns a row has found it and written it. -/
private theorem conditionalUpdate_some {j' : TrainingJob}
    (h : conditionalUpdate jobId guard set hset db = .ok (some j', db')) :
    ∃ j ∈ db.jobs, j.id = jobId ∧ guard j = true ∧ j' = set j ∧ Wrote j j' db db' := by
  unfold conditionalUpdate at h
  dsimp only at h
  -- the update goes through, or the unique index refuses it
  split at h
  · simp only [Except.ok.injEq, Prod.mk.injEq, Option.bind_eq_some_iff] at h
    obtain ⟨⟨j, hfind, hguard⟩, rfl⟩ := h
    obtain ⟨hj, rfl⟩ := Table.find?_eq_some_iff.mp hfind
    split at hguard
    · rename_i hg
      cases hguard
      refine ⟨j, hj, rfl, hg, rfl, ?_, ?_, rfl⟩
      · intro x
        -- the row with this id is written, every other row is left
        have hself : updateRow j.id guard set j = set j := by simp [updateRow, hg]
        have hother : ∀ y : TrainingJob, y.id ≠ j.id → updateRow j.id guard set y = y := by
          intro y hid
          simp [updateRow, hid]
        rw [← hself]
        show x ∈ db.jobs.update (updateRow j.id guard set) (id_updateRow hset) ↔ _
        exact Table.mem_update_of_key hj hother
      · simp only [Table.rows_update, List.map_map]
        exact List.map_congr_left fun y _ => id_updateRow hset y
    · cases hguard
  · cases h

/-- An endpoint's conditional update writes one row or refuses and changes nothing. -/
theorem updateJob_cases (conflict : String) (jobId : Nat) (guard : TrainingJob → Bool)
    (set : TrainingJob → TrainingJob) (hset : ∀ j, (set j).id = j.id) (db : JobDb) :
    (∃ f, updateJob conflict jobId guard set hset db = (.error f, db)) ∨
      ∃ j ∈ db.jobs, j.id = jobId ∧ guard j = true ∧ ∃ db', Wrote j (set j) db db' ∧
        updateJob conflict jobId guard set hset db = (.ok (set j), db') := by
  unfold updateJob
  cases hupd : db.conditionalUpdate jobId guard set hset with
  | error exc => exact .inl ⟨_, rfl⟩
  | ok p =>
    obtain ⟨row, db'⟩ := p
    cases row with
    -- no row matched: rolled back and refused with 409
    | none => exact .inl ⟨_, rfl⟩
    | some j' =>
      obtain ⟨j, hj, hid, hguard, rfl, hwrote⟩ := conditionalUpdate_some hupd
      exact .inr ⟨j, hj, hid, hguard, db', hwrote, rfl⟩

theorem mem_insertJob {spec : SpecDoc} {now : Timestamp} {k : TrainingJob} :
    k ∈ (db.insertJob spec now).jobs ↔ k ∈ db.jobs ∨ k = newJob db.jobsIdSeq spec now := by
  simp [insertJob]

/-! ## The reaper -/

/-- The copies of reaped jobs, with the ids the sequence gives them. -/
def copies (now : Timestamp) : Nat → List SpecDoc → List TrainingJob
  | _, [] => []
  | n, spec :: specs => newJob n spec now :: copies now (n + 1) specs

private theorem length_copies (now : Timestamp) (n : Nat) (specs : List SpecDoc) :
    (copies now n specs).length = specs.length := by
  induction specs generalizing n with
  | nil => rfl
  | cons spec specs ih => simp only [copies, List.length_cons, ih]

private theorem ids_copies (now : Timestamp) (n : Nat) (specs : List SpecDoc) :
    (copies now n specs).map (·.id) = List.range' n specs.length := by
  induction specs generalizing n with
  | nil => rfl
  | cons spec specs ih =>
    rw [copies, List.map_cons, ih, List.length_cons, List.range'_succ]
    rfl

/-- Every copy is a new row. -/
theorem mem_copies {now : Timestamp} {n : Nat} {specs : List SpecDoc} {j : TrainingJob}
    (h : j ∈ copies now n specs) :
    ∃ id, ∃ spec ∈ specs, j = newJob id spec now ∧ n ≤ id := by
  induction specs generalizing n with
  | nil => exact nomatch h
  | cons spec specs ih =>
    rcases List.mem_cons.mp h with rfl | h
    · exact ⟨n, spec, List.mem_cons_self, rfl, Nat.le_refl n⟩
    · obtain ⟨id, spec', hspec, rfl, hle⟩ := ih h
      exact ⟨id, spec', List.mem_cons_of_mem spec hspec, rfl, by omega⟩

/-- A copy stands beside the job it repeats, with its spec. -/
theorem spec_of_mem_zip_copies {now : Timestamp} {n : Nat} {js : List TrainingJob}
    {j j' : TrainingJob} (h : (j, j') ∈ js.zip (copies now n (js.map (·.spec)))) :
    j'.spec = j.spec := by
  induction js generalizing n with
  | nil => exact nomatch h
  | cons k ks ih =>
    rw [List.map_cons, copies, List.zip_cons_cons, List.mem_cons] at h
    rcases h with h | h
    · obtain ⟨rfl, rfl⟩ := Prod.mk.inj h
      rfl
    · exact ih h

private theorem requeue_eq (now : Timestamp) (specs : List SpecDoc) (db : JobDb) :
    (requeue now specs db).1 = List.range' db.jobsIdSeq specs.length ∧
      (requeue now specs db).2.jobs.rows =
        db.jobs.rows ++ copies now db.jobsIdSeq specs ∧
      (requeue now specs db).2.jobsIdSeq = db.jobsIdSeq + specs.length := by
  induction specs generalizing db with
  | nil => exact ⟨rfl, (List.append_nil _).symm, rfl⟩
  | cons spec specs ih =>
    -- the first copy takes the next id, the others follow
    obtain ⟨hids, hrows, hseq⟩ := ih (insertJob spec now db)
    simp only [requeue]
    refine ⟨?_, ?_, ?_⟩
    · rw [hids, List.length_cons, List.range'_succ]
      rfl
    · rw [hrows, copies]
      simp only [insertJob, Table.rows_insert, List.append_assoc, List.singleton_append]
    · rw [hseq, List.length_cons]
      simp only [insertJob]
      omega

/-- The copies one run of the reaper appends. -/
def reapCopies (timeout : Int) (now : Timestamp) (db : JobDb) : List TrainingJob :=
  copies now db.jobsIdSeq ((reaped timeout now db).map (·.spec))

/-- `_REAP_SQL`: the stale rows are failed in place and their copies follow. -/
theorem reap_eq (timeout : Int) (now : Timestamp) (db : JobDb) :
    (db.reap timeout now).1 = ((reaped timeout now db).map (·.id),
        (reapCopies timeout now db).map (·.id)) ∧
      (db.reap timeout now).2.jobs.rows =
        db.jobs.rows.map (reapRow timeout now) ++ reapCopies timeout now db ∧
      (db.reap timeout now).2.jobsIdSeq =
        db.jobsIdSeq + (reaped timeout now db).length := by
  obtain ⟨hids, hrows, hseq⟩ :=
    requeue_eq now ((reaped timeout now db).map (·.spec)) (failStale timeout now db)
  rw [List.length_map] at hids hseq
  simp only [reap]
  refine ⟨?_, hrows, hseq⟩
  rw [hids, reapCopies, ids_copies, List.length_map]
  rfl

/-- A reaped row was running. -/
theorem of_mem_reaped {timeout : Int} {now : Timestamp} (h : j ∈ reaped timeout now db) :
    j ∈ db.jobs ∧ j.status = .running := by
  obtain ⟨hmem, hstale⟩ := List.mem_filter.mp h
  simp only [stale, Bool.and_eq_true, decide_eq_true_eq] at hstale
  exact ⟨hmem, hstale.1⟩

/-- The rows the reaper leaves: each old row, failed if it was stale, and the copies. -/
theorem mem_reap {timeout : Int} {now : Timestamp} {k : TrainingJob} :
    k ∈ (db.reap timeout now).2.jobs ↔
      (∃ j ∈ db.jobs, reapRow timeout now j = k) ∨ k ∈ reapCopies timeout now db := by
  rw [Table.mem_def, (reap_eq timeout now db).2.1, List.mem_append, List.mem_map]
  exact Iff.rfl

/-- Only running rows are touched. -/
theorem reapRow_of_not_running {timeout : Int} {now : Timestamp} (h : j.status ≠ .running) :
    reapRow timeout now j = j := by
  simp [reapRow, stale, h]

theorem length_reapCopies (timeout : Int) (now : Timestamp) (db : JobDb) :
    (reapCopies timeout now db).length = (reaped timeout now db).length := by
  rw [reapCopies, length_copies, List.length_map]

/-! ## The effects of all requests -/

end JobDb

/-- The `SET` of a control request. -/
def ControlKind.set (now : Timestamp) : ControlKind → TrainingJob → TrainingJob
  | .heartbeat => heartbeaten now
  | .complete => completed now
  | .fail error => failed error now

namespace JobDb

/-- What a request can answer and leave. -/
inductive Effect (db : JobDb) : JobEvent → JobResult → JobDb → Prop where
  | refused (e : JobEvent) (f : Failure) : Effect db e (.error f) db
  | registered (provided : Option String) (name host : String) (now : Timestamp)
      (row : Option TrainingDaemon) (db' : JobDb) (hjobs : db'.jobs = db.jobs)
      (hseq : db'.jobsIdSeq = db.jobsIdSeq) :
      Effect db (.daemonHeartbeat provided name host now) (.ok (.daemon row)) db'
  | created (rooms : List Room) (spec : JobSpec) (now : Timestamp) :
      Effect db (.createJob rooms spec now)
        (.ok (.job (newJob db.jobsIdSeq spec.dump now).out)) (db.insertJob spec.dump now)
  | claimed (actor : Nat) (provided : Option String) (daemonId : Nat) (token : String)
      (now : Timestamp) (j : TrainingJob) (hj : j ∈ db.jobs) (hqueued : j.status = .queued)
      (db' : JobDb) (hwrote : Wrote j (claimed daemonId token now j) db db') :
      Effect db (.claim actor provided j.id daemonId token now)
        (.ok (.claimed { toJobOut := (Grimnir.claimed daemonId token now j).out,
                         claimToken := token })) db'
  | controlled (kind : ControlKind) (actor : Nat) (provided : Option String)
      (body : JobControlBody) (now : Timestamp) (j : TrainingJob) (hj : j ∈ db.jobs)
      (howner : runningFor body j = true) (db' : JobDb)
      (hwrote : Wrote j (kind.set now j) db db') :
      Effect db (.control kind actor provided j.id body now)
        (.ok (.job (kind.set now j).out)) db'
  | cancelled (now : Timestamp) (j : TrainingJob) (hj : j ∈ db.jobs)
      (hlive : j.status = .queued ∨ j.status = .running) (db' : JobDb)
      (hwrote : Wrote j (cancelled now j) db db') :
      Effect db (.cancel j.id now) (.ok (.job (Grimnir.cancelled now j).out)) db'
  | reaped (timeout : Int) (now : Timestamp) :
      Effect db (.reap timeout now)
        (.ok (.reaped ((reaped timeout now db).map (·.id))
          ((reapCopies timeout now db).map (·.id)))) (db.reap timeout now).2

/-- The owner's endpoints write the row they own or refuse. -/
private theorem controlJob_cases (set : TrainingJob → TrainingJob) (hset : ∀ j, (set j).id = j.id)
    (secret : String) (provided : Option String) (jobId : Nat) (body : JobControlBody)
    (db : JobDb) :
    (∃ f, controlJob set hset secret provided jobId body db = (.error f, db)) ∨
      ∃ j ∈ db.jobs, j.id = jobId ∧ runningFor body j = true ∧
        ∃ db', Wrote j (set j) db db' ∧
          controlJob set hset secret provided jobId body db = (.ok (set j).out, db') := by
  unfold controlJob
  cases requireMlControlSecret secret provided with
  | error f => exact .inl ⟨f, rfl⟩
  | ok _ =>
    dsimp only
    rcases updateJob_cases "Job is not running for this daemon" jobId (runningFor body) set
      hset db with ⟨f, h⟩ | ⟨j, hj, hid, howner, db', hwrote, h⟩
    · rw [h]
      exact .inl ⟨f, rfl⟩
    · rw [h]
      exact .inr ⟨j, hj, hid, howner, db', hwrote, rfl⟩

private theorem endpoint_cases (kind : ControlKind) (now : Timestamp) (secret : String)
    (provided : Option String) (jobId : Nat) (body : JobControlBody) (db : JobDb) :
    (∃ f, kind.endpoint now secret provided jobId body db = (.error f, db)) ∨
      ∃ j ∈ db.jobs, j.id = jobId ∧ runningFor body j = true ∧
        ∃ db', Wrote j (kind.set now j) db db' ∧
          kind.endpoint now secret provided jobId body db = (.ok (kind.set now j).out, db') := by
  cases kind with
  | heartbeat => exact controlJob_cases _ _ secret provided jobId body db
  | complete => exact controlJob_cases _ _ secret provided jobId body db
  | fail error => exact controlJob_cases _ _ secret provided jobId body db

/-- Every request has one of these effects. -/
theorem step_effect (secret : String) (db : JobDb) (e : JobEvent) :
    Effect db e (db.step secret e).1 (db.step secret e).2 := by
  -- the checks of each endpoint in its order; past the last one the row is written
  cases e with
  | daemonHeartbeat provided name host now =>
    simp only [step, answered, daemonHeartbeat]
    cases requireMlControlSecret secret provided with
    | error f => exact .refused _ f
    | ok _ => exact .registered provided name host now _ _ rfl rfl
  | createJob rooms spec now =>
    simp only [step, answered, createJob]
    split
    · exact .refused _ _
    · split
      · exact .refused _ _
      · exact .created rooms spec now
  | claim actor provided jobId daemonId token now =>
    simp only [step, answered, claimJob]
    cases requireMlControlSecret secret provided with
    | error f => exact .refused _ f
    | ok _ =>
      dsimp only
      split
      · exact .refused _ _
      · rcases updateJob_cases "Job not available for claim" jobId (fun j => j.status = .queued)
          (Grimnir.claimed daemonId token now) (fun _ => rfl) db with
          ⟨f, h⟩ | ⟨j, hj, rfl, hqueued, db', hwrote, h⟩
        · rw [h]
          exact .refused _ f
        · rw [h]
          exact .claimed actor provided daemonId token now j hj (by simpa using hqueued) db'
            hwrote
  | control kind actor provided jobId body now =>
    simp only [step, answered]
    -- the three controls share their checks
    rcases endpoint_cases kind now secret provided jobId body db with
      ⟨f, h⟩ | ⟨j, hj, rfl, howner, db', hwrote, h⟩
    · rw [h]
      exact .refused _ f
    · rw [h]
      exact .controlled kind actor provided body now j hj howner db' hwrote
  | cancel jobId now =>
    simp only [step, answered, cancelJob]
    rcases updateJob_cases "Job is not queued or running" jobId
      (fun j => j.status = .queued || j.status = .running) (Grimnir.cancelled now)
      (fun _ => rfl) db with ⟨f, h⟩ | ⟨j, hj, rfl, hlive, db', hwrote, h⟩
    · rw [h]
      exact .refused _ f
    · rw [h]
      exact .cancelled now j hj (by simpa using hlive) db' hwrote
  -- the reaper never refuses
  | reap timeout now =>
    obtain ⟨hanswer, -, -⟩ := reap_eq timeout now db
    have hstep : db.step secret (.reap timeout now) =
        (.ok (.reaped (db.reap timeout now).1.1 (db.reap timeout now).1.2),
          (db.reap timeout now).2) := rfl
    rw [hstep, hanswer]
    exact .reaped timeout now

/-- A refused request changes nothing. -/
theorem step_of_error {secret : String} {db : JobDb} {e : JobEvent} {f : Failure}
    (h : (db.step secret e).1 = .error f) : (db.step secret e).2 = db := by
  have heff := step_effect secret db e
  rw [h] at heff
  generalize (db.step secret e).2 = db' at heff
  cases heff
  rfl

end JobDb

end Grimnir
