import Grimnir.Spec.JobOwnership
import Mathlib.Data.List.Pairwise

/-!
# Which columns of a job row are set

Nothing in the schema ties the columns of `training_jobs` together; seven statements keep
them in step with the status.  With fresh claim tokens the unique index on `claim_token`
has nothing to reject, and the reaper's `heartbeat_at IS NOT NULL` leaves no running job
out.

## Key results

- `Shaped.effect`: what one request keeps
- `conditionalUpdate_ok`: when the unique index admits an update
- `wellFormed_of_run`: every reachable queue
-/

namespace Grimnir

/-- The columns of a row agree with its status. -/
structure TrainingJob.Shaped (j : TrainingJob) : Prop where
  queued : j.status = .queued → j.daemonId = none ∧ j.claimToken = none ∧
    j.claimedAt = none ∧ j.heartbeatAt = none ∧ j.completedAt = none ∧ j.error = none
  running : j.status = .running → j.daemonId.isSome ∧ j.claimToken.isSome ∧
    j.claimedAt.isSome ∧ j.heartbeatAt.isSome ∧ j.completedAt = none ∧ j.error = none
  terminal : j.status.terminal = true → j.claimToken = none ∧ j.completedAt.isSome ∧
    (j.error.isSome ↔ j.status = .failed)

namespace JobDb

/-! ## The statements, one row at a time -/

variable {j : TrainingJob} {now : Timestamp}

/-- A new job is queued, with nothing of a daemon. -/
private theorem newJob_shaped (id : Nat) (spec : SpecDoc) (now : Timestamp) :
    (newJob id spec now).Shaped := by
  constructor <;> simp [newJob, JobStatus.terminal]

/-- A claimed job has all of its daemon's columns. -/
private theorem claimed_shaped (h : j.Shaped) (hqueued : j.status = .queued) (daemonId : Nat)
    (token : String) (now : Timestamp) : (claimed daemonId token now j).Shaped := by
  have hcolumns := h.queued hqueued
  constructor <;> simp [claimed, JobStatus.terminal, hcolumns]

/-- A cancelled job has its end, whether it was running or not. -/
private theorem cancelled_shaped (h : j.Shaped) (hlive : j.status = .queued ∨ j.status = .running)
    (now : Timestamp) : (cancelled now j).Shaped := by
  have herror : j.error = none := by
    cases hlive with
    | inl hqueued => exact (h.queued hqueued).2.2.2.2.2
    | inr hrunning => exact (h.running hrunning).2.2.2.2.2
  constructor <;> simp [cancelled, JobStatus.terminal, herror]

/-- So has a job that was completed or failed, and one with a heartbeat is still running. -/
private theorem controlled_shaped (h : j.Shaped) (hrunning : j.status = .running)
    (kind : ControlKind) (now : Timestamp) : (kind.set now j).Shaped := by
  have hcolumns := h.running hrunning
  cases kind with
  | heartbeat =>
    constructor <;> simp [ControlKind.set, heartbeaten, hrunning, JobStatus.terminal, hcolumns]
  | complete => constructor <;> simp [ControlKind.set, completed, JobStatus.terminal, hcolumns]
  | fail error => constructor <;> simp [ControlKind.set, failed, JobStatus.terminal]

/-- The reaper fails a running row and leaves every other one. -/
private theorem reapRow_shaped (h : j.Shaped) (timeout : Int) (now : Timestamp) :
    (reapRow timeout now j).Shaped := by
  unfold reapRow
  split
  · constructor <;> simp [orphaned, JobStatus.terminal]
  · exact h

/-! ## The whole queue -/

/-- Every row of the queue is shaped. -/
def AllShaped (db : JobDb) : Prop := ∀ j ∈ db.jobs, j.Shaped

/-- Writing a shaped row leaves all rows shaped. -/
theorem AllShaped.wrote {db db' : JobDb} {j' : TrainingJob} (h : AllShaped db)
    (hj' : j'.Shaped) (hwrote : Wrote j j' db db') : AllShaped db' := by
  intro k hk
  rcases (hwrote.mem k).mp hk with rfl | ⟨hk, -⟩
  · exact hj'
  · exact h k hk

/-- Every request leaves all rows shaped, by cases on what it did. -/
theorem AllShaped.effect {db db' : JobDb} {e : JobEvent} {res : JobResult} (h : AllShaped db)
    (heff : Effect db e res db') : AllShaped db' := by
  -- each written row has the shape of its new status
  cases heff with
  | refused f => exact h
  | registered provided name host now row _ hjobs hseq =>
    intro k hk
    rw [hjobs] at hk
    exact h k hk
  | created rooms spec now =>
    intro k hk
    rcases mem_insertJob.mp hk with hk | rfl
    · exact h k hk
    · exact newJob_shaped _ _ _
  | claimed actor provided daemonId token now j hj hqueued _ hwrote =>
    exact h.wrote (claimed_shaped (h j hj) hqueued daemonId token now) hwrote
  | controlled kind actor provided body now j hj howner _ hwrote =>
    have hrunning : j.status = .running := (runningFor_iff.mp howner).1
    exact h.wrote (controlled_shaped (h j hj) hrunning kind now) hwrote
  | cancelled now j hj hlive _ hwrote =>
    exact h.wrote (cancelled_shaped (h j hj) hlive now) hwrote
  | reaped timeout now =>
    intro k hk
    rcases mem_reap.mp hk with ⟨j, hj, rfl⟩ | hk
    · exact reapRow_shaped (h j hj) timeout now
    · obtain ⟨id, spec, -, rfl, -⟩ := mem_copies hk
      exact newJob_shaped _ _ _

/-! ## The unique index -/

/-- No row of the queue carries the token. -/
def Unused (db : JobDb) (token : String) : Prop := ∀ j ∈ db.jobs, j.claimToken ≠ some token

/-- The index admits an update whose row keeps its token, loses it, or gets an unused one. -/
theorem conditionalUpdate_ok (jobId : Nat) (guard : TrainingJob → Bool)
    {set : TrainingJob → TrainingJob} (hset : ∀ j, (set j).id = j.id) {db : JobDb}
    (htoken : ∀ j token, (set j).claimToken = some token →
      j.claimToken = some token ∨ db.Unused token) :
    ∃ r, conditionalUpdate jobId guard set hset db = .ok r := by
  -- only the unique index on `claim_token` could refuse the update
  unfold conditionalUpdate
  dsimp only
  rw [dif_pos]
  · exact ⟨_, rfl⟩
  · -- two rows of the new table with one token are two rows of the old table
    have htokens := List.pairwise_filterMap.mp db.claimTokens
    have hids := List.pairwise_map.mp db.jobs.nodup
    rw [Table.rows_update, List.filterMap_map]
    apply List.pairwise_filterMap.mpr
    refine (htokens.and hids).imp_of_mem ?_
    rintro a b ha hb ⟨hold, hid⟩ t hta t' htb rfl
    have hupdated : ∀ j : TrainingJob, (updateRow jobId guard set j).claimToken = some t →
        j.claimToken = some t ∨ (j.id = jobId ∧ db.Unused t) := by
      intro j hj
      unfold updateRow at hj
      split at hj
      · rename_i hrow
        simp only [Bool.and_eq_true, decide_eq_true_eq] at hrow
        exact (htoken j t hj).imp_right fun hunused => ⟨hrow.1, hunused⟩
      · exact .inl hj
    -- one of the two rows carries the new token, or none does
    rcases hupdated a hta with hta | ⟨hida, hunused⟩
    · rcases hupdated b htb with htb | ⟨-, hunused⟩
      · exact hold t hta t htb rfl
      · exact hunused a ha hta
    · rcases hupdated b htb with htb | ⟨hidb, -⟩
      · exact hunused b hb htb
      · exact hid (hida.trans hidb.symm)

/-- The result is not an uncaught database error. -/
def Raises {α β : Type} (r : Except Failure α × β) : Prop := ∃ exc, r.1 = .error (.internal exc)

/-- What the index raises comes out of an update it does not admit. -/
private theorem not_raises_updateJob (conflict : String) (jobId : Nat) (guard : TrainingJob → Bool)
    {set : TrainingJob → TrainingJob} (hset : ∀ j, (set j).id = j.id) {db : JobDb}
    (htoken : ∀ j token, (set j).claimToken = some token →
      j.claimToken = some token ∨ db.Unused token) :
    ¬Raises (updateJob conflict jobId guard set hset db) := by
  obtain ⟨⟨row, db'⟩, hok⟩ := conditionalUpdate_ok jobId guard hset htoken
  unfold updateJob
  rw [hok]
  rintro ⟨exc, h⟩
  cases row <;> cases h

/-- The guard refuses with an HTTP error. -/
private theorem requireMlControlSecret_ne_internal (secret : String) (provided : Option String)
    (exc : DBAPIError) : requireMlControlSecret secret provided ≠ .error (.internal exc) := by
  unfold requireMlControlSecret requireSecret
  intro h
  split at h
  · cases h
  · cases provided with
    | none => cases h
    | some given =>
      dsimp only at h
      cases hsame : compareDigest given secret with
      | ok same => rw [hsame] at h; cases same <;> cases h
      | error f =>
        rw [hsame] at h
        cases h
        unfold compareDigest at hsame
        split at hsame <;> cases hsame

/-- Wrapping the answer adds no database error. -/
private theorem not_raises_answered {α : Type} (wrap : α → JobResponse)
    {r : Except Failure α × JobDb} (hr : ¬Raises r) : ¬Raises (answered wrap r) := by
  obtain ⟨res, db'⟩ := r
  rintro ⟨exc, h⟩
  cases res with
  | error f =>
    cases h
    exact hr ⟨exc, rfl⟩
  | ok a => cases h

variable {secret : String} {db : JobDb}

/-- A daemon's heartbeat violates no constraint. -/
private theorem not_raises_daemonHeartbeat (provided : Option String) (name host : String)
    (now : Timestamp) : ¬Raises (daemonHeartbeat secret provided name host now db) := by
  unfold daemonHeartbeat
  rintro ⟨exc, h⟩
  split at h
  · rename_i f hsecret
    cases h
    exact requireMlControlSecret_ne_internal secret provided exc hsecret
  · cases h

/-- Nor does the `INSERT` of a new job. -/
private theorem not_raises_createJob (rooms : List Room) (spec : JobSpec) (now : Timestamp) :
    ¬Raises (createJob rooms spec now db) := by
  unfold createJob
  rintro ⟨exc, h⟩
  split at h
  · cases h
  · dsimp only at h
    split at h <;> cases h

/-- A claim brings an unused token. -/
private theorem not_raises_claimJob {token : String} (hunused : db.Unused token)
    (provided : Option String) (jobId daemonId : Nat) (now : Timestamp) :
    ¬Raises (claimJob secret provided jobId daemonId token now db) := by
  have hupdate : ¬Raises (updateJob "Job not available for claim" jobId
      (fun j => j.status = .queued) (claimed daemonId token now) (fun _ => rfl) db) :=
    not_raises_updateJob _ _ _ _ fun j t h => .inr (Option.some.inj h ▸ hunused)
  unfold claimJob
  rintro ⟨exc, h⟩
  split at h
  · rename_i f hsecret
    cases h
    exact requireMlControlSecret_ne_internal secret provided exc hsecret
  · split at h
    · cases h
    · split at h
      · rename_i f db' hfailed
        cases h
        exact hupdate ⟨exc, by rw [hfailed]⟩
      · cases h

/-- A control request brings no token of its own. -/
private theorem not_raises_controlJob (set : TrainingJob → TrainingJob)
    (hset : ∀ j, (set j).id = j.id)
    (htoken : ∀ j token, (set j).claimToken = some token → j.claimToken = some token)
    (provided : Option String) (jobId : Nat) (body : JobControlBody) :
    ¬Raises (controlJob set hset secret provided jobId body db) := by
  have hupdate : ¬Raises (updateJob "Job is not running for this daemon" jobId
      (runningFor body) set hset db) :=
    not_raises_updateJob _ _ _ _ fun j token h => .inl (htoken j token h)
  unfold controlJob
  rintro ⟨exc, h⟩
  split at h
  · rename_i f hsecret
    cases h
    exact requireMlControlSecret_ne_internal secret provided exc hsecret
  · split at h
    · rename_i f db' hfailed
      cases h
      exact hupdate ⟨exc, by rw [hfailed]⟩
    · cases h

/-- A cancelled row loses its token. -/
private theorem not_raises_cancelJob (jobId : Nat) (now : Timestamp) :
    ¬Raises (cancelJob jobId now db) := by
  have hupdate : ¬Raises (updateJob "Job is not queued or running" jobId
      (fun j => j.status = .queued || j.status = .running) (cancelled now) (fun _ => rfl) db) :=
    not_raises_updateJob _ _ _ _ (by simp [cancelled])
  unfold cancelJob
  rintro ⟨exc, h⟩
  split at h
  · rename_i f db' hfailed
    cases h
    exact hupdate ⟨exc, by rw [hfailed]⟩
  · cases h

/-- No request fails on the index, as long as a claim's token is on no row. -/
private theorem not_raises_step {e : JobEvent}
    (hclaim : ∀ actor provided jobId daemonId token now,
      e = .claim actor provided jobId daemonId token now → db.Unused token) :
    ¬Raises (db.step secret e) := by
  -- only a claim writes a token, so only a claim needs a fresh one
  cases e with
  | daemonHeartbeat provided name host now =>
    exact not_raises_answered _ (not_raises_daemonHeartbeat provided name host now)
  | createJob rooms spec now => exact not_raises_answered _ (not_raises_createJob rooms spec now)
  | claim actor provided jobId daemonId token now =>
    have hunused := hclaim actor provided jobId daemonId token now rfl
    exact not_raises_answered _ (not_raises_claimJob hunused provided jobId daemonId now)
  | control kind actor provided jobId body now =>
    apply not_raises_answered
    cases kind with
    | heartbeat =>
      exact not_raises_controlJob (heartbeaten now) (fun _ => rfl) (fun _ _ h => h) provided
        jobId body
    | complete =>
      exact not_raises_controlJob (completed now) (fun _ => rfl) (by simp [completed]) provided
        jobId body
    | fail error =>
      exact not_raises_controlJob (failed error now) (fun _ => rfl) (by simp [failed]) provided
        jobId body
  | cancel jobId now => exact not_raises_answered _ (not_raises_cancelJob jobId now)
  | reap timeout now =>
    rintro ⟨exc, h⟩
    cases h

/-! ## Runs -/

/-- Each claim brings a token that no successful claim had. -/
def FreshTokens (c : Config JobDb JobEvent JobResult) : JobEvent → Prop
  | .claim _ _ _ _ token _ => ∀ p ∈ claims c.log, p.token ≠ token
  | _ => True

/-- A token that no claim had is on no row. -/
private theorem unused_of_owned {log : JobLog} {db : JobDb} (howned : Owned log db)
    (hshaped : AllShaped db) {token : String} (hfresh : ∀ p ∈ claims log, p.token ≠ token) :
    db.Unused token := by
  intro j hj htoken
  cases hstatus : j.status with
  | running =>
    obtain ⟨p, howner, -, hp⟩ := howned.running j hj hstatus
    obtain ⟨-, since, x, before, hlog, hx, -⟩ := owner_eq_some howner
    exact hfresh p (mem_claims_of_split hlog hx) (Option.some.inj (hp.symm.trans htoken))
  | queued =>
    rw [((hshaped j hj).queued hstatus).2.1] at htoken
    cases htoken
  | _ =>
    rw [((hshaped j hj).terminal (by rw [hstatus]; rfl)).1] at htoken
    cases htoken

/-- What holds of the rows of the queue in every reachable state. -/
structure WellFormed (secret : String) (c : Config JobDb JobEvent JobResult) : Prop where
  shaped : AllShaped c.state
  /-- Distinct rows carry distinct tokens. -/
  tokens : ∀ j ∈ c.state.jobs, ∀ k ∈ c.state.jobs, ∀ token, j.claimToken = some token →
    k.claimToken = some token → j = k
  /-- Of a running job the reaper only asks how old its heartbeat is. -/
  heartbeats : ∀ j ∈ c.state.jobs, j.status = .running → ∃ t, j.heartbeatAt = some t ∧
    ∀ timeout now, stale timeout now j = decide (t < now - timeout)
  /-- The index rejects no update. -/
  index : ∀ e, FreshTokens c e → (step secret c.state e).1 ≠ .error (.internal duplicateClaimToken)

/-- With fresh tokens every state of every run is well formed. -/
theorem wellFormed_of_run {secret : String} {c : Config JobDb JobEvent JobResult}
    (hrun : (jobMachine secret).Run FreshTokens ⟨[], JobDb.empty⟩ c) : WellFormed secret c := by
  have hinv : Owned c.log c.state ∧ AllShaped c.state := by
    apply hrun.invariant (I := fun c => Owned c.log c.state ∧ AllShaped c.state)
      ⟨owned_empty, fun _ hj => nomatch hj⟩
    rintro c e ⟨howned, hshaped⟩ -
    have heff := step_effect secret c.state e
    exact ⟨howned.effect heff, hshaped.effect heff⟩
  obtain ⟨howned, hshaped⟩ := hinv
  refine ⟨hshaped, ?_, ?_, ?_⟩
  -- `tokens`
  · intro j hj k hk token htj htk
    by_contra hne
    have htokens := List.pairwise_filterMap.mp c.state.claimTokens
    have : Std.Symm fun a b : TrainingJob => ∀ t, a.claimToken = some t → ∀ t',
        b.claimToken = some t' → t ≠ t' := ⟨fun _ _ h t ht t' ht' => (h t' ht' t ht).symm⟩
    exact htokens.forall hj hk hne token htj token htk rfl
  -- `heartbeats`
  · intro j hj hrunning
    obtain ⟨t, ht⟩ := Option.isSome_iff_exists.mp ((hshaped j hj).running hrunning).2.2.2.1
    refine ⟨t, ht, fun timeout now => ?_⟩
    simp [stale, hrunning, ht]
  -- `index`
  · intro e hfresh hraised
    have hclaim : ∀ actor provided jobId daemonId token now,
        e = .claim actor provided jobId daemonId token now → c.state.Unused token := by
      rintro actor provided jobId daemonId token now rfl
      exact unused_of_owned howned hshaped hfresh
    exact not_raises_step hclaim ⟨_, hraised⟩

/-- One job is claimed, fails and is created again; a second one is cancelled while queued. -/
def shapedRun : List JobEvent :=
  submission [.claim 7 none 1 1 "fedcba9876543210" 2,
    .control (.fail "out of memory") 7 none 1 ⟨1, "fedcba9876543210", by decide⟩ 3,
    .createJob [⟨"kitchen", 0, 0⟩] kitchenSpec 4, .cancel 2 5, .reap 300 6]

/-- A job fails and another is cancelled while queued, and every row is shaped. -/
theorem wellFormed_of_shapedRun :
    WellFormed "" ((jobMachine "").replay ⟨[], JobDb.empty⟩ shapedRun) := by
  have hrun : (jobMachine "").Run FreshTokens ⟨[], JobDb.empty⟩
      ((jobMachine "").replay ⟨[], JobDb.empty⟩ shapedRun) :=
    Machine.run_of_admits ⟨trivial, trivial, (fun p hp => nomatch hp), trivial, trivial, trivial,
      trivial, trivial⟩
  exact wellFormed_of_run hrun

end JobDb

end Grimnir
