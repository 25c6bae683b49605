import Grimnir.Spec.JobLineage

/-!
# Exclusive job ownership

The log of a run says who owns a job: the daemon and token of its successful claim, until
the job is completed, failed, cancelled or reaped.  The `WHERE` of heartbeat, complete and
fail admits exactly that pair, so with fresh claim tokens a request that goes through was
made by the process whose claim it was.

## Key results

- `Owned.effect`: the rows agree with the owners the log gives
- `terminal_frozen`: a finished row never changes again
- `exclusive_of_run`: what holds of ownership in every state of every run
-/

namespace Grimnir

/-- A job in a terminal status is never taken up again. -/
def JobStatus.terminal : JobStatus → Bool
  | .failed | .complete | .cancelled => true
  | .queued | .running => false

namespace JobDb

/-! ## Reading the log -/

/-- A claim that succeeded: who sent it, and what the job's row then carries. -/
structure Claim where
  actor : Nat
  jobId : Nat
  daemonId : Nat
  token : String
  deriving DecidableEq, Repr

/-- The claim that a logged request made. -/
def claimedBy : JobEvent × JobResult → Option Claim
  | (.claim actor _ jobId daemonId token _, .ok _) => some ⟨actor, jobId, daemonId, token⟩
  | _ => none

/-- The jobs a logged request ended: completed, failed, cancelled or reaped. -/
def endedBy (x : JobEvent × JobResult) : List Nat :=
  (finishedBy x).toList ++ (requeuedBy x).map (·.1)

/-- The claims of a run that succeeded. -/
def claims (log : JobLog) : List Claim := log.filterMap claimedBy

/-- How many claims of a job succeeded. -/
def claimCount (log : JobLog) (jobId : Nat) : Nat :=
  (claims log).countP fun p => p.jobId = jobId

/-- The jobs a run has ended. -/
def endedIds (log : JobLog) : List Nat := log.flatMap endedBy

/-- The claim that owns a job: the one it was claimed by, as long as nothing has ended it
    since. -/
def owner : JobLog → Nat → Option Claim
  | [], _ => none
  | x :: log, jobId =>
    if jobId ∈ endedBy x then none
    else
      match claimedBy x with
      | some p => if p.jobId = jobId then some p else owner log jobId
      | none => owner log jobId

variable {log : JobLog} {x : JobEvent × JobResult}

/-- One more entry counts when it claims the job. -/
theorem claimCount_cons (jobId : Nat) :
    claimCount (x :: log) jobId =
      claimCount log jobId + if (claimedBy x).any (fun p => p.jobId = jobId) then 1 else 0 := by
  unfold claimCount claims
  rw [List.filterMap_cons]
  cases claimedBy x with
  | none => rfl
  | some p => simp [List.countP_cons]

/-- One more entry ends the jobs that it ends. -/
private theorem endedIds_cons : endedIds (x :: log) = endedBy x ++ endedIds log :=
  List.flatMap_cons

/-- A request that neither claims nor ends a job leaves its owner. -/
theorem owner_cons_of_other {jobId : Nat} (hended : jobId ∉ endedBy x)
    (hclaimed : (claimedBy x).any (fun p => p.jobId = jobId) = false) :
    owner (x :: log) jobId = owner log jobId := by
  rw [owner, if_neg hended]
  cases hx : claimedBy x with
  | none => rfl
  | some p =>
    rw [hx] at hclaimed
    have hne : ¬p.jobId = jobId := by simpa using hclaimed
    exact if_neg hne

/-- An owner's claim stands in the log with nothing after it that ended the job. -/
theorem owner_eq_some {jobId : Nat} {p : Claim} (h : owner log jobId = some p) :
    p.jobId = jobId ∧ ∃ since x before, log = since ++ x :: before ∧ claimedBy x = some p ∧
      ∀ y ∈ since, jobId ∉ endedBy y := by
  -- the log is newest first: an end hides every claim below it
  induction log with
  | nil => exact nomatch h
  | cons y log ih =>
    -- the newest entry ends the job, claims it, or is about another
    rw [owner] at h
    split at h
    · cases h
    · rename_i hended
      -- the owner comes from this claim or from further down
      have hdown (hrest : owner log jobId = some p) : p.jobId = jobId ∧
          ∃ since x before, y :: log = since ++ x :: before ∧ claimedBy x = some p ∧
            ∀ y ∈ since, jobId ∉ endedBy y := by
        obtain ⟨hid, since, x, before, rfl, hx, hsince⟩ := ih hrest
        refine ⟨hid, y :: since, x, before, rfl, hx, ?_⟩
        intro z hz
        rcases List.mem_cons.mp hz with rfl | hz
        · exact hended
        · exact hsince z hz
      split at h
      · rename_i q hclaimed
        split at h
        · rename_i hid
          cases h
          exact ⟨hid, [], y, log, rfl, hclaimed, fun z hz => nomatch hz⟩
        · exact hdown h
      · exact hdown h

/-! ## The rows agree with the log -/

/-- A queued row was never claimed, a running row carries its owner, an ended row is
    terminal, and no job was claimed twice. -/
structure Owned (log : JobLog) (db : JobDb) : Prop where
  queued : ∀ k ∈ db.jobs, k.status = .queued → claimCount log k.id = 0
  running : ∀ k ∈ db.jobs, k.status = .running → ∃ p, owner log k.id = some p ∧
    k.daemonId = some p.daemonId ∧ k.claimToken = some p.token
  once : ∀ k ∈ db.jobs, claimCount log k.id ≤ 1
  known : ∀ n, claimCount log n ≠ 0 → ∃ k ∈ db.jobs, k.id = n
  ended : ∀ n ∈ endedIds log, ∃ k ∈ db.jobs, k.id = n ∧ k.status.terminal = true

/-- Nobody owns anything in an empty table. -/
theorem owned_empty : Owned [] JobDb.empty where
  queued := fun _ hk => nomatch hk
  running := fun _ hk => nomatch hk
  once := fun _ hk => nomatch hk
  known := fun _ h => absurd rfl h
  ended := fun _ hn => nomatch hn

variable {db db' : JobDb} {j j' : TrainingJob}

/-- A logged request that neither claims nor ends any job. -/
def Quiet (x : JobEvent × JobResult) : Prop := claimedBy x = none ∧ endedBy x = []

/-- A quiet entry claims nothing. -/
theorem Quiet.claimCount (hx : Quiet x) (n : Nat) :
    claimCount (x :: log) n = claimCount log n := by
  rw [claimCount_cons, hx.1]
  rfl

/-- A quiet entry ends nothing. -/
private theorem Quiet.endedIds (hx : Quiet x) : endedIds (x :: log) = endedIds log := by
  rw [endedIds_cons, hx.2]
  rfl

/-- A quiet entry leaves every owner. -/
theorem Quiet.owner (hx : Quiet x) (n : Nat) : owner (x :: log) n = owner log n := by
  refine owner_cons_of_other ?_ ?_
  · rw [hx.2]
    exact List.not_mem_nil
  · rw [hx.1]
    rfl

/-- A quiet request keeps the agreement if every old row stays and a new one is queued under
    a new id. -/
theorem Owned.quiet (h : Owned log db) (hx : Quiet x)
    (hold : ∀ k ∈ db.jobs, k ∈ db'.jobs)
    (hnew : ∀ k ∈ db'.jobs, k ∈ db.jobs ∨ (k.status = .queued ∧ db.jobsIdSeq ≤ k.id)) :
    Owned (x :: log) db' := by
  -- a claimed job is a row, and rows are older than the sequence
  have hfresh : ∀ k : TrainingJob, db.jobsIdSeq ≤ k.id → claimCount log k.id = 0 := by
    intro k hle
    by_contra hne
    obtain ⟨k', hk', hid⟩ := h.known k.id hne
    have hbelow := db.jobsIdBelow k' hk'
    omega
  refine ⟨?_, ?_, ?_, ?_, ?_⟩
  -- `queued`
  · intro k hk hqueued
    rw [hx.claimCount]
    rcases hnew k hk with hk | ⟨-, hle⟩
    · exact h.queued k hk hqueued
    · exact hfresh k hle
  -- `running`: a new row is queued
  · intro k hk hrunning
    rw [hx.owner]
    rcases hnew k hk with hk | ⟨hqueued, -⟩
    · exact h.running k hk hrunning
    · rw [hqueued] at hrunning
      cases hrunning
  -- `once`
  · intro k hk
    rw [hx.claimCount]
    rcases hnew k hk with hk | ⟨-, hle⟩
    · exact h.once k hk
    · have hzero := hfresh k hle
      omega
  -- `known`
  · intro n hn
    rw [hx.claimCount] at hn
    obtain ⟨k, hk, hid⟩ := h.known n hn
    exact ⟨k, hold k hk, hid⟩
  -- `ended`
  · rw [hx.endedIds]
    intro n hn
    obtain ⟨k, hk, hrest⟩ := h.ended n hn
    exact ⟨k, hold k hk, hrest⟩

/-- A request that writes the row `j` and touches no other job in the log keeps the agreement
    if the row it leaves agrees with what it logs. -/
theorem Owned.wrote (h : Owned log db) (hw : Wrote j j' db db')
    (hid : j'.id = j.id) (hended : ∀ n ∈ endedBy x, n = j.id)
    (hclaimed : ∀ p ∈ claimedBy x, p.jobId = j.id)
    (hqueued : j'.status = .queued → claimCount (x :: log) j.id = 0)
    (hrunning : j'.status = .running → ∃ p, owner (x :: log) j.id = some p ∧
      j'.daemonId = some p.daemonId ∧ j'.claimToken = some p.token)
    (honce : claimCount (x :: log) j.id ≤ 1)
    (hterminal : j.id ∈ endedIds (x :: log) → j'.status.terminal = true) :
    Owned (x :: log) db' := by
  have hcount : ∀ n, n ≠ j.id → claimCount (x :: log) n = claimCount log n := by
    intro n hne
    rw [claimCount_cons]
    cases hx : claimedBy x with
    | none => rfl
    | some p =>
      have hp : p.jobId = j.id := hclaimed p hx
      have hpn : ¬p.jobId = n := fun heq => hne (heq.symm.trans hp)
      simp [hpn]
  have howner : ∀ n, n ≠ j.id → owner (x :: log) n = owner log n := by
    intro n hne
    refine owner_cons_of_other (fun hn => hne (hended n hn)) ?_
    cases hx : claimedBy x with
    | none => rfl
    | some p =>
      have hp : p.jobId = j.id := hclaimed p hx
      have hpn : ¬p.jobId = n := fun heq => hne (heq.symm.trans hp)
      simp [hpn]
  have hj' : j' ∈ db'.jobs := (hw.mem j').mpr (.inl rfl)
  refine ⟨?_, ?_, ?_, ?_, ?_⟩
  -- `queued`: the written row by hypothesis, every other row from before
  · intro k hk hstatus
    rcases (hw.mem k).mp hk with rfl | ⟨hk, hne⟩
    · rw [hid]
      exact hqueued hstatus
    · rw [hcount k.id hne]
      exact h.queued k hk hstatus
  -- `running`
  · intro k hk hstatus
    rcases (hw.mem k).mp hk with rfl | ⟨hk, hne⟩
    · rw [hid]
      exact hrunning hstatus
    · rw [howner k.id hne]
      exact h.running k hk hstatus
  -- `once`
  · intro k hk
    rcases (hw.mem k).mp hk with rfl | ⟨hk, hne⟩
    · rw [hid]
      exact honce
    · rw [hcount k.id hne]
      exact h.once k hk
  -- `known`
  · intro n hn
    by_cases hnj : n = j.id
    · exact ⟨j', hj', hid.trans hnj.symm⟩
    · rw [hcount n hnj] at hn
      obtain ⟨k, hk, rfl⟩ := h.known n hn
      exact ⟨k, (hw.mem k).mpr (.inr ⟨hk, hnj⟩), rfl⟩
  -- `ended`
  · intro n hn
    by_cases hnj : n = j.id
    · subst hnj
      exact ⟨j', hj', hid, hterminal hn⟩
    · rw [endedIds_cons] at hn
      have hold : n ∈ endedIds log :=
        (List.mem_append.mp hn).resolve_left fun hx => hnj (hended n hx)
      obtain ⟨k, hk, rfl, hterm⟩ := h.ended n hold
      exact ⟨k, (hw.mem k).mpr (.inr ⟨hk, hnj⟩), rfl, hterm⟩

/-- An open row has not been ended. -/
private theorem Owned.not_ended (h : Owned log db) (hj : j ∈ db.jobs)
    (hopen : j.status.terminal = false) : j.id ∉ endedIds log := by
  intro hended
  obtain ⟨k, hk, hid, hterminal⟩ := h.ended j.id hended
  rw [db.jobs.eq_of_key_eq hk hj hid, hopen] at hterminal
  cases hterminal

/-- A successful claim makes the claimer the owner. -/
theorem Owned.claimed (h : Owned log db) {actor : Nat} {provided : Option String}
    {daemonId : Nat} {token : String} {now : Timestamp} {r : JobResponse} (hj : j ∈ db.jobs)
    (hqueued : j.status = .queued)
    (hw : Wrote j (Grimnir.claimed daemonId token now j) db db') :
    Owned ((.claim actor provided j.id daemonId token now, .ok r) :: log) db' := by
  set x : JobEvent × JobResult := (.claim actor provided j.id daemonId token now, .ok r)
  have hclaimed : claimedBy x = some ⟨actor, j.id, daemonId, token⟩ := rfl
  have hended : endedBy x = [] := rfl
  have hcount : claimCount (x :: log) j.id = 1 := by
    rw [claimCount_cons, hclaimed, h.queued j hj hqueued]
    simp
  refine h.wrote hw rfl ?_ ?_ (fun hq => nomatch hq) ?_ (by omega) ?_
  · rw [hended]
    exact fun n hn => nomatch hn
  · intro p hp
    cases hp
    rfl
  · intro _
    refine ⟨⟨actor, j.id, daemonId, token⟩, ?_, rfl, rfl⟩
    rw [owner, hended, if_neg List.not_mem_nil, hclaimed]
    exact if_pos rfl
  -- a queued job has not been ended
  · rw [endedIds_cons, hended]
    intro hn
    exact absurd hn (h.not_ended hj (by rw [hqueued]; rfl))

/-- Ending an open job takes it from its owner for good. -/
theorem Owned.finished (h : Owned log db) (hw : Wrote j j' db db') (hj : j ∈ db.jobs)
    (hid : j'.id = j.id) (hterminal : j'.status.terminal = true)
    (hclaimed : claimedBy x = none) (hended : endedBy x = [j.id]) :
    Owned (x :: log) db' := by
  refine h.wrote hw hid ?_ ?_ ?_ ?_ ?_ (fun _ => hterminal)
  · rw [hended]
    exact fun n hn => List.mem_singleton.mp hn
  · rw [hclaimed]
    exact fun p hp => nomatch hp
  -- the row is terminal, so neither queued nor running
  · intro hqueued
    rw [hqueued] at hterminal
    cases hterminal
  · intro hrunning
    rw [hrunning] at hterminal
    cases hterminal
  · rw [claimCount_cons, hclaimed]
    exact h.once j hj

/-- A heartbeat leaves the owner where it was. -/
theorem Owned.heartbeaten (h : Owned log db) {now : Timestamp} (hx : Quiet x)
    (hj : j ∈ db.jobs) (hrunning : j.status = .running)
    (hw : Wrote j (heartbeaten now j) db db') : Owned (x :: log) db' := by
  refine h.wrote hw rfl ?_ ?_ ?_ ?_ ?_ ?_
  · rw [hx.2]
    exact fun n hn => nomatch hn
  · rw [hx.1]
    exact fun p hp => nomatch hp
  · intro hqueued
    cases hrunning.symm.trans hqueued
  · intro _
    rw [hx.owner]
    exact h.running j hj hrunning
  · rw [hx.claimCount]
    exact h.once j hj
  · rw [hx.endedIds]
    intro hn
    exact absurd hn (h.not_ended hj (by rw [hrunning]; rfl))

/-- The reaper ends the stale jobs and queues their copies. -/
theorem Owned.reaped (h : Owned log db) (timeout : Int) (now : Timestamp) :
    Owned (reapEntry timeout now db :: log) (db.reap timeout now).2 := by
  have hended : endedBy (reapEntry timeout now db) = (JobDb.reaped timeout now db).map (·.id) :=
    sources_reapEntry timeout now db
  have hcount : ∀ n, claimCount (reapEntry timeout now db :: log) n = claimCount log n :=
    fun n => claimCount_cons n
  -- a copy's id is new, so no claim in the log is of it
  have hcopy : ∀ k ∈ reapCopies timeout now db, k.status = .queued ∧ claimCount log k.id = 0 := by
    intro k hk
    obtain ⟨id, spec, -, rfl, hle⟩ := mem_copies hk
    refine ⟨rfl, ?_⟩
    by_contra hne
    obtain ⟨k', hk', hid⟩ := h.known _ hne
    have hbelow := db.jobsIdBelow k' hk'
    have hnew : k'.id = id := hid
    omega
  refine ⟨?_, ?_, ?_, ?_, ?_⟩
  -- `queued`: a row that is still queued was not stale
  · intro k hk hqueued
    rw [hcount]
    rcases mem_reap.mp hk with ⟨j, hj, rfl⟩ | hk
    · by_cases hstale : stale timeout now j = true
      · rw [reapRow, if_pos hstale] at hqueued
        cases hqueued
      · rw [reapRow, if_neg hstale] at hqueued ⊢
        exact h.queued j hj hqueued
    · exact (hcopy k hk).2
  -- `running`: a row that still runs was not stale, so it keeps its owner
  · intro k hk hrunning
    rcases mem_reap.mp hk with ⟨j, hj, rfl⟩ | hk
    · by_cases hstale : stale timeout now j = true
      · rw [reapRow, if_pos hstale] at hrunning
        cases hrunning
      · rw [reapRow, if_neg hstale] at hrunning ⊢
        rw [owner_cons_of_other ?_ rfl]
        · exact h.running j hj hrunning
        · rw [hended]
          intro hin
          obtain ⟨j₁, hj₁, hid⟩ := List.mem_map.mp hin
          rw [db.jobs.eq_of_key_eq (of_mem_reaped hj₁).1 hj hid] at hj₁
          exact hstale (List.mem_filter.mp hj₁).2
    · cases (hcopy k hk).1.symm.trans hrunning
  -- `once`
  · intro k hk
    rw [hcount]
    rcases mem_reap.mp hk with ⟨j, hj, rfl⟩ | hk
    · rw [id_reapRow]
      exact h.once j hj
    · have hzero := (hcopy k hk).2
      omega
  -- `known`
  · intro n hn
    rw [hcount] at hn
    obtain ⟨k, hk, rfl⟩ := h.known n hn
    exact ⟨reapRow timeout now k, mem_reap.mpr (.inl ⟨k, hk, rfl⟩), id_reapRow timeout now k⟩
  -- `ended`: the stale rows are failed now
  · intro n hn
    rw [endedIds_cons, hended] at hn
    rcases List.mem_append.mp hn with hn | hn
    · obtain ⟨j, hj, rfl⟩ := List.mem_map.mp hn
      refine ⟨reapRow timeout now j, mem_reap.mpr (.inl ⟨j, (of_mem_reaped hj).1, rfl⟩),
        id_reapRow timeout now j, ?_⟩
      rw [reapRow, if_pos (List.mem_filter.mp hj).2]
      rfl
    · obtain ⟨k, hk, rfl, hterminal⟩ := h.ended n hn
      refine ⟨reapRow timeout now k, mem_reap.mpr (.inl ⟨k, hk, rfl⟩),
        id_reapRow timeout now k, ?_⟩
      rw [reapRow_of_not_running (by intro hrunning; rw [hrunning] at hterminal; cases hterminal)]
      exact hterminal

/-- The `WHERE` of the owner's requests. -/
theorem runningFor_iff {body : JobControlBody} :
    runningFor body j = true ↔
      j.status = .running ∧ j.daemonId = some body.daemonId ∧
        j.claimToken = some body.claimToken := by
  simp [runningFor, and_assoc]

/-- Every request keeps the rows in agreement with the log. -/
theorem Owned.effect {e : JobEvent} {res : JobResult} (h : Owned log db)
    (heff : Effect db e res db') : Owned ((e, res) :: log) db' := by
  -- per effect: nobody's claim, a new one, the owner's own row, or the end
  cases heff with
  | refused _ f =>
    have hquiet : Quiet (e, .error f) := by
      cases e with
      | control kind => cases kind <;> exact ⟨rfl, rfl⟩
      | _ => exact ⟨rfl, rfl⟩
    exact h.quiet hquiet (fun k hk => hk) (fun k hk => .inl hk)
  | registered _ _ _ _ _ _ hjobs _ =>
    refine h.quiet ⟨rfl, rfl⟩ ?_ ?_ <;> rw [hjobs]
    · exact fun k hk => hk
    · exact fun k hk => .inl hk
  | created rooms spec now =>
    refine h.quiet ⟨rfl, rfl⟩ (fun k hk => mem_insertJob.mpr (.inl hk)) ?_
    intro k hk
    rcases mem_insertJob.mp hk with hk | rfl
    · exact .inl hk
    · exact .inr ⟨rfl, Nat.le_refl _⟩
  | claimed _ _ _ _ _ j hj hqueued _ hwrote => exact h.claimed hj hqueued hwrote
  | controlled kind _ _ body _ j hj howner _ hwrote =>
    have hrunning := (runningFor_iff.mp howner).1
    cases kind with
    | heartbeat => exact h.heartbeaten ⟨rfl, rfl⟩ hj hrunning hwrote
    | complete => exact h.finished hwrote hj rfl rfl rfl rfl
    | fail error => exact h.finished hwrote hj rfl rfl rfl rfl
  | cancelled _ j hj _ _ hwrote => exact h.finished hwrote hj rfl rfl rfl rfl
  | reaped timeout now => exact h.reaped timeout now

/-! ## Finished rows are frozen -/

/-- No request changes a row in a terminal status. -/
private theorem Effect.frozen {e : JobEvent} {res : JobResult} (heff : Effect db e res db')
    (hj : j ∈ db.jobs) (hterminal : j.status.terminal = true) : j ∈ db'.jobs := by
  -- a row that a request writes is queued or running
  have hne : ∀ k ∈ db.jobs, k.status.terminal = false → j.id ≠ k.id := by
    intro k hk hopen hid
    rw [db.jobs.eq_of_key_eq hj hk hid, hopen] at hterminal
    cases hterminal
  -- every row that is written differs from the frozen one
  cases heff with
  | refused _ f => exact hj
  | registered _ _ _ _ _ _ hjobs _ => rw [hjobs]; exact hj
  | created rooms spec now => exact mem_insertJob.mpr (.inl hj)
  | claimed _ _ _ _ _ k hk hqueued _ hwrote =>
    exact (hwrote.mem j).mpr (.inr ⟨hj, hne k hk (by rw [hqueued]; rfl)⟩)
  | controlled kind _ _ body _ k hk howner _ hwrote =>
    have hrunning := (runningFor_iff.mp howner).1
    exact (hwrote.mem j).mpr (.inr ⟨hj, hne k hk (by rw [hrunning]; rfl)⟩)
  | cancelled _ k hk hlive _ hwrote =>
    refine (hwrote.mem j).mpr (.inr ⟨hj, hne k hk ?_⟩)
    rcases hlive with hlive | hlive <;> rw [hlive] <;> rfl
  | reaped timeout now =>
    refine mem_reap.mpr (.inl ⟨j, hj, reapRow_of_not_running ?_⟩)
    intro hrunning
    rw [hrunning] at hterminal
    cases hterminal

/-- A finished row is the same row in every later state. -/
theorem terminal_frozen {secret : String}
    {ok : Config JobDb JobEvent JobResult → JobEvent → Prop}
    {c c' : Config JobDb JobEvent JobResult} (hrun : (jobMachine secret).Run ok c c')
    (hj : j ∈ c.state.jobs) (hterminal : j.status.terminal = true) : j ∈ c'.state.jobs := by
  refine hrun.invariant (I := fun d => j ∈ d.state.jobs) hj ?_
  intro d e hd _
  exact (step_effect secret d.state e).frozen hd hterminal

/-! ## Runs -/

/-- Fresh tokens and no stolen ones: a claim brings a token that no successful claim had, and
    a process only sends a token that one of its own claims was answered with. -/
def Honest (c : Config JobDb JobEvent JobResult) : JobEvent → Prop
  | .claim _ _ _ _ token _ => ∀ p ∈ claims c.log, p.token ≠ token
  | .control _ actor _ _ body _ => ∃ p ∈ claims c.log, p.actor = actor ∧ p.token = body.claimToken
  | _ => True

/-- One more entry adds its claim. -/
theorem claims_cons : claims (x :: log) = (claimedBy x).toList ++ claims log := by
  unfold claims
  rw [List.filterMap_cons]
  cases claimedBy x <;> rfl

/-- Successful claims carry distinct tokens. -/
def DistinctTokens (log : JobLog) : Prop := ((claims log).map (·.token)).Nodup

/-- An honest claim brings a token of its own. -/
theorem DistinctTokens.cons {c : Config JobDb JobEvent JobResult} {e : JobEvent}
    (h : DistinctTokens c.log) (hok : Honest c e) (res : JobResult) :
    DistinctTokens ((e, res) :: c.log) := by
  unfold DistinctTokens at h ⊢
  rw [claims_cons]
  cases hx : claimedBy (e, res) with
  | none => exact h
  | some p =>
    -- only a claim adds a token, and it is a fresh one
    have hfresh : ∀ q ∈ claims c.log, q.token ≠ p.token := by
      cases e with
      | claim actor provided jobId daemonId token now =>
        cases res with
        | error f => exact nomatch hx
        | ok r => cases hx; exact hok
      | _ => exact nomatch hx
    rw [Option.toList_some, List.singleton_append, List.map_cons, List.nodup_cons]
    refine ⟨?_, h⟩
    intro hin
    obtain ⟨q, hq, htoken⟩ := List.mem_map.mp hin
    exact hfresh q hq htoken

/-- The successful claim of a job, in a split of the log, is one of the claims. -/
theorem mem_claims_of_split {since before : JobLog} {p : Claim}
    (hlog : log = since ++ x :: before) (hx : claimedBy x = some p) : p ∈ claims log := by
  rw [claims, List.mem_filterMap]
  exact ⟨x, by rw [hlog]; exact List.mem_append_right _ List.mem_cons_self, hx⟩

/-- Exclusive ownership, as a property of one state of a run and what can follow it. -/
structure Exclusive (secret : String) (c : Config JobDb JobEvent JobResult) : Prop where
  /-- At most one claim of a job has succeeded. -/
  oneClaim : ∀ n, claimCount c.log n ≤ 1
  /-- A heartbeat, complete or fail goes through only with the pair of that claim, and only
      while nothing has ended the job since. -/
  owned : ∀ kind actor provided n body now r,
    (step secret c.state (.control kind actor provided n body now)).1 = .ok r →
      ∃ since x before p, c.log = since ++ x :: before ∧ claimedBy x = some p ∧
        p.jobId = n ∧ p.daemonId = body.daemonId ∧ p.token = body.claimToken ∧
        ∀ y ∈ since, n ∉ endedBy y
  /-- The process that sends it has made that claim. -/
  sender : ∀ kind actor provided n body now r,
    Honest c (.control kind actor provided n body now) →
      (step secret c.state (.control kind actor provided n body now)).1 = .ok r →
        ∃ p ∈ claims c.log, p.jobId = n ∧ p.actor = actor
  /-- The token of a claim whose job has ended moves no job, neither that one nor a copy. -/
  expired : ∀ p ∈ claims c.log, p.jobId ∈ endedIds c.log →
    ∀ kind actor provided n body now, body.claimToken = p.token →
      (step secret c.state (.control kind actor provided n body now)).2 = c.state
  /-- A row in complete, failed or cancelled never changes again. -/
  frozen : ∀ j ∈ c.state.jobs, j.status.terminal = true →
    ∀ c', (jobMachine secret).Run Honest c c' → j ∈ c'.state.jobs
  /-- A refused request leaves every row as it was. -/
  refused : ∀ e f, (step secret c.state e).1 = .error f →
    (step secret c.state e).2.jobs = c.state.jobs

/-- A control request that goes through finds a running row with its pair. -/
private theorem control_ok {secret : String} {kind : ControlKind} {actor : Nat}
    {provided : Option String} {n : Nat} {body : JobControlBody} {now : Timestamp}
    {r : JobResponse}
    (h : (step secret db (.control kind actor provided n body now)).1 = .ok r) :
    ∃ j ∈ db.jobs, j.id = n ∧ runningFor body j = true := by
  have heff := step_effect secret db (.control kind actor provided n body now)
  rw [h] at heff
  cases heff with
  | controlled _ _ _ _ _ j hj howner _ _ => exact ⟨j, hj, rfl, howner⟩

/-- The row of such a request is owned by a logged claim with its pair. -/
theorem Owned.control {secret : String} (h : Owned log db) {kind : ControlKind} {actor : Nat}
    {provided : Option String} {n : Nat} {body : JobControlBody} {now : Timestamp}
    {r : JobResponse}
    (hok : (step secret db (.control kind actor provided n body now)).1 = .ok r) :
    n ∉ endedIds log ∧ ∃ since x before p, log = since ++ x :: before ∧ claimedBy x = some p ∧
      p.jobId = n ∧ p.daemonId = body.daemonId ∧ p.token = body.claimToken ∧
      ∀ y ∈ since, n ∉ endedBy y := by
  obtain ⟨j, hj, rfl, howner⟩ := control_ok hok
  obtain ⟨hrunning, hdaemon, htoken⟩ := runningFor_iff.mp howner
  -- the running row carries the pair of its owner, which the `WHERE` compares
  obtain ⟨p, howns, hpdaemon, hptoken⟩ := h.running j hj hrunning
  obtain ⟨hid, since, x, before, hlog, hx, hsince⟩ := owner_eq_some howns
  refine ⟨h.not_ended hj (by rw [hrunning]; rfl), since, x, before, p, hlog, hx, hid, ?_, ?_,
    hsince⟩
  · exact Option.some.inj (hpdaemon.symm.trans hdaemon)
  · exact Option.some.inj (hptoken.symm.trans htoken)

/-- With fresh tokens and honest senders every state of every run is exclusive. -/
theorem exclusive_of_run {secret : String} {c : Config JobDb JobEvent JobResult}
    (hrun : (jobMachine secret).Run Honest ⟨[], JobDb.empty⟩ c) : Exclusive secret c := by
  have hinv : Owned c.log c.state ∧ DistinctTokens c.log := by
    refine hrun.invariant (I := fun c => Owned c.log c.state ∧ DistinctTokens c.log)
      ⟨owned_empty, List.nodup_nil⟩ ?_
    rintro c e ⟨howned, htokens⟩ hok
    exact ⟨howned.effect (step_effect secret c.state e), htokens.cons hok _⟩
  obtain ⟨howned, htokens⟩ := hinv
  refine ⟨?_, ?_, ?_, ?_, ?_, ?_⟩
  -- `oneClaim`
  · intro n
    by_cases hzero : claimCount c.log n = 0
    · omega
    · obtain ⟨k, hk, rfl⟩ := howned.known n hzero
      exact howned.once k hk
  -- `owned`
  · intro kind actor provided n body now r hok
    exact (howned.control hok).2
  -- `sender`
  · rintro kind actor provided n body now r ⟨q, hq, hactor, htoken⟩ hok
    obtain ⟨-, since, x, before, p, hlog, hx, hid, -, hptoken, -⟩ := howned.control hok
    have hp := mem_claims_of_split hlog hx
    -- the token the sender knows is the token of this claim
    obtain rfl := List.inj_on_of_nodup_map htokens hq hp (htoken.trans hptoken.symm)
    exact ⟨q, hq, hid, hactor⟩
  -- `expired`: an ended job has no running row that the token could match
  · intro p hp hended kind actor provided n body now htoken
    cases hres : (step secret c.state (.control kind actor provided n body now)).1 with
    | error f => exact step_of_error hres
    | ok r =>
      obtain ⟨hopen, since, x, before, q, hlog, hx, hid, -, hqtoken, -⟩ := howned.control hres
      have hq := mem_claims_of_split hlog hx
      obtain rfl := List.inj_on_of_nodup_map htokens hp hq (htoken.symm.trans hqtoken.symm)
      rw [hid] at hended
      exact absurd hended hopen
  -- `frozen`
  · intro j hj hterminal c' hrun'
    exact terminal_frozen hrun' hj hterminal
  -- `refused`
  · intro e f hres
    rw [step_of_error hres]

/-- A daemon claims the submitted job and sends one heartbeat. -/
def heartbeatRun : List JobEvent :=
  submission [.claim 7 none 1 1 "0123456789abcdef" 2,
    .control .heartbeat 7 none 1 ⟨1, "0123456789abcdef", by decide⟩ 3]

/-- A job is claimed once, and its owner sends a heartbeat. -/
theorem exclusive_of_heartbeatRun :
    Exclusive "" ((jobMachine "").replay ⟨[], JobDb.empty⟩ heartbeatRun) := by
  have hknown : (⟨7, 1, 1, "0123456789abcdef"⟩ : Claim) ∈
      claims ((jobMachine "").replay ⟨[], JobDb.empty⟩
        (submission [.claim 7 none 1 1 "0123456789abcdef" 2])).log := by decide
  have hrun : (jobMachine "").Run Honest ⟨[], JobDb.empty⟩
      ((jobMachine "").replay ⟨[], JobDb.empty⟩ heartbeatRun) :=
    Machine.run_of_admits ⟨trivial, trivial, (fun p hp => nomatch hp),
      ⟨_, hknown, rfl, rfl⟩, trivial⟩
  exact exclusive_of_run hrun

end JobDb

end Grimnir
