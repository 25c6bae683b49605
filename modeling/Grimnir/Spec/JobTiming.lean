import Grimnir.Spec.JobShape

/-!
# Which jobs the reaper takes

A claim and every heartbeat that goes through renew a job.  The log of a run says when that
last was, and the reaper takes exactly the running jobs that were last renewed before
`NOW() - timeout`.  A request of the owner is never refused while its job runs, so an owner that
keeps sending heartbeats keeps its job.

## Key results

- `Renewed.effect`: the heartbeat of a running row is its last renewal in the log
- `reaps_silent_of_run`: what a run of the reaper takes, in every state of every run
- `attended_of_run`: a job whose owner is heard from in time is not reaped
-/

namespace Grimnir

/-- The time at which the server carries a request out. -/
def JobEvent.time : JobEvent → Timestamp
  | .daemonHeartbeat _ _ _ now => now
  | .createJob _ _ now => now
  | .claim _ _ _ _ _ now => now
  | .control _ _ _ _ _ now => now
  | .cancel _ now => now
  | .reap _ now => now

namespace JobDb

/-! ## Reading the log -/

/-- The job that a logged request renewed: by a claim or a heartbeat. -/
def renewedBy : JobEvent × JobResult → Option Nat
  | (.claim _ _ jobId _ _ _, .ok _) => some jobId
  | (.control .heartbeat _ _ jobId _ _, .ok _) => some jobId
  | _ => none

/-- When a job was last renewed. -/
def lastRenewal : JobLog → Nat → Option Timestamp
  | [], _ => none
  | x :: log, jobId => if renewedBy x = some jobId then some x.1.time else lastRenewal log jobId

variable {log : JobLog} {x : JobEvent × JobResult} {db db' : JobDb} {j j' : TrainingJob}

/-- An entry that does not renew the job leaves its last renewal. -/
private theorem lastRenewal_cons_of_ne {jobId : Nat} (h : renewedBy x ≠ some jobId) :
    lastRenewal (x :: log) jobId = lastRenewal log jobId := if_neg h

/-- The heartbeat of a running row is its last renewal. -/
def Renewed (log : JobLog) (db : JobDb) : Prop :=
  ∀ k ∈ db.jobs, k.status = .running →
    ∃ t, k.heartbeatAt = some t ∧ lastRenewal log k.id = some t

/-- The empty table has no running row. -/
private theorem renewed_empty : Renewed [] JobDb.empty := by
  intro k hk
  cases hk

/-- A request that renews no job keeps this when no row starts to run. -/
theorem Renewed.quiet (h : Renewed log db) (hx : renewedBy x = none)
    (hrows : ∀ k ∈ db'.jobs, k.status = .running → k ∈ db.jobs) : Renewed (x :: log) db' := by
  intro k hk hrunning
  rw [lastRenewal_cons_of_ne (by rw [hx]; exact (Option.some_ne_none _).symm)]
  exact h k (hrows k hk hrunning) hrunning

/-- A request that renews the row it writes keeps it. -/
private theorem Renewed.renew (h : Renewed log db) (hw : Wrote j j' db db') (hid : j'.id = j.id)
    (hx : renewedBy x = some j.id) (hbeat : j'.heartbeatAt = some x.1.time) :
    Renewed (x :: log) db' := by
  intro k hk hrunning
  rcases (hw.mem k).mp hk with rfl | ⟨hk, hne⟩
  · refine ⟨x.1.time, hbeat, ?_⟩
    rw [hid]
    exact if_pos hx
  · rw [lastRenewal_cons_of_ne (by rw [hx]; exact fun heq => hne (Option.some.inj heq).symm)]
    exact h k hk hrunning

/-- A request that leaves its row in another status than running. -/
theorem Renewed.stop (h : Renewed log db) (hw : Wrote j j' db db') (hx : renewedBy x = none)
    (hstatus : j'.status ≠ .running) : Renewed (x :: log) db' := by
  refine h.quiet hx fun k hk hrunning => ?_
  rcases (hw.mem k).mp hk with rfl | ⟨hk, -⟩
  · exact absurd hrunning hstatus
  · exact hk

/-- A running row after the reaper was there before, and was not stale. -/
private theorem running_of_mem_reap {timeout : Int} {now : Timestamp} {k : TrainingJob}
    (hk : k ∈ (db.reap timeout now).2.jobs) (hrunning : k.status = .running) :
    k ∈ db.jobs ∧ stale timeout now k = false := by
  rcases mem_reap.mp hk with ⟨j, hj, rfl⟩ | hcopy
  · cases hstale : stale timeout now j with
    | true =>
      rw [reapRow, if_pos hstale] at hrunning
      cases hrunning
    | false =>
      rw [reapRow, hstale, if_neg Bool.false_ne_true]
      exact ⟨hj, hstale⟩
  · obtain ⟨id, spec, -, rfl, -⟩ := mem_copies hcopy
    cases hrunning

/-- Every request keeps the heartbeats in agreement with the log. -/
theorem Renewed.effect {e : JobEvent} {res : JobResult} (h : Renewed log db)
    (heff : Effect db e res db') : Renewed ((e, res) :: log) db' := by
  -- only claims and heartbeats renew a job
  cases heff with
  | refused _ f =>
    refine h.quiet ?_ fun k hk _ => hk
    cases e with
    | control kind => cases kind <;> rfl
    | _ => rfl
  | registered _ _ _ _ _ _ hjobs _ => exact h.quiet rfl fun k hk _ => hjobs ▸ hk
  -- a new job is queued, so it has no heartbeat to compare
  | created rooms spec now =>
    refine h.quiet rfl fun k hk hrunning => ?_
    rcases mem_insertJob.mp hk with hk | rfl
    · exact hk
    · cases hrunning
  | claimed _ _ _ _ _ j hj _ _ hwrote => exact h.renew hwrote rfl rfl rfl
  -- a heartbeat renews its job, the other controls stop it
  | controlled kind _ _ body _ j hj _ _ hwrote =>
    cases kind with
    | heartbeat => exact h.renew hwrote rfl rfl rfl
    | complete => exact h.stop hwrote rfl JobStatus.noConfusion
    | fail error => exact h.stop hwrote rfl JobStatus.noConfusion
  | cancelled _ j hj _ _ hwrote => exact h.stop hwrote rfl JobStatus.noConfusion
  -- a job that still runs was not reaped, so its row is the old one
  | reaped timeout now =>
    exact h.quiet rfl fun k hk hrunning => (running_of_mem_reap hk hrunning).1

/-! ## What the reaper takes -/

/-- The job runs and was last renewed before `now - timeout`. -/
def Silent (log : JobLog) (db : JobDb) (timeout : Int) (now : Timestamp) (jobId : Nat) : Prop :=
  (∃ k ∈ db.jobs, k.id = jobId ∧ k.status = .running) ∧
    ∃ t, lastRenewal log jobId = some t ∧ t < now - timeout

/-- What a run of the reaper does at this point of a run. -/
structure ReapsSilent (c : Config JobDb JobEvent JobResult) (timeout : Int) (now : Timestamp) :
    Prop where
  /-- It takes the silent jobs, each of them once. -/
  taken : ∀ n, n ∈ (c.state.reap timeout now).1.1 ↔ Silent c.log c.state timeout now n
  once : (c.state.reap timeout now).1.1.Nodup
  /-- Their rows become failed ones. -/
  failed : ∀ j ∈ c.state.jobs, Silent c.log c.state timeout now j.id →
    orphaned now j ∈ (c.state.reap timeout now).2.jobs
  /-- The new rows are as many as the failed ones. -/
  paired : (c.state.reap timeout now).1.1.length = (c.state.reap timeout now).1.2.length
  ids : (c.state.reap timeout now).2.jobs.rows.map (·.id) =
    c.state.jobs.rows.map (·.id) ++ (c.state.reap timeout now).1.2
  /-- Each of them is the queued copy of a failed one, with its spec. -/
  copied : ∀ p ∈ (c.state.reap timeout now).1.1.zip (c.state.reap timeout now).1.2,
    ∃ j ∈ c.state.jobs, j.id = p.1 ∧ newJob p.2 j.spec now ∈ (c.state.reap timeout now).2.jobs
  /-- The rows of all other jobs stay as they are. -/
  kept : ∀ k ∈ c.state.jobs, ¬Silent c.log c.state timeout now k.id →
    k ∈ (c.state.reap timeout now).2.jobs
  /-- A job that still runs was renewed within `timeout`. -/
  attended : ∀ k ∈ (c.state.reap timeout now).2.jobs, k.status = .running →
    ∃ t, lastRenewal c.log k.id = some t ∧ now - timeout ≤ t

/-- A running row is stale when its job is silent. -/
theorem Renewed.stale_iff (h : Renewed log db) (hj : j ∈ db.jobs) (timeout : Int)
    (now : Timestamp) : stale timeout now j = true ↔ Silent log db timeout now j.id := by
  constructor
  · intro hstale
    simp only [stale, Bool.and_eq_true, decide_eq_true_eq] at hstale
    obtain ⟨hrunning, hbeat⟩ := hstale
    obtain ⟨t, hat, hlast⟩ := h j hj hrunning
    rw [hat] at hbeat
    exact ⟨⟨j, hj, rfl, hrunning⟩, t, hlast, by simpa using hbeat⟩
  · rintro ⟨⟨k, hk, hid, hrunning⟩, t, hlast, hlt⟩
    obtain rfl := db.jobs.eq_of_key_eq hk hj hid
    obtain ⟨t', hat, hlast'⟩ := h k hk hrunning
    cases hlast.symm.trans hlast'
    simp [stale, hrunning, hat, hlt]

/-- A pair of the reaper's answer is a stale row and its copy. -/
private theorem mem_zip_reap {timeout : Int} {now : Timestamp} {p : Nat × Nat}
    (hp : p ∈ (db.reap timeout now).1.1.zip (db.reap timeout now).1.2) :
    ∃ j ∈ db.jobs, j.id = p.1 ∧ newJob p.2 j.spec now ∈ (db.reap timeout now).2.jobs := by
  have hpairs : (db.reap timeout now).1.1.zip (db.reap timeout now).1.2 =
      ((reaped timeout now db).zip (reapCopies timeout now db)).map fun p => (p.1.id, p.2.id) := by
    rw [(reap_eq timeout now db).1]
    exact List.zip_map
  rw [hpairs] at hp
  obtain ⟨⟨j, copy⟩, hjc, rfl⟩ := List.mem_map.mp hp
  obtain ⟨hj, hcopy⟩ := List.of_mem_zip hjc
  have hspec := spec_of_mem_zip_copies hjc
  obtain ⟨id, spec, -, rfl, -⟩ := mem_copies hcopy
  cases hspec
  exact ⟨j, (of_mem_reaped hj).1, rfl, mem_reap.mpr (.inr hcopy)⟩

/-- The ids after a run of the reaper: the old ones, then those of the copies. -/
private theorem ids_reap (timeout : Int) (now : Timestamp) (db : JobDb) :
    (db.reap timeout now).2.jobs.rows.map (·.id) =
      db.jobs.rows.map (·.id) ++ (db.reap timeout now).1.2 := by
  obtain ⟨hanswer, hrows, -⟩ := reap_eq timeout now db
  rw [hrows, hanswer, List.map_append, List.map_map]
  congr 1
  exact List.map_congr_left fun j _ => id_reapRow timeout now j

/-- Where the heartbeat column tells the last renewals, a sweep fails the silent jobs and no
    other. -/
private theorem Renewed.reapsSilent {c : Config JobDb JobEvent JobResult}
    (h : Renewed c.log c.state) (timeout : Int) (now : Timestamp) : ReapsSilent c timeout now := by
  -- the sweep answers with the rows whose heartbeat is older than the timeout
  have hanswer := (reap_eq timeout now c.state).1
  constructor
  case taken =>
    -- a row is taken exactly when its job is silent
    intro n
    rw [hanswer, List.mem_map]
    constructor
    · rintro ⟨j, hj, rfl⟩
      obtain ⟨hmem, hstale⟩ := List.mem_filter.mp hj
      exact (h.stale_iff hmem timeout now).mp hstale
    · intro hsilent
      obtain ⟨⟨j, hj, rfl, -⟩, -⟩ := id hsilent
      exact ⟨j, List.mem_filter.mpr ⟨hj, (h.stale_iff hj timeout now).mpr hsilent⟩, rfl⟩
  -- an id is taken once, since no two rows share one
  case once =>
    rw [hanswer]
    exact c.state.jobs.nodup.sublist (List.filter_sublist.map _)
  case failed =>
    intro j hj hsilent
    exact mem_reap.mpr (.inl ⟨j, hj, if_pos ((h.stale_iff hj timeout now).mpr hsilent)⟩)
  case paired => rw [hanswer, List.length_map, List.length_map, length_reapCopies]
  case ids => exact ids_reap timeout now c.state
  case copied => exact fun p => mem_zip_reap
  -- a row that is not silent is left as it is
  case kept =>
    intro k hk hnot
    refine mem_reap.mpr (.inl ⟨k, hk, ?_⟩)
    exact if_neg fun hstale => hnot ((h.stale_iff hk timeout now).mp hstale)
  -- a row that still runs was renewed within the timeout
  case attended =>
    intro k hk hrunning
    obtain ⟨hold, hfresh⟩ := running_of_mem_reap hk hrunning
    obtain ⟨t, -, hlast⟩ := h k hold hrunning
    refine ⟨t, hlast, Int.not_lt.mp fun hlt => ?_⟩
    have hstale := (h.stale_iff hold timeout now).mpr ⟨⟨k, hold, rfl, hrunning⟩, t, hlast, hlt⟩
    rw [hfresh] at hstale
    cases hstale

/-- At any point of any run the reaper takes the jobs that have been silent for too long, and
    no others. -/
theorem reaps_silent_of_run {secret : String} {c : Config JobDb JobEvent JobResult}
    (hrun : (jobMachine secret).Run (fun _ _ => True) ⟨[], JobDb.empty⟩ c) (timeout : Int)
    (now : Timestamp) : ReapsSilent c timeout now := by
  have hrenewed : Renewed c.log c.state := by
    refine hrun.invariant (I := fun c => Renewed c.log c.state) renewed_empty ?_
    intro c e h _
    exact h.effect (step_effect secret c.state e)
  exact hrenewed.reapsSilent timeout now

/-- A daemon claims the submitted job. -/
def claimedRun : List JobEvent :=
  submission [.claim 7 none 1 1 "0123456789abcdef" 2]

/-- The claim at 2 is the last renewal when the reaper comes at 1000. -/
theorem reaps_silent_of_claimedRun :
    ReapsSilent ((jobMachine "").replay ⟨[], JobDb.empty⟩ claimedRun) 300 1000 ∧
      (((jobMachine "").replay ⟨[], JobDb.empty⟩ claimedRun).state.reap 300 1000).1 =
        ([1], [2]) := by
  have hrun : (jobMachine "").Run (fun _ _ => True) ⟨[], JobDb.empty⟩
      ((jobMachine "").replay ⟨[], JobDb.empty⟩ claimedRun) :=
    Machine.run_of_admits ⟨trivial, trivial, trivial, trivial⟩
  exact ⟨reaps_silent_of_run hrun 300 1000, by decide⟩

/-! ## Jobs whose owner is heard from -/

/-- A heartbeat that the owner `p` of a job sends, with the shared secret. -/
def Claim.Renews (secret : String) (p : Claim) : JobEvent → Prop
  | .control .heartbeat _ provided jobId body _ =>
    jobId = p.jobId ∧ body.daemonId = p.daemonId ∧ body.claimToken = p.token ∧
      requireMlControlSecret secret provided = .ok ()
  | _ => False

/-- The owner of a job claimed it at `t` or sent a heartbeat then, whatever the answer. -/
def Heard (secret : String) (log : JobLog) (jobId : Nat) (t : Timestamp) : Prop :=
  ∃ since x before, log = since ++ x :: before ∧ x.1.time = t ∧
    ((∃ p, claimedBy x = some p ∧ p.jobId = jobId) ∨
      ∃ p, owner before jobId = some p ∧ p.Renews secret x.1)

/-- Requests come in the order of time, and when the reaper comes while the job is owned, its
    owner was heard from within `timeout`. -/
def Attended (secret : String) (jobId : Nat) (c : Config JobDb JobEvent JobResult)
    (e : JobEvent) : Prop :=
  (∀ x ∈ c.log, x.1.time ≤ e.time) ∧
    ∀ timeout now, e = .reap timeout now → owner c.log jobId ≠ none →
      ∃ t, Heard secret c.log jobId t ∧ now - timeout ≤ t

variable {secret : String}

/-- A conditional update that finds its row goes through. -/
private theorem updateJob_of_guard (conflict : String) {guard : TrainingJob → Bool}
    (set : TrainingJob → TrainingJob) (hset : ∀ j, (set j).id = j.id)
    (htoken : ∀ j token, (set j).claimToken = some token → j.claimToken = some token)
    (hj : j ∈ db.jobs) (hguard : guard j = true) :
    ∃ db', updateJob conflict j.id guard set hset db = (.ok (set j), db') := by
  have hadmits : ∃ r, conditionalUpdate j.id guard set hset db = .ok r :=
    conditionalUpdate_ok j.id guard hset fun j token h => .inl (htoken j token h)
  obtain ⟨⟨row, db'⟩, hok⟩ := hadmits
  have hrow : row = some (set j) := by
    unfold conditionalUpdate at hok
    dsimp only at hok
    split at hok
    · cases hok
      rw [Table.find?_of_mem hj]
      exact if_pos hguard
    · cases hok
  unfold updateJob
  rw [hok, hrow]
  exact ⟨db', rfl⟩

/-- A heartbeat of the owner of a running job goes through. -/
private theorem heartbeat_ok (hj : j ∈ db.jobs) {body : JobControlBody}
    (howner : runningFor body j = true) {provided : Option String}
    (hsecret : requireMlControlSecret secret provided = .ok ()) (actor : Nat)
    (now : Timestamp) :
    ∃ r, (step secret db (.control .heartbeat actor provided j.id body now)).1 = .ok r := by
  obtain ⟨db', hupdate⟩ := updateJob_of_guard "Job is not running for this daemon"
    (heartbeaten now) (fun _ => rfl) (fun _ _ h => h) hj howner
  refine ⟨.job (heartbeaten now j).out, ?_⟩
  simp only [step, answered, ControlKind.endpoint, heartbeatJob, controlJob, hsecret, hupdate]
  rfl

/-- An owned job runs. -/
def OwnedRuns (log : JobLog) (db : JobDb) : Prop :=
  ∀ n, owner log n ≠ none → ∃ k ∈ db.jobs, k.id = n ∧ k.status = .running

/-- A request that leaves the owners alone keeps this when the running rows run on. -/
theorem OwnedRuns.quiet (h : OwnedRuns log db) (hx : Quiet x)
    (hrows : ∀ k ∈ db.jobs, k.status = .running →
      ∃ k' ∈ db'.jobs, k'.id = k.id ∧ k'.status = .running) : OwnedRuns (x :: log) db' := by
  intro n hn
  rw [hx.owner] at hn
  obtain ⟨k, hk, rfl, hrunning⟩ := h n hn
  exact hrows k hk hrunning

/-- A request that writes one row and claims or ends its job only. -/
theorem OwnedRuns.wrote (h : OwnedRuns log db) (hw : Wrote j j' db db') (hid : j'.id = j.id)
    (hother : ∀ n, n ≠ j.id → owner (x :: log) n = owner log n)
    (hself : owner (x :: log) j.id ≠ none → j'.status = .running) :
    OwnedRuns (x :: log) db' := by
  intro n hn
  by_cases hnj : n = j.id
  · subst hnj
    exact ⟨j', (hw.mem j').mpr (.inl rfl), hid, hself hn⟩
  · rw [hother n hnj] at hn
    obtain ⟨k, hk, rfl, hrunning⟩ := h n hn
    exact ⟨k, (hw.mem k).mpr (.inr ⟨hk, hnj⟩), rfl, hrunning⟩

/-- A logged request that ended one job leaves the owners of the others. -/
private theorem owner_cons_of_finished {n : Nat} (hclaimed : claimedBy x = none)
    (hended : endedBy x = [n]) (m : Nat) :
    owner (x :: log) m = if m = n then none else owner log m := by
  by_cases hm : m = n
  · rw [owner, hended, if_pos (List.mem_singleton.mpr hm), if_pos hm]
  · rw [if_neg hm]
    refine owner_cons_of_other ?_ ?_
    · rw [hended]
      exact fun hmem => hm (List.mem_singleton.mp hmem)
    · rw [hclaimed]
      rfl

/-- The request that completed, failed or cancelled a job. -/
theorem OwnedRuns.finished (h : OwnedRuns log db) (hw : Wrote j j' db db') (hid : j'.id = j.id)
    (hclaimed : claimedBy x = none) (hended : endedBy x = [j.id]) :
    OwnedRuns (x :: log) db' := by
  refine h.wrote hw hid ?_ ?_
  · intro n hn
    rw [owner_cons_of_finished hclaimed hended, if_neg hn]
  · intro hself
    rw [owner_cons_of_finished hclaimed hended, if_pos rfl] at hself
    exact absurd rfl hself

/-- An owned job still runs after a request, by cases on what it did. -/
theorem OwnedRuns.effect {e : JobEvent} {res : JobResult} (h : OwnedRuns log db)
    (heff : Effect db e res db') : OwnedRuns ((e, res) :: log) db' := by
  -- the owner of a job is changed by what ends or claims it
  cases heff with
  | refused _ f =>
    have hquiet : Quiet (e, .error f) := by
      cases e with
      | control kind => cases kind <;> exact ⟨rfl, rfl⟩
      | _ => exact ⟨rfl, rfl⟩
    exact h.quiet hquiet fun k hk hrunning => ⟨k, hk, rfl, hrunning⟩
  | registered _ _ _ _ _ _ hjobs _ =>
    exact h.quiet ⟨rfl, rfl⟩ fun k hk hrunning => ⟨k, hjobs ▸ hk, rfl, hrunning⟩
  | created rooms spec now =>
    exact h.quiet ⟨rfl, rfl⟩ fun k hk hrunning => ⟨k, mem_insertJob.mpr (.inl hk), rfl, hrunning⟩
  -- a claim sets the job running
  | claimed actor provided daemonId token now j hj _ _ hwrote =>
    refine h.wrote hwrote rfl (fun n hn => owner_cons_of_other ?_ ?_) fun _ => rfl
    · exact List.not_mem_nil
    · exact decide_eq_false (Ne.symm hn)
  | controlled kind _ _ body _ j hj howner _ hwrote =>
    cases kind with
    -- a heartbeat is accepted of a running job only
    | heartbeat =>
      have hrunning := (runningFor_iff.mp howner).1
      exact h.wrote hwrote rfl (fun n _ => Quiet.owner ⟨rfl, rfl⟩ n) fun _ => hrunning
    | complete => exact h.finished hwrote rfl rfl rfl
    | fail error => exact h.finished hwrote rfl rfl rfl
  | cancelled _ j hj _ _ hwrote => exact h.finished hwrote rfl rfl rfl
  -- the sweep ends the ownership of the rows it fails
  | reaped timeout now =>
    intro n hn
    change owner (reapEntry timeout now db :: log) n ≠ none at hn
    -- a job that is still owned was not among those reaped, so its row is not stale
    have hended : endedBy (reapEntry timeout now db) = (reaped timeout now db).map (·.id) :=
      (List.nil_append _).trans (sources_reapEntry timeout now db)
    have hnot : n ∉ endedBy (reapEntry timeout now db) := by
      intro hmem
      exact hn (if_pos hmem)
    rw [owner_cons_of_other hnot rfl] at hn
    obtain ⟨k, hk, rfl, hrunning⟩ := h n hn
    refine ⟨k, mem_reap.mpr (.inl ⟨k, hk, if_neg fun hstale => hnot ?_⟩), rfl, hrunning⟩
    rw [hended]
    exact List.mem_map_of_mem (List.mem_filter.mpr ⟨hk, hstale⟩)

/-- The owner of a job was last renewed no earlier than it was last heard from. -/
def HeardRenewed (secret : String) (log : JobLog) : Prop :=
  ∀ n t, Heard secret log n t → owner log n ≠ none → ∃ t', lastRenewal log n = some t' ∧ t ≤ t'

/-- A claim renews the job it claims. -/
private theorem renewedBy_of_claimedBy {p : Claim} (h : claimedBy x = some p) :
    renewedBy x = some p.jobId := by
  obtain ⟨e, res⟩ := x
  cases e with
  | claim actor provided jobId daemonId token now =>
    cases res with
    | ok r =>
      cases h
      rfl
    | error f => cases h
  | _ => cases h

/-- A heartbeat of the owner renews its job. -/
private theorem renewedBy_of_renews (howned : Owned log db) (hruns : OwnedRuns log db) {n : Nat}
    {p : Claim} (howner : owner log n = some p) {e : JobEvent} (h : p.Renews secret e) :
    renewedBy (e, (step secret db e).1) = some n := by
  -- an owned job has a running row
  have hn : owner log n ≠ none := by
    rw [howner]
    exact Option.some_ne_none p
  obtain ⟨k, hk, rfl, hrunning⟩ := hruns n hn
  -- that row carries the owner's daemon and token
  obtain ⟨q, hq, hdaemon, htoken⟩ := howned.running k hk hrunning
  cases howner.symm.trans hq
  have hid := (owner_eq_some howner).1
  cases e with
  -- so the owner's heartbeat is accepted
  | control kind actor provided jobId body now =>
    cases kind with
    | heartbeat =>
      obtain ⟨hjob, hpair, hsame, hsecret⟩ := h
      have hjobId : jobId = k.id := hjob.trans hid
      subst hjobId
      rw [← hpair] at hdaemon
      rw [← hsame] at htoken
      obtain ⟨r, hr⟩ := heartbeat_ok hk (runningFor_iff.mpr ⟨hrunning, hdaemon, htoken⟩)
        hsecret actor now
      rw [hr]
      rfl
    | complete => exact h.elim
    | fail error => exact h.elim
  | _ => exact h.elim

/-- A job that is owned after a request that did not renew it was owned before. -/
private theorem owner_of_not_renewed {n : Nat} (h : renewedBy x ≠ some n)
    (howner : owner (x :: log) n ≠ none) : owner log n ≠ none := by
  intro hnone
  refine howner ?_
  rw [owner]
  split
  · rfl
  · cases hclaimed : claimedBy x with
    | none => exact hnone
    | some p =>
      have hp : p.jobId ≠ n := fun heq => h (heq ▸ renewedBy_of_claimedBy hclaimed)
      exact (if_neg hp).trans hnone

/-- What the owner sends in order renews its job. -/
theorem HeardRenewed.answer (h : HeardRenewed secret log) (howned : Owned log db)
    (hruns : OwnedRuns log db) {e : JobEvent} (horder : ∀ x ∈ log, x.1.time ≤ e.time) :
    HeardRenewed secret ((e, (step secret db e).1) :: log) := by
  rintro n t ⟨since, x, before, hlog, rfl, hsign⟩ howner
  -- the request renews the job now, or the last renewal is an old one
  by_cases hrenewed : renewedBy (e, (step secret db e).1) = some n
  · refine ⟨e.time, if_pos hrenewed, ?_⟩
    -- nothing in the log is later than the new request
    have hx : x ∈ (e, (step secret db e).1) :: log := by
      rw [hlog]
      exact List.mem_append_right _ List.mem_cons_self
    rcases List.mem_cons.mp hx with rfl | hx
    · exact Int.le_refl _
    · exact horder x hx
  · rw [lastRenewal_cons_of_ne hrenewed]
    cases since with
    -- the sign of the owner is the new request, which renewed the job then
    | nil =>
      cases hlog
      refine absurd ?_ hrenewed
      rcases hsign with ⟨p, hp, rfl⟩ | ⟨p, hp, hrenews⟩
      · exact renewedBy_of_claimedBy hp
      · exact renewedBy_of_renews howned hruns hp hrenews
    -- the sign is an old one
    | cons y since =>
      cases hlog
      exact h n x.1.time ⟨since, x, before, rfl, rfl, hsign⟩
        (owner_of_not_renewed hrenewed howner)

/-- What a run in which the owner of a job is heard from in time keeps up. -/
structure Attending (secret : String) (jobId : Nat) (log : JobLog) (db : JobDb) : Prop where
  accounted : Accounted log db
  owned : Owned log db
  runs : OwnedRuns log db
  renewed : Renewed log db
  heard : HeardRenewed secret log
  notReaped : jobId ∉ reapedIds log

/-- Whoever was heard from in time is not among those that the reaper takes. -/
private theorem Attending.not_mem_reaped {jobId : Nat} (h : Attending secret jobId log db)
    {timeout : Int} {now : Timestamp} (hsign : owner log jobId ≠ none →
      ∃ t, Heard secret log jobId t ∧ now - timeout ≤ t) :
    jobId ∉ (reaped timeout now db).map (·.id) := by
  intro hmem
  obtain ⟨j, hj, rfl⟩ := List.mem_map.mp hmem
  obtain ⟨hjmem, hstale⟩ := List.mem_filter.mp hj
  obtain ⟨⟨k, hk, hid, hrunning⟩, t, hlast, hlt⟩ :=
    (h.renewed.stale_iff hjmem timeout now).mp hstale
  obtain ⟨p, howner, -⟩ := h.owned.running k hk hrunning
  rw [hid] at howner
  have howns : owner log j.id ≠ none := by
    rw [howner]
    exact Option.some_ne_none p
  obtain ⟨t₀, hheard, hrecent⟩ := hsign howns
  obtain ⟨t₁, hlast', hle⟩ := h.heard j.id t₀ hheard howns
  cases hlast.symm.trans hlast'
  exact Int.lt_irrefl _ (Int.lt_of_lt_of_le hlt (Int.le_trans hrecent hle))

/-- One step of a run in which the owner is heard from in time. -/
theorem Attending.answer {jobId : Nat} (h : Attending secret jobId log db) {e : JobEvent}
    (hattended : Attended secret jobId ⟨log, db⟩ e) :
    Attending secret jobId ((e, (step secret db e).1) :: log) (step secret db e).2 := by
  have heff := step_effect secret db e
  refine ⟨h.accounted.effect heff, h.owned.effect heff, h.runs.effect heff,
    h.renewed.effect heff, h.heard.answer h.owned h.runs hattended.1, ?_⟩
  rw [reapedIds_cons, List.mem_append]
  refine not_or.mpr ⟨?_, h.notReaped⟩
  cases e with
  | reap timeout now =>
    have hentry : (Prod.mk (JobEvent.reap timeout now) (step secret db (.reap timeout now)).1) =
        reapEntry timeout now db := by
      rw [reapEntry, ← (Prod.mk.inj (reap_eq timeout now db).1).1,
        ← (Prod.mk.inj (reap_eq timeout now db).1).2]
      rfl
    rw [hentry, sources_reapEntry]
    exact h.not_mem_reaped (hattended.2 timeout now rfl)
  | _ => exact List.not_mem_nil

/-- The owner of a job is the one that claimed it: no job is claimed twice. -/
private theorem owner_eq_of_claimed (h : Owned log db) {p q : Claim} (hp : p ∈ claims log)
    (hq : owner log p.jobId = some q) : q = p := by
  -- the owner is a claim of the log
  obtain ⟨hsame, since, x, before, rfl, hclaimed, -⟩ := owner_eq_some hq
  have hmem : q ∈ claims (since ++ x :: before) :=
    List.mem_filterMap.mpr ⟨x, by simp, hclaimed⟩
  -- the job of a claim has a row, and at most one claim
  obtain ⟨k, hk, hid⟩ := h.known p.jobId
    (Nat.pos_iff_ne_zero.mp (List.countP_pos_iff.mpr ⟨p, hp, by simp⟩))
  have hone := h.once k hk
  rw [hid, claimCount, List.countP_eq_length_filter] at hone
  -- both claims are in a list of at most one
  have hfirst : p ∈ (claims (since ++ x :: before)).filter fun c => c.jobId = p.jobId :=
    List.mem_filter.mpr ⟨hp, by simp⟩
  have hsecond : q ∈ (claims (since ++ x :: before)).filter fun c => c.jobId = p.jobId :=
    List.mem_filter.mpr ⟨hmem, by simp [hsame]⟩
  match hlist : (claims (since ++ x :: before)).filter fun c => c.jobId = p.jobId with
  | [] => rw [hlist] at hfirst; cases hfirst
  | [c] =>
    rw [hlist] at hfirst hsecond
    rw [List.mem_singleton.mp hfirst, List.mem_singleton.mp hsecond]
  | _ :: _ :: _ =>
    rw [hlist] at hone
    simp only [List.length_cons] at hone
    omega

/-- As long as its owner is heard from in time, a job is not reaped: once claimed it runs, with
    the daemon and the token of its claim, until it is completed, failed or cancelled. -/
theorem attended_of_run {jobId : Nat} {c : Config JobDb JobEvent JobResult}
    (hrun : (jobMachine secret).Run (Attended secret jobId) ⟨[], JobDb.empty⟩ c) :
    jobId ∉ reapedIds c.log ∧ ∀ p ∈ claims c.log, p.jobId = jobId →
      jobId ∈ finished c.log ∨ ∃ k ∈ c.state.jobs, k.id = jobId ∧ k.status = .running ∧
        k.daemonId = some p.daemonId ∧ k.claimToken = some p.token := by
  -- the invariant is kept by every request
  have hinv : Attending secret jobId c.log c.state := by
    refine hrun.invariant (I := fun c => Attending secret jobId c.log c.state) ?_ ?_
    · refine ⟨accounted_empty, owned_empty, ?_, renewed_empty, ?_, List.not_mem_nil⟩
      · exact fun n hn => absurd rfl hn
      · exact fun n t _ hn => absurd rfl hn
    · exact fun c e h hok => h.answer hok
  refine ⟨hinv.notReaped, fun p hp hpjob => ?_⟩
  subst hpjob
  -- the job of a claim has a row
  have hclaimed : claimCount c.log p.jobId ≠ 0 :=
    Nat.pos_iff_ne_zero.mp (List.countP_pos_iff.mpr ⟨p, hp, by simp⟩)
  obtain ⟨k, hk, hid⟩ := hinv.owned.known p.jobId hclaimed
  -- the row was reaped, is queued, runs or is finished
  rcases hinv.accounted.opened k hk with hreaped | hqueued | hrunning | hfinished
  · rw [hid] at hreaped
    exact absurd hreaped hinv.notReaped
  -- a queued row was never claimed
  · have hnone := hinv.owned.queued k hk hqueued
    rw [hid] at hnone
    exact absurd hnone hclaimed
  -- a running row carries its owner, and there is one claim of the job only
  · obtain ⟨q, howner, hdaemon, htoken⟩ := hinv.owned.running k hk hrunning
    rw [hid] at howner
    obtain rfl := owner_eq_of_claimed hinv.owned hp howner
    exact .inr ⟨k, hk, hid, hrunning, hdaemon, htoken⟩
  · exact .inl (hid ▸ hfinished)

/-- The example's token has an admitted length. -/
private theorem ownerToken_bounds :
    16 ≤ "0123456789abcdef".length ∧ "0123456789abcdef".length ≤ 255 := by decide

/-- The daemon sends a heartbeat at 500, and the reaper comes at 700. -/
def attendedRun : List JobEvent :=
  claimedRun ++ [.control .heartbeat 7 none 1 ⟨1, "0123456789abcdef", ownerToken_bounds⟩ 500,
    .reap 300 700]

/-- A heartbeat 200 seconds before the sweep keeps the job with its owner. -/
theorem attended_of_attendedRun :
    1 ∉ reapedIds ((jobMachine "").replay ⟨[], JobDb.empty⟩ attendedRun).log ∧
      ∃ k ∈ ((jobMachine "").replay ⟨[], JobDb.empty⟩ attendedRun).state.jobs,
        k.id = 1 ∧ k.status = .running ∧ k.daemonId = some 1 ∧
          k.claimToken = some "0123456789abcdef" := by
  have hnotReap : ∀ (c : Config JobDb JobEvent JobResult) (e : JobEvent),
      (∀ x ∈ c.log, x.1.time ≤ e.time) → (∀ timeout now, e ≠ .reap timeout now) →
        Attended "" 1 c e :=
    fun c e horder hreap => ⟨horder, fun timeout now h => absurd h (hreap timeout now)⟩
  have hrun : (jobMachine "").Run (Attended "" 1) ⟨[], JobDb.empty⟩
      ((jobMachine "").replay ⟨[], JobDb.empty⟩ attendedRun) := by
    refine Machine.run_of_admits ⟨hnotReap _ _ (by decide) (by simp),
      hnotReap _ _ (by decide) (by simp), hnotReap _ _ (by decide) (by simp),
      hnotReap _ _ (by decide) (by simp), ⟨by decide, fun timeout now h _ => ?_⟩, trivial⟩
    -- the reaper finds the heartbeat at 500
    cases h
    exact ⟨500, ⟨[], _, _, rfl, rfl, .inr ⟨⟨7, 1, 1, "0123456789abcdef"⟩, by decide,
      rfl, rfl, rfl, rfl⟩⟩, by decide⟩
  obtain ⟨hnever, hkept⟩ := attended_of_run hrun
  exact ⟨hnever, (hkept ⟨7, 1, 1, "0123456789abcdef"⟩ (by decide) rfl).resolve_left (by decide)⟩

end JobDb

end Grimnir
