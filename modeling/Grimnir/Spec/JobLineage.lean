import Grimnir.Spec.JobEffects
import Grimnir.ForStd.Succession

/-!
# Training-job conservation

The log of a run says which jobs were submitted, which job each reaped job was copied to
and which jobs were completed, failed or cancelled.  A submitted job and its chain of
copies are its lineage: whatever the order of requests and reaper runs, the chain has
exactly one member that was not reaped, and that one carries on the submitted spec.

## Key results

- `Accounted.effect`: every request keeps the books of the job table
- `conserved_of_run`: what the books say about every lineage of every run
-/

namespace Grimnir

namespace JobDb

/-- What a run has been asked and has answered, newest first. -/
abbrev JobLog := List (JobEvent × JobResult)

/-! ## Reading the log -/

/-- The job a logged request submitted, with its spec. -/
def createdBy : JobEvent × JobResult → Option (Nat × SpecDoc)
  | (.createJob _ spec _, .ok (.job out)) => some (out.id, spec.dump)
  | _ => none

/-- The jobs a logged run of the reaper failed, each with its copy. -/
def requeuedBy : JobEvent × JobResult → List (Nat × Nat)
  | (.reap _ _, .ok (.reaped failedIds requeuedIds)) => failedIds.zip requeuedIds
  | _ => []

/-- The job a logged request completed, failed or cancelled. -/
def finishedBy : JobEvent × JobResult → Option Nat
  | (.control .complete _ _ jobId _ _, .ok _) => some jobId
  | (.control (.fail _) _ _ jobId _ _, .ok _) => some jobId
  | (.cancel jobId _, .ok _) => some jobId
  | _ => none

def created (log : JobLog) : List (Nat × SpecDoc) := log.filterMap createdBy

def requeues (log : JobLog) : List (Nat × Nat) := log.flatMap requeuedBy

def finished (log : JobLog) : List Nat := log.filterMap finishedBy

/-- The jobs the reaper has failed. -/
def reapedIds (log : JobLog) : List Nat := (requeues log).map (·.1)

/-- The ids of all rows a run has inserted, oldest first. -/
def inserted : JobLog → List Nat
  | [] => []
  | x :: log =>
    inserted log ++ ((createdBy x).toList.map (·.1) ++ (requeuedBy x).map (·.2))

variable {log : JobLog} {x : JobEvent × JobResult}

/-- One more entry adds the job it submitted. -/
theorem created_cons : created (x :: log) = (createdBy x).toList ++ created log := by
  unfold created
  rw [List.filterMap_cons]
  cases createdBy x <;> rfl

/-- One more entry adds the job it finished. -/
private theorem finished_cons : finished (x :: log) = (finishedBy x).toList ++ finished log := by
  unfold finished
  rw [List.filterMap_cons]
  cases finishedBy x <;> rfl

/-- One more entry adds the copies it made. -/
theorem requeues_cons : requeues (x :: log) = requeuedBy x ++ requeues log :=
  List.flatMap_cons

/-- The jobs that one more entry reaped are those it made copies of. -/
theorem reapedIds_cons : reapedIds (x :: log) = (requeuedBy x).map (·.1) ++ reapedIds log := by
  rw [reapedIds, requeues_cons, List.map_append, reapedIds]

/-- Every inserted row was submitted or is a copy. -/
private theorem length_inserted (log : JobLog) :
    (inserted log).length = (created log).length + (reapedIds log).length := by
  induction log with
  | nil => rfl
  | cons x log ih =>
    rw [inserted, created_cons, reapedIds_cons]
    simp only [List.length_append, List.length_map]
    omega

/-! ## The books -/

/-- The job table against the log: its rows are the inserted ones, a reaped row is failed and
    has one copy with its spec, and a row that is neither reaped nor finished is open. -/
structure Accounted (log : JobLog) (db : JobDb) : Prop where
  ids : db.jobs.rows.map (·.id) = inserted log
  reapedOnce : (reapedIds log).Nodup
  failed : ∀ j ∈ db.jobs, j.id ∈ reapedIds log → j.status = .failed
  copied : ∀ p ∈ requeues log, p.1 < p.2 ∧
    ∃ j ∈ db.jobs, ∃ j' ∈ db.jobs, j.id = p.1 ∧ j'.id = p.2 ∧ j'.spec = j.spec
  submitted : ∀ p ∈ created log, ∃ j ∈ db.jobs, j.id = p.1 ∧ j.spec = p.2
  opened : ∀ j ∈ db.jobs, j.id ∈ reapedIds log ∨ j.status = .queued ∨ j.status = .running ∨
    j.id ∈ finished log

/-- The empty table is that of the empty log. -/
theorem accounted_empty : Accounted [] JobDb.empty where
  ids := rfl
  reapedOnce := List.nodup_nil
  failed := fun _ hj => nomatch hj
  copied := fun _ hp => nomatch hp
  submitted := fun _ hp => nomatch hp
  opened := fun _ hj => nomatch hj

variable {db db' : JobDb} {j j' : TrainingJob}

/-- A request that leaves the job table alone keeps the books. -/
theorem Accounted.idle (h : Accounted log db) (hjobs : db'.jobs = db.jobs)
    (hcreated : createdBy x = none) (hrequeued : requeuedBy x = []) :
    Accounted (x :: log) db' := by
  have hreaped : reapedIds (x :: log) = reapedIds log := by rw [reapedIds_cons, hrequeued]; rfl
  refine ⟨?_, ?_, ?_, ?_, ?_, ?_⟩
  · rw [hjobs, h.ids, inserted, hcreated, hrequeued]
    simp
  · rw [hreaped]; exact h.reapedOnce
  · rw [hreaped, hjobs]; exact h.failed
  · rw [requeues_cons, hrequeued, hjobs]; exact h.copied
  · rw [created_cons, hcreated, hjobs]; exact h.submitted
  · intro j hj
    rw [hreaped, finished_cons]
    rw [hjobs] at hj
    refine (h.opened j hj).imp_right (Or.imp_right (Or.imp_right ?_))
    exact List.mem_append_right _

/-- A row that is still open has not been reaped. -/
private theorem Accounted.not_reaped (h : Accounted log db) (hj : j ∈ db.jobs)
    (hlive : j.status = .queued ∨ j.status = .running) : j.id ∉ reapedIds log := by
  intro hreaped
  have hfailed := h.failed j hj hreaped
  rw [hfailed] at hlive
  rcases hlive with hlive | hlive <;> exact nomatch hlive

/-- Every row is still there under its id and with its spec. -/
def Kept (db db' : JobDb) : Prop :=
  ∀ k ∈ db.jobs, ∃ k' ∈ db'.jobs, k'.id = k.id ∧ k'.spec = k.spec

/-- Every copy is still there with its original's spec. -/
private theorem Accounted.copied_of_kept (h : Accounted log db) (hkept : Kept db db') :
    ∀ p ∈ requeues log, p.1 < p.2 ∧
      ∃ j ∈ db'.jobs, ∃ j' ∈ db'.jobs, j.id = p.1 ∧ j'.id = p.2 ∧ j'.spec = j.spec := by
  intro p hp
  obtain ⟨hlt, k, hk, c, hc, hkid, hcid, hsame⟩ := h.copied p hp
  obtain ⟨k', hk', hkid', hkspec⟩ := hkept k hk
  obtain ⟨c', hc', hcid', hcspec⟩ := hkept c hc
  refine ⟨hlt, k', hk', c', hc', hkid'.trans hkid, hcid'.trans hcid, ?_⟩
  rw [hcspec, hkspec, hsame]

/-- Every submitted job is still there with its spec. -/
private theorem Accounted.submitted_of_kept (h : Accounted log db) (hkept : Kept db db') :
    ∀ p ∈ created log, ∃ j ∈ db'.jobs, j.id = p.1 ∧ j.spec = p.2 := by
  intro p hp
  obtain ⟨k, hk, hkid, hspec⟩ := h.submitted p hp
  obtain ⟨k', hk', hkid', hkspec⟩ := hkept k hk
  exact ⟨k', hk', hkid'.trans hkid, hkspec.trans hspec⟩

/-- A request that writes one open row, keeping its spec, keeps the books when it leaves the
    row open or finishes the job. -/
theorem Accounted.wrote (h : Accounted log db) (hw : Wrote j j' db db') (hj : j ∈ db.jobs)
    (hlive : j.status = .queued ∨ j.status = .running) (hid : j'.id = j.id)
    (hspec : j'.spec = j.spec) (hcreated : createdBy x = none)
    (hrequeued : requeuedBy x = [])
    (hdone : j'.status = .queued ∨ j'.status = .running ∨ finishedBy x = some j.id) :
    Accounted (x :: log) db' := by
  have hreaped : reapedIds (x :: log) = reapedIds log := by rw [reapedIds_cons, hrequeued]; rfl
  have hkept : Kept db db' := by
    intro k hk
    by_cases hkj : k.id = j.id
    · obtain rfl := db.jobs.eq_of_key_eq hk hj hkj
      exact ⟨j', (hw.mem j').mpr (.inl rfl), hid, hspec⟩
    · exact ⟨k, (hw.mem k).mpr (.inr ⟨hk, hkj⟩), rfl, rfl⟩
  refine ⟨?_, ?_, ?_, ?_, ?_, ?_⟩
  -- `ids`: a written row keeps its id
  · rw [hw.ids, h.ids, inserted, hcreated, hrequeued]
    simp
  · rw [hreaped]; exact h.reapedOnce
  -- `failed`: the written row was open, so it has not been reaped
  · rw [hreaped]
    intro k hk hreaped
    rcases (hw.mem k).mp hk with rfl | ⟨hk, -⟩
    · rw [hid] at hreaped
      exact absurd hreaped (h.not_reaped hj hlive)
    · exact h.failed k hk hreaped
  -- `copied` and `submitted` only speak of ids and specs
  · rw [requeues_cons, hrequeued]
    exact h.copied_of_kept hkept
  · rw [created_cons, hcreated]
    exact h.submitted_of_kept hkept
  -- `opened`
  · intro k hk
    rw [hreaped, finished_cons]
    rcases (hw.mem k).mp hk with rfl | ⟨hk, -⟩
    · refine .inr (hdone.imp_right (Or.imp_right fun hfin => ?_))
      rw [hid, hfin]
      exact List.mem_append_left _ (List.mem_singleton_self _)
    · refine (h.opened k hk).imp_right (Or.imp_right (Or.imp_right ?_))
      exact List.mem_append_right _

/-- A submission adds a queued row. -/
theorem Accounted.created (h : Accounted log db) (rooms : List Room) (spec : JobSpec)
    (now : Timestamp) :
    Accounted ((.createJob rooms spec now,
      .ok (.job (newJob db.jobsIdSeq spec.dump now).out)) :: log)
      (db.insertJob spec.dump now) := by
  set x : JobEvent × JobResult := (.createJob rooms spec now,
    .ok (.job (newJob db.jobsIdSeq spec.dump now).out)) with hx
  have hcreated : createdBy x = some (db.jobsIdSeq, spec.dump) := rfl
  have hrequeued : requeuedBy x = [] := rfl
  have hreaped : reapedIds (x :: log) = reapedIds log := by rw [reapedIds_cons, hrequeued]; rfl
  have hkept : Kept db (db.insertJob spec.dump now) :=
    fun k hk => ⟨k, mem_insertJob.mpr (.inl hk), rfl, rfl⟩
  refine ⟨?_, ?_, ?_, ?_, ?_, ?_⟩
  -- `ids`
  · rw [inserted, hcreated, hrequeued, ← h.ids]
    simp [insertJob, newJob]
  · rw [hreaped]; exact h.reapedOnce
  -- `failed`
  · rw [hreaped]
    intro k hk hreaped
    rcases mem_insertJob.mp hk with hk | rfl
    · exact h.failed k hk hreaped
    · -- reaped ids are older than the sequence
      obtain ⟨p, hp, hpid⟩ := List.mem_map.mp hreaped
      obtain ⟨-, k, hk, -, -, hkid, -⟩ := h.copied p hp
      have hbelow := db.jobsIdBelow k hk
      have hnew : p.1 = db.jobsIdSeq := hpid
      omega
  -- `copied` and `submitted`: the old rows are still there
  · rw [requeues_cons, hrequeued]
    exact h.copied_of_kept hkept
  · rw [created_cons, hcreated]
    intro p hp
    rcases List.mem_cons.mp hp with rfl | hp
    · exact ⟨newJob db.jobsIdSeq spec.dump now, mem_insertJob.mpr (.inr rfl), rfl, rfl⟩
    · exact h.submitted_of_kept hkept p hp
  -- `opened`: the new row is queued
  · intro k hk
    rw [hreaped, finished_cons]
    rcases mem_insertJob.mp hk with hk | rfl
    · refine (h.opened k hk).imp_right (Or.imp_right (Or.imp_right ?_))
      exact List.mem_append_right _
    · exact .inr (.inl rfl)

/-- What a run of the reaper writes to the log. -/
def reapEntry (timeout : Int) (now : Timestamp) (db : JobDb) : JobEvent × JobResult :=
  (.reap timeout now, .ok (.reaped ((reaped timeout now db).map (·.id))
    ((reapCopies timeout now db).map (·.id))))

/-- A sweep logs each row it failed with the copy of it. -/
private theorem requeuedBy_reapEntry (timeout : Int) (now : Timestamp) (db : JobDb) :
    requeuedBy (reapEntry timeout now db) =
      ((reaped timeout now db).zip (reapCopies timeout now db)).map
        fun p => (p.1.id, p.2.id) :=
  List.zip_map

/-- The originals of a sweep are the rows it failed. -/
theorem sources_reapEntry (timeout : Int) (now : Timestamp) (db : JobDb) :
    (requeuedBy (reapEntry timeout now db)).map (·.1) =
      (reaped timeout now db).map (·.id) := by
  refine List.map_fst_zip ?_
  rw [List.length_map, List.length_map, length_reapCopies]

/-- The copies of a sweep are the rows it queued. -/
private theorem copies_reapEntry (timeout : Int) (now : Timestamp) (db : JobDb) :
    (requeuedBy (reapEntry timeout now db)).map (·.2) =
      (reapCopies timeout now db).map (·.id) := by
  refine List.map_snd_zip ?_
  rw [List.length_map, List.length_map, length_reapCopies]

/-- The reaper fails stale rows, each of which was open, and copies each once. -/
theorem Accounted.reaped (h : Accounted log db) (timeout : Int) (now : Timestamp) :
    Accounted (reapEntry timeout now db :: log) (db.reap timeout now).2 := by
  have hpairs := requeuedBy_reapEntry timeout now db
  have hreaped : reapedIds (reapEntry timeout now db :: log) =
      (JobDb.reaped timeout now db).map (·.id) ++ reapedIds log := by
    rw [reapedIds_cons, sources_reapEntry]
  have hkept : Kept db (db.reap timeout now).2 := by
    intro k hk
    refine ⟨reapRow timeout now k, mem_reap.mpr (.inl ⟨k, hk, rfl⟩), id_reapRow _ _ k, ?_⟩
    unfold reapRow
    split <;> rfl
  refine ⟨?_, ?_, ?_, ?_, ?_, ?_⟩
  -- `ids`: the copies follow the old rows, in the order of the answer
  · have hids : ∀ js : List TrainingJob,
        (js.map (reapRow timeout now)).map (·.id) = js.map (·.id) := by
      intro js
      rw [List.map_map]
      exact List.map_congr_left fun k _ => id_reapRow _ _ k
    rw [(reap_eq timeout now db).2.1, List.map_append, hids, h.ids, inserted,
      copies_reapEntry]
    rfl
  -- `reapedOnce`: a stale row was running, so it had not been reaped
  · rw [hreaped, List.nodup_append]
    refine ⟨db.jobs.nodup.sublist (List.filter_sublist.map _), h.reapedOnce, ?_⟩
    intro a ha b hb hab
    obtain ⟨j, hj, rfl⟩ := List.mem_map.mp ha
    obtain ⟨hmem, hrunning⟩ := of_mem_reaped hj
    exact h.not_reaped hmem (.inr hrunning) (hab ▸ hb)
  -- `failed`
  · intro k hk hin
    rw [hreaped, List.mem_append] at hin
    rcases mem_reap.mp hk with ⟨j, hj, rfl⟩ | hcopy
    · rw [id_reapRow] at hin
      rcases hin with hin | hin
      · obtain ⟨j₁, hj₁, hid⟩ := List.mem_map.mp hin
        obtain rfl := db.jobs.eq_of_key_eq (of_mem_reaped hj₁).1 hj hid
        rw [reapRow, if_pos (List.mem_filter.mp hj₁).2]
        rfl
      · have hfailed := h.failed j hj hin
        rw [reapRow_of_not_running (by rw [hfailed]; decide)]
        exact hfailed
    · -- a copy is younger than every reaped row
      obtain ⟨id, spec, -, rfl, hle⟩ := mem_copies hcopy
      have hold : ∃ j ∈ db.jobs, j.id = id := by
        rcases hin with hin | hin
        · obtain ⟨j₁, hj₁, hid⟩ := List.mem_map.mp hin
          exact ⟨j₁, (of_mem_reaped hj₁).1, hid⟩
        · obtain ⟨p, hp, hpid⟩ := List.mem_map.mp hin
          obtain ⟨-, j₁, hj₁, -, -, hid, -⟩ := h.copied p hp
          exact ⟨j₁, hj₁, hid.trans hpid⟩
      obtain ⟨j₁, hj₁, hid⟩ := hold
      have hbelow := db.jobsIdBelow j₁ hj₁
      omega
  -- `copied`
  · intro p hp
    rw [requeues_cons, hpairs, List.mem_append] at hp
    rcases hp with hp | hp
    · obtain ⟨⟨j, c⟩, hjc, rfl⟩ := List.mem_map.mp hp
      have hj := of_mem_reaped (List.of_mem_zip hjc).1
      have hc := (List.of_mem_zip hjc).2
      obtain ⟨j', hj', hid', hspec'⟩ := hkept j hj.1
      have hspec := spec_of_mem_zip_copies hjc
      obtain ⟨id, spec, -, hnew, hle⟩ := mem_copies hc
      have hbelow := db.jobsIdBelow j hj.1
      have hcid : c.id = id := by rw [hnew]; rfl
      refine ⟨?_, j', hj', c, mem_reap.mpr (.inr hc), hid', rfl, hspec.trans hspec'.symm⟩
      dsimp only
      omega
    · exact h.copied_of_kept hkept p hp
  -- `submitted`
  · exact h.submitted_of_kept hkept
  -- `opened`: a stale row is reaped now, and a copy is queued
  · intro k hk
    rw [hreaped]
    rcases mem_reap.mp hk with ⟨j, hj, rfl⟩ | hcopy
    · rw [id_reapRow]
      cases hst : stale timeout now j with
      | true =>
        have hin : j ∈ JobDb.reaped timeout now db := List.mem_filter.mpr ⟨hj, hst⟩
        exact .inl (List.mem_append_left _ (List.mem_map_of_mem hin))
      | false =>
        rw [reapRow, hst, if_neg Bool.false_ne_true]
        exact (h.opened j hj).imp_left (List.mem_append_right _)
    · obtain ⟨id, spec, -, rfl, -⟩ := mem_copies hcopy
      exact .inr (.inl rfl)

/-- Every request keeps the books. -/
theorem Accounted.effect {e : JobEvent} {res : JobResult} (h : Accounted log db)
    (heff : Effect db e res db') : Accounted ((e, res) :: log) db' := by
  -- a row leaves its lineage only by ending; a copy takes its place
  cases heff with
  | refused _ f =>
    refine h.idle rfl ?_ ?_
    · cases e <;> rfl
    · cases e <;> rfl
  | registered _ _ _ _ _ _ hjobs _ => exact h.idle hjobs rfl rfl
  | created rooms spec now => exact h.created rooms spec now
  | claimed _ _ _ _ _ j hj hqueued _ hwrote =>
    exact h.wrote hwrote hj (.inl hqueued) rfl rfl rfl rfl (.inr (.inl rfl))
  | controlled kind _ _ body _ j hj howner _ hwrote =>
    have hrunning : j.status = .running := by
      simp only [runningFor, Bool.and_eq_true, decide_eq_true_eq] at howner
      exact howner.1.1
    cases kind with
    | heartbeat =>
      exact h.wrote hwrote hj (.inr hrunning) rfl rfl rfl rfl (.inr (.inl hrunning))
    | complete => exact h.wrote hwrote hj (.inr hrunning) rfl rfl rfl rfl (.inr (.inr rfl))
    | fail error => exact h.wrote hwrote hj (.inr hrunning) rfl rfl rfl rfl (.inr (.inr rfl))
  | cancelled _ j hj hlive _ hwrote =>
    exact h.wrote hwrote hj hlive rfl rfl rfl rfl (.inr (.inr rfl))
  | reaped timeout now => exact h.reaped timeout now

/-! ## Lineages -/

/-- `m` is the submitted job `i` or a copy, a copy's copy and so on. -/
def Lineage (log : JobLog) (i m : Nat) : Prop :=
  Relation.ReflTransGen (fun a b => (a, b) ∈ requeues log) i m

/-- What conservation says of a run: the claims about lineages, one field each. -/
structure Conserved (log : JobLog) (db : JobDb) : Prop where
  /-- Exactly one member of a lineage was not reaped. -/
  survivor : ∀ p ∈ created log, ∃! m, Lineage log p.1 m ∧ m ∉ reapedIds log
  /-- Every member is a row with the submitted spec. -/
  spec : ∀ p ∈ created log, ∀ m, Lineage log p.1 m → ∃ j ∈ db.jobs, j.id = m ∧ j.spec = p.2
  /-- At most one member is queued or running. -/
  oneOpen : ∀ p ∈ created log, ∀ j ∈ db.jobs, ∀ j' ∈ db.jobs,
    Lineage log p.1 j.id → Lineage log p.1 j'.id →
    (j.status = .queued ∨ j.status = .running) →
    (j'.status = .queued ∨ j'.status = .running) → j = j'
  /-- Every reaped row is failed and was copied exactly once. -/
  copiedOnce : ∀ a ∈ reapedIds log, (∃ j ∈ db.jobs, j.id = a ∧ j.status = .failed) ∧
    ∃! b, (a, b) ∈ requeues log
  /-- The member that was not reaped is open unless it was completed, failed or cancelled. -/
  notLost : ∀ p ∈ created log, ∀ j ∈ db.jobs, Lineage log p.1 j.id → j.id ∉ reapedIds log →
    j.status = .queued ∨ j.status = .running ∨ j.id ∈ finished log
  /-- Every row was submitted or is a copy. -/
  count : db.jobs.rows.length = (created log).length + (reapedIds log).length

/-- A job has a copy exactly when it was reaped. -/
private theorem mem_reapedIds {a : Nat} : a ∈ reapedIds log ↔ ∃ b, (a, b) ∈ requeues log := by
  unfold reapedIds
  rw [List.mem_map]
  constructor
  · rintro ⟨⟨a, b⟩, hp, rfl⟩
    exact ⟨b, hp⟩
  · rintro ⟨b, hp⟩
    exact ⟨(a, b), hp, rfl⟩

/-- A reaped job has one copy. -/
private theorem Accounted.rightUnique (h : Accounted log db) :
    Relator.RightUnique fun a b => (a, b) ∈ requeues log := by
  intro a b b' hb hb'
  have hnd : ((requeues log).map (·.1)).Nodup := h.reapedOnce
  have heq : (a, b) = (a, b') := List.inj_on_of_nodup_map hnd hb hb' rfl
  exact congrArg Prod.snd heq

/-- Chains of copies end. -/
private theorem Accounted.wellFounded (h : Accounted log db) :
    WellFounded (Function.swap fun a b => (a, b) ∈ requeues log) := by
  refine Succession.wellFounded_of_bounded db.jobsIdSeq ?_ ?_
  · intro a b hab
    exact (h.copied (a, b) hab).1
  · intro a b hab
    obtain ⟨-, -, -, j', hj', -, hid, -⟩ := h.copied (a, b) hab
    have hbelow := db.jobsIdBelow j' hj'
    have hb : j'.id = b := hid
    omega

/-- The members of a lineage are rows with one spec. -/
private theorem Accounted.spec_of_lineage (h : Accounted log db) {i m : Nat} {spec : SpecDoc}
    (hroot : ∃ j ∈ db.jobs, j.id = i ∧ j.spec = spec) (hm : Lineage log i m) :
    ∃ j ∈ db.jobs, j.id = m ∧ j.spec = spec := by
  induction hm with
  | refl => exact hroot
  | tail _ hab ih =>
    obtain ⟨j, hj, hjid, hjspec⟩ := ih
    obtain ⟨-, k, hk, k', hk', hkid, hkid', hsame⟩ := h.copied _ hab
    obtain rfl := db.jobs.eq_of_key_eq hk hj (hkid.trans hjid.symm)
    exact ⟨k', hk', hkid', hsame.trans hjspec⟩

/-- The books give conservation. -/
theorem Accounted.conserved (h : Accounted log db) : Conserved log db := by
  -- the end of a chain of copies is the member that was not reaped
  have hlast : ∀ m, m ∉ reapedIds log ↔ ∀ b, (m, b) ∉ requeues log := by
    intro m
    rw [mem_reapedIds, not_exists]
  refine ⟨?_, ?_, ?_, ?_, ?_, ?_⟩
  -- `survivor`: a chain of copies ends, and only at one place
  · intro p _
    simp only [hlast]
    exact Succession.existsUnique_last h.wellFounded h.rightUnique p.1
  -- `spec`
  · intro p hp m hm
    exact h.spec_of_lineage (h.submitted p hp) hm
  -- `oneOpen`: an open row has not been reaped, so it is the end of its chain
  · intro p _ j hj j' hj' hm hm' hlive hlive'
    refine db.jobs.eq_of_key_eq hj hj' ?_
    exact Succession.last_unique h.rightUnique hm hm'
      ((hlast _).mp (h.not_reaped hj hlive)) ((hlast _).mp (h.not_reaped hj' hlive'))
  -- `copiedOnce`
  · intro a ha
    obtain ⟨b, hab⟩ := mem_reapedIds.mp ha
    obtain ⟨-, j, hj, -, -, hid, -⟩ := h.copied (a, b) hab
    have hja : j.id = a := hid
    refine ⟨⟨j, hj, hja, h.failed j hj (hja ▸ ha)⟩, b, hab, ?_⟩
    intro b' hab'
    exact h.rightUnique hab' hab
  -- `notLost`
  · intro p _ j hj _ hnot
    exact (h.opened j hj).resolve_left hnot
  -- `count`
  · rw [← length_inserted, ← h.ids, List.length_map]

/-- Job conservation: in every state that any interleaving of requests and reaper runs
    reaches from the empty queue. -/
theorem conserved_of_run {secret : String} {c : Config JobDb JobEvent JobResult}
    (hrun : (jobMachine secret).Run (fun _ _ => True) ⟨[], JobDb.empty⟩ c) :
    Conserved c.log c.state := by
  have hbooks : Accounted c.log c.state := by
    refine hrun.invariant (I := fun c => Accounted c.log c.state) accounted_empty ?_
    intro c e h _
    exact h.effect (step_effect secret c.state e)
  exact hbooks.conserved

/-- A job over one room. -/
def kitchenSpec : JobSpec where
  modelType := "random_forest"
  hyperparams := []
  featureConfig := .default .current
  timeStart := 0
  timeEnd := 10
  rooms := ["kitchen"]
  roomsBounds := by decide

/-- A client submits the job and a daemon registers, before anything else happens. -/
def submission (es : List JobEvent) : List JobEvent :=
  .createJob [⟨"kitchen", 0, 0⟩] kitchenSpec 0 ::
    .daemonHeartbeat none "nornir" "host" 1 :: es

/-- A daemon claims the job and is not heard of again. -/
def orphanRun : List JobEvent :=
  submission [.claim 7 none 1 1 "0123456789abcdef" 2, .reap 300 1000]

example : requeues ((jobMachine "").replay ⟨[], JobDb.empty⟩ orphanRun).log = [(1, 2)] := by
  decide

/-- A job is orphaned and queued again. -/
theorem conserved_of_orphanRun :
    Conserved ((jobMachine "").replay ⟨[], JobDb.empty⟩ orphanRun).log
      ((jobMachine "").replay ⟨[], JobDb.empty⟩ orphanRun).state :=
  conserved_of_run (Machine.run_of_admits ⟨trivial, trivial, trivial, trivial, trivial⟩)

end JobDb

end Grimnir
