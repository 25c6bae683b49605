import Grimnir.ForStd.SortedEnds
import Grimnir.Native.Nornir

/-!
# Which queued job a daemon tries first

The daemon asks for 50 queued jobs, gets the newest 50 and goes through them from the end.
As long as 50 jobs are the whole queue this is the queue from its oldest job on; in a longer
queue the oldest jobs are never tried before the newer ones are gone.

## Key results

- `attempts`: the claims of one round, and `outputs_round`: the daemon makes exactly these
- `attempts_isPrefix`: they follow the list that was fetched
- `oldestFirst_iff`: the round serves the oldest job first exactly when the queue fits the
  limit, or all its jobs are equally old
- `crowded_queue_starves`: 51 jobs
-/

namespace Grimnir.Nornir

/-- The queued jobs of the table. -/
def queuedJobs (db : JobDb) : List TrainingJob := db.withStatus (some .queued)

/-- The loop goes on to the next job: the claim was refused or it failed. -/
def movesPast (outcome : Except CallError ClaimedJobOut) : Bool :=
  match claimResult outcome with
  | .ok none => true
  | .error (.freki _ _) => true
  | _ => false

/-- The jobs that the `for` loop of `_claim_and_run` tries, when `claim` says how each claim
    ends. -/
def attempts (claim : Nat → Except CallError ClaimedJobOut) : List Nat → List Nat
  | [] => []
  | jobId :: rest => jobId :: if movesPast (claim jobId) then attempts claim rest else []

/-- One round of claims takes the queued jobs in the order of their age: it begins with the
    oldest one and leaves none out that is older than one it tries. -/
structure OldestFirst (db : JobDb) (claim : Nat → Except CallError ClaimedJobOut)
    (tried : List Nat) : Prop where
  inOrder : ∃ queue : List TrainingJob, queue.Perm (queuedJobs db) ∧
    queue.Pairwise (fun a b => a.createdAt ≤ b.createdAt) ∧ tried <+: queue.map (·.id)
  started : queuedJobs db ≠ [] → tried ≠ []
  passed : ∀ before jobId after, tried = before ++ jobId :: after → after ≠ [] →
    movesPast (claim jobId) = true

/-! ## The loop -/

variable {claim : Nat → Except CallError ClaimedJobOut}

/-- The jobs tried are the first of the list. -/
theorem attempts_isPrefix (jobIds : List Nat) : attempts claim jobIds <+: jobIds := by
  induction jobIds with
  | nil => exact List.prefix_rfl
  | cons jobId rest ih =>
    simp only [attempts]
    split
    · exact (List.prefix_cons_inj jobId).mpr ih
    · exact (List.prefix_cons_inj jobId).mpr (List.nil_prefix)

/-- If every claim is refused, all are tried. -/
private theorem attempts_of_refused (h : ∀ jobId, movesPast (claim jobId) = true)
    (jobIds : List Nat) : attempts claim jobIds = jobIds := by
  induction jobIds with
  | nil => rfl
  | cons jobId rest ih => simp [attempts, h, ih]

/-- The loop moved past every job but the last one tried. -/
private theorem attempts_passed {jobIds before : List Nat} {jobId : Nat} {after : List Nat}
    (h : attempts claim jobIds = before ++ jobId :: after) (hafter : after ≠ []) :
    movesPast (claim jobId) = true := by
  induction jobIds generalizing before with
  | nil => simp [attempts] at h
  | cons first rest ih =>
    simp only [attempts] at h
    cases before with
    | nil =>
      simp only [List.nil_append, List.cons.injEq] at h
      obtain ⟨rfl, hrest⟩ := h
      -- there is a next attempt, so this one was passed
      by_cases hpast : movesPast (claim first) = true
      · exact hpast
      · rw [if_neg hpast] at hrest
        exact absurd hrest.symm hafter
    | cons b before =>
      simp only [List.cons_append, List.cons.injEq] at h
      obtain ⟨rfl, hrest⟩ := h
      split at hrest
      · exact ih hrest
      · simp at hrest

variable (config : NornirConfig) (daemonId : Nat) (hb : Heartbeat)

/-- A claim that is refused or fails leads to the next job. -/
private theorem afterClaim_of_movesPast {outcome : Except CallError ClaimedJobOut}
    (h : movesPast outcome = true) (stop : Bool) (rest : List Nat) :
    afterClaim stop daemonId hb rest outcome = tryClaim stop daemonId hb rest := by
  unfold movesPast at h
  unfold afterClaim
  split at h <;> simp_all

/-- A round that does not go on makes no further call. -/
private theorem afterClaim_of_not {outcome : Except CallError ClaimedJobOut}
    (h : ¬movesPast outcome = true) (stop : Bool) (rest : List Nat) :
    (afterClaim stop daemonId hb rest outcome).1 = none := by
  unfold movesPast at h
  unfold afterClaim
  cases hresult : claimResult outcome with
  | ok won =>
    cases won with
    | none => simp [hresult] at h
    | some job => rfl
  | error e =>
    cases e with
    | freki status text => simp [hresult] at h
    | transport text => rfl

/-- Once the list is there, the daemon makes these claims and no other. -/
private theorem outputs_tryClaim (stop : Bool) (jobIds : List Nat) :
    (tryClaim stop daemonId hb jobIds).1 :: (nornirMachine config).outputs
        ⟨stop, (tryClaim stop daemonId hb jobIds).2⟩
        ((attempts claim jobIds).map fun jobId => .claimed (claim jobId)) =
      ((attempts claim jobIds).map fun jobId => some (.claimJob jobId daemonId)) ++ [none] := by
  induction jobIds with
  | nil =>
    simp only [tryClaim, idle, attempts, List.map_nil, Machine.outputs]
    split <;> rfl
  | cons jobId rest ih =>
    have hstep : (nornirMachine config).step ⟨stop, .working daemonId hb (.claiming jobId rest)⟩
        (.claimed (claim jobId)) =
          ((afterClaim stop daemonId hb rest (claim jobId)).1,
            ⟨stop, (afterClaim stop daemonId hb rest (claim jobId)).2⟩) := rfl
    simp only [tryClaim, attempts, List.map_cons, Machine.outputs, hstep, List.cons_append,
      List.cons.injEq, true_and]
    by_cases hpast : movesPast (claim jobId) = true
    · rw [if_pos hpast, afterClaim_of_movesPast daemonId hb hpast]
      exact ih
    · rw [if_neg hpast, afterClaim_of_not daemonId hb hpast]
      rfl

/-- The calls of one round are the claims of the jobs that are tried. -/
theorem outputs_round (stop : Bool) (queued : List Nat) :
    (nornirMachine config).outputs ⟨stop, .working daemonId hb .listing⟩
        (.listed (.ok queued) ::
          (attempts claim queued.reverse).map fun jobId => .claimed (claim jobId)) =
      ((attempts claim queued.reverse).map fun jobId => some (.claimJob jobId daemonId)) ++
        [none] :=
  outputs_tryClaim config daemonId hb stop queued.reverse

/-! ## The list -/

/-- The daemon's limit is admitted as it is. -/
private theorem clampLimit_fifty : clampLimit 50 = 50 := rfl

/-- The ids of the table tell its rows apart. -/
private theorem map_id_inj {db : JobDb} {l m : List TrainingJob} (hl : ∀ j ∈ l, j ∈ db.jobs)
    (hm : ∀ j ∈ m, j ∈ db.jobs) (h : l.map (·.id) = m.map (·.id)) : l = m := by
  induction l generalizing m with
  | nil => exact (List.map_eq_nil_iff.mp h.symm).symm
  | cons j l ih =>
    cases m with
    | nil => simp at h
    | cons k m =>
      simp only [List.map_cons, List.cons.injEq] at h
      have hjk : j = k := db.jobs.eq_of_key_eq (hl j List.mem_cons_self)
        (hm k List.mem_cons_self) h.1
      rw [hjk, ih (fun a ha => hl a (List.mem_cons_of_mem _ ha))
        (fun a ha => hm a (List.mem_cons_of_mem _ ha)) h.2]

/-- The fetched list from its end is the end of the queue in the order of its age. -/
private theorem reverse_take (ordered : List TrainingJob) (n : Nat) :
    (ordered.take n).reverse = ordered.reverse.drop (ordered.reverse.length - n) := by
  rw [List.reverse_take, List.length_reverse]

/-- The newest first is, reversed, the oldest first. -/
private theorem ascending_reverse {ordered : List TrainingJob}
    (hordered : ordered.Pairwise fun a b => b.createdAt ≤ a.createdAt) :
    (ordered.reverse.map (·.createdAt)).Pairwise (· ≤ ·) := by
  rw [List.pairwise_map, List.pairwise_reverse]
  exact hordered

/-- Listing the oldest jobs first claims them in that order. -/
private theorem oldestFirst_of_prefix {db : JobDb} {queue listed : List TrainingJob}
    (hperm : queue.Perm (queuedJobs db))
    (hordered : queue.Pairwise fun a b => a.createdAt ≤ b.createdAt)
    (hlisted : listed <+: queue) (hsome : queue ≠ [] → listed ≠ []) :
    OldestFirst db claim (attempts claim (listed.map (·.id))) where
  inOrder := ⟨queue, hperm, hordered,
    (attempts_isPrefix _).trans (hlisted.map _)⟩
  started hqueue := by
    have hne : queue ≠ [] := by
      rintro rfl
      exact hqueue (List.nil_perm.mp hperm)
    obtain ⟨j, rest, hlisted⟩ := List.exists_cons_of_ne_nil (hsome hne)
    rw [hlisted]
    simp [attempts]
  passed _ _ _ h hafter := attempts_passed h hafter

/-- When every claim is refused, the tried jobs are the whole list, so its keys are both the
    last and the first ones of the queue. -/
private theorem keys_of_oldestFirst {db : JobDb} {ordered : List TrainingJob} {n : Nat}
    (hperm : ordered.Perm (queuedJobs db))
    (hordered : ordered.Pairwise fun a b => b.createdAt ≤ a.createdAt)
    (hrefused : ∀ jobId, movesPast (claim jobId) = true)
    (h : OldestFirst db claim (attempts claim ((ordered.take n).map (·.id)).reverse)) :
    (ordered.reverse.map (·.createdAt)).take n =
      (ordered.reverse.map (·.createdAt)).drop
        ((ordered.reverse.map (·.createdAt)).length - n) := by
  -- what is tried is a prefix of some oldest-first queue
  obtain ⟨queue, hqueue, hsorted, hprefix⟩ := h.inOrder
  rw [attempts_of_refused hrefused, ← List.map_reverse, reverse_take] at hprefix
  have hmem : ∀ {l : List TrainingJob}, l.Perm (queuedJobs db) → ∀ j ∈ l, j ∈ db.jobs :=
    fun hl j hj => (List.mem_filter.mp (hl.mem_iff.mp hj)).1
  have hreverse : ordered.reverse.Perm (queuedJobs db) := (List.reverse_perm ordered).trans hperm
  -- the queue has one sequence of creation times
  have hkeys : ordered.reverse.map (·.createdAt) = queue.map (·.createdAt) := by
    apply List.eq_of_perm_of_ascending ((hreverse.trans hqueue.symm).map _)
    · exact ascending_reverse hordered
    · exact List.pairwise_map.mpr hsorted
  -- rows of one id are one row, so equal ids give equal lists
  have hlisted : ordered.reverse.drop (ordered.reverse.length - n) =
      queue.take (ordered.reverse.drop (ordered.reverse.length - n)).length := by
    apply @map_id_inj db
    · exact fun j hj => hmem hreverse j (List.mem_of_mem_drop hj)
    · exact fun j hj => hmem hqueue j (List.mem_of_mem_take hj)
    · rw [List.prefix_iff_eq_take.mp hprefix, List.map_take, List.length_map]
  have hlength : (ordered.reverse.drop (ordered.reverse.length - n)).length =
      min n ordered.reverse.length := by
    rw [List.length_drop]
    omega
  have htimes := congrArg (List.map (·.createdAt)) hlisted
  rw [hlength, List.map_drop, List.map_take, ← hkeys] at htimes
  rw [List.length_map, htimes]
  conv => lhs; rw [← List.take_length (l := ordered.reverse.map (·.createdAt))]
  rw [List.take_take, List.length_map]

/-- The daemon serves the oldest queued job first, whatever its claims come to, exactly when
    the limit of its request covers the queue or all queued jobs are equally old. -/
theorem oldestFirst_iff {db : JobDb} {listed : List TrainingJob}
    (hlist : ListsJobs (some .queued) 50 db listed) :
    (∀ claim, OldestFirst db claim (attempts claim (listed.map (·.id)).reverse)) ↔
      (queuedJobs db).length ≤ 50 ∨
        ∀ j ∈ queuedJobs db, ∀ k ∈ queuedJobs db, j.createdAt = k.createdAt := by
  obtain ⟨ordered, hperm, hordered, rfl⟩ := hlist
  rw [clampLimit_fifty]
  have hreverse : ordered.reverse.Perm (queuedJobs db) := (List.reverse_perm ordered).trans hperm
  have hsorted := ascending_reverse hordered
  constructor
  · intro h
    -- every claim is refused with a conflict
    have hkeys := keys_of_oldestFirst hperm hordered (fun _ => rfl)
      (h fun _ => .error (.freki 409 ""))
    cases (List.take_eq_drop_iff hsorted 50).mp hkeys with
    | inl hall =>
      left
      rw [List.length_map, hreverse.length_eq] at hall
      exact hall
    | inr hone =>
      right
      intro j hj k hk
      refine hone.resolve_left (by decide) _ ?_ _ ?_
      · exact List.mem_map_of_mem (hreverse.mem_iff.mpr hj)
      · exact List.mem_map_of_mem (hreverse.mem_iff.mpr hk)
  -- all queued jobs were listed, or all of them are of one age
  · intro h claim
    rw [← List.map_reverse, reverse_take]
    cases h with
    | inl hall =>
      rw [← hreverse.length_eq] at hall
      rw [Nat.sub_eq_zero_of_le hall, List.drop_zero]
      refine oldestFirst_of_prefix hreverse ?_ List.prefix_rfl id
      exact List.pairwise_map.mp hsorted
    | inr hone =>
      -- jobs of one age may be tried in any order
      let cut := ordered.reverse.length - 50
      have hqueue : (ordered.reverse.drop cut ++ ordered.reverse.take cut).Perm
          (queuedJobs db) := by
        apply List.perm_append_comm.trans
        rw [List.take_append_drop]
        exact hreverse
      refine oldestFirst_of_prefix hqueue ?_ (List.prefix_append _ _) ?_
      · apply List.pairwise_of_forall_mem_list
        intro j hj k hk
        exact Int.le_of_eq (hone j (hqueue.mem_iff.mp hj) k (hqueue.mem_iff.mp hk))
      · intro hne hlisted
        apply hne
        have hlength := List.drop_eq_nil_iff.mp hlisted
        have hnil : ordered.reverse = [] := List.length_eq_zero_iff.mp (by omega)
        simp [hnil]

/-! ## A crowded queue -/

def crowdSpec : SpecDoc := ⟨"rf", [], .obj [], 0, 86400, ["study", "hall"]⟩

/-- `n` jobs submitted one after the other. -/
def crowdedDb : Nat → JobDb
  | 0 => .empty
  | n + 1 => (crowdedDb n).insertJob crowdSpec n

/-- A new job is queued behind the others. -/
private theorem queuedJobs_insertJob (db : JobDb) (spec : SpecDoc) (now : Timestamp) :
    queuedJobs (db.insertJob spec now) =
      queuedJobs db ++ [JobDb.newJob db.jobsIdSeq spec now] := by
  simp [queuedJobs, JobDb.withStatus, JobDb.insertJob, JobDb.newJob]

/-- The example's jobs by their times. -/
private theorem queuedJobs_crowdedDb (n : Nat) :
    (queuedJobs (crowdedDb n)).map (·.createdAt) = (List.range n).map Int.ofNat := by
  induction n with
  | zero => rfl
  | succ n ih =>
    rw [crowdedDb, queuedJobs_insertJob, List.map_append, ih, List.range_succ, List.map_append]
    rfl

/-- Two queued jobs are few enough to be listed. -/
theorem oldestFirst_iff_crowded :
    (∀ claim, OldestFirst (crowdedDb 2) claim
        (attempts claim ((listJobs (some .queued) 50 (crowdedDb 2)).map (·.id)).reverse)) ↔
      (queuedJobs (crowdedDb 2)).length ≤ 50 ∨ ∀ j ∈ queuedJobs (crowdedDb 2),
        ∀ k ∈ queuedJobs (crowdedDb 2), j.createdAt = k.createdAt :=
  oldestFirst_iff (listsJobs_listJobs _ _ _)

/-- With 51 queued jobs the oldest one is not in the list. -/
theorem crowded_queue_starves :
    ¬∀ (db : JobDb) (listed : List TrainingJob), ListsJobs (some .queued) 50 db listed →
      ∀ claim, OldestFirst db claim (attempts claim (listed.map (·.id)).reverse) := by
  intro h
  obtain ⟨ordered, hperm, hordered, -⟩ := listsJobs_listJobs (some .queued) 50 (crowdedDb 51)
  have hfirst := h _ _ ⟨ordered, hperm, hordered, rfl⟩ fun _ => .error (.freki 409 "")
  have hkeys := keys_of_oldestFirst hperm hordered (fun _ => rfl) hfirst
  have hsorted := ascending_reverse hordered
  have hrange : (ordered.reverse.map (·.createdAt)).Perm ((List.range 51).map Int.ofNat) := by
    rw [← queuedJobs_crowdedDb]
    exact ((List.reverse_perm ordered).trans hperm).map _
  cases (List.take_eq_drop_iff hsorted 50).mp hkeys with
  | inl hall => exact absurd (hrange.length_eq ▸ hall) (by decide)
  | inr hone =>
    have hfirst : (0 : Int) ∈ ordered.reverse.map (·.createdAt) :=
      hrange.mem_iff.mpr (by decide)
    have hlast : (50 : Int) ∈ ordered.reverse.map (·.createdAt) :=
      hrange.mem_iff.mpr (by decide)
    exact absurd (hone.resolve_left (by decide) _ hfirst _ hlast) (by decide)

end Grimnir.Nornir
