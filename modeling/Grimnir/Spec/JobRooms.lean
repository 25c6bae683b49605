import Grimnir.Native.FrekiSystem
import Grimnir.Spec.JobEffects
import Grimnir.Spec.RoomQuery

/-!
# The rooms that job specs name

`create_job` checks once that its rooms exist.  A rename rewrites every table but the specs,
and a deletion is only held up by labels, so the check outlives a run exactly as long as no
room that a live job names is renamed or removed.

## Key results

- `ReferencesValid.labels` / `.insertJob` / `.job`: what each kind of event keeps
- `referencesValid_of_run`: runs that spare the rooms of live jobs
- `rename_orphans_job`: a rename leaves a queued job behind
-/

namespace Grimnir

/-- A job that waits or runs. -/
def TrainingJob.live (j : TrainingJob) : Prop := j.status = .queued ∨ j.status = .running

namespace FrekiSystem

/-- Every room of a live job's spec is the name of a room. -/
def ReferencesValid (s : FrekiSystem) : Prop :=
  ∀ j ∈ s.jobs.jobs, j.live → ∀ r ∈ j.spec.rooms, s.labels.db.HasRoom r

/-- The request will pass the checks of `create_job`. -/
def Passes (request : List Room × JobSpec) : Prop :=
  request.2.timeStart < request.2.timeEnd ∧
    ∀ r ∈ request.2.rooms, (request.1.map (·.name)).contains r = true

/-- A live job names the room, or a request under way that will become one. -/
def Named (s : FrekiSystem) (name : String) : Prop :=
  (∃ j ∈ s.jobs.jobs, j.live ∧ name ∈ j.spec.rooms) ∨
    ∃ request ∈ s.requests, Passes request ∧ name ∈ request.2.rooms

/-- The event neither renames nor deletes a room that a live job names.  A rename to a taken
    name and a deletion under existing labels are refused. -/
def Spares (s : FrekiSystem) : FrekiEvent → Prop
  | .labels (.updateRoom roomName body) => ∀ newName, body.name = some newName →
      newName ≠ roomName → ¬s.labels.db.HasRoom newName → ¬s.Named roomName
  | .labels (.deleteRoom roomName) =>
    (∀ l ∈ s.labels.db.labels, l.room ≠ roomName) → ¬s.Named roomName
  | _ => True

/-- Every room named by a live job, or by a request that will become one, exists. -/
def AllNamed (s : FrekiSystem) : Prop := ∀ name, s.Named name → s.labels.db.HasRoom name

private theorem AllNamed.referencesValid {s : FrekiSystem} (h : AllNamed s) : ReferencesValid s :=
  fun j hj hlive r hr => h r (.inl ⟨j, hj, hlive, hr⟩)

/-! ## One event -/

/-- The room endpoints keep the rooms they spare. -/
theorem AllNamed.labels {s : FrekiSystem} (h : AllNamed s) {e : LabelEvent}
    (hspares : s.Spares (.labels e)) :
    AllNamed { s with labels := (LabelSystem.step s.labels e).2 } := by
  intro name hname
  have hnamed : s.Named name := hname
  have hroom := h name hnamed
  cases s.labels.step_roomNames e with
  | kept e db' hnames => exact (hnames name).mpr hroom
  | created body now db' hnames => exact (hnames name).mpr (.inl hroom)
  | renamed roomName newName body hbody hne hfree db' hnames =>
    have hother : name ≠ roomName := by
      rintro rfl
      exact hspares newName hbody hne hfree hnamed
    exact (hnames name).mpr (.inl ⟨hroom, hother⟩)
  | deleted roomName hfree db' hnames =>
    have hother : name ≠ roomName := by
      rintro rfl
      exact hspares hfree hnamed
    exact (hnames name).mpr ⟨hroom, hother⟩

/-- The names of a request that has just read the rooms exist. -/
theorem AllNamed.selectRooms {s : FrekiSystem} (h : AllNamed s) (spec : JobSpec) :
    AllNamed { s with requests := s.requests ++ [(s.labels.db.rooms.rows, spec)] } := by
  intro name hname
  cases hname with
  | inl hjob => exact h name (.inl hjob)
  | inr hrequest =>
    obtain ⟨request, hmem, hpasses, hname⟩ := hrequest
    rcases List.mem_append.mp hmem with hmem | hmem
    · exact h name (.inr ⟨request, hmem, hpasses, hname⟩)
    · rw [List.mem_singleton] at hmem
      subst hmem
      exact LabelDb.hasRoom_iff.mpr (hpasses.2 name hname)

end FrekiSystem

namespace JobDb

/-- A live job was live before with the same spec, or is the one `create_job` inserts. -/
private theorem Effect.live_spec {db db' : JobDb} {e : JobEvent} {res : JobResult}
    (heff : Effect db e res db') {k : TrainingJob} (hk : k ∈ db'.jobs) (hlive : k.live) :
    (∃ j ∈ db.jobs, j.live ∧ j.spec = k.spec) ∨
      ∃ rooms spec now, e = .createJob rooms spec now ∧ k.spec = spec.dump := by
  cases heff with
  | refused _ f => exact .inl ⟨k, hk, hlive, rfl⟩
  | registered _ _ _ _ _ _ hjobs _ =>
    rw [hjobs] at hk
    exact .inl ⟨k, hk, hlive, rfl⟩
  | created rooms spec now =>
    rcases mem_insertJob.mp hk with hk | rfl
    · exact .inl ⟨k, hk, hlive, rfl⟩
    · exact .inr ⟨rooms, spec, now, rfl, rfl⟩
  | claimed _ _ _ _ _ j hj hqueued _ hwrote =>
    -- the row that is written keeps its spec
    rcases (hwrote.mem k).mp hk with rfl | ⟨hk, -⟩
    · exact .inl ⟨j, hj, .inl hqueued, rfl⟩
    · exact .inl ⟨k, hk, hlive, rfl⟩
  | controlled kind _ _ body now j hj howner _ hwrote =>
    rcases (hwrote.mem k).mp hk with rfl | ⟨hk, -⟩
    · have hrunning : j.status = .running := by
        simp only [runningFor, Bool.and_eq_true, decide_eq_true_eq] at howner
        exact howner.1.1
      refine .inl ⟨j, hj, .inr hrunning, ?_⟩
      cases kind <;> rfl
    · exact .inl ⟨k, hk, hlive, rfl⟩
  | cancelled now j hj hlive' _ hwrote =>
    rcases (hwrote.mem k).mp hk with rfl | ⟨hk, -⟩
    · exact .inl ⟨j, hj, hlive', rfl⟩
    · exact .inl ⟨k, hk, hlive, rfl⟩
  | reaped timeout now =>
    rcases mem_reap.mp hk with ⟨j, hj, rfl⟩ | hk
    · -- a row that is still live was not reaped
      unfold reapRow at hlive ⊢
      split at hlive
      · cases hlive <;> contradiction
      · rename_i hkept
        rw [if_neg hkept]
        exact .inl ⟨j, hj, hlive, rfl⟩
    · -- a copy repeats a job that was running
      obtain ⟨id, spec, hspec, rfl, -⟩ := mem_copies hk
      obtain ⟨j, hj, hspec⟩ := List.mem_map.mp hspec
      obtain ⟨hmem, hrunning⟩ := of_mem_reaped hj
      exact .inl ⟨j, hmem, .inr hrunning, hspec⟩

end JobDb

namespace FrekiSystem

/-- A job request other than `create_job` makes no live spec. -/
theorem AllNamed.job {s : FrekiSystem} (h : AllNamed s) (secret : String) {e : JobEvent}
    (he : e.isCreateJob = false) :
    AllNamed { s with jobs := (s.jobs.step secret e).2 } := by
  intro name hname
  cases hname with
  | inl hjob =>
    obtain ⟨k, hk, hlive, hname⟩ := hjob
    rcases (JobDb.step_effect secret s.jobs e).live_spec hk hlive with
      ⟨j, hj, hjlive, hspec⟩ | ⟨rooms, spec, now, rfl, -⟩
    · rw [← hspec] at hname
      exact h name (.inl ⟨j, hj, hjlive, hname⟩)
    · cases he
  | inr hrequest => exact h name (.inr hrequest)

/-- The job that a request inserts names rooms that the request named already. -/
theorem AllNamed.insertJob {s : FrekiSystem} (h : AllNamed s) (secret : String) {i : Nat}
    {rooms : List Room} {spec : JobSpec} (hi : s.requests[i]? = some (rooms, spec))
    (now : Timestamp) :
    AllNamed { s with
      jobs := (s.jobs.step secret (.createJob rooms spec now)).2
      requests := s.requests.eraseIdx i } := by
  intro name hname
  cases hname with
  | inr hrequest =>
    obtain ⟨request, hmem, hpasses, hname⟩ := hrequest
    exact h name (.inr ⟨request, List.mem_of_mem_eraseIdx hmem, hpasses, hname⟩)
  | inl hjob =>
    obtain ⟨k, hk, hlive, hname⟩ := hjob
    cases hres : (createJob rooms spec now s.jobs).1 with
    | error f =>
      -- refused: the queue is as it was
      have hrefused : (s.jobs.step secret (.createJob rooms spec now)).1 = .error f := by
        show (createJob rooms spec now s.jobs).1.map JobResponse.job = .error f
        rw [hres]
        rfl
      rw [show (s.jobs.step secret (.createJob rooms spec now)).2 = s.jobs from
        JobDb.step_of_error hrefused] at hk
      exact h name (.inl ⟨k, hk, hlive, hname⟩)
    | ok out =>
      -- accepted: the request passes the checks, so its rooms were named before
      obtain ⟨hrange, hknown, -⟩ := createJob_ok hres
      rcases (JobDb.step_effect secret s.jobs _).live_spec hk hlive with
        ⟨j, hj, hjlive, hspec⟩ | ⟨_, spec', _, he, hspec⟩
      · rw [← hspec] at hname
        exact h name (.inl ⟨j, hj, hjlive, hname⟩)
      · cases he
        rw [hspec] at hname
        exact h name (.inr ⟨(rooms, spec), List.mem_of_getElem? hi, ⟨hrange, hknown⟩, hname⟩)

theorem AllNamed.step {s : FrekiSystem} (h : AllNamed s) (secret : String) {e : FrekiEvent}
    (hspares : s.Spares e) : AllNamed (s.step secret e).2 := by
  cases e with
  | labels e => exact h.labels hspares
  | selectRooms spec => exact h.selectRooms spec
  | insertJob i now =>
    simp only [FrekiSystem.step]
    cases hi : s.requests[i]? with
    | none => exact h
    | some request => exact h.insertJob secret hi now
  | job e he => exact h.job secret he

/-- Nothing has been asked of the job queue. -/
structure NoJobs (s : FrekiSystem) : Prop where
  jobs : s.jobs = JobDb.empty
  requests : s.requests = []

/-- In a run whose renames and deletions spare the rooms of live jobs, every room that a
    queued or running job names exists in every state reached. -/
theorem referencesValid_of_run {secret : String} {s₀ : FrekiSystem} (h₀ : NoJobs s₀)
    {c : Config FrekiSystem FrekiEvent FrekiAnswer}
    (hrun : (frekiMachine secret).Run (fun c e => c.state.Spares e) ⟨[], s₀⟩ c) :
    ReferencesValid c.state := by
  apply AllNamed.referencesValid
  apply hrun.invariant (I := fun c => AllNamed c.state)
  · rintro name (⟨j, hj, -⟩ | ⟨request, hrequest, -⟩)
    · rw [h₀.jobs] at hj
      exact nomatch hj
    · rw [h₀.requests] at hrequest
      exact nomatch hrequest
  · intro c e h hspares
    exact h.step secret hspares

/-! ## A room renamed under a queued job -/

/-- A fresh installation. -/
def fresh : FrekiSystem where
  labels := bareStore
  jobs := JobDb.empty
  requests := []

/-- The kitchen is created and a job over it is submitted, before anything else happens. -/
def kitchenJob (es : List FrekiEvent) : List FrekiEvent :=
  .labels (.createRoom ⟨"kitchen", 0, by decide⟩ 1) :: .selectRooms (roomSpec "kitchen") ::
    .insertJob 0 2 :: es

/-- Move the room to another floor. -/
def moveUpstairs : RoomUpdate := ⟨none, some 1, fun _ hname => nomatch hname⟩

/-- Rename the room. -/
def renameGalley : RoomUpdate :=
  ⟨some "galley", none, by intro name hname; cases hname; decide⟩

/-- The floor of the kitchen may change under the job. -/
theorem referencesValid_kitchenJob :
    ReferencesValid ((frekiMachine "").replay ⟨[], fresh⟩
      (kitchenJob [.labels (.updateRoom "kitchen" moveUpstairs)])).state := by
  have hrun : (frekiMachine "").Run (fun c e => c.state.Spares e) ⟨[], fresh⟩
      ((frekiMachine "").replay ⟨[], fresh⟩
        (kitchenJob [.labels (.updateRoom "kitchen" moveUpstairs)])) :=
    Machine.run_of_admits
      ⟨trivial, trivial, trivial, (fun newName hname => nomatch hname), trivial⟩
  exact referencesValid_of_run ⟨rfl, rfl⟩ hrun

/-- A rename rewrites labels and samples and leaves the queued spec as it was. -/
theorem rename_orphans_job :
    ¬∀ (secret : String) (s₀ : FrekiSystem) (c : Config FrekiSystem FrekiEvent FrekiAnswer),
      NoJobs s₀ → (frekiMachine secret).Run (fun _ _ => True) ⟨[], s₀⟩ c →
        ReferencesValid c.state := by
  intro h
  have hrun : (frekiMachine "").Run (fun _ _ => True) ⟨[], fresh⟩
      ((frekiMachine "").replay ⟨[], fresh⟩
        (kitchenJob [.labels (.updateRoom "kitchen" renameGalley)])) :=
    Machine.run_of_admits ⟨trivial, trivial, trivial, trivial, trivial⟩
  have hvalid := h "" fresh _ ⟨rfl, rfl⟩ hrun
  obtain ⟨r, hr, hname⟩ := hvalid (JobDb.newJob 1 (roomSpec "kitchen").dump 2)
    (List.mem_singleton.mpr rfl) (.inl rfl) "kitchen" List.mem_cons_self
  have hrenamed : r = ⟨"galley", 0, 1⟩ := List.mem_singleton.mp hr
  rw [hrenamed] at hname
  exact absurd hname (by decide)

end FrekiSystem

end Grimnir
