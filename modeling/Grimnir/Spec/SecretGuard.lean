import Grimnir.ForStd.Purge
import Grimnir.Spec.JobLineage
import Grimnir.Spec.ModelRegistry

/-!
# What the shared secrets keep out

Whoever does not know the control secret may send any number of requests to the job queue, at
any moment and in any order: the daemons and the dashboard get the answers they would have got
without them, and the table is the same.  The upload secret does the same for the model
registry, across redeployments of Freki.

## Key results

- `requireSecret_of_not_shows`: without the configured secret the guard refuses
- `JobDb.queue_guarded_of_run`, `ModelDb.registry_guarded_of_run`: the two guards, in every run
-/

namespace Grimnir

/-- No secret is configured, or the request carries it. -/
def showsSecret (configured : String) (provided : Option String) : Bool :=
  configured == "" || provided == some configured

/-- Without the configured secret the guard refuses, and the database has no part in it. -/
theorem requireSecret_of_not_shows {configured : String} {provided : Option String}
    (h : showsSecret configured provided = false) (header : String) :
    ∃ f, requireSecret header configured provided = .error f ∧ ∀ exc, f ≠ .internal exc := by
  simp only [showsSecret, Bool.or_eq_false_iff, beq_eq_false_iff_ne] at h
  obtain ⟨hconfigured, hprovided⟩ := h
  unfold requireSecret
  dsimp only
  rw [if_neg hconfigured]
  -- no header, or one that the comparison refuses or finds different
  cases provided with
  | none => exact ⟨_, rfl, fun _ => Failure.noConfusion⟩
  | some given =>
    have hne : (given == configured) = false := by simpa using hprovided
    dsimp only
    cases hsame : compareDigest given configured with
    | error f =>
      refine ⟨f, rfl, ?_⟩
      unfold compareDigest at hsame
      split at hsame
      · cases hsame
      · cases hsame
        exact fun _ => Failure.noConfusion
    | ok same =>
      have hfalse : same = false := by
        unfold compareDigest at hsame
        split at hsame
        · cases hsame
          exact hne
        · cases hsame
      rw [hfalse]
      exact ⟨_, rfl, fun _ => Failure.noConfusion⟩

/-! ## The job queue -/

/-- The request shows the control secret, or its endpoint asks for none. -/
def JobEvent.showsControlSecret (secret : String) : JobEvent → Bool
  | .daemonHeartbeat provided _ _ _ | .claim _ provided _ _ _ _ | .control _ _ provided _ _ _ =>
    showsSecret secret provided
  | .createJob _ _ _ | .cancel _ _ | .reap _ _ => true

namespace JobDb

/-- A request without the control secret is refused. -/
private theorem step_of_not_shows {secret : String} (db : JobDb) {e : JobEvent}
    (h : e.showsControlSecret secret = false) : ∃ f, (db.step secret e).1 = .error f := by
  cases e with
  | daemonHeartbeat provided name host now =>
    obtain ⟨f, hf, -⟩ := requireSecret_of_not_shows h "X-Grimnir-ML-Control-Secret"
    exact ⟨f, by simp only [step, answered, daemonHeartbeat, requireMlControlSecret, hf]; rfl⟩
  | claim actor provided jobId daemonId token now =>
    obtain ⟨f, hf, -⟩ := requireSecret_of_not_shows h "X-Grimnir-ML-Control-Secret"
    exact ⟨f, by simp only [step, answered, claimJob, requireMlControlSecret, hf]; rfl⟩
  | control kind actor provided jobId body now =>
    obtain ⟨f, hf, -⟩ := requireSecret_of_not_shows h "X-Grimnir-ML-Control-Secret"
    refine ⟨f, ?_⟩
    -- the three endpoints start with the same guard
    cases kind <;>
      simp only [step, answered, ControlKind.endpoint, heartbeatJob, completeJob, failJob,
        controlJob, requireMlControlSecret, hf] <;> rfl
  | createJob rooms spec now => cases h
  | cancel jobId now => cases h
  | reap timeout now => cases h

/-- In every run the control secret guards the queue. -/
theorem queue_guarded_of_run {secret : String} {db : JobDb} {c : Config JobDb JobEvent JobResult}
    (hrun : (jobMachine secret).Run (fun _ _ => True) ⟨[], db⟩ c) :
    (jobMachine secret).Guarded (JobEvent.showsControlSecret secret) (fun x => x.2.isOk) db c := by
  refine hrun.guarded ?_ ?_
  · intro s e hrefused
    cases hres : (s.step secret e).1 with
    | error f => exact step_of_error hres
    | ok r =>
      change (s.step secret e).1.isOk = false at hrefused
      rw [hres] at hrefused
      cases hrefused
  · intro s e hshows
    obtain ⟨f, hf⟩ := step_of_not_shows s hshows
    change (s.step secret e).1.isOk = false
    rw [hf]
    rfl

/-- A stranger claims the submitted job before its daemon registers. -/
theorem queue_guarded_of_stranger :
    (jobMachine "raven").Guarded (JobEvent.showsControlSecret "raven") (fun x => x.2.isOk)
      JobDb.empty ((jobMachine "raven").replay ⟨[], JobDb.empty⟩
        [.createJob [⟨"kitchen", 0, 0⟩] kitchenSpec 0, .claim 7 (some "crow") 1 1 "taken" 1,
          .daemonHeartbeat (some "raven") "nornir" "host" 2]) := by
  have hrun : (jobMachine "raven").Run (fun _ _ => True) ⟨[], JobDb.empty⟩
      ((jobMachine "raven").replay ⟨[], JobDb.empty⟩
        [.createJob [⟨"kitchen", 0, 0⟩] kitchenSpec 0, .claim 7 (some "crow") 1 1 "taken" 1,
          .daemonHeartbeat (some "raven") "nornir" "host" 2]) :=
    Machine.run_of_admits ⟨trivial, trivial, trivial, trivial⟩
  exact queue_guarded_of_run hrun

end JobDb

/-! ## The model registry -/

/-- The request is an upload with the upload secret, or an activation. -/
def ModelEvent.showsUploadSecret (secret : String) : ModelEvent → Bool
  | .upload provided _ _ _ => showsSecret secret provided
  | .activate _ _ => true

namespace ModelDb

/-- An activation that fails changes nothing. -/
private theorem activateModel_of_refused {id : Nat} {order : List RowWrite} {db : ModelDb}
    {f : Failure}
    (h : (db.activateModel id order).1 = .error f) : (db.activateModel id order).2 = db := by
  unfold activateModel at h ⊢
  cases hwrites : writeRows order db with
  | error exc => rfl
  | ok written =>
    rw [hwrites] at h
    dsimp only at h ⊢
    cases hfind : db.models.find? id with
    | none => rfl
    | some m =>
      -- the writes keep the row, so `RETURNING id` is not empty
      have hkey : m.id = id := Table.key_of_find? hfind
      have hheld : Holds m written :=
        Holds.writeRows ⟨m.isActive, Table.mem_of_find? hfind⟩ hwrites
      obtain ⟨active, hmem⟩ := hheld
      have hfound : written.models.find? id = some { m with isActive := active } := by
        rw [← hkey]
        exact Table.find?_of_mem hmem
      rw [hfind, hfound] at h
      cases h

/-- The request went through, or its row was refused by the foreign key only: either way it has
    used up an id or changed a row. -/
def leavesTrace (x : (Build × ModelEvent) × Except Failure ModelOut) : Bool :=
  match x.2 with
  | .ok _ => true
  | .error f => f == .internal unknownTrainingJob

/-- A request that leaves no trace leaves the registry as it is. -/
private theorem registry_idle (py : Pydantic) (secret : String) :
    (registry py secret).IdleUnless leavesTrace := by
  rintro db ⟨build, event⟩ hidle
  cases event with
  | activate id order =>
    change leavesTrace (_, (db.activateModel id order).1) = false at hidle
    change (db.activateModel id order).2 = db
    cases hres : (db.activateModel id order).1 with
    | error f => exact activateModel_of_refused hres
    | ok out =>
      rw [hres] at hidle
      cases hidle
  | upload provided form jobExists now =>
    change leavesTrace (_, (uploadModel py build secret provided form jobExists now db).1) = false
      at hidle
    change (uploadModel py build secret provided form jobExists now db).2 = db
    -- refused before the `INSERT`, refused by it, or accepted
    rcases uploadModel_cases py build secret provided form jobExists now db with
      ⟨f, hres⟩ | hres | ⟨metrics, members, fc, -, -, -, hres⟩
    · rw [hres]
    · -- the lost id is a trace
      rw [hres] at hidle
      cases hidle
    · rw [hres] at hidle
      cases hidle

/-- In every run, whatever the builds that answer, the upload secret guards the registry. -/
theorem registry_guarded_of_run {py : Pydantic} {secret : String} {db : ModelDb}
    {c : Config ModelDb (Build × ModelEvent) (Except Failure ModelOut)}
    (hrun : (registry py secret).Run (fun _ _ => True) ⟨[], db⟩ c) :
    (registry py secret).Guarded (fun e => e.2.showsUploadSecret secret) leavesTrace db c := by
  refine hrun.guarded (registry_idle py secret) ?_
  rintro s ⟨build, event⟩ hshows
  cases event with
  | activate id order => cases hshows
  | upload provided form jobExists now =>
    -- the guard refuses before anything else is looked at
    obtain ⟨f, hf, hguard⟩ := requireSecret_of_not_shows hshows "X-Grimnir-Model-Upload-Secret"
    have hres : (uploadModel py build secret provided form jobExists now s).1 = .error f := by
      simp only [uploadModel, requireModelUploadSecret, hf]
    change leavesTrace (_, (uploadModel py build secret provided form jobExists now s).1) = false
    rw [hres]
    exact beq_eq_false_iff_ne.mpr (hguard _)

/-- A model that belongs to no job, or to job `jobId`. -/
def plainForm (name : String) (jobId : Option Nat) : ModelForm :=
  ⟨name, .ok (.obj []), .ok (.obj []), jobId, [0]⟩

/-- A stranger uploads a model, the dashboard uploads one for a job that does not exist and one
    that is stored under the next id, and after the redeployment this one is activated. -/
def strangerRun : List (Build × ModelEvent) :=
  [(.current, .upload none (plainForm "crow" none) (fun _ => true) 0),
    (.current, .upload (some "raven") (plainForm "early" (some 99)) (fun _ => false) 1),
    (.current, .upload (some "raven") (plainForm "raven" none) (fun _ => true) 2),
    (newerBuild, .activate 2 [.activate 2]),
    (newerBuild, .upload (some "crow") (plainForm "crow" none) (fun _ => true) 3)]

theorem registry_guarded_of_stranger :
    let c := (registry exactPydantic "raven").replay ⟨[], ModelDb.empty⟩ strangerRun
    (registry exactPydantic "raven").Guarded (fun e => e.2.showsUploadSecret "raven")
        leavesTrace ModelDb.empty c ∧
      c.log.map leavesTrace = [false, true, true, true, false] ∧
      c.state.models.rows.map (fun m => (m.id, m.name, m.isActive)) = [(2, "raven", true)] := by
  have hrun : (registry exactPydantic "raven").Run (fun _ _ => True) ⟨[], ModelDb.empty⟩
      ((registry exactPydantic "raven").replay ⟨[], ModelDb.empty⟩ strangerRun) :=
    Machine.run_of_admits ⟨trivial, trivial, trivial, trivial, trivial, trivial⟩
  exact ⟨registry_guarded_of_run hrun, by decide +kernel, by decide +kernel⟩

end ModelDb

end Grimnir
