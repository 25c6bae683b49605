import Grimnir.Native.MlSystem
import Grimnir.Spec.ModelOrigin

/-!
# From a job to a prediction

A client submits a job, a daemon trains and uploads, a client activates, Völva polls, loads and
votes.  Seen from Völva the installation is a deployment, seen from the daemons it is a fleet, so
what was shown of each of them holds of it: behind every prediction there is one stored model,
and behind the model of a job the training that made it.

## Key results

- `step_models`: what an event of the fleet does to the registry
- `servingPart`, `fleetPart`: Völva's deployment and the fleet are components of the installation
- `predicted_of_run`: where every prediction comes from, in every run
-/

namespace Grimnir

open Nornir Volva

/-- The predictions that Völva puts. -/
def MlResponse.puts (r : MlResponse) : List Prediction := r.serving.elim [] fun x => x.2.puts

namespace MlSystem

variable {l : MlInstallation}

/-! ## The registry of a fleet -/

/-- The registry after what was asked of it. -/
def answeredModels (inst : Nornir.Installation) (models : ModelDb) :
    Option (Build × ModelEvent) → ModelDb
  | none => models
  | some (build, request) =>
    ((modelMachine inst.py build inst.modelUploadSecret).step models request).2

private theorem serveCall_models_eq (inst : Nornir.Installation) (pid : Nat) (call : FrekiCall)
    (svc : Service) (jobs : JobDb) (models : ModelDb) :
    (serveCall inst pid call svc jobs models).models =
      answeredModels inst models (callUpload inst pid call svc jobs) := by
  cases call with
  | uploadModel form =>
    simp only [serveCall, callUpload, answeredModels, modelMachine]
    split
    · rename_i h
      rw [h]
    · rename_i h
      rw [h]
  | heartbeatDaemon name host => rfl
  | listQueuedJobs limit => rfl
  | claimJob jobId daemonId => rfl
  | heartbeatJob jobId daemonId token =>
    exact serveControl_models _ pid _ _ _ _ _ _ _ jobs models
  | completeJob jobId daemonId token =>
    exact serveControl_models _ pid _ _ _ _ _ _ _ jobs models
  | failJob jobId daemonId token error =>
    exact serveControl_models _ pid _ _ _ _ _ _ _ jobs models

private theorem models_wake (config : NornirConfig) (pid : Nat) (pending : Option Pending)
    (e : NornirEvent) (s : Fleet) : (s.wake config pid pending e).2.models = s.models := by
  rw [wake_eq]
  rfl

/-- What an event of the fleet does to the registry. -/
theorem step_models (inst : Nornir.Installation) (s : Fleet) (e : FleetEvent) :
    (s.step inst e).2.models = answeredModels inst s.models (registryEvent inst s e) := by
  -- only a call that Freki serves, or a client's own request, reaches the registry
  cases e with
  | own pid e =>
    unfold Fleet.step
    dsimp only
    split
    · rfl
    · exact models_wake _ pid _ e s
  | serve pid svc =>
    cases hpending : (s.lines pid).pending with
    | none =>
      simp only [Fleet.step, registryEvent, hpending]
      rfl
    | some awaited =>
      obtain ⟨call, answer⟩ := awaited
      cases answer with
      | none =>
        simp only [Fleet.step, registryEvent, hpending]
        exact serveCall_models_eq inst pid call svc s.jobs s.models
      | some answer =>
        simp only [Fleet.step, registryEvent, hpending]
        rfl
  -- a request whose caller has given it up is served all the same
  | serveLate i svc =>
    cases hlate : s.late[i]? with
    | none =>
      simp only [Fleet.step, registryEvent, hlate]
      rfl
    | some request =>
      obtain ⟨pid, call⟩ := request
      simp only [Fleet.step, registryEvent, hlate]
      exact serveCall_models_eq inst pid call svc s.jobs s.models
  | reply pid =>
    unfold Fleet.step
    dsimp only
    split
    · exact models_wake _ pid _ _ s
    · rfl
  | lose pid error =>
    unfold Fleet.step
    dsimp only
    split
    · exact models_wake _ pid _ _ _
    · rfl
  | client e => cases e <;> rfl

/-! ## Two components -/

/-- Völva's own steps leave the registry alone. -/
private theorem registry_step {d : Deployment} (s : ModelServing) {e : ServingEvent}
    (h : e.isFreki = false) : (s.step d e).2.registry = s.registry := by
  cases e with
  | freki build e => cases h
  | getActive =>
    simp only [ModelServing.step]
    split
    · split <;> rfl
    · rfl
  | getData =>
    simp only [ModelServing.step]
    split <;> rfl
  | requestFailed exc =>
    simp only [ModelServing.step]
    split <;> rfl
  | refreshed =>
    simp only [ModelServing.step]
    split <;> rfl
  | stream e he => rfl

/-- The deployment of Völva is a component of the installation. -/
def servingPart (l : MlInstallation) : Component (mlMachine l) (servingMachine l.deployment) where
  state := serving
  view x := x.2.serving
  unseen s e hview := by
    cases e with
    | fleet e =>
      have hmodels := step_models l.inst s.fleet e
      rw [Option.map_eq_none_iff.mp hview] at hmodels
      exact congrArg (fun models => (⟨models, s.round, s.tasks⟩ : ModelServing)) hmodels
    | volva e h => cases hview
  seen s e x hview := by
    cases e with
    | fleet e =>
      have hmodels := step_models l.inst s.fleet e
      obtain ⟨⟨build, request⟩, hasked, rfl⟩ := Option.map_eq_some_iff.mp hview
      rw [hasked] at hmodels
      exact Prod.ext rfl
        (congrArg (fun models => (⟨models, s.round, s.tasks⟩ : ModelServing)) hmodels.symm)
    | volva e h =>
      cases hview
      have hregistry : (s.serving.step l.deployment e).2.registry = s.serving.registry :=
        registry_step s.serving h
      exact Prod.ext rfl (congrArg (fun models => (⟨models, _, _⟩ : ModelServing)) hregistry)

/-- The fleet is a component of the installation. -/
def fleetPart (l : MlInstallation) : Component (mlMachine l) (fleetMachine l.inst) where
  state s := s.fleet
  view x := x.2.fleet
  unseen s e hview := by
    cases e with
    | fleet e => cases hview
    | volva e h => rfl
  seen s e x hview := by
    cases e with
    | fleet e =>
      cases hview
      rfl
    | volva e h => cases hview

/-! ## What is predicted -/

/-- The daemons run their jobs in the workshop, and Völva's tasks run in one event loop. -/
def Order (l : MlInstallation) (w : Workshop) (c : Config MlSystem MlEvent MlResponse) :
    MlEvent → Prop
  | .fleet e => w.TrainsJobs ((fleetPart l).project c) e
  | .volva e _ => ServingOrder ((servingPart l).project c) e

variable {w : Workshop} {c c' : Config MlSystem MlEvent MlResponse}

/-- Seen from the daemons, a run of the installation is a run of the fleet. -/
private theorem run_fleet (hrun : (mlMachine l).Run (Order l w) c c') :
    (fleetMachine l.inst).Run w.TrainsJobs ((fleetPart l).project c)
      ((fleetPart l).project c') := by
  refine (fleetPart l).run hrun ?_
  intro c e x hok hview
  cases e with
  | fleet e =>
    cases hview
    exact hok
  | volva e h => cases hview

/-- Seen from Völva, it is a run of a deployment. -/
private theorem run_serving (hrun : (mlMachine l).Run (Order l w) c c') :
    (servingMachine l.deployment).Run ServingOrder ((servingPart l).project c)
      ((servingPart l).project c') := by
  refine (servingPart l).run hrun ?_
  intro c e x hok hview
  cases e with
  | fleet e =>
    obtain ⟨⟨build, request⟩, -, rfl⟩ := Option.map_eq_some_iff.mp hview
    exact trivial
  | volva e h =>
    cases hview
    exact hok

/-- `p` is decided by the votes of one stored model, and when this is the model of a job, a daemon
    has made it for a spec that was submitted, or another client has uploaded it. -/
structure Predicted (l : MlInstallation) (w : Workshop) (c : Config MlSystem MlEvent MlResponse)
    (m : TrainedModel) (model : ActiveModel) (p : Prediction) : Prop where
  served : Volva.Served l.deployment ((servingPart l).project c) m model p
  made : ∀ jobId, m.trainingJobId = some jobId →
    HasOrigin l.inst w ((fleetPart l).project c).log m jobId

/-- Where every prediction comes from: in every run of daemons, clients, the reaper, Völva and a
    network that loses and delays requests. -/
theorem predicted_of_run (w : Workshop)
    (hrun : (mlMachine l).Run (Order l w) ⟨[], .start l⟩ c) (e : MlEvent) (hok : Order l w c e)
    (p : Prediction) (hp : p ∈ ((mlMachine l).step c.state e).1.puts) :
    ∃ m model, Predicted l w ((mlMachine l).answer c e) m model p := by
  have hnext : (mlMachine l).Run (Order l w) ⟨[], .start l⟩ ((mlMachine l).answer c e) :=
    hrun.snoc e hok
  cases hview : (servingPart l).view (e, ((mlMachine l).step c.state e).1) with
  | none =>
    rw [MlResponse.puts, show ((mlMachine l).step c.state e).1.serving = none from hview] at hp
    cases hp
  | some x =>
    rw [MlResponse.puts, show ((mlMachine l).step c.state e).1.serving = some x from hview] at hp
    -- Völva's part of the step, and its runs
    have hseen := (servingPart l).seen c.state e x hview
    have hanswer := (servingPart l).project_of_seen hview
    obtain ⟨hfollows, hmodels⟩ := seen_of_run (run_serving hrun)
    have hvoted := voted_of_run (run_serving hnext)
    have hcutting := cutting_of_run (run_taskLog (run_serving hnext))
    rw [hanswer] at hvoted hcutting
    have hputs : p ∈ (((servingPart l).project c).state.step l.deployment x.1).1.puts := by
      rw [show ((servingPart l).project c).state.step l.deployment x.1 = (x.2, _) from hseen]
      exact hp
    obtain ⟨m, model, hserved⟩ := served_of_put hfollows hmodels hvoted hcutting hputs
    rw [← hanswer] at hserved
    -- the job of the model, traced through the fleet's part of the run
    refine ⟨m, model, hserved, fun jobId hjob => ?_⟩
    exact hasOrigin_of_holds (run_fleet hnext) hserved.origin.held hjob

/-- The open installation, with a Völva whose models all answer `kitchen`. -/
def kitchenInstallation : MlInstallation where
  inst := openInstallation
  volva := .current
  joblib := anyClassifier
  extract := fun _ _ => .ok []
  windowSize := 1

/-- The model of the job is activated and loaded. -/
def activatedRun : List MlEvent :=
  kitchenRun.map .fleet ++
    [.fleet (.client (.activate 1 [.activate 1])), .volva .getActive rfl, .volva .getData rfl,
      .volva .refreshed rfl]

private theorem activatedRun_admits :
    (mlMachine kitchenInstallation).Admits (Order kitchenInstallation kitchenWorkshop)
      ⟨[], .start kitchenInstallation⟩ activatedRun := by
  refine ⟨?_, ?_, ?_, ?_, ?_, ?_, ?_, trainsJobs_kitchenTrained rfl, ?_, ?_, ?_, ?_, ?_, trivial,
    trivial, trivial, trivial⟩
  all_goals exact trainsJobs_of_ne fun _ _ => FleetEvent.noConfusion

/-- A row comes then, and the prediction is put. -/
def predictingRun : Config MlSystem MlEvent MlResponse :=
  (mlMachine kitchenInstallation).answer
    ((mlMachine kitchenInstallation).replay ⟨[], .start kitchenInstallation⟩ activatedRun)
    (.volva (.stream (.message (plainRow 1)) rfl) rfl)

theorem predicted_of_predictingRun :
    ∃ m model job pid result,
      Predicted kitchenInstallation kitchenWorkshop predictingRun m model ⟨1, [("kitchen", 1)]⟩ ∧
      job.id = 1 ∧ MadeFor openInstallation kitchenWorkshop
        ((fleetPart kitchenInstallation).project predictingRun).log m job pid result := by
  obtain ⟨m, model, h⟩ := predicted_of_run kitchenWorkshop
    (Machine.run_of_admits activatedRun_admits) (.volva (.stream (.message (plainRow 1)) rfl) rfl)
    rfl ⟨1, [("kitchen", 1)]⟩ (by decide +kernel)
  -- the one row of the registry is the model of the job
  have hjobs : ∀ m ∈ predictingRun.state.fleet.models.models.rows, m.trainingJobId = some 1 := by
    decide +kernel
  obtain ⟨active, hmem⟩ := h.served.origin.held
  have hjob : ({ m with isActive := active } : TrainedModel).trainingJobId = some 1 :=
    hjobs _ hmem
  rcases h.made 1 hjob with ⟨job, pid, result, hid, hmade⟩ | hclient
  · exact ⟨m, model, job, pid, result, h, hid, hmade⟩
  · exact absurd hclient (not_uploadedByClient hjob (by decide +kernel))

end MlSystem

end Grimnir
