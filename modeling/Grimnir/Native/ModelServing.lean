import Grimnir.Native.ModelLoader
import Grimnir.Native.VolvaTasks

/-!
# The model registry and Völva together

A round of `refresh_loop` asks Freki for the active model and then for its bytes.  Freki
answers other requests before, between and after the two, and Völva's `stream_loop` runs
whenever `refresh_loop` waits.
-/

namespace Grimnir.Volva

/-- One Völva and the Freki it polls. -/
structure Deployment where
  py : Pydantic
  /-- Völva's build; Freki is redeployed at will. -/
  volva : Build
  joblib : Joblib
  /-- Freki's upload secret. -/
  secret : String
  extract : Extractor
  windowSize : Int

/-- Where `refresh_loop` is. -/
inductive RefreshRound where
  /-- It sleeps, or its `GET /api/models/active` is on the way. -/
  | polling
  /-- It has the metadata and asks for the bytes. -/
  | described (info : ModelOut)
  /-- `fetch_active` has come to its end and `refresh_loop` has not been resumed. -/
  | fetched (latest : Except LoadError (Option ActiveModel))

structure ModelServing where
  registry : ModelDb
  round : RefreshRound
  tasks : VolvaTasks

/-- The event resumes `refresh_loop`. -/
def TaskEvent.isRefreshed : TaskEvent → Bool
  | .refreshed _ => true
  | _ => false

inductive ServingEvent where
  /-- Freki answers an upload or an activation. -/
  | freki (build : Build) (e : ModelEvent)
  /-- Freki answers `GET /api/models/active`. -/
  | getActive
  /-- Freki answers `GET /api/models/{id}/data`, and the bytes are loaded. -/
  | getData
  /-- The request that Völva awaits raises. -/
  | requestFailed (exc : LoadError)
  /-- `refresh_loop` is resumed behind `fetch_active`. -/
  | refreshed
  /-- `stream_loop` is resumed. -/
  | stream (e : TaskEvent) (h : e.isRefreshed = false)

inductive ServingAnswer where
  | freki (res : Except Failure ModelOut)
  | active (res : Except HTTPException ModelOut)
  | volva (e : TaskEvent) (r : TaskResponse)
  | pending

namespace ModelServing

variable (d : Deployment)

/-- One event. -/
def step (s : ModelServing) : ServingEvent → ServingAnswer × ModelServing
  | .freki build e =>
    let (res, registry) := (modelMachine d.py build d.secret).step s.registry e
    (.freki res, { s with registry := registry })
  | .getActive =>
    match s.round with
    | .polling =>
      match s.registry.activeModel with
      | .ok info => (.active (.ok info), { s with round := .described info })
      | .error exc =>
        let latest := fetchActive d.py d.volva d.joblib (.error exc) s.registry.modelData
        (.active (.error exc), { s with round := .fetched latest })
    | _ => (.pending, s)
  | .getData =>
    match s.round with
    | .described info =>
      -- when the version check fails the request is not made, and the registry not looked at
      let latest := fetchActive d.py d.volva d.joblib (.ok info) s.registry.modelData
      (.pending, { s with round := .fetched latest })
    | _ => (.pending, s)
  | .requestFailed exc =>
    match s.round with
    | .fetched _ => (.pending, s)
    | _ => (.pending, { s with round := .fetched (.error exc) })
  | .refreshed =>
    match s.round with
    | .fetched (.ok latest) =>
      let (r, tasks) := s.tasks.step d.extract d.windowSize (.refreshed latest)
      (.volva (.refreshed latest) r, { s with round := .polling, tasks := tasks })
    | .fetched (.error _) => (.pending, { s with round := .polling })
    | _ => (.pending, s)
  | .stream e _ =>
    let (r, tasks) := s.tasks.step d.extract d.windowSize e
    (.volva e r, { s with tasks := tasks })

/-- `stream_loop` reads nothing while it awaits a `PUT`. -/
def Enabled (s : ModelServing) : ServingEvent → Prop
  | .stream e _ => s.tasks.Enabled e
  | _ => True

/-- An empty registry, and Völva as it starts. -/
def start : ModelServing := ⟨.empty, .polling, .start⟩

end ModelServing

/-- A deployment, from the requests of its registry to the predictions put. -/
def servingMachine (d : Deployment) : Machine ModelServing ServingEvent ServingAnswer :=
  ⟨ModelServing.step d⟩

/-- The steps that one event loop can take. -/
def ServingOrder (c : Config ModelServing ServingEvent ServingAnswer) (e : ServingEvent) : Prop :=
  c.state.Enabled e

end Grimnir.Volva
