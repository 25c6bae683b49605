import Grimnir.Native.ModelServing
import Grimnir.Native.NornirFleet

/-!
# Nornir, Freki and Völva together

The daemons, the clients and Völva work on the job queue and the model registry of one Freki,
whose replicas may be of different builds.  Völva polls the registry while daemons upload and
clients activate.
-/

namespace Grimnir

open Nornir Volva

/-- The event is a request that Völva does not make. -/
def Volva.ServingEvent.isFreki : ServingEvent → Bool
  | .freki _ _ => true
  | _ => false

structure MlInstallation where
  inst : Nornir.Installation
  /-- Völva's build. -/
  volva : Build
  joblib : Joblib
  extract : Extractor
  windowSize : Int

/-- What Völva sees of the installation. -/
def MlInstallation.deployment (l : MlInstallation) : Deployment where
  py := l.inst.py
  volva := l.volva
  joblib := l.joblib
  secret := l.inst.modelUploadSecret
  extract := l.extract
  windowSize := l.windowSize

structure MlSystem where
  fleet : Fleet
  round : RefreshRound
  tasks : VolvaTasks

inductive MlEvent where
  | fleet (e : FleetEvent)
  /-- Freki answers Völva, or one of its tasks is resumed. -/
  | volva (e : ServingEvent) (h : e.isFreki = false)

/-- What an event is for the fleet and for Völva. -/
structure MlResponse where
  fleet : Option (FleetEvent × FleetResponse)
  serving : Option (ServingEvent × ServingAnswer)

namespace MlSystem

/-- What a call of daemon `pid` asks of the registry, with the build that answers. -/
def callUpload (inst : Nornir.Installation) (pid : Nat) (call : FrekiCall) (svc : Service)
    (jobs : JobDb) : Option (Build × ModelEvent) :=
  match call with
  | .uploadModel form =>
    some (svc.build, .upload (header (inst.daemons pid).modelUploadSharedSecret) form
      (fun id => (jobs.jobs.find? id).isSome) svc.now)
  | _ => none

/-- What an event of the fleet asks of the registry.  An activation does not depend on the
    build. -/
def registryEvent (inst : Nornir.Installation) (s : Fleet) :
    FleetEvent → Option (Build × ModelEvent)
  | .serve pid svc =>
    match (s.lines pid).pending with
    | some ⟨call, none⟩ => callUpload inst pid call svc s.jobs
    | _ => none
  | .serveLate i svc =>
    match s.late[i]? with
    | some (pid, call) => callUpload inst pid call svc s.jobs
    | none => none
  | .client (.upload provided form build now) =>
    some (build, .upload provided form (fun id => (s.jobs.jobs.find? id).isSome) now)
  | .client (.activate modelId order) => some (.current, .activate modelId order)
  | _ => none

/-- The registry of the fleet, as Völva finds it. -/
def serving (s : MlSystem) : ModelServing := ⟨s.fleet.models, s.round, s.tasks⟩

/-- One event. -/
def step (l : MlInstallation) (s : MlSystem) : MlEvent → MlResponse × MlSystem
  | .fleet e =>
    let (response, fleet) := s.fleet.step l.inst e
    let asked := (registryEvent l.inst s.fleet e).map fun (build, request) =>
      (ServingEvent.freki build request,
        ServingAnswer.freki ((modelMachine l.inst.py build l.inst.modelUploadSecret).step
          s.fleet.models request).1)
    (⟨some (e, response), asked⟩, { s with fleet := fleet })
  | .volva e _ =>
    let (answer, serving) := s.serving.step l.deployment e
    (⟨none, some (e, answer)⟩, { s with round := serving.round, tasks := serving.tasks })

/-- An empty installation, whose daemons and whose Völva have started. -/
def start (l : MlInstallation) : MlSystem := ⟨.boot l.inst, .polling, .start⟩

end MlSystem

/-- The installation. -/
def mlMachine (l : MlInstallation) : Machine MlSystem MlEvent MlResponse where
  step s e := s.step l e

end Grimnir
