import Grimnir.Native.Features
import Grimnir.Native.MlAuth
import Grimnir.ForStd.Machine

/-!
# `freki/routers/models.py` and `trained_models`

The partial unique index `trained_models_one_active` is a field of `ModelDb`.  The single
statement of `activate_model` is the row writes of its sub-statements, all computed from
the snapshot at its start, executed in an order that is given to it; the index is checked
at every row write.
-/

namespace Grimnir

/-- A row of `trained_models`. -/
structure TrainedModel where
  id : Nat
  name : String
  trainingJobId : Option Nat
  isActive : Bool
  metrics : Json
  featureConfig : Json
  modelData : List UInt8
  createdAt : Timestamp

/-- No two rows are active. -/
def OneActive (ms : List TrainedModel) : Prop :=
  ∀ a ∈ ms, ∀ b ∈ ms, a.isActive = true → b.isActive = true → a.id = b.id

instance (ms : List TrainedModel) : Decidable (OneActive ms) :=
  inferInstanceAs (Decidable
    (∀ a ∈ ms, ∀ b ∈ ms, a.isActive = true → b.isActive = true → a.id = b.id))

structure ModelDb where
  models : Table TrainedModel (·.id)
  modelsIdSeq : Nat
  modelsIdBelow : ∀ m ∈ models, m.id < modelsIdSeq
  oneActive : OneActive models.rows

/-- `ModelOut`. -/
structure ModelOut where
  id : Nat
  name : String
  trainingJobId : Option Nat
  isActive : Bool
  metrics : Json
  featureConfig : Json
  sizeBytes : Nat
  createdAt : Timestamp

/-- The projection with `octet_length(model_data)`. -/
def TrainedModel.out (m : TrainedModel) : ModelOut where
  id := m.id
  name := m.name
  trainingJobId := m.trainingJobId
  isActive := m.isActive
  metrics := m.metrics
  featureConfig := m.featureConfig
  sizeBytes := m.modelData.length
  createdAt := m.createdAt

namespace ModelDb

/-! ## Reading -/

/-- `GET /api/models/active`. -/
def activeModel (db : ModelDb) : Except HTTPException ModelOut :=
  match db.models.rows.find? (·.isActive) with
  | none => .error ⟨404, "No active model"⟩
  | some m => .ok m.out

/-- `GET /api/models/{id}/data`. -/
def modelData (modelId : Nat) (db : ModelDb) : Except HTTPException (List UInt8) :=
  match db.models.find? modelId with
  | none => .error ⟨404, "Model not found"⟩
  | some m => .ok m.modelData

/-! ## Uploading -/

/-- `INSERT INTO trained_models`; `is_active` from its default. -/
def insertModel (name : String) (trainingJobId : Option Nat) (metrics featureConfig : Json)
    (modelData : List UInt8) (now : Timestamp) (db : ModelDb) : TrainedModel × ModelDb :=
  let m : TrainedModel :=
    ⟨db.modelsIdSeq, name, trainingJobId, false, metrics, featureConfig, modelData, now⟩
  (m, {
    models := db.models.insert m fun k hk => (db.modelsIdBelow k hk).ne
    modelsIdSeq := db.modelsIdSeq + 1
    modelsIdBelow := by
      intro k hk
      rcases Table.mem_insert.mp hk with hk | rfl
      · exact Nat.lt_succ_of_lt (db.modelsIdBelow k hk)
      · exact Nat.lt_succ_self _
    oneActive := by
      intro a ha b hb hactive hactive'
      rcases Table.mem_insert.mp ha with ha | rfl
      · rcases Table.mem_insert.mp hb with hb | rfl
        · exact db.oneActive a ha b hb hactive hactive'
        · cases hactive'
      · exact nomatch hactive })

/-- The registry after an `INSERT` that the foreign key refused: `nextval` is not rolled back. -/
def skipModelId (db : ModelDb) : ModelDb :=
  { db with
    modelsIdSeq := db.modelsIdSeq + 1
    modelsIdBelow := fun m hm => Nat.lt_succ_of_lt (db.modelsIdBelow m hm) }

/-! ## Activating -/

/-- One row version written by the statement of `activate_model`. -/
inductive RowWrite where
  /-- `SET is_active = FALSE`, by `cleared`. -/
  | clear (id : Nat)
  /-- `SET is_active = TRUE`, by the main `UPDATE`. -/
  | activate (id : Nat)
  deriving DecidableEq, Repr

def RowWrite.apply : RowWrite → TrainedModel → TrainedModel
  | .clear id, m => if m.id = id then { m with isActive := false } else m
  | .activate id, m => if m.id = id then { m with isActive := true } else m

theorem RowWrite.id_apply (w : RowWrite) (m : TrainedModel) : (w.apply m).id = m.id := by
  cases w <;> simp only [RowWrite.apply] <;> split <;> rfl

/-- The row writes of the statement, from its snapshot. -/
def activationWrites (targetId : Nat) (db : ModelDb) : List RowWrite :=
  ((db.models.rows.filter fun m => m.isActive && m.id != targetId).map (.clear ·.id)) ++
    (db.models.rows.filter fun m => m.id = targetId).map (.activate ·.id)

/-- What `trained_models_one_active` raises. -/
def duplicateActive : DBAPIError :=
  ⟨true, "duplicate key value violates unique constraint \"trained_models_one_active\""⟩

/-- One row write, with the index checked on the spot. -/
def writeRow (db : ModelDb) (w : RowWrite) : Except DBAPIError ModelDb :=
  if h : OneActive (db.models.rows.map w.apply) then
    .ok { db with
      models := db.models.update w.apply w.id_apply
      modelsIdBelow := by
        intro m hm
        obtain ⟨m₀, hm₀, rfl⟩ := Table.mem_update.mp hm
        rw [w.id_apply]
        exact db.modelsIdBelow m₀ hm₀
      oneActive := h }
  else .error duplicateActive

/-- The row writes one after the other; a violation ends the statement. -/
def writeRows (order : List RowWrite) (db : ModelDb) : Except DBAPIError ModelDb :=
  order.foldlM writeRow db

/-- `activate_model`, whose statement writes its rows in the given order.  `RETURNING id` is
    empty when the target does not exist, and the request rolls back. -/
def activateModel (modelId : Nat) (order : List RowWrite) (db : ModelDb) :
    Except Failure ModelOut × ModelDb :=
  match writeRows order db with
  | .error exc => (.error (.internal exc), db)
  | .ok written =>
    if (db.models.find? modelId).isNone then (.error (.http ⟨404, "Model not found"⟩), db)
    else
      match written.models.find? modelId with
      | none => (.error (.uncaught "NoResultFound"), written)
      | some m => (.ok m.out, written)

end ModelDb

/-- A form of `POST /api/models`; the JSON fields are what `json.loads` makes of them. -/
structure ModelForm where
  name : String
  metrics : Except String Json
  featureConfig : Except String Json
  trainingJobId : Option Nat
  modelData : List UInt8

/-- What the foreign key on `training_job_id` raises. -/
def unknownTrainingJob : DBAPIError :=
  ⟨true, "insert or update on table \"trained_models\" violates foreign key constraint"⟩

/-- `upload_model` in a given build of Freki.  `jobExists` is the table the foreign key on
    `training_job_id` points to. -/
def uploadModel (py : Pydantic) (build : Build) (secret : String) (provided : Option String)
    (form : ModelForm) (jobExists : Nat → Bool) (now : Timestamp) (db : ModelDb) :
    Except Failure ModelOut × ModelDb :=
  match requireModelUploadSecret secret provided with
  | .error f => (.error f, db)
  | .ok _ =>
    match form.metrics, form.featureConfig with
    | .error exc, _ => (.error (.http ⟨422, s!"Invalid JSON: {exc}"⟩), db)
    | .ok _, .error exc => (.error (.http ⟨422, s!"Invalid JSON: {exc}"⟩), db)
    | .ok (.obj metrics), .ok (.obj featureConfig) =>
      match FeatureConfig.validate py build (.obj featureConfig) with
      | .error errors =>
        let text := py.describe errors
        (.error (.http ⟨422, s!"Invalid feature_config: {text}"⟩), db)
      | .ok _ =>
        if form.modelData = [] then
          (.error (.http ⟨422, "model_data must not be empty"⟩), db)
        else if !form.trainingJobId.all (fun jobId : Nat => fitsInteger jobId) then
          (.error (.internal integerOutOfRange), db)
        else if !form.trainingJobId.all jobExists then
          (.error (.internal unknownTrainingJob), db.skipModelId)
        else
          let (m, db') := db.insertModel form.name form.trainingJobId (.obj metrics)
            (.obj featureConfig) form.modelData now
          (.ok m.out, db')
    | .ok _, .ok _ =>
      (.error (.http ⟨422, "metrics and feature_config must be objects"⟩), db)

/-! ## The model registry as a system -/

inductive ModelEvent where
  | upload (provided : Option String) (form : ModelForm) (jobExists : Nat → Bool)
      (now : Timestamp)
  | activate (modelId : Nat) (order : List ModelDb.RowWrite)

/-- The model registry of one build of Freki. -/
def modelMachine (py : Pydantic) (build : Build) (secret : String) :
    Machine ModelDb ModelEvent (Except Failure ModelOut) where
  step db
    | .upload provided form jobExists now =>
      uploadModel py build secret provided form jobExists now db
    | .activate modelId order => db.activateModel modelId order

/-- The empty registry. -/
def ModelDb.empty : ModelDb where
  models := Table.empty
  modelsIdSeq := 1
  modelsIdBelow := fun _ hm => nomatch hm
  oneActive := fun _ ha => nomatch ha

end Grimnir
