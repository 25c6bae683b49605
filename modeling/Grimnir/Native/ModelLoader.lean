import Grimnir.Native.Predict
import Grimnir.Native.TrainedModels
import Mathlib.Data.List.Sort

/-!
# `volva/model_loader.py`: loading the active model

`fetchActive` refuses a model whose `feature_config.version` is not the `FEATURE_VERSION` of
this build.  The replies of Freki are those of `activeModel` and `modelData`; `joblib.load`
is a parameter.
-/

namespace Grimnir.Volva

/-- The exceptions of `fetch_active`. -/
inductive LoadError where
  /-- `raise_for_status`. -/
  | httpStatus (exc : HTTPException)
  /-- Pydantic's `ValidationError`. -/
  | validation (message : String)
  /-- `ModelLoadError`. -/
  | modelLoad (message : String)
  /-- What `joblib.load` raises. -/
  | joblib (message : String)
  deriving DecidableEq, Repr

/-- An object that `joblib.load` returns, with the attributes that are looked for. -/
structure LoadedObject where
  predict : Option (List UInt32 → Except PredictError String)
  classes : Option (List String)

/-- `joblib.load`. -/
abbrev Joblib := List UInt8 → Except LoadError LoadedObject

/-- `fetch_active` in a given build; `none` when Freki has no active model. -/
def fetchActive (py : Pydantic) (build : Build) (joblib : Joblib)
    (active : Except HTTPException ModelOut)
    (modelData : Nat → Except HTTPException (List UInt8)) :
    Except LoadError (Option ActiveModel) :=
  match active with
  | .error exc => if exc.statusCode = 404 then .ok none else .error (.httpStatus exc)
  | .ok info => do
    let fc ← (FeatureConfig.validate py build info.featureConfig).mapError
      fun errors => .validation (py.describe errors)
    if fc.version ≠ build.featureVersion then
      throw (.modelLoad (s!"model {info.id} feature_config.version={fc.version} " ++
        s!"but this Völva build is at {build.featureVersion}"))
    let data ← (modelData info.id).mapError .httpStatus
    let object ← joblib data
    match object.predict, object.classes with
    | some predict, some classes =>
      return some ⟨info.id, info.name, predict, fc, classes.insertionSort (· ≤ ·), info.createdAt⟩
    | _, _ => throw (.modelLoad "loaded object is not a sklearn classifier")

end Grimnir.Volva
