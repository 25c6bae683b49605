import Grimnir.ForStd.Dict
import Grimnir.Native.Features
import Grimnir.Native.JobDb

/-!
# `nornir/train.py`: running one training job

`windows` is `_windows`, `cutWindows` the windows it hands to feature extraction, and `runJob`
is `run_job`.  Feature extraction and the scikit-learn calls are parameters.
-/

namespace Grimnir.Nornir

/-- The exception that ends a job. -/
inductive JobError where
  /-- `KeyError`. -/
  | keyError (key : String)
  /-- Pydantic's `ValidationError`. -/
  | validation (message : String)
  /-- `int(…)` raises. -/
  | notAnInteger
  /-- `ValueError`. -/
  | valueError (message : String)
  /-- An exception of the Freki client, of feature extraction or of scikit-learn. -/
  | raised (message : String)
  deriving DecidableEq, Repr

/-- `DEFAULT_WINDOW_SIZE`. -/
def defaultWindowSize : Int := 50

/-! ## Windowing -/

/-- The per-receiver backlog of `_windows`. -/
structure WindowState where
  buffers : Dict Int (List RowDoc)
  labels : Dict Int String

/-- `buffers = {}` and `labels = {}`. -/
def WindowState.empty : WindowState := ⟨.empty, .empty⟩

/-- A window: the receiver whose buffer filled, its rows and their label. -/
structure Cut where
  receiverId : Int
  rows : List RowDoc
  label : String
  deriving DecidableEq, Repr

/-- `row[key]`. -/
def getItem {α : Type} (key : String) : Option α → Except JobError α
  | some a => .ok a
  | none => .error (.keyError key)

/-- One row, and the window it completes.  A label transition drops the partial window. -/
def WindowState.step (windowSize : Int) (s : WindowState) (row : RowDoc) :
    Except JobError (Option Cut × WindowState) := do
  let rid ← getItem "receiver_id" row.receiverId
  let label ← getItem "label" row.label
  let buf := (s.buffers.get? rid).getD []
  let buf := if (s.labels.get? rid).all (· = label) then buf else []
  let buf := buf ++ [row]
  let labels := s.labels.set rid label
  if windowSize ≤ buf.length then
    return (some ⟨rid, buf, label⟩, ⟨s.buffers.set rid [], labels⟩)
  else
    return (none, ⟨s.buffers.set rid buf, labels⟩)

/-- The windows that `_windows` cuts from a stream; a final partial buffer is dropped. -/
def cutWindows (windowSize : Int) : WindowState → List RowDoc → Except JobError (List Cut)
  | _, [] => return []
  | s, row :: rows => do
    let (cut, s) ← s.step windowSize row
    let cuts ← cutWindows windowSize s rows
    return cut.toList ++ cuts

/-- A feature vector, as the words of its `float32` entries. -/
abbrev FeatureVector := List UInt32

/-- `_windows`: the features and the label of each window, extracted as it is cut. -/
def windows (extract : List RowDoc → Except JobError FeatureVector) (windowSize : Int) :
    WindowState → List RowDoc → Except JobError (List (FeatureVector × String))
  | _, [] => return []
  | s, row :: rows => do
    match ← s.step windowSize row with
    | (none, s) => windows extract windowSize s rows
    | (some cut, s) =>
      let features ← extract cut.rows
      let rest ← windows extract windowSize s rows
      return (features, cut.label) :: rest

/-! ## Training -/

/-- What `run_job` calls: `int` of a string, `extract_features` of this build, and
    `_fit_model` with `_serialize`, which give the model's bytes and the metrics. -/
structure Trainer where
  intOfStr : String → Option Int
  extractFeatures : List RowDoc → FeatureConfig → Except JobError FeatureVector
  fit : List FeatureVector → List String → Dict String Json →
    Except JobError (List UInt8 × Dict String Json)

/-- `(model_bytes, metrics, feature_config_dict)`. -/
structure JobResult where
  modelBytes : List UInt8
  metrics : Dict String Json
  featureConfig : Json

/-- `DEFAULT_HYPERPARAMS`. -/
def defaultHyperparams : Dict String Json :=
  ⟨[("n_estimators", .int 100), ("max_depth", .int 12), ("random_state", .int 42),
    ("n_jobs", .int (-1))], by decide⟩

/-- `int(spec.get("hyperparams", {}).get("window_size", DEFAULT_WINDOW_SIZE))`. -/
def jobWindowSize (intOfStr : String → Option Int) (spec : SpecDoc) : Except JobError Int :=
  match Json.lookup spec.hyperparams "window_size" with
  | none => .ok defaultWindowSize
  | some doc =>
    match doc.toInt intOfStr with
    | some windowSize => .ok windowSize
    | none => .error .notAnInteger

/-- `_collect_windows`: the features and labels of the windows, and the number of rows. -/
def collectWindows (trainer : Trainer) (windowSize : Int) (featureConfig : FeatureConfig)
    (rows : List RowDoc) : Except JobError (List FeatureVector × List String × Nat) := do
  let windows ← windows (trainer.extractFeatures · featureConfig) windowSize .empty rows
  let features := windows.map Prod.fst
  if features.isEmpty then
    throw (.valueError "no training windows produced — time window likely too short")
  let widths := (features.map List.length).dedup
  if 1 < widths.length then
    let sortedWidths := widths.insertionSort (· ≤ ·)
    throw (.valueError (s!"inconsistent feature widths across windows: {sortedWidths} " ++
      "(did antenna/subcarrier count change mid-run?)"))
  return (features, windows.map Prod.snd, rows.length)

/-- `run_job`, with the rows that `iter_training_data` streams. -/
def runJob (py : Pydantic) (build : Build) (trainer : Trainer) (spec : SpecDoc)
    (stream : Except JobError (List RowDoc)) : Except JobError JobResult := do
  let featureConfig ←
    (FeatureConfig.validate py build
      (if spec.featureConfig.truthy then spec.featureConfig else .obj [])).mapError
        fun errors => .validation (py.describe errors)
  let windowSize ← jobWindowSize trainer.intOfStr spec
  let hyperparams := spec.hyperparams.foldl (fun d p => d.set p.1 p.2) defaultHyperparams
  -- `window_size` is a windowing knob, not an sklearn parameter
  let hyperparams := hyperparams.deleteWhere fun p => p.1 = "window_size"
  let rows ← stream
  let (features, targets, rowCount) ← collectWindows trainer windowSize featureConfig rows
  let (modelBytes, metrics) ← trainer.fit features targets hyperparams
  let metrics := metrics.set "n_rows_fetched" (.int rowCount)
  let metrics := metrics.set "window_size" (.int windowSize)
  let metrics := metrics.set "feature_version" (.int build.featureVersion)
  return ⟨modelBytes, metrics, featureConfig.dump⟩

end Grimnir.Nornir
