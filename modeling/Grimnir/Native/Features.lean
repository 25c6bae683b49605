import Grimnir.ForStd.Json
import Grimnir.Native.Schema

/-!
# `csi_models/features.py`: the feature configuration

`FeatureConfig` carries what its validators check as fields, so a configuration that a
service holds is a valid one.  `FEATURE_VERSION` is a constant of each build, and pydantic's
conversions between JSON types are a parameter: only what it does to a value that already
has the field's type matters here.
-/

namespace Grimnir

/-- `Stat`. -/
inductive Stat where
  | mean
  | var
  deriving DecidableEq, Repr

def Stat.name : Stat → String
  | mean => "mean"
  | var => "var"

def Stat.ofName (name : String) : Option Stat :=
  if name = "mean" then some .mean else if name = "var" then some .var else none

/-- A build of the services, with its `FEATURE_VERSION`. -/
structure Build where
  featureVersion : Int
  positive : 1 ≤ featureVersion
  deriving DecidableEq, Repr

/-- The build this repository is at: `FEATURE_VERSION = 1`. -/
def Build.current : Build := ⟨1, by decide⟩

/-- A validated `FeatureConfig`. -/
structure FeatureConfig where
  version : Int
  stats : List Stat
  includeAmplitude : Bool
  includePhase : Bool
  versionPositive : 1 ≤ version
  statsNonempty : stats ≠ []
  statsUnique : stats.Nodup
  atLeastOneChannel : (includeAmplitude || includePhase) = true
  deriving DecidableEq

/-- `FeatureConfig()` in a given build. -/
def FeatureConfig.default (build : Build) : FeatureConfig where
  version := build.featureVersion
  stats := [.mean, .var]
  includeAmplitude := true
  includePhase := false
  versionPositive := build.positive
  statsNonempty := by decide
  statsUnique := by decide
  atLeastOneChannel := by decide

/-- `model_dump(mode="json")`. -/
def FeatureConfig.dump (fc : FeatureConfig) : Json :=
  .obj [("version", .int fc.version), ("stats", .arr (fc.stats.map fun s => .str s.name)),
    ("include_amplitude", .bool fc.includeAmplitude), ("include_phase", .bool fc.includePhase)]

/-- A CSI row as a client receives it from Freki, as far as it is read; a malformed row may
    lack `receiver_id` or `label`. -/
structure RowDoc where
  time : Timestamp
  receiverId : Option Int
  label : Option String
  amplitude : List UInt32
  phase : List UInt32
  deriving DecidableEq, Repr

/-- The document of a row that carries `label`. -/
def CsiRow.doc (label : String) (r : CsiRow) : RowDoc where
  time := r.time
  receiverId := some r.receiverId
  label := some label
  amplitude := r.amplitude
  phase := r.phase

/-- One entry of a pydantic `ValidationError`. -/
structure FieldError where
  loc : String
  message : String
  deriving DecidableEq, Repr

/-- Pydantic: its lax conversions to `int` and `bool`, which keep a value of the field's
    type, and the text of a `ValidationError`. -/
structure Pydantic where
  toInt : Json → Option Int
  toBool : Json → Option Bool
  describe : List FieldError → String
  toInt_int : ∀ n, toInt (.int n) = some n
  toBool_bool : ∀ b, toBool (.bool b) = some b

/-- Pydantic on documents whose members already have their types. -/
def exactPydantic : Pydantic where
  toInt
    | .int n => some n
    | _ => none
  toBool
    | .bool b => some b
    | _ => none
  describe errors := "\n".intercalate (errors.map (·.message))
  toInt_int := fun _ => rfl
  toBool_bool := fun _ => rfl

namespace FeatureConfig

/-- `version: int = Field(default=FEATURE_VERSION, ge=1)`. -/
def validateVersion (py : Pydantic) (build : Build) :
    Option Json → Except FieldError { v : Int // 1 ≤ v }
  | none => .ok ⟨build.featureVersion, build.positive⟩
  | some doc =>
    match py.toInt doc with
    | none => .error ⟨"version", "Input should be a valid integer"⟩
    | some v =>
      if h : 1 ≤ v then .ok ⟨v, h⟩
      else .error ⟨"version", "Input should be greater than or equal to 1"⟩

/-- One entry of `stats: list[Stat]`. -/
def validateStat : Json → Option Stat
  | .str name => Stat.ofName name
  | _ => none

/-- `stats: list[Stat] = Field(…, min_length=1)` and `_stats_unique`. -/
def validateStats : Option Json → Except FieldError { s : List Stat // s ≠ [] ∧ s.Nodup }
  | none => .ok ⟨[.mean, .var], by decide⟩
  | some (.arr items) =>
    match items.mapM validateStat with
    | none => .error ⟨"stats", "Input should be 'mean' or 'var'"⟩
    | some stats =>
      if hne : stats ≠ [] then
        if hnd : stats.Nodup then .ok ⟨stats, hne, hnd⟩
        else .error ⟨"stats", "Value error, stats entries must be unique"⟩
      else .error ⟨"stats", "List should have at least 1 item after validation, not 0"⟩
  | some _ => .error ⟨"stats", "Input should be a valid list"⟩

/-- `include_amplitude: bool = True` and `include_phase: bool = False`. -/
def validateFlag (py : Pydantic) (field : String) (default : Bool) :
    Option Json → Except FieldError Bool
  | none => .ok default
  | some doc =>
    match py.toBool doc with
    | none => .error ⟨field, "Input should be a valid boolean"⟩
    | some b => .ok b

/-- The error of a field, if it has one. -/
def errorsOf {α : Type} : Except FieldError α → List FieldError
  | .ok _ => []
  | .error e => [e]

/-- `FeatureConfig.model_validate(doc)` in a given build.  `_at_least_one_channel` runs when
    every field is valid; unknown members are ignored. -/
def validate (py : Pydantic) (build : Build) (doc : Json) :
    Except (List FieldError) FeatureConfig :=
  match doc with
  | .obj members =>
    let version := validateVersion py build (Json.lookup members "version")
    let stats := validateStats (Json.lookup members "stats")
    let amplitude :=
      validateFlag py "include_amplitude" true (Json.lookup members "include_amplitude")
    let phase := validateFlag py "include_phase" false (Json.lookup members "include_phase")
    match version, stats, amplitude, phase with
    | .ok v, .ok s, .ok a, .ok p =>
      if h : (a || p) = true then .ok ⟨v.1, s.1, a, p, v.2, s.2.1, s.2.2, h⟩
      else .error [⟨"",
        "Value error, at least one of include_amplitude/include_phase must be True"⟩]
    | _, _, _, _ =>
      .error (errorsOf version ++ errorsOf stats ++ errorsOf amplitude ++ errorsOf phase)
  | _ => .error [⟨"", "Input should be a valid dictionary or instance of FeatureConfig"⟩]

/-- The defaults pass their own checks. -/
theorem validate_default (py : Pydantic) (build : Build) :
    validate py build (.obj []) = .ok (.default build) :=
  rfl

end FeatureConfig

end Grimnir
