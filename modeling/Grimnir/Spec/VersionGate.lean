import Grimnir.ForStd.Except
import Grimnir.Native.JobSystem
import Grimnir.Native.ModelLoader
import Grimnir.Native.Train
import Grimnir.Spec.ModelRegistry

/-!
# The feature-version gate

A job's `feature_config` is validated when the job is created, when it is run, when the
model is uploaded and when Völva loads it, each time by another build.  The version that
reaches Völva is the one the document names, or the default of the build that validated
the job; the build that extracted the features never writes its own.

## Key results

- `validate_obj_iff`: an object is valid exactly when each field is
- `validate_version` / `validate_build`: what each validation makes of the version
- `form_version`: the version that reaches `upload_model` is the declared one
- `fetchActive_accepts_iff`: which Völva builds accept a stored model
- `gate_sound_iff`: the gate is sound exactly when the declared version is the extractor's
- `newer_extractor_accepted`: a job for which it is not
-/

namespace Grimnir

namespace FeatureConfig

variable {py : Pydantic} {build : Build} {fc : FeatureConfig}

/-- An object is valid exactly when each field is. -/
theorem validate_obj_iff {members : List (String × Json)} :
    validate py build (.obj members) = .ok fc ↔
      validateVersion py build (Json.lookup members "version") =
          .ok ⟨fc.version, fc.versionPositive⟩ ∧
        validateStats (Json.lookup members "stats") =
          .ok ⟨fc.stats, fc.statsNonempty, fc.statsUnique⟩ ∧
        validateFlag py "include_amplitude" true (Json.lookup members "include_amplitude") =
          .ok fc.includeAmplitude ∧
        validateFlag py "include_phase" false (Json.lookup members "include_phase") =
          .ok fc.includePhase := by
  constructor
  · intro h
    simp only [validate] at h
    split at h
    · rename_i hversion hstats hamplitude hphase
      split at h
      · cases h
        exact ⟨hversion, hstats, hamplitude, hphase⟩
      · cases h
    · cases h
  · intro ⟨hversion, hstats, hamplitude, hphase⟩
    simp only [validate, hversion, hstats, hamplitude, hphase]
    rw [dif_pos fc.atLeastOneChannel]

/-- The version is the one the document names, or the default of the build. -/
theorem validate_version {doc : Json} (h : validate py build doc = .ok fc) :
    ∃ members, doc = .obj members ∧
      match Json.lookup members "version" with
      | none => fc.version = build.featureVersion
      | some version => py.toInt version = some fc.version := by
  cases doc with
  | obj members =>
    refine ⟨members, rfl, ?_⟩
    have hversion := (validate_obj_iff.mp h).1
    cases hlookup : Json.lookup members "version" with
    | none =>
      rw [hlookup] at hversion
      exact (congrArg Subtype.val (Except.ok.inj hversion)).symm
    | some version =>
      simp only [hlookup, validateVersion] at hversion
      split at hversion
      · cases hversion
      · rename_i v hv
        split at hversion
        · exact hv.trans (congrArg some (congrArg Subtype.val (Except.ok.inj hversion)))
        · cases hversion
  | _ => cases h

/-- A valid document is valid in every build; a default version is that build's. -/
theorem validate_build {members : List (String × Json)}
    (h : validate py build (.obj members) = .ok fc) (build' : Build) :
    ∃ fc', validate py build' (.obj members) = .ok fc' ∧
      fc'.version = match Json.lookup members "version" with
        | none => build'.featureVersion
        | some _ => fc.version := by
  obtain ⟨hversion, hstats, hamplitude, hphase⟩ := validate_obj_iff.mp h
  -- the other fields have the same defaults in every build
  cases hlookup : Json.lookup members "version" with
  | none =>
    refine ⟨{ fc with version := build'.featureVersion, versionPositive := build'.positive },
      validate_obj_iff.mpr ⟨?_, hstats, hamplitude, hphase⟩, rfl⟩
    rw [hlookup]
    rfl
  | some version =>
    refine ⟨fc, validate_obj_iff.mpr ⟨?_, hstats, hamplitude, hphase⟩, rfl⟩
    rw [hlookup] at hversion ⊢
    exact hversion

/-- A valid object names the version `n` when it has a version and this is the one it was
    validated to. -/
private theorem names_iff {members : List (String × Json)}
    (h : validate py build (.obj members) = .ok fc) {n : Int} :
    (Json.lookup members "version").bind py.toInt = some n ↔
      (Json.lookup members "version").isSome ∧ fc.version = n := by
  obtain ⟨members', hmembers, hversion⟩ := validate_version h
  cases hmembers
  cases hlookup : Json.lookup members "version" with
  | none => simp
  | some version =>
    rw [hlookup] at hversion
    simp [hversion]

/-- The dumped configuration names its version. -/
private theorem lookup_dump (fc : FeatureConfig) :
    ∃ members, fc.dump = .obj members ∧
      Json.lookup members "version" = some (.int fc.version) :=
  ⟨_, rfl, rfl⟩

end FeatureConfig

open ModelDb Nornir Volva

/-! ## From a submission to a stored model -/

/-- The builds and services between a job spec and a stored model: Freki as it creates the
    job, and Nornir as it extracts the features. -/
structure Pipeline where
  py : Pydantic
  freki : Build
  nornir : Build
  trainer : Trainer

/-- A model on its way to Freki: the result of a job, or a form of any other client with
    features from Nornir's extractor. -/
inductive Submission where
  | job (request : JobRequest) (rooms : List Room) (now : Timestamp) (db : JobDb)
      (stream : Except JobError (List RowDoc)) (name : String)
  | upload (form : ModelForm)

namespace Submission

/-- The form that reaches `upload_model`, if the job is created and its training succeeds. -/
def form? (p : Pipeline) : Submission → Option ModelForm
  | .job request rooms now db stream name =>
    match request.validate p.py p.freki with
    | .error _ => none
    | .ok spec =>
      match createJob rooms spec now db with
      | (.error _, _) => none
      | (.ok created, _) =>
        match runJob p.py p.nornir p.trainer created.spec stream with
        | .error _ => none
        | .ok result => some ⟨name, .ok (.obj result.metrics.rows), .ok result.featureConfig,
            some created.id, result.modelBytes⟩
  | .upload form => some form

/-- `upload_model` of some build lets the submission through: `out` is what it answers,
    `data` the bytes it stores and `db` the registry it leaves. -/
def Stored (p : Pipeline) (sub : Submission) (out : ModelOut) (data : List UInt8)
    (db : ModelDb) : Prop :=
  ∃ form, sub.form? p = some form ∧ form.modelData = data ∧
    ∃ build secret provided jobExists now before,
      uploadModel p.py build secret provided form jobExists now before = (.ok out, db)

/-- The version a submission declares: what its configuration names, and for a job whose
    configuration names none the `FEATURE_VERSION` of the build that created it. -/
def declaredVersion (p : Pipeline) : Submission → Option Int
  | .job request _ _ _ _ _ =>
    match request.featureConfig with
    | some (.obj members) =>
      match Json.lookup members "version" with
      | some version => p.py.toInt version
      | none => some p.freki.featureVersion
    | _ => some p.freki.featureVersion
  | .upload form =>
    match form.featureConfig with
    | .ok (.obj members) => (Json.lookup members "version").bind p.py.toInt
    | _ => none

end Submission

/-- What `run_job` returns is the dump of the configuration it validated. -/
private theorem runJob_featureConfig {py : Pydantic} {build : Build} {trainer : Trainer}
    {spec : SpecDoc} {stream : Except JobError (List RowDoc)} {result : Nornir.JobResult}
    (h : runJob py build trainer spec stream = .ok result) :
    ∃ fc, FeatureConfig.validate py build
        (if spec.featureConfig.truthy then spec.featureConfig else .obj []) = .ok fc ∧
      result.featureConfig = fc.dump := by
  obtain ⟨fc, hvalid, h⟩ := Except.bind_eq_ok.mp h
  -- the build's own version only goes into the metrics
  obtain ⟨windowSize, -, h⟩ := Except.bind_eq_ok.mp h
  obtain ⟨rows, -, h⟩ := Except.bind_eq_ok.mp h
  obtain ⟨collected, -, h⟩ := Except.bind_eq_ok.mp h
  obtain ⟨fitted, -, h⟩ := Except.bind_eq_ok.mp h
  cases h
  exact ⟨fc, Except.mapError_eq_ok.mp hvalid, rfl⟩

/-- A created job has the dump of its spec. -/
private theorem createJob_spec {rooms : List Room} {spec : JobSpec} {now : Timestamp}
    {db db' : JobDb} {created : JobOut} (h : createJob rooms spec now db = (.ok created, db')) :
    created.spec = spec.dump := by
  unfold createJob at h
  split at h
  · cases h
  · dsimp only at h
    split at h
    · cases h
    · cases h
      rfl

private theorem JobRequest.validate_featureConfig {py : Pydantic} {build : Build}
    {request : JobRequest} {spec : JobSpec} (h : request.validate py build = .ok spec) :
    request.validateFeatureConfig py build = .ok spec.featureConfig := by
  unfold JobRequest.validate at h
  cases hfc : request.validateFeatureConfig py build with
  | error errors =>
    rw [hfc] at h
    cases h
  | ok fc =>
    rw [hfc] at h
    dsimp only at h
    by_cases hrooms : 1 ≤ request.rooms.length ∧ request.rooms.length ≤ 32
    · rw [dif_pos hrooms] at h
      cases h
      rfl
    · rw [dif_neg hrooms] at h
      cases h

/-- A valid request declares the version of its spec. -/
private theorem declaredVersion_job {p : Pipeline} {request : JobRequest} {spec : JobSpec}
    (h : request.validate p.py p.freki = .ok spec) (rooms : List Room) (now : Timestamp)
    (db : JobDb) (stream : Except JobError (List RowDoc)) (name : String) :
    (Submission.job request rooms now db stream name).declaredVersion p =
      some spec.featureConfig.version := by
  obtain ⟨members, hmembers, hversion⟩ :=
    FeatureConfig.validate_version (JobRequest.validate_featureConfig h)
  unfold Submission.declaredVersion
  dsimp only
  -- `default_factory` validates like an empty object
  cases hdoc : request.featureConfig with
  | none =>
    rw [hdoc] at hmembers
    cases hmembers
    exact congrArg some hversion.symm
  | some doc =>
    rw [hdoc] at hmembers
    cases hmembers
    cases hlookup : Json.lookup members "version" with
    | none =>
      rw [hlookup] at hversion
      simp only [hlookup, hversion]
    | some version =>
      rw [hlookup] at hversion
      simp only [hlookup, hversion]

/-- Validating a dump again keeps its version, whatever the build. -/
private theorem FeatureConfig.version_of_validate_dump {py : Pydantic} {build : Build}
    {fc fc' : FeatureConfig} (h : FeatureConfig.validate py build fc.dump = .ok fc') :
    fc'.version = fc.version := by
  obtain ⟨members, hmembers, hversion⟩ := FeatureConfig.validate_version h
  -- a dump always names its version, so no default comes in
  obtain ⟨members', hdump, hlookup⟩ := fc.lookup_dump
  rw [hdump] at hmembers
  cases hmembers
  rw [hlookup] at hversion
  exact (Option.some.inj ((py.toInt_int fc.version).symm.trans hversion)).symm

/-- The configuration that reaches `upload_model` names the version that was declared. -/
theorem form_version {p : Pipeline} {sub : Submission} {form : ModelForm}
    (h : sub.form? p = some form) {members : List (String × Json)}
    (hdoc : form.featureConfig = .ok (.obj members)) :
    (Json.lookup members "version").bind p.py.toInt = sub.declaredVersion p := by
  -- an upload carries its own document, a job the one it was created with
  cases sub with
  | upload form' =>
    cases h
    simp only [Submission.declaredVersion, hdoc]
  | job request rooms now db stream name =>
    unfold Submission.form? at h
    dsimp only at h
    split at h
    · cases h
    · rename_i spec hspec
      split at h
      · cases h
      · rename_i created db' hcreated
        split at h
        · cases h
        · rename_i result hresult
          cases h
          obtain ⟨fc, hvalid, hdump⟩ := runJob_featureConfig hresult
          rw [createJob_spec hcreated] at hvalid
          -- the stored configuration is never empty
          have hfc : fc.version = spec.featureConfig.version :=
            FeatureConfig.version_of_validate_dump hvalid
          obtain ⟨members', hmembers', hlookup⟩ := fc.lookup_dump
          rw [hdump, hmembers'] at hdoc
          cases hdoc
          rw [hlookup, declaredVersion_job hspec, ← hfc]
          exact p.py.toInt_int fc.version

/-! ## What Völva accepts -/

/-- The bytes are a classifier for `joblib.load`. -/
def Loads (joblib : Joblib) (data : List UInt8) : Prop :=
  ∃ predict classes, joblib data = .ok ⟨some predict, some classes⟩

/-- A build accepts a model whose configuration was valid at upload exactly when the bytes
    load and the configuration names this build's version, or names none. -/
theorem fetchActive_accepts_iff {py : Pydantic} {build : Build} {joblib : Joblib}
    {info : ModelOut} {modelData : Nat → Except HTTPException (List UInt8)} {data : List UInt8}
    {members : List (String × Json)} {fc : FeatureConfig}
    (hdoc : info.featureConfig = .obj members)
    (hvalid : FeatureConfig.validate py build (.obj members) = .ok fc)
    (hdata : modelData info.id = .ok data) (volva : Build) :
    (∃ model, fetchActive py volva joblib (.ok info) modelData = .ok (some model)) ↔
      ((Json.lookup members "version").isSome → fc.version = volva.featureVersion) ∧
        Loads joblib data := by
  obtain ⟨fc', hvalid', hversion⟩ := FeatureConfig.validate_build hvalid volva
  rw [← hdoc] at hvalid'
  -- a document without a version gets this build's own and passes the comparison
  have hgate : fc'.version = volva.featureVersion ↔
      ((Json.lookup members "version").isSome → fc.version = volva.featureVersion) := by
    rw [hversion]
    cases Json.lookup members "version" with
    | none => simp
    | some version => simp
  constructor
  -- the two refusals of the gate, then the two of the loader
  · rintro ⟨model, h⟩
    unfold fetchActive at h
    obtain ⟨fc'', hfc'', h⟩ := Except.bind_eq_ok.mp h
    have heq : fc' = fc'' := Except.ok.inj (hvalid'.symm.trans (Except.mapError_eq_ok.mp hfc''))
    subst heq
    split at h
    · cases h
    · rename_i hne
      obtain ⟨data', hdata', h⟩ := Except.bind_eq_ok.mp h
      rw [hdata] at hdata'
      cases hdata'
      obtain ⟨object, hobject, h⟩ := Except.bind_eq_ok.mp h
      split at h
      · rename_i predict classes hpredict hclasses
        refine ⟨hgate.mp (not_not.mp hne), predict, classes, ?_⟩
        rw [hobject, ← hpredict, ← hclasses]
      · cases h
  -- neither refuses, so the model is the one that the row describes
  · rintro ⟨hnamed, predict, classes, hloads⟩
    refine ⟨⟨info.id, info.name, predict, fc', classes.insertionSort (· ≤ ·), info.createdAt⟩, ?_⟩
    refine Except.bind_eq_ok.mpr ⟨fc', Except.mapError_eq_ok.mpr hvalid', ?_⟩
    rw [if_neg (not_not.mpr (hgate.mpr hnamed))]
    refine Except.bind_eq_ok.mpr ⟨data, Except.mapError_eq_ok.mpr hdata, ?_⟩
    exact Except.bind_eq_ok.mpr ⟨⟨some predict, some classes⟩, hloads, rfl⟩

/-- A loaded model has the id of the active one. -/
theorem fetchActive_id {py : Pydantic} {volva : Build} {joblib : Joblib}
    {active : Except HTTPException ModelOut}
    {modelData : Nat → Except HTTPException (List UInt8)} {model : ActiveModel}
    (h : fetchActive py volva joblib active modelData = .ok (some model)) :
    ∃ info, active = .ok info ∧ model.id = info.id := by
  unfold fetchActive at h
  split at h
  · split at h <;> cases h
  · rename_i info
    obtain ⟨fc, -, h⟩ := Except.bind_eq_ok.mp h
    split at h
    · cases h
    · obtain ⟨data, -, h⟩ := Except.bind_eq_ok.mp h
      obtain ⟨object, -, h⟩ := Except.bind_eq_ok.mp h
      split at h
      · cases h
        exact ⟨info, rfl, rfl⟩
      · cases h

/-! ## The gate -/

/-- Whatever requests Freki answers after the upload, before and between the two requests of
    `fetch_active`: a Völva that loads the model is at the version of its extractor. -/
def GateSound (p : Pipeline) (joblib : Joblib) (secret : String) (out : ModelOut)
    (db : ModelDb) : Prop :=
  ∀ c c', (registry p.py secret).Run Executed ⟨[], db⟩ c →
    (registry p.py secret).Run Executed c c' →
      ∀ (volva : Build) (model : ActiveModel),
        fetchActive p.py volva joblib c.state.activeModel (c'.state.modelData ·) =
            .ok (some model) →
          model.id = out.id → volva.featureVersion = p.nornir.featureVersion

/-- The gate is sound for a stored model exactly when the declared version is the one of the
    build that extracted the features, unless the bytes do not load at all. -/
theorem gate_sound_iff (p : Pipeline) (joblib : Joblib) (secret : String) (sub : Submission)
    (out : ModelOut) (data : List UInt8) (db : ModelDb) (h : sub.Stored p out data db) :
    GateSound p joblib secret out db ↔
      sub.declaredVersion p = some p.nornir.featureVersion ∨ ¬Loads joblib data := by
  obtain ⟨form, hform, hbytes, build, _, _, _, _, _, hstored⟩ := h
  obtain ⟨m, members, fc, rfl, hholds, hmembers, hdata, hdoc, hvalid⟩ :=
    uploadModel_stored hstored
  rw [← form_version hform hdoc, FeatureConfig.names_iff hvalid, ← hbytes, ← hdata]
  have haccepts : ∀ {db : ModelDb}, db.Holds m → ∀ volva : Build,
      (∃ model, fetchActive p.py volva joblib
        (.ok ({ m with isActive := true } : TrainedModel).out) (db.modelData ·) =
          .ok (some model)) ↔
        ((Json.lookup members "version").isSome → fc.version = volva.featureVersion) ∧
          Loads joblib m.modelData :=
    fun hheld volva => fetchActive_accepts_iff hmembers hvalid hheld.modelData volva
  constructor
  · intro hsound
    by_cases hloads : Loads joblib m.modelData
    · left
      obtain ⟨c, hrun, hactive⟩ :=
        Holds.exists_active (c := ⟨[], db⟩) hholds p.py secret build
      have hc : c.state.Holds m := Holds.run (c := ⟨[], db⟩) hholds hrun
      -- a build that accepts the model is the extractor's
      have hversion : ∀ volva : Build, ((Json.lookup members "version").isSome →
          fc.version = volva.featureVersion) →
            volva.featureVersion = p.nornir.featureVersion := by
        intro volva hnamed
        obtain ⟨model, hfetch⟩ := (haccepts hc volva).mpr ⟨hnamed, hloads⟩
        rw [← hactive] at hfetch
        obtain ⟨info, hinfo, hid⟩ := fetchActive_id hfetch
        rw [hactive] at hinfo
        cases hinfo
        exact hsound c c hrun .refl volva model hfetch hid
      constructor
      · by_contra hnone
        -- without a version key, a build that is one ahead accepts it too
        have hahead := hversion ⟨p.nornir.featureVersion + 1, by
          have := p.nornir.positive
          omega⟩ fun hsome => absurd hsome hnone
        dsimp only at hahead
        omega
      · exact hversion ⟨fc.version, fc.versionPositive⟩ fun _ => rfl
    · exact .inr hloads
  · intro h c c' hrun hrun' volva model hfetch hid
    have hc : c.state.Holds m := Holds.run (c := ⟨[], db⟩) hholds hrun
    obtain ⟨info, hactive, hinfo⟩ := fetchActive_id hfetch
    -- the model that was fetched is the stored one, unchanged
    have hout := hc.out_eq hactive (Int.ofNat.inj (hinfo.symm.trans hid))
    subst hout
    rw [hactive] at hfetch
    obtain ⟨hnamed, hloads⟩ := (haccepts (hc.run hrun') volva).mp ⟨model, hfetch⟩
    rcases h with ⟨hsome, hversion⟩ | hno
    · exact (hnamed hsome).symm.trans hversion
    · exact absurd hloads hno

/-! ## A model of a newer extractor -/

/-- A Freki of version 1 and a Nornir of another build, whose models are one byte long. -/
def kitchenPipeline (nornir : Build) : Pipeline where
  py := exactPydantic
  freki := .current
  nornir := nornir
  trainer := ⟨fun _ => none, fun _ _ => .ok [], fun _ _ _ => .ok ([0], .empty)⟩

/-- A job whose spec leaves the feature configuration to its defaults. -/
def kitchenJob : Submission :=
  .job ⟨"random_forest", [("window_size", .int 1)], none, 0, 10, ["kitchen"]⟩
    [⟨"kitchen", 0, 0⟩] 0 JobDb.empty (.ok [⟨1, some 1, some "kitchen", [], []⟩]) "kitchen"

/-- Every byte string is a classifier. -/
def anyClassifier : Joblib := fun _ => .ok ⟨some fun _ => .ok "kitchen", some ["kitchen"]⟩

private theorem kitchenJob_stored (nornir : Build) :
    ∃ out db, kitchenJob.Stored (kitchenPipeline nornir) out [0] db :=
  ⟨_, _, _, rfl, rfl, .current, "", none, fun _ => true, 0, ModelDb.empty, rfl⟩

theorem gate_sound_iff_kitchenJob :
    ∃ out db, kitchenJob.Stored (kitchenPipeline .current) out [0] db ∧
      GateSound (kitchenPipeline .current) anyClassifier "" out db := by
  obtain ⟨out, db, h⟩ := kitchenJob_stored .current
  exact ⟨out, db, h, (gate_sound_iff _ anyClassifier "" kitchenJob out [0] db h).mpr (.inl rfl)⟩

/-- The features are of version 2, and a Völva of version 1 loads the model. -/
theorem newer_extractor_accepted :
    ∃ out db, kitchenJob.Stored (kitchenPipeline newerBuild) out [0] db ∧
      ¬GateSound (kitchenPipeline newerBuild) anyClassifier "" out db := by
  refine ⟨_, _, ⟨_, rfl, rfl, .current, "", none, fun _ => true, 0, ModelDb.empty, rfl⟩, ?_⟩
  intro h
  -- the model is activated, and the two requests of `fetch_active` follow
  have hversion := h _ _
    (.single (.event _ (.current, .activate 1 [.activate 1]) (by exact .refl _))) .refl
    .current _ rfl rfl
  exact absurd hversion (by decide)

end Grimnir
