import Grimnir.ForStd.Except
import Grimnir.Spec.ModelActivation

/-!
# What the model registry keeps

Freki is redeployed while models are uploaded and activated.  Whatever the builds and the
order of the requests, a stored model keeps its configuration and its bytes, and it can
still become the active one.

## Key results

- `uploadModel_cases`, `uploadModel_stores`: what an upload does, and to the rows
- `Holds.run`: a stored model stays in the registry as it was stored
- `Holds.exists_active`: any stored model can be activated
-/

namespace Grimnir

/-- What an upload does: it is refused and changes nothing, or the foreign key refuses its row and
    one id is lost, or it stores the form as it was sent, whose configuration was valid. -/
theorem uploadModel_cases (py : Pydantic) (build : Build) (secret : String)
    (provided : Option String) (form : ModelForm) (jobExists : Nat → Bool) (now : Timestamp)
    (db : ModelDb) :
    (∃ f, uploadModel py build secret provided form jobExists now db = (.error f, db)) ∨
      uploadModel py build secret provided form jobExists now db =
        (.error (.internal unknownTrainingJob), db.skipModelId) ∨
      ∃ metrics members fc, form.metrics = .ok metrics ∧
        form.featureConfig = .ok (.obj members) ∧
        FeatureConfig.validate py build (.obj members) = .ok fc ∧
        uploadModel py build secret provided form jobExists now db =
          (.ok (db.insertModel form.name form.trainingJobId metrics (.obj members)
              form.modelData now).1.out,
            (db.insertModel form.name form.trainingJobId metrics (.obj members)
              form.modelData now).2) := by
  -- every check in the order of the source; only the last failure is past `nextval`
  unfold uploadModel
  split
  · exact .inl ⟨_, rfl⟩
  · split
    · exact .inl ⟨_, rfl⟩
    · exact .inl ⟨_, rfl⟩
    · rename_i metrics members hmetrics hdoc
      split
      · exact .inl ⟨_, rfl⟩
      · rename_i fc hvalid
        by_cases hempty : form.modelData = []
        · exact .inl ⟨_, if_pos hempty⟩
        · rw [if_neg hempty]
          cases hfits : form.trainingJobId.all (fun jobId : Nat => fitsInteger jobId) with
          | false => exact .inl ⟨_, rfl⟩
          -- the `INSERT` was issued: the foreign key decides
          | true =>
            cases hjob : form.trainingJobId.all jobExists with
            | false => exact .inr (.inl rfl)
            | true => exact .inr (.inr ⟨.obj metrics, members, fc, hmetrics, hdoc, hvalid, rfl⟩)
    · exact .inl ⟨_, rfl⟩

/-- An upload that is refused leaves the rows alone. -/
theorem uploadModel_stores (py : Pydantic) (build : Build) (secret : String)
    (provided : Option String) (form : ModelForm) (jobExists : Nat → Bool) (now : Timestamp)
    (db : ModelDb) :
    (∃ f db', uploadModel py build secret provided form jobExists now db = (.error f, db') ∧
        db'.models = db.models) ∨
      ∃ metrics members fc, form.metrics = .ok metrics ∧
        form.featureConfig = .ok (.obj members) ∧
        FeatureConfig.validate py build (.obj members) = .ok fc ∧
        uploadModel py build secret provided form jobExists now db =
          (.ok (db.insertModel form.name form.trainingJobId metrics (.obj members)
              form.modelData now).1.out,
            (db.insertModel form.name form.trainingJobId metrics (.obj members)
              form.modelData now).2) := by
  rcases uploadModel_cases py build secret provided form jobExists now db with
    ⟨f, hres⟩ | hres | hstored
  · exact .inl ⟨f, db, hres, rfl⟩
  · exact .inl ⟨_, _, hres, rfl⟩
  · exact .inr hstored

/-- The row holds what the form says. -/
structure FromForm (m : TrainedModel) (form : ModelForm) : Prop where
  name : m.name = form.name
  trainingJobId : m.trainingJobId = form.trainingJobId
  metrics : form.metrics = .ok m.metrics
  featureConfig : form.featureConfig = .ok m.featureConfig
  modelData : m.modelData = form.modelData

/-- Whether a row is active is not in the form. -/
theorem FromForm.setActive {m : TrainedModel} {form : ModelForm} {active : Bool}
    (h : FromForm { m with isActive := active } form) : FromForm m form :=
  ⟨h.name, h.trainingJobId, h.metrics, h.featureConfig, h.modelData⟩

/-- The build after the current one, whose `extract_features` has changed. -/
def newerBuild : Build := ⟨2, by decide⟩

namespace ModelDb

variable {m : TrainedModel} {db db' : ModelDb}

/-- The registry holds the model, active or not. -/
def Holds (m : TrainedModel) (db : ModelDb) : Prop :=
  ∃ active, { m with isActive := active } ∈ db.models

/-- An `INSERT` keeps the stored models. -/
theorem Holds.insertModel (h : Holds m db) (name : String) (trainingJobId : Option Nat)
    (metrics featureConfig : Json) (modelData : List UInt8) (now : Timestamp) :
    Holds m (db.insertModel name trainingJobId metrics featureConfig modelData now).2 := by
  obtain ⟨active, hmem⟩ := h
  exact ⟨active, List.mem_append_left _ hmem⟩

/-- An `INSERT` stores its model. -/
private theorem holds_insertModel (name : String) (trainingJobId : Option Nat)
    (metrics featureConfig : Json) (modelData : List UInt8) (now : Timestamp) :
    Holds (db.insertModel name trainingJobId metrics featureConfig modelData now).1
      (db.insertModel name trainingJobId metrics featureConfig modelData now).2 :=
  ⟨false, List.mem_append_right _ List.mem_cons_self⟩

/-- An upload keeps the stored models, whether it is refused or not. -/
theorem Holds.uploadModel (h : Holds m db) (py : Pydantic) (build : Build) (secret : String)
    (provided : Option String) (form : ModelForm) (jobExists : Nat → Bool) (now : Timestamp) :
    Holds m (Grimnir.uploadModel py build secret provided form jobExists now db).2 := by
  rcases uploadModel_stores py build secret provided form jobExists now db with
    ⟨f, db', hres, hsame⟩ | ⟨metrics, members, fc, -, -, -, hres⟩
  · rw [hres]
    obtain ⟨active, hmem⟩ := h
    exact ⟨active, hsame ▸ hmem⟩
  · rw [hres]
    exact h.insertModel _ _ _ _ _ _

/-- A row write only touches `is_active`. -/
theorem Holds.writeRow (h : Holds m db) {w : RowWrite} (hok : writeRow db w = .ok db') :
    Holds m db' := by
  obtain ⟨active, hmem⟩ := h
  unfold ModelDb.writeRow at hok
  split at hok
  · cases hok
    have hmem' := List.mem_map_of_mem (f := w.apply) hmem
    cases w <;> simp only [RowWrite.apply] at hmem' <;> split at hmem'
    · exact ⟨false, hmem'⟩
    · exact ⟨active, hmem'⟩
    · exact ⟨true, hmem'⟩
    · exact ⟨active, hmem'⟩
  · cases hok

/-- The row writes of a statement keep the stored models, by induction on their order. -/
theorem Holds.writeRows (h : Holds m db) {order : List RowWrite}
    (hok : writeRows order db = .ok db') : Holds m db' := by
  induction order generalizing db with
  | nil =>
    cases hok
    exact h
  | cons w order ih =>
    obtain ⟨written, hwrite, hrest⟩ := Except.bind_eq_ok.mp hok
    exact ih (h.writeRow hwrite) hrest

/-- An activation keeps the stored models. -/
theorem Holds.activateModel (h : Holds m db) (id : Nat) (order : List RowWrite) :
    Holds m (db.activateModel id order).2 := by
  unfold ModelDb.activateModel
  split
  · exact h
  · rename_i written hwrites
    split
    · exact h
    · split
      · exact h.writeRows hwrites
      · exact h.writeRows hwrites

/-- An upload that goes through stores the configuration and the bytes of its form. -/
theorem uploadModel_stored {py : Pydantic} {build : Build} {secret : String}
    {provided : Option String} {form : ModelForm} {jobExists : Nat → Bool} {now : Timestamp}
    {out : ModelOut}
    (h : Grimnir.uploadModel py build secret provided form jobExists now db = (.ok out, db')) :
    ∃ (m : TrainedModel) (members : List (String × Json)) (fc : FeatureConfig),
      m.out = out ∧ Holds m db' ∧ m.featureConfig = .obj members ∧
        m.modelData = form.modelData ∧ form.featureConfig = .ok (.obj members) ∧
        FeatureConfig.validate py build (.obj members) = .ok fc := by
  rcases uploadModel_stores py build secret provided form jobExists now db with
    ⟨f, db', hres, -⟩ | ⟨metrics, members, fc, -, hdoc, hvalid, hres⟩
  · rw [hres] at h
    cases h
  · rw [hres] at h
    cases h
    exact ⟨_, members, fc, rfl, holds_insertModel _ _ _ _ _ _, rfl, rfl, hdoc, hvalid⟩

/-! ## Over redeployments -/

/-- The registry behind a Freki that is redeployed: each request is answered by some build. -/
def registry (py : Pydantic) (secret : String) :
    Machine ModelDb (Build × ModelEvent) (Except Failure ModelOut) where
  step db e := (modelMachine py e.1 secret).step db e.2

/-- A statement writes its row writes, each once, in some order. -/
def Executed (c : Config ModelDb (Build × ModelEvent) (Except Failure ModelOut))
    (e : Build × ModelEvent) : Prop :=
  match e.2 with
  | .upload _ _ _ _ => True
  | .activate id order => order.Perm (activationWrites id c.state)

variable {py : Pydantic} {secret : String}
  {c c' : Config ModelDb (Build × ModelEvent) (Except Failure ModelOut)}

/-- A request to any build keeps the stored models. -/
theorem Holds.step (h : Holds m db) (e : Build × ModelEvent) :
    Holds m ((registry py secret).step db e).2 := by
  obtain ⟨build, event⟩ := e
  cases event with
  | upload provided form jobExists now =>
    exact h.uploadModel py build secret provided form jobExists now
  | activate id order => exact h.activateModel id order

/-- A stored model stays in the registry as it was stored. -/
theorem Holds.run (h : Holds m c.state) (hrun : (registry py secret).Run Executed c c') :
    Holds m c'.state :=
  hrun.invariant (I := fun d => Holds m d.state) h fun _ e hd _ => hd.step e

/-! ## Reading a held model -/

/-- A stored model's bytes can be asked for by its id. -/
theorem Holds.modelData (h : Holds m db) : db.modelData m.id = .ok m.modelData := by
  obtain ⟨active, hmem⟩ := h
  have hfind : db.models.find? m.id = some { m with isActive := active } :=
    Table.find?_of_mem hmem
  simp only [ModelDb.modelData, hfind]

/-- If the active model has the id of a held one, it is the held one. -/
theorem Holds.out_eq (h : Holds m db) {info : ModelOut} (hactive : db.activeModel = .ok info)
    (hid : info.id = m.id) : info = ({ m with isActive := true } : TrainedModel).out := by
  obtain ⟨active, hmem⟩ := h
  unfold activeModel at hactive
  split at hactive
  · cases hactive
  · rename_i k hk
    cases hactive
    have hk' : k = { m with isActive := active } :=
      db.models.eq_of_key_eq (List.mem_of_find?_eq_some hk) hmem hid
    have htrue := List.find?_some hk
    subst hk'
    dsimp only at htrue
    rw [htrue]

/-- Any held model can be activated. -/
theorem Holds.exists_active (h : Holds m c.state) (py : Pydantic) (secret : String)
    (build : Build) :
    ∃ c', (registry py secret).Run Executed c c' ∧
      c'.state.activeModel = .ok ({ m with isActive := true } : TrainedModel).out := by
  obtain ⟨active, hmem⟩ := h
  have hfind : c.state.models.find? m.id = some { m with isActive := active } :=
    Table.find?_of_mem hmem
  -- the clearing write first
  have hlast : ActivatesLast m.id (activationWrites m.id c.state) c.state := by
    intro _ _
    rcases activationWrites_cases hmem with ⟨-, hwrites⟩ | ⟨a, -, -, -, hwrites⟩
    · exact (congrArg List.getLast? hwrites).trans rfl
    · exact (congrArg List.getLast? hwrites).trans rfl
  have hexact := (activatesExactly_iff_last (.refl _)).mpr hlast
  rw [ActivatesExactly, hfind, if_pos (show (some _).isSome = true from rfl)] at hexact
  refine ⟨(registry py secret).answer c (build, .activate m.id (activationWrites m.id c.state)),
    Relation.ReflTransGen.single (.event c _ (List.Perm.refl _)), ?_⟩
  have hrows := hexact.2
  show activeModel (c.state.activateModel m.id (activationWrites m.id c.state)).2 = _
  generalize (c.state.activateModel m.id (activationWrites m.id c.state)).2 = db at hrows
  have hmem' : { m with isActive := true } ∈ db.models := by
    rw [Table.mem_def, hrows]
    exact List.mem_map.mpr ⟨_, hmem, by simp [activated]⟩
  -- the index leaves no other row to be the active one
  unfold activeModel
  cases hfirst : db.models.rows.find? (·.isActive) with
  | none => exact absurd rfl (List.find?_eq_none.mp hfirst _ hmem')
  | some k =>
    have hk : k = { m with isActive := true } :=
      db.models.eq_of_key_eq (List.mem_of_find?_eq_some hfirst) hmem'
        (db.oneActive _ (List.mem_of_find?_eq_some hfirst) _ hmem'
          (List.find?_some hfirst) rfl)
    rw [hk]

end ModelDb

end Grimnir
