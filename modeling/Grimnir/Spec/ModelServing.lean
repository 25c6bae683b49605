import Grimnir.Native.ModelServing
import Grimnir.Spec.VersionGate
import Grimnir.Spec.VoteOrigin

/-!
# What Völva serves

A round of `refresh_loop` makes two requests, and the registry may change between them, and
`refresh_loop` compares models by their ids only.  Stored models never change, so a round always
ends with one uploaded model, metadata and bytes, and equal ids mean the same model.

## Key results

- `FromUploads.step`: the rows of the registry are uploads, active or not
- `Loads.unique`: a row loads to one model
- `follows_of_run`: the holder has what the last round that succeeded found active
- `served_of_run`: the votes behind a published prediction are all of one uploaded model
-/

namespace Grimnir

/-! ## Where the rows of the registry come from -/

namespace ModelDb

variable {db db' : ModelDb}

/-- The row as it is when it is active. -/
def activeRow (m : TrainedModel) : TrainedModel := { m with isActive := true }

/-- A row in the table is held as it stands. -/
theorem holds_of_mem {m : TrainedModel} (h : m ∈ db.models) : Holds m db := ⟨m.isActive, h⟩

/-- Two rows with one id differ at most in `is_active`. -/
private theorem Holds.activeRow_eq {m m' : TrainedModel} (h : Holds m db) (h' : Holds m' db)
    (hid : m.id = m'.id) : activeRow m = activeRow m' ∧ m.modelData = m'.modelData := by
  obtain ⟨active, hmem⟩ := h
  obtain ⟨active', hmem'⟩ := h'
  have heq := db.models.eq_of_key_eq hmem hmem' hid
  simp only [TrainedModel.mk.injEq] at heq
  obtain ⟨h1, h2, h3, -, h5, h6, h7, h8⟩ := heq
  exact ⟨by simp only [activeRow, h1, h2, h3, h5, h6, h7, h8], h7⟩

/-- `/api/models/active` describes a held row. -/
private theorem activeModel_holds {info : ModelOut} (h : db.activeModel = .ok info) :
    ∃ m, Holds m db ∧ info = (activeRow m).out := by
  unfold activeModel at h
  split at h
  · cases h
  · rename_i m hm
    cases h
    have hactive : m.isActive = true := List.find?_some hm
    refine ⟨m, holds_of_mem (List.mem_of_find?_eq_some hm), ?_⟩
    unfold activeRow
    rw [← hactive]

/-- The rows of `db'` are rows of `db`, active or not. -/
def NoNewRows (db db' : ModelDb) : Prop := ∀ m ∈ db'.models, Holds m db

/-- A registry that does not change gains no row. -/
private theorem noNewRows_refl (db : ModelDb) : NoNewRows db db := fun _ hm => holds_of_mem hm

/-- Two steps that add no row add none together. -/
theorem NoNewRows.trans {db₁ db₂ db₃ : ModelDb} (h : NoNewRows db₁ db₂)
    (h' : NoNewRows db₂ db₃) : NoNewRows db₁ db₃ := by
  intro m hm
  obtain ⟨active, hmem⟩ := h' m hm
  obtain ⟨active', hmem'⟩ := h _ hmem
  exact ⟨active', hmem'⟩

/-- Writing one row only sets its active flag, so it adds none. -/
private theorem noNewRows_writeRow {w : RowWrite} (h : writeRow db w = .ok db') :
    NoNewRows db db' := by
  unfold writeRow at h
  split at h
  · cases h
    intro m hm
    obtain ⟨m₀, hm₀, rfl⟩ := List.mem_map.mp hm
    refine ⟨m₀.isActive, ?_⟩
    -- a row write sets `is_active` and nothing else
    have hrow : { w.apply m₀ with isActive := m₀.isActive } = m₀ := by
      cases w <;> simp only [RowWrite.apply] <;> split <;> rfl
    rw [hrow]
    exact hm₀
  · cases h

/-- Nor do the writes of a statement, by induction on their order. -/
private theorem noNewRows_writeRows {order : List RowWrite} (h : writeRows order db = .ok db') :
    NoNewRows db db' := by
  induction order generalizing db with
  | nil =>
    cases h
    exact noNewRows_refl _
  | cons w order ih =>
    obtain ⟨written, hwrite, hrest⟩ := Except.bind_eq_ok.mp h
    exact (noNewRows_writeRow hwrite).trans (ih hrest)

/-- An activation adds no row. -/
theorem noNewRows_activateModel (db : ModelDb) (id : Nat) (order : List RowWrite) :
    NoNewRows db (db.activateModel id order).2 := by
  unfold activateModel
  split
  · exact noNewRows_refl db
  · rename_i written hwrites
    split
    · exact noNewRows_refl db
    · split
      · exact noNewRows_writeRows hwrites
      · exact noNewRows_writeRows hwrites

end ModelDb

namespace Volva

/-- The log of a deployment. -/
abbrev ServingLog := List (ServingEvent × ServingAnswer)

open ModelDb

/-- The row was uploaded as a whole: what it describes and its bytes came in one form, and Freki
    answered with what it describes. -/
def Uploaded (log : ServingLog) (m : TrainedModel) : Prop :=
  ∃ build provided form jobExists now,
    (ServingEvent.freki build (.upload provided form jobExists now),
      ServingAnswer.freki (.ok ({ m with isActive := false } : TrainedModel).out)) ∈ log ∧
    FromForm m form ∧ m.createdAt = now

/-- An upload stays in the log. -/
theorem Uploaded.cons {log : ServingLog} {m : TrainedModel} (h : Uploaded log m)
    (x : ServingEvent × ServingAnswer) : Uploaded (x :: log) m := by
  obtain ⟨build, provided, form, jobExists, now, hmem, hrest⟩ := h
  exact ⟨build, provided, form, jobExists, now, List.mem_cons_of_mem _ hmem, hrest⟩

/-- Every row of the registry is an upload, active or not. -/
def FromUploads (log : ServingLog) (db : ModelDb) : Prop := ∀ m ∈ db.models, Uploaded log m

/-- Rows that come from uploads still do after another event. -/
theorem FromUploads.cons {log : ServingLog} {db : ModelDb} (h : FromUploads log db)
    (x : ServingEvent × ServingAnswer) : FromUploads (x :: log) db :=
  fun m hm => (h m hm).cons x

/-- A row that is held, whether active or not, comes from an upload. -/
theorem FromUploads.holds {log : ServingLog} {db : ModelDb} {m : TrainedModel}
    (h : FromUploads log db) (hm : Holds m db) : Uploaded log m := by
  obtain ⟨active, hmem⟩ := hm
  obtain ⟨build, provided, form, jobExists, now, hentry, hform, hnow⟩ := h _ hmem
  exact ⟨build, provided, form, jobExists, now, hentry, hform.setActive, hnow⟩

/-- A registry that gains no row still comes from its uploads. -/
private theorem FromUploads.noNewRows {log : ServingLog} {db db' : ModelDb} (h : FromUploads log db)
    (hrows : NoNewRows db db') : FromUploads log db' :=
  fun m hm => h.holds (hrows m hm)

/-- An answer of Freki keeps the rows and adds at most the row of an upload. -/
theorem FromUploads.step {d : Deployment} {log : ServingLog} {db : ModelDb}
    (h : FromUploads log db) (build : Build) (e : ModelEvent) :
    FromUploads ((.freki build e,
      .freki ((modelMachine d.py build d.secret).step db e).1) :: log)
      ((modelMachine d.py build d.secret).step db e).2 := by
  cases e with
  | activate id order => exact (h.noNewRows (noNewRows_activateModel db id order)).cons _
  | upload provided form jobExists now =>
    change FromUploads ((_, .freki (uploadModel d.py build d.secret provided form jobExists now
      db).1) :: log) (uploadModel d.py build d.secret provided form jobExists now db).2
    rcases uploadModel_stores d.py build d.secret provided form jobExists now db with
      ⟨f, db', hres, hsame⟩ | ⟨metrics, members, fc, hmetrics, hdoc, -, hres⟩
    · rw [hres]
      exact fun m hm => (h m (hsame ▸ hm)).cons _
    · rw [hres]
      intro m hm
      rcases List.mem_append.mp hm with hm | hm
      · exact (h m hm).cons _
      · obtain rfl := List.mem_singleton.mp hm
        exact ⟨build, provided, form, jobExists, now, List.mem_cons_self,
          ⟨rfl, rfl, hmetrics, hdoc, rfl⟩, rfl⟩

/-! ## Loading a row -/

/-- The build of Völva makes `model` of the row, whenever it asks for its bytes. -/
def Loads (d : Deployment) (m : TrainedModel) (model : ActiveModel) : Prop :=
  fetchActive d.py d.volva d.joblib (.ok (activeRow m).out) (fun _ => .ok m.modelData) =
    .ok (some model)

/-- `fetch_active` asks for the bytes of the model it was told of, and for no others. -/
private theorem fetchActive_congr (d : Deployment) (info : ModelOut)
    {modelData modelData' : Nat → Except HTTPException (List UInt8)}
    (h : modelData info.id = modelData' info.id) :
    fetchActive d.py d.volva d.joblib (.ok info) modelData =
      fetchActive d.py d.volva d.joblib (.ok info) modelData' := by
  unfold fetchActive
  dsimp only
  rw [h]

/-- While the row is held, a round that was told of it loads it or fails. -/
private theorem loads_of_fetchActive {d : Deployment} {db : ModelDb} {m : TrainedModel}
    (hm : Holds m db) {latest : Option ActiveModel}
    (h : fetchActive d.py d.volva d.joblib (.ok (activeRow m).out) db.modelData = .ok latest) :
    ∃ model, latest = some model ∧ Loads d m model := by
  have hbytes : fetchActive d.py d.volva d.joblib (.ok (activeRow m).out) db.modelData =
      fetchActive d.py d.volva d.joblib (.ok (activeRow m).out) fun _ => .ok m.modelData :=
    fetchActive_congr d _ hm.modelData
  rw [hbytes] at h
  cases latest with
  | some model => exact ⟨model, rfl, h⟩
  | none =>
    -- `None` is only returned when no model is active
    unfold fetchActive at h
    obtain ⟨fc, -, h⟩ := Except.bind_eq_ok.mp h
    split at h
    · cases h
    · obtain ⟨data, -, h⟩ := Except.bind_eq_ok.mp h
      obtain ⟨object, -, h⟩ := Except.bind_eq_ok.mp h
      split at h <;> cases h

/-- A model is loaded under its row's id. -/
theorem Loads.id {d : Deployment} {m : TrainedModel} {model : ActiveModel}
    (h : Loads d m model) : model.id = m.id := by
  obtain ⟨info, hinfo, hid⟩ := fetchActive_id h
  cases hinfo
  exact hid

/-- Held rows with one id load to one model. -/
theorem Loads.unique {d : Deployment} {db : ModelDb} {m m' : TrainedModel}
    {model model' : ActiveModel} (h : Loads d m model) (h' : Loads d m' model')
    (hm : Holds m db) (hm' : Holds m' db) (hid : model.id = model'.id) : model = model' := by
  rw [h.id, h'.id] at hid
  obtain ⟨hrow, hbytes⟩ := hm.activeRow_eq hm' (Int.ofNat.inj hid)
  unfold Loads at h h'
  rw [hrow, hbytes, h'] at h
  cases h
  rfl

/-! ## What the holder follows -/

/-- What Freki answered the last `GET /api/models/active`, if there was an active model. -/
def lastRead : ServingLog → Option ModelOut
  | [] => none
  | (_, .active res) :: _ => res.toOption
  | _ :: log => lastRead log

/-- What the last round that `refresh_loop` took up had read. -/
def followed : ServingLog → Option ModelOut
  | [] => none
  | (.refreshed, .volva _ _) :: log => lastRead log
  | _ :: log => followed log

/-- `latest` is what the row that was read loads to, whole and as it was uploaded. -/
def Serves (d : Deployment) (log : ServingLog) (db : ModelDb) :
    Option ModelOut → Option ActiveModel → Prop
  | none, latest => latest = none
  | some info, latest => ∃ m model, latest = some model ∧ info = (activeRow m).out ∧
      Holds m db ∧ Uploaded log m ∧ Loads d m model

/-- What holds of a deployment in every state of every run. -/
structure Follows (d : Deployment) (c : Config ModelServing ServingEvent ServingAnswer) :
    Prop where
  rows : FromUploads c.log c.state.registry
  /-- The round under way has read a held row. -/
  described : ∀ info, c.state.round = .described info →
    lastRead c.log = some info ∧ ∃ m, Holds m c.state.registry ∧ info = (activeRow m).out
  fetched : ∀ latest, c.state.round = .fetched (.ok latest) →
    Serves d c.log c.state.registry (lastRead c.log) latest
  held : Serves d c.log c.state.registry (followed c.log) c.state.tasks.holder

/-- At the start the registry is empty and nothing is held. -/
private theorem follows_start (d : Deployment) : Follows d ⟨[], .start⟩ where
  rows := fun _ hm => absurd hm List.not_mem_nil
  described := fun _ h => RefreshRound.noConfusion h
  fetched := fun _ h => RefreshRound.noConfusion h
  held := rfl

variable {d : Deployment} {c : Config ModelServing ServingEvent ServingAnswer}

/-- What is served stays served while the rows are held. -/
theorem Serves.mono {log : ServingLog} {db db' : ModelDb} {read : Option ModelOut}
    {latest : Option ActiveModel} (h : Serves d log db read latest)
    (x : ServingEvent × ServingAnswer) (hdb : ∀ m, Holds m db → Holds m db') :
    Serves d (x :: log) db' read latest := by
  cases read with
  | none => exact h
  | some info =>
    obtain ⟨m, model, hlatest, hinfo, hm, hup, hloads⟩ := h
    exact ⟨m, model, hlatest, hinfo, hdb m hm, hup.cons x, hloads⟩

/-- `refresh_loop` compares ids only, and still ends up with the model that was fetched. -/
theorem Serves.refresh {log : ServingLog} {db : ModelDb} {read read' : Option ModelOut}
    {latest holder : Option ActiveModel} (h : Serves d log db read latest)
    (hholder : Serves d log db read' holder) : refresh latest holder = latest := by
  -- nothing to compare when either side holds no model
  cases latest with
  | none => rfl
  | some model =>
    cases holder with
    | none => rfl
    | some current =>
      by_cases hid : current.id = model.id
      -- the same id is the same row, and the same model
      · have hsame : current = model := by
          cases read with
          | none => cases h
          | some info =>
            cases read' with
            | none => cases hholder
            | some info' =>
              obtain ⟨m, model', hmodel, -, hm, -, hloads⟩ := h
              obtain ⟨m', current', hcurrent, -, hm', -, hloads'⟩ := hholder
              cases hmodel
              cases hcurrent
              exact hloads'.unique hloads hm' hm hid
        rw [hsame]
        exact if_neg fun hne => hne rfl
      · exact if_pos hid

namespace Follows

/-- An answer that is neither about the active model nor a refresh. -/
theorem quiet {x : ServingEvent × ServingAnswer} {s : ModelServing} (h : Follows d c)
    (hread : lastRead (x :: c.log) = lastRead c.log)
    (hfollowed : followed (x :: c.log) = followed c.log)
    (hrows : FromUploads (x :: c.log) s.registry)
    (hholds : ∀ m, Holds m c.state.registry → Holds m s.registry)
    (hround : s.round = c.state.round ∨ s.round = .polling ∨ ∃ exc, s.round = .fetched (.error exc))
    (hholder : s.tasks.holder = c.state.tasks.holder) : Follows d ⟨x :: c.log, s⟩ := by
  refine ⟨hrows, ?_, ?_, ?_⟩
  · intro info hinfo
    rcases hround with hsame | hpoll | ⟨exc, hexc⟩
    · obtain ⟨hlast, m, hm, heq⟩ := h.described info (hsame.symm.trans hinfo)
      exact ⟨hread.trans hlast, m, hholds m hm, heq⟩
    · cases hpoll.symm.trans hinfo
    · cases hexc.symm.trans hinfo
  · intro latest hlatest
    rcases hround with hsame | hpoll | ⟨exc, hexc⟩
    · change Serves d (x :: c.log) s.registry (lastRead (x :: c.log)) latest
      rw [hread]
      exact (h.fetched latest (hsame.symm.trans hlatest)).mono x hholds
    · cases hpoll.symm.trans hlatest
    · cases hexc.symm.trans hlatest
  · change Serves d (x :: c.log) s.registry (followed (x :: c.log)) s.tasks.holder
    rw [hfollowed, hholder]
    exact h.held.mono x hholds

/-- Nothing happens but an entry in the log. -/
theorem pending (h : Follows d c) (e : ServingEvent) :
    Follows d ⟨(e, .pending) :: c.log, c.state⟩ := by
  refine h.quiet ?_ ?_ (h.rows.cons _) (fun _ hm => hm) (.inl rfl) rfl
  · rfl
  · cases e <;> rfl

/-- A request to the registry keeps the tasks where they were, and its rows come from uploads.
    -/
theorem freki (h : Follows d c) (build : Build) (e : ModelEvent) :
    Follows d ((servingMachine d).answer c (.freki build e)) := by
  refine h.quiet rfl rfl (h.rows.step build e) ?_ (.inl rfl) rfl
  intro m hm
  have hstep : Holds m ((registry d.py d.secret).step c.state.registry (build, e)).2 :=
    hm.step (build, e)
  exact hstep

/-- `stream_loop` does not touch the holder. -/
private theorem holder_stream (s : VolvaTasks) {e : TaskEvent} (he : e.isRefreshed = false) :
    (s.step d.extract d.windowSize e).2.holder = s.holder := by
  cases e with
  | refreshed latest => cases he
  | message row =>
    simp only [VolvaTasks.step]
    split <;> rfl
  | badMessage =>
    simp only [VolvaTasks.step]
    split <;> rfl
  | connectionLost => rfl
  | putEnded outcome => cases outcome <;> rfl

/-- An event of the stream leaves the refresh task alone. -/
theorem stream (h : Follows d c) (e : TaskEvent) (he : e.isRefreshed = false) :
    Follows d ((servingMachine d).answer c (.stream e he)) :=
  h.quiet rfl rfl (h.rows.cons _) (fun _ hm => hm) (.inl rfl) (holder_stream c.state.tasks he)

/-- A request that fails leaves the holder as it was. -/
theorem requestFailed (h : Follows d c) (exc : LoadError) :
    Follows d ((servingMachine d).answer c (.requestFailed exc)) := by
  simp only [servingMachine, Machine.answer, ModelServing.step]
  split
  · exact h.pending _
  · exact h.quiet rfl rfl (h.rows.cons _) (fun _ hm => hm) (.inr (.inr ⟨exc, rfl⟩)) rfl

/-- The answer to `get_active` is what the task goes on with. -/
theorem getActive (h : Follows d c) : Follows d ((servingMachine d).answer c .getActive) := by
  -- the request is sent only from the start of a round
  simp only [servingMachine, Machine.answer, ModelServing.step]
  split
  -- the answer is a row of the registry, or an error that ends the round
  · cases hactive : c.state.registry.activeModel with
    | ok info =>
      refine ⟨h.rows.cons _, ?_, ?_, h.held.mono _ fun _ hm => hm⟩
      · intro info' hinfo
        cases hinfo
        exact ⟨rfl, activeModel_holds hactive⟩
      · intro latest hlatest
        cases hlatest
    | error exc =>
      refine ⟨h.rows.cons _, ?_, ?_, h.held.mono _ fun _ hm => hm⟩
      · intro info hinfo
        cases hinfo
      · intro latest hlatest
        injection hlatest with hfetch
        unfold fetchActive at hfetch
        dsimp only at hfetch
        split at hfetch
        · cases hfetch
          rfl
        · cases hfetch
  · exact h.pending _

/-- The bytes served are those of the row whose metadata was read. -/
theorem getData (h : Follows d c) : Follows d ((servingMachine d).answer c .getData) := by
  simp only [servingMachine, Machine.answer, ModelServing.step]
  split
  · rename_i info hround
    obtain ⟨hlast, m, hm, rfl⟩ := h.described info hround
    refine ⟨h.rows.cons _, ?_, ?_, h.held.mono _ fun _ hm => hm⟩
    · intro info' hinfo
      cases hinfo
    · intro latest hlatest
      injection hlatest with hfetch
      obtain ⟨model, rfl, hloads⟩ := loads_of_fetchActive hm hfetch
      change Serves d _ c.state.registry (lastRead c.log) (some model)
      rw [hlast]
      exact ⟨m, model, rfl, rfl, hm, (h.rows.holds hm).cons _, hloads⟩
  · exact h.pending _

/-- The end of a round sets the holder to what was loaded. -/
theorem refreshed (h : Follows d c) : Follows d ((servingMachine d).answer c .refreshed) := by
  simp only [servingMachine, Machine.answer, ModelServing.step]
  split
  · rename_i latest hround
    have hserves := h.fetched latest hround
    refine ⟨h.rows.cons _, ?_, ?_, ?_⟩
    · intro info hinfo
      cases hinfo
    · intro latest' hlatest
      cases hlatest
    · change Serves d _ c.state.registry (lastRead c.log)
        (refresh latest c.state.tasks.holder)
      rw [hserves.refresh h.held]
      exact hserves.mono _ fun _ hm => hm
  · exact h.quiet rfl rfl (h.rows.cons _) (fun _ hm => hm) (.inr (.inl rfl)) rfl
  · exact h.pending _

/-- One step, by cases on the event. -/
theorem answer (h : Follows d c) (e : ServingEvent) :
    Follows d ((servingMachine d).answer c e) := by
  cases e with
  | freki build e => exact h.freki build e
  | getActive => exact h.getActive
  | getData => exact h.getData
  | requestFailed exc => exact h.requestFailed exc
  | refreshed => exact h.refreshed
  | stream e he => exact h.stream e he

end Follows

/-- In every state of every run the holder has what the last round that `refresh_loop` took up
    found active, as it was uploaded: whatever Freki answered before, between and after the two
    requests of the round. -/
theorem follows_of_run {d : Deployment} {c : Config ModelServing ServingEvent ServingAnswer}
    (hrun : (servingMachine d).Run ServingOrder ⟨[], .start⟩ c) :
    Serves d c.log c.state.registry (followed c.log) c.state.tasks.holder := by
  have hfollows : Follows d c :=
    hrun.invariant (I := Follows d) (follows_start d) fun _ e h _ => h.answer e
  exact hfollows.held

/-! ## What is published -/

/-- The predictions that a step puts. -/
def ServingAnswer.puts : ServingAnswer → List Prediction
  | .volva _ r => r.puts
  | _ => []

/-- The part of a log that Völva's two tasks see. -/
def taskLog (log : ServingLog) : List TaskEntry :=
  log.filterMap fun
    | (_, .volva e r) => some (e, r)
    | _ => none

/-- Seen from the two tasks, a run of the deployment is a run of the tasks. -/
theorem run_taskLog (hrun : (servingMachine d).Run ServingOrder ⟨[], .start⟩ c) :
    (volvaMachine d.extract d.windowSize).Run TaskOrder ⟨[], .start⟩
      ⟨taskLog c.log, c.state.tasks⟩ := by
  -- the tasks only move on an event of the stream or at the end of a round
  refine hrun.invariant (I := fun c => (volvaMachine d.extract d.windowSize).Run TaskOrder
    ⟨[], .start⟩ ⟨taskLog c.log, c.state.tasks⟩) .refl ?_
  intro c e h henabled
  cases e with
  | freki build e => exact h
  | stream e he => exact h.snoc e henabled
  | getActive =>
    simp only [servingMachine, Machine.answer, ModelServing.step]
    split
    · split <;> exact h
    · exact h
  | getData =>
    simp only [servingMachine, Machine.answer, ModelServing.step]
    split <;> exact h
  | requestFailed exc =>
    simp only [servingMachine, Machine.answer, ModelServing.step]
    split <;> exact h
  | refreshed =>
    simp only [servingMachine, Machine.answer, ModelServing.step]
    -- a round that has not come to its end swaps nothing
    split
    · rename_i latest _
      exact h.snoc (.refreshed latest) trivial
    · exact h
    · exact h

/-- What was followed was read. -/
private theorem mem_of_lastRead {log : ServingLog} {info : ModelOut}
    (h : lastRead log = some info) : ∃ e, (e, ServingAnswer.active (.ok info)) ∈ log := by
  induction log with
  | nil => cases h
  | cons x log ih =>
    obtain ⟨e, answer⟩ := x
    cases answer with
    | active res =>
      cases res with
      | ok read =>
        cases h
        exact ⟨e, List.mem_cons_self⟩
      | error exc => cases h
    | freki res => exact (ih h).imp fun _ hmem => List.mem_cons_of_mem _ hmem
    | volva e' r => exact (ih h).imp fun _ hmem => List.mem_cons_of_mem _ hmem
    | pending => exact (ih h).imp fun _ hmem => List.mem_cons_of_mem _ hmem

/-- What the task follows was answered to it. -/
private theorem mem_of_followed {log : ServingLog} {info : ModelOut}
    (h : followed log = some info) : ∃ e, (e, ServingAnswer.active (.ok info)) ∈ log := by
  induction log with
  | nil => cases h
  | cons x log ih =>
    unfold followed at h
    split at h
    · cases ‹_ = _›
    · rename_i heq
      cases heq
      exact (mem_of_lastRead h).imp fun _ hmem => List.mem_cons_of_mem _ hmem
    · rename_i heq
      cases heq
      exact (ih h).imp fun _ hmem => List.mem_cons_of_mem _ hmem

/-- The model is what one upload, found active by some round, loads to. -/
structure Origin (d : Deployment) (log : ServingLog) (db : ModelDb) (model : ActiveModel)
    (m : TrainedModel) : Prop where
  held : Holds m db
  uploaded : Uploaded log m
  loads : Loads d m model
  wasActive : ∃ e, (e, ServingAnswer.active (.ok (activeRow m).out)) ∈ log

/-- The origin of a loaded model stays in the log. -/
theorem Origin.mono {log : ServingLog} {db db' : ModelDb} {model : ActiveModel}
    {m : TrainedModel} (h : Origin d log db model m) (x : ServingEvent × ServingAnswer)
    (hdb : ∀ m, Holds m db → Holds m db') : Origin d (x :: log) db' model m where
  held := hdb m h.held
  uploaded := h.uploaded.cons x
  loads := h.loads
  wasActive := h.wasActive.imp fun _ hmem => List.mem_cons_of_mem _ hmem

/-- The model in the holder has its origin. -/
theorem Follows.origin (h : Follows d c) {model : ActiveModel}
    (hholder : c.state.tasks.holder = some model) :
    ∃ m, Origin d c.log c.state.registry model m := by
  have hheld := h.held
  rw [hholder] at hheld
  cases hfollowed : followed c.log with
  | none =>
    rw [hfollowed] at hheld
    cases hheld
  | some info =>
    rw [hfollowed] at hheld
    obtain ⟨m, model', hmodel, rfl, hm, hup, hloads⟩ := hheld
    cases hmodel
    exact ⟨m, hm, hup, hloads, mem_of_followed hfollowed⟩

/-- A row is handled with the model that the holder has. -/
private theorem holder_of_model {s s' : VolvaTasks} {e : TaskEvent} {r : TaskResponse}
    (h : s.Effect d.extract d.windowSize e r s') {model : ActiveModel}
    (hr : r.model = some model) : s.holder = some model := by
  cases h with
  | quiet => cases hr
  | dropped => cases hr
  | row row model' r s' _ hholder hmodel _ _ _ _ _ _ =>
    rw [hmodel] at hr
    cases hr
    exact hholder
  | lost => cases hr

/-- What an event adds to the part of the log that the two tasks see. -/
private theorem mem_taskLog_answer {e : ServingEvent} {x : TaskEntry}
    (hx : x ∈ taskLog ((servingMachine d).answer c e).log) :
    x ∈ taskLog c.log ∨
      c.state.tasks.Effect d.extract d.windowSize x.1 x.2 (c.state.step d e).2.tasks := by
  -- one case per event, as the log of the tasks counts them
  cases e with
  | freki build e => exact .inl hx
  | stream e he =>
    rcases List.mem_cons.mp hx with rfl | hx
    · exact .inr (VolvaTasks.step_effect _ _ _ _)
    · exact .inl hx
  | getActive =>
    refine .inl ?_
    simp only [servingMachine, Machine.answer, ModelServing.step] at hx
    split at hx
    · split at hx <;> exact hx
    · exact hx
  | getData =>
    refine .inl ?_
    simp only [servingMachine, Machine.answer, ModelServing.step] at hx
    split at hx <;> exact hx
  | requestFailed exc =>
    refine .inl ?_
    simp only [servingMachine, Machine.answer, ModelServing.step] at hx
    split at hx <;> exact hx
  | refreshed =>
    simp only [servingMachine, Machine.answer, ModelServing.step] at hx ⊢
    split at hx
    · rcases List.mem_cons.mp hx with rfl | hx
      · exact .inr (VolvaTasks.step_effect _ _ _ _)
      · exact .inl hx
    · exact .inl hx
    · exact .inl hx

/-- A prediction is put by a step of `stream_loop`. -/
private theorem effect_of_puts {s : ModelServing} {e : ServingEvent} {p : Prediction}
    (hp : p ∈ (s.step d e).1.puts) :
    ∃ e' r, s.tasks.Effect d.extract d.windowSize e' r (s.step d e).2.tasks ∧ p ∈ r.puts := by
  cases e with
  | stream e he => exact ⟨e, _, VolvaTasks.step_effect _ _ _ _, hp⟩
  | freki build e => cases hp
  | getActive =>
    simp only [ModelServing.step] at hp
    split at hp
    · split at hp <;> cases hp
    · cases hp
  | getData =>
    simp only [ModelServing.step] at hp
    split at hp <;> cases hp
  | requestFailed exc =>
    simp only [ModelServing.step] at hp
    split at hp <;> cases hp
  | refreshed =>
    simp only [ModelServing.step] at hp
    split at hp <;> cases hp

/-- Rows stay held. -/
private theorem holds_step {m : TrainedModel} (s : ModelServing) (h : Holds m s.registry)
    (e : ServingEvent) : Holds m (s.step d e).2.registry := by
  -- only an event of the registry writes rows
  cases e with
  | freki build e =>
    have hstep : Holds m ((registry d.py d.secret).step s.registry (build, e)).2 :=
      h.step (build, e)
    exact hstep
  | stream e he => exact h
  | getActive =>
    simp only [ModelServing.step]
    split
    · split <;> exact h
    · exact h
  | getData =>
    simp only [ModelServing.step]
    split <;> exact h
  | requestFailed exc =>
    simp only [ModelServing.step]
    split <;> exact h
  | refreshed =>
    simp only [ModelServing.step]
    split <;> exact h

/-- The models that rows were handled with have their origins. -/
def Seen (d : Deployment) (c : Config ModelServing ServingEvent ServingAnswer) : Prop :=
  ∀ x ∈ taskLog c.log, ∀ model, x.2.model = some model →
    ∃ m, Origin d c.log c.state.registry model m

/-- What has been held and shown keeps its origin, one event later. -/
theorem Seen.answer (h : Seen d c) (hfollows : Follows d c) (e : ServingEvent) :
    Seen d ((servingMachine d).answer c e) := by
  intro x hx model hmodel
  have horigin : ∃ m, Origin d c.log c.state.registry model m := by
    rcases mem_taskLog_answer hx with hx | heff
    · exact h x hx model hmodel
    · exact hfollows.origin (holder_of_model heff hmodel)
  obtain ⟨m, hm⟩ := horigin
  exact ⟨m, hm.mono _ fun m hm => holds_step c.state hm e⟩

/-- `p` is put by a row that was handled with the one model of an upload. -/
structure Served (d : Deployment) (c : Config ModelServing ServingEvent ServingAnswer)
    (m : TrainedModel) (model : ActiveModel) (p : Prediction) : Prop where
  /-- The model came in one upload, and a round found it active. -/
  origin : Origin d c.log c.state.registry model m
  /-- The votes that decide `p` are predictions made since the model became the active one. -/
  pure : PurePut d.extract (taskLog c.log) model p
  /-- All of them are predictions of this very model. -/
  same : ∀ x ∈ since model.id (taskLog c.log), ∀ model', x.2.model = some model' →
    model' = model
  /-- Each of them is about a full window, whose rows are all of its receiver. -/
  whole : ∀ x ∈ since model.id (taskLog c.log), ∀ call ∈ x.2.windows,
    call.rows.length = blockLength d.windowSize ∧
      ∀ row ∈ call.rows, row.receiverId = some call.receiverId

/-- In every run the holder follows the registry, and so did it for every row that was handled. -/
theorem seen_of_run (hrun : (servingMachine d).Run ServingOrder ⟨[], .start⟩ c) :
    Follows d c ∧ Seen d c := by
  refine hrun.invariant (I := fun c => Follows d c ∧ Seen d c)
    ⟨follows_start d, fun _ hx => absurd hx List.not_mem_nil⟩ ?_
  intro c e h _
  exact ⟨h.1.answer e, h.2.answer h.1 e⟩

/-- What is put is decided by the votes of the one model in the holder. -/
theorem served_of_put (hfollows : Follows d c) (hseen : Seen d c) {e : ServingEvent}
    (hvoted : Voted d.extract
      ⟨taskLog ((servingMachine d).answer c e).log, (c.state.step d e).2.tasks⟩)
    (hcutting : Cutting (blockLength d.windowSize)
      ⟨taskLog ((servingMachine d).answer c e).log, (c.state.step d e).2.tasks⟩)
    {p : Prediction} (hp : p ∈ (c.state.step d e).1.puts) :
    ∃ m model, Served d ((servingMachine d).answer c e) m model p := by
  obtain ⟨e', r, heff, hputs⟩ := effect_of_puts hp
  obtain ⟨model, hholder, hactive, rfl⟩ := heff.put hputs
  obtain ⟨m, horigin⟩ := hfollows.origin hholder
  have horigin' : Origin d _ (c.state.step d e).2.registry model m :=
    horigin.mono (e, (c.state.step d e).1) fun m hm => holds_step c.state hm e
  have hpure := aggregate_pure (fun rid => hvoted.votes model.id hactive rid) hvoted.models
  refine ⟨m, model, horigin', hpure, ?_,
    fun x' hx' call hcall => hcutting.whole_of_log (List.takeWhile_subset _ hx') hcall⟩
  intro x' hx' model' hmodel'
  have hid := hpure.made x' hx' model' hmodel'
  obtain ⟨m', hm'⟩ := (hseen.answer hfollows e) x' (List.takeWhile_subset _ hx') model' hmodel'
  exact hm'.loads.unique horigin'.loads hm'.held horigin'.held hid

/-- The votes of a deployment are those of a run of the two tasks alone. -/
theorem voted_of_run (hrun : (servingMachine d).Run ServingOrder ⟨[], .start⟩ c) :
    Voted d.extract ⟨taskLog c.log, c.state.tasks⟩ := by
  apply (run_taskLog hrun).invariant (I := Voted d.extract) voted_start
  intro c e h _
  exact h.answer e

/-- Every prediction put in any run, whatever Freki answers at whatever moment, is decided by
    the votes of one uploaded model that was active when Völva asked for it. -/
theorem served_of_run {d : Deployment} {c : Config ModelServing ServingEvent ServingAnswer}
    (hrun : (servingMachine d).Run ServingOrder ⟨[], .start⟩ c) (e : ServingEvent)
    (henabled : ServingOrder c e) (p : Prediction) (hp : p ∈ (c.state.step d e).1.puts) :
    ∃ m model, Served d ((servingMachine d).answer c e) m model p := by
  obtain ⟨hfollows, hseen⟩ := seen_of_run hrun
  have hnext := hrun.snoc e henabled
  exact served_of_put hfollows hseen (voted_of_run hnext) (cutting_of_run (run_taskLog hnext)) hp

/-! ## A model that is replaced in the middle of a round -/

/-- A Völva of version 1 whose models all answer `kitchen`. -/
def kitchenDeployment : Deployment where
  py := exactPydantic
  volva := .current
  joblib := anyClassifier
  secret := ""
  extract := fun _ _ => .ok []
  windowSize := 1

/-- An upload of a model of one byte. -/
def uploadOf (name : String) (byte : UInt8) : ServingEvent :=
  .freki .current (.upload none ⟨name, .ok (.obj []), .ok (.obj []), none, [byte]⟩
    (fun _ => true) 0)

/-- The second model is activated while Völva asks for the bytes of the first. -/
def replacedRun : List ServingEvent :=
  [uploadOf "old" 0, uploadOf "new" 1, .freki .current (.activate 1 [.activate 1]), .getActive,
    .freki .current (.activate 2 [.clear 1, .activate 2]), .getData, .refreshed]

/-- A model is replaced while its bytes are on their way. -/
theorem follows_of_replacedRun :
    Serves kitchenDeployment
      ((servingMachine kitchenDeployment).replay ⟨[], .start⟩ replacedRun).log
      ((servingMachine kitchenDeployment).replay ⟨[], .start⟩ replacedRun).state.registry
      (followed ((servingMachine kitchenDeployment).replay ⟨[], .start⟩ replacedRun).log)
      ((servingMachine kitchenDeployment).replay ⟨[], .start⟩ replacedRun).state.tasks.holder := by
  have hadmits : (servingMachine kitchenDeployment).Admits ServingOrder ⟨[], .start⟩ replacedRun :=
    ⟨trivial, trivial, trivial, trivial, trivial, trivial, trivial, trivial⟩
  exact follows_of_run (Machine.run_of_admits hadmits)

/-- The row that comes then is handled with the first model. -/
theorem served_of_replacedRun :
    ∃ m model, Served kitchenDeployment ((servingMachine kitchenDeployment).answer
      ((servingMachine kitchenDeployment).replay ⟨[], .start⟩ replacedRun)
      (.stream (.message (plainRow 1)) rfl)) m model ⟨1, [("kitchen", 1)]⟩ := by
  have hadmits : (servingMachine kitchenDeployment).Admits ServingOrder ⟨[], .start⟩ replacedRun :=
    ⟨trivial, trivial, trivial, trivial, trivial, trivial, trivial, trivial⟩
  exact served_of_run (Machine.run_of_admits hadmits) (.stream (.message (plainRow 1)) rfl) rfl
    ⟨1, [("kitchen", 1)]⟩ (List.Mem.head [])

end Volva

end Grimnir
