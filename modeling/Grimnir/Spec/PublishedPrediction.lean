import Grimnir.Native.Predictions

/-!
# What a skipped `PUT` leaves in Freki

`_maybe_publish` skips the `PUT` of a prediction that equals `last_published`.  That is the
prediction Freki holds exactly when the last `PUT` that Freki applied was also acknowledged.

## Key results

- `Tracked.answer`: `last_published` is what Freki holds unless a later `PUT` was applied
  without an acknowledgement
- `skip_serves_iff`: a skip finds the computed prediction in Freki exactly then
- `skipped_stale`: a vote flips, its `PUT` is applied unseen, and the vote flips back
-/

namespace Grimnir

open Volva

variable {extract : Extractor} {windowSize : Int}

namespace Volva.StreamLoop

/-- The prediction that `_aggregate` computes after a row, when the row brought a new vote. -/
def computed (extract : Extractor) (windowSize : Int) (row : RowDoc) (model : ActiveModel)
    (s : StreamLoop) : Option Prediction :=
  match handleRow extract row model windowSize (s.adopt model).receivers with
  | (true, _, receivers) =>
    some ⟨model.id, aggregate (receivers.rows.map fun p => p.2.votes) model.classes⟩
  | (false, _, _) => none

variable (extract windowSize) in
/-- A row puts the computed prediction unless it equals `last_published`, and only a
    successful `PUT` is remembered. -/
private theorem step_row_puts (row : RowDoc) (model : ActiveModel) (put : Bool) (s : StreamLoop) :
    (s.computed extract windowSize row model = none ∧
      (s.step extract windowSize (.row row (some model) put)).1.puts = [] ∧
      (s.step extract windowSize (.row row (some model) put)).2.lastPublished =
        (s.adopt model).lastPublished) ∨
    ∃ p, s.computed extract windowSize row model = some p ∧
      (((s.adopt model).lastPublished = some p ∧
        (s.step extract windowSize (.row row (some model) put)).1.puts = [] ∧
        (s.step extract windowSize (.row row (some model) put)).2.lastPublished = some p) ∨
      ((s.adopt model).lastPublished ≠ some p ∧
        (s.step extract windowSize (.row row (some model) put)).1.puts = [p] ∧
        (s.step extract windowSize (.row row (some model) put)).2.lastPublished =
          if put then some p else (s.adopt model).lastPublished)) := by
  -- did the row complete a window?
  cases hrow : handleRow extract row model windowSize (s.adopt model).receivers with
  | mk changed rest =>
    obtain ⟨windows, receivers⟩ := rest
    cases changed with
    | false =>
      refine .inl ⟨?_, ?_, ?_⟩
      · simp only [computed, hrow]
      · simp only [step, hrow, Bool.false_eq_true, if_false]
      · simp only [step, hrow, Bool.false_eq_true, if_false]
    | true =>
      refine .inr ⟨_, by simp only [computed, hrow]; rfl, ?_⟩
      -- then it is put, unless it is what was put last
      by_cases hlast : (s.adopt model).lastPublished =
          some ⟨model.id, aggregate (receivers.rows.map fun p => p.2.votes) model.classes⟩
      · refine .inl ⟨hlast, ?_, ?_⟩
        · simp only [step, hrow, if_true, maybePublish, hlast]
        · simp only [step, hrow, if_true, maybePublish, hlast]
      · refine .inr ⟨hlast, ?_, ?_⟩
        · simp only [step, hrow, if_true, maybePublish, if_neg hlast]
        · simp only [step, hrow, if_true, maybePublish, if_neg hlast]

/-- Taking up a model keeps `last_published` or forgets it. -/
private theorem lastPublished_adopt {model : ActiveModel} {s : StreamLoop} {q : Prediction}
    (h : (s.adopt model).lastPublished = some q) : s.lastPublished = some q := by
  unfold adopt at h
  split at h
  · exact h
  · cases h

end Volva.StreamLoop

/-! ## The last `PUT` that Freki applied -/

/-- The newest `PUT` of a log that Freki applied. -/
def lastApplied (log : List (PredictionEvent × PredictionResponse)) : Option PutResult :=
  log.findSome? fun p => p.2.put.filter (·.applied)

/-- Freki serves `p`, whatever its timestamp. -/
def PredictionSystem.Serves (s : PredictionSystem) (p : Prediction) : Prop :=
  ∃ body, getCurrent s.current = .ok body ∧ body.modelId = p.modelId ∧ body.rooms = p.rooms

/-- What Freki makes of a `PUT` of `p`. -/
private theorem putPrediction_cases (delivery : Delivery) (timestamp now : Timestamp)
    (p : Prediction) (row : Option CurrentPrediction) :
    putPrediction delivery timestamp now p row = (⟨false, false⟩, row) ∨
    ∃ acknowledged body, putPrediction delivery timestamp now p row =
        (⟨true, acknowledged⟩, some (putCurrent body now)) ∧
      body.modelId = p.modelId ∧ body.rooms = p.rooms := by
  unfold putPrediction PredictionUpdate.validate
  by_cases hrooms : p.rooms ≠ []
  · rw [dif_pos hrooms]
    cases delivery with
    | acknowledged => exact .inr ⟨true, _, rfl, rfl, rfl⟩
    | lost => exact .inl rfl
    | unacknowledged => exact .inr ⟨false, _, rfl, rfl, rfl⟩
  · rw [dif_neg hrooms]
    cases delivery <;> exact .inl rfl

/-- After an applied `PUT` of `p` Freki serves `p` and nothing else. -/
private theorem serves_putCurrent_iff {volva : StreamLoop} {body : PredictionUpdate}
    {now : Timestamp}
    {p q : Prediction} (hmodel : body.modelId = p.modelId) (hrooms : body.rooms = p.rooms) :
    (PredictionSystem.mk volva (some (putCurrent body now))).Serves q ↔ q = p := by
  constructor
  · rintro ⟨body', hbody, hm, hr⟩
    cases hbody
    cases p
    cases q
    simp only [Prediction.mk.injEq]
    exact ⟨hm.symm.trans hmodel, hr.symm.trans hrooms⟩
  · rintro rfl
    exact ⟨body, rfl, hmodel, hrooms⟩

/-- What an event does to the published prediction. -/
inductive PredictionSystem.Effect (s : PredictionSystem) :
    Option PutResult → PredictionSystem → Prop where
  /-- Nothing is applied, and `last_published` is kept or forgotten. -/
  | quiet (put : Option PutResult) (volva : StreamLoop)
      (hput : ∀ result ∈ put, result.applied = false)
      (hlast : ∀ q, volva.lastPublished = some q → s.volva.lastPublished = some q) :
      Effect s put ⟨volva, s.current⟩
  /-- A `PUT` of `p` is applied; Völva then remembers `p` exactly when it was acknowledged. -/
  | applied (p : Prediction) (acknowledged : Bool) (body : PredictionUpdate) (now : Timestamp)
      (volva : StreamLoop) (hmodel : body.modelId = p.modelId) (hrooms : body.rooms = p.rooms)
      (hlast : ∀ q, volva.lastPublished = some q → (q = p ↔ acknowledged = true)) :
      Effect s (some ⟨true, acknowledged⟩) ⟨volva, some (putCurrent body now)⟩

/-- A row of an active model sends no `PUT`, or one of a prediction that is not
    `last_published`. -/
private theorem PredictionSystem.row_effect (row : RowDoc) (model : ActiveModel)
    (delivery : Delivery) (timestamp now : Timestamp) (s : PredictionSystem) :
    s.Effect (s.step extract windowSize (.row row (some model) delivery timestamp now)).1.put
      (s.step extract windowSize (.row row (some model) delivery timestamp now)).2 := by
  have hkept : ∀ q, (s.volva.adopt model).lastPublished = some q →
      s.volva.lastPublished = some q := fun q => StreamLoop.lastPublished_adopt
  unfold step
  rcases StreamLoop.step_row_puts extract windowSize row model false
    -- nothing computed, the same prediction again, or a new one
    s.volva with ⟨-, hputs, hlast⟩ | ⟨p, hp, ⟨hsame, hputs, hlast⟩ | ⟨hnew, hputs, -⟩⟩
  · simp only [hputs]
    exact .quiet none _ (fun _ hr => nomatch hr) fun q hq => hkept q (hlast.symm.trans hq)
  · simp only [hputs]
    refine .quiet none _ (fun _ hr => nomatch hr) fun q hq => hkept q ?_
    rw [hsame, ← hlast]
    exact hq
  · simp only [hputs]
    -- the same row, once the result of the `PUT` is known
    have hsent : ∀ put, (s.volva.step extract windowSize
        (.row row (some model) put)).2.lastPublished =
          if put then some p else (s.volva.adopt model).lastPublished := by
      intro put
      rcases StreamLoop.step_row_puts extract windowSize row model
        put s.volva with ⟨hnone, -⟩ | ⟨p', hp', ⟨hsame, -⟩ | ⟨-, -, hlast⟩⟩
      · rw [hp] at hnone
        cases hnone
      · rw [hp] at hp'
        cases hp'
        exact absurd hsame hnew
      · rw [hp] at hp'
        cases hp'
        exact hlast
    -- the `PUT` was applied or not, whatever its sender heard of it
    rcases putPrediction_cases delivery timestamp now p s.current with
      hresult | ⟨acknowledged, body, hresult, hmodel, hrooms⟩
    · rw [hresult]
      refine .quiet _ _ (fun r hr => ?_) fun q hq => hkept q ((hsent false).symm.trans hq)
      cases hr
      rfl
    · rw [hresult]
      refine .applied p acknowledged body now _ hmodel hrooms fun q hq => ?_
      rw [hsent] at hq
      cases acknowledged with
      | true =>
        cases hq
        exact iff_of_true rfl rfl
      | false =>
        refine iff_of_false ?_ Bool.false_ne_true
        rintro rfl
        exact hnew hq

variable (extract windowSize) in
/-- What one event does to the published prediction. -/
theorem PredictionSystem.step_effect (s : PredictionSystem) (e : PredictionEvent) :
    s.Effect (s.step extract windowSize e).1.put (s.step extract windowSize e).2 := by
  cases e with
  | disconnected => exact .quiet none _ (fun _ hr => nomatch hr) fun _ hq => hq
  | row row current delivery timestamp now =>
    cases current with
    | none =>
      refine .quiet none _ (fun _ hr => nomatch hr) fun q hq => ?_
      cases hq
    | some model => exact s.row_effect row model delivery timestamp now

/-! ## What Völva remembers -/

/-- `last_published` is what Freki serves unless the last `PUT` applied was not
    acknowledged, and then it is not. -/
def Tracked (c : Config PredictionSystem PredictionEvent PredictionResponse) : Prop :=
  ∀ q, c.state.volva.lastPublished = some q →
    ∃ result, lastApplied c.log = some result ∧
      (c.state.Serves q ↔ result.acknowledged = true)

private theorem lastApplied_cons (e : PredictionEvent) (r : PredictionResponse)
    (log : List (PredictionEvent × PredictionResponse)) :
    lastApplied ((e, r) :: log) = (r.put.filter (·.applied)).or (lastApplied log) := by
  rw [lastApplied, List.findSome?_cons]
  cases r.put.filter (·.applied) with
  | none => rfl
  | some result => rfl

theorem Tracked.answer {c : Config PredictionSystem PredictionEvent PredictionResponse}
    (h : Tracked c) (e : PredictionEvent) :
    Tracked ((predictionMachine extract windowSize).answer c e) := by
  have heff := c.state.step_effect extract windowSize e
  intro q hq
  show ∃ result, lastApplied ((e, (c.state.step extract windowSize e).1) :: c.log) =
    some result ∧ ((c.state.step extract windowSize e).2.Serves q ↔ _)
  rw [lastApplied_cons]
  change (c.state.step extract windowSize e).2.volva.lastPublished = some q at hq
  generalize (c.state.step extract windowSize e).1.put = put at heff
  generalize (c.state.step extract windowSize e).2 = s' at heff hq
  -- a round that applies nothing keeps the result of the one before
  cases heff with
  | quiet put volva hput hlast =>
    obtain ⟨result, happlied, hserves⟩ := h q (hlast q hq)
    refine ⟨result, ?_, hserves⟩
    have hskip : put.filter (·.applied) = none := by
      cases put with
      | none => rfl
      | some r => rw [Option.filter_some, hput r rfl]; rfl
    rw [hskip]
    exact happlied
  -- the applied one is what is served now
  | applied p acknowledged body now volva hmodel hrooms hlast =>
    exact ⟨⟨true, acknowledged⟩, rfl, (serves_putCurrent_iff hmodel hrooms).trans (hlast q hq)⟩

/-! ## Skipping -/

/-- A row whose new vote leads to `p`, with the `PUT` of `p` skipped. -/
def Skips (extract : Extractor) (windowSize : Int) (s : PredictionSystem) (row : RowDoc)
    (model : ActiveModel) (p : Prediction) : Prop :=
  s.volva.computed extract windowSize row model = some p ∧
    (s.volva.step extract windowSize (.row row (some model) false)).1.puts = []

/-- Only `last_published` itself is skipped. -/
theorem Skips.lastPublished {s : PredictionSystem} {row : RowDoc} {model : ActiveModel}
    {p : Prediction} (h : Skips extract windowSize s row model p) :
    s.volva.lastPublished = some p := by
  obtain ⟨hp, hskip⟩ := h
  rcases StreamLoop.step_row_puts extract windowSize row model false
    s.volva with ⟨hnone, -⟩ | ⟨p', hp', ⟨hsame, -⟩ | ⟨-, hputs, -⟩⟩
  · rw [hp] at hnone
    cases hnone
  · rw [hp] at hp'
    cases hp'
    exact StreamLoop.lastPublished_adopt hsame
  · rw [hskip] at hputs
    cases hputs

/-- Völva as it starts, with whatever Freki holds. -/
def PredictionSystem.start (current : Option CurrentPrediction) : PredictionSystem :=
  ⟨.start, current⟩

/-- In every run, a skipped `PUT` leaves Freki with the model and the rooms just computed
    exactly when the last `PUT` that Freki applied was acknowledged. -/
theorem skip_serves_iff (current : Option CurrentPrediction)
    (c : Config PredictionSystem PredictionEvent PredictionResponse)
    (hrun : (predictionMachine extract windowSize).Run (fun _ _ => True)
      ⟨[], .start current⟩ c) (row : RowDoc) (model : ActiveModel) (p : Prediction)
    (hskip : Skips extract windowSize c.state row model p) :
    c.state.Serves p ↔ ∃ result, lastApplied c.log = some result ∧ result.acknowledged = true := by
  have htracked : Tracked c := by
    refine hrun.invariant (I := Tracked) (fun q hq => by cases hq) ?_
    intro c e h _
    exact h.answer e
  obtain ⟨result, happlied, hserves⟩ := htracked p hskip.lastPublished
  rw [hserves, happlied]
  constructor
  · intro hack
    exact ⟨result, rfl, hack⟩
  · rintro ⟨result', heq, hack⟩
    cases heq
    exact hack

/-! ## A vote that flips and flips back -/

/-- A model of two rooms that answers `kitchen` to the feature `0`. -/
def twoRoomModel : ActiveModel where
  id := 1
  name := "two rooms"
  classifier features := .ok (if features = [0] then "kitchen" else "den")
  featureConfig := .default .current
  classes := ["den", "kitchen"]
  createdAt := 0

/-- The amplitudes themselves as features. -/
def amplitudes : Extractor := fun rows _ => .ok (rows.flatMap (·.amplitude))

/-- A row of receiver 1 with one amplitude. -/
def amplitudeRow (word : UInt32) : RowDoc := ⟨0, some 1, none, [word], []⟩

/-- A row under `twoRoomModel`. -/
def twoRoomEvent (word : UInt32) (delivery : Delivery) : PredictionEvent :=
  .row (amplitudeRow word) (some twoRoomModel) delivery 0 0

/-- The prediction that somebody is in the kitchen only. -/
def kitchenOnly : Prediction := ⟨1, [("den", 0), ("kitchen", 1)]⟩

theorem skip_serves_iff_kitchen :
    ((predictionMachine amplitudes 1).replay ⟨[], .start none⟩
      [twoRoomEvent 0 .acknowledged]).state.Serves kitchenOnly :=
  (skip_serves_iff none
    ((predictionMachine amplitudes 1).replay ⟨[], .start none⟩ [twoRoomEvent 0 .acknowledged])
    (Machine.run_of_admits ⟨trivial, trivial⟩) (amplitudeRow 0) twoRoomModel kitchenOnly
    ⟨by decide, by decide⟩).mpr ⟨⟨true, true⟩, rfl, rfl⟩

/-- The vote flips to the den, its `PUT` is applied unseen, and the vote flips back. -/
def flippedRun : List PredictionEvent :=
  [twoRoomEvent 0 .acknowledged, twoRoomEvent 1 .acknowledged, twoRoomEvent 1 .unacknowledged]

/-- Freki keeps serving the den. -/
theorem skipped_stale :
    ¬∀ (extract : Extractor) (windowSize : Int) (current : Option CurrentPrediction)
      (c : Config PredictionSystem PredictionEvent PredictionResponse),
      (predictionMachine extract windowSize).Run (fun _ _ => True) ⟨[], .start current⟩ c →
        ∀ (row : RowDoc) (model : ActiveModel) (p : Prediction),
          Skips extract windowSize c.state row model p → c.state.Serves p := by
  intro h
  obtain ⟨body, hbody, -, hrooms⟩ := h amplitudes 1 none
    ((predictionMachine amplitudes 1).replay ⟨[], .start none⟩ flippedRun)
    (Machine.run_of_admits ⟨trivial, trivial, trivial, trivial⟩) (amplitudeRow 0) twoRoomModel
    kitchenOnly ⟨by decide, by decide⟩
  have hden : (Except.ok body).map (·.rooms) =
      (.ok [("den", 1), ("kitchen", 0)] : Except HTTPException Rooms) := by
    rw [← hbody]
    rfl
  rw [Except.map, hrooms] at hden
  exact absurd hden (by decide)

end Grimnir
