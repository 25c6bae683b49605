import Grimnir.Spec.WindowPurity
import Mathlib.Data.List.MinMax

/-!
# Predictions never mix models

The votes that `stream_loop` keeps for a receiver are the last predictions made for it since
the active model became active.  They survive a lost connection and a `PUT` that is awaited,
and no swap, so what is published for a model is decided by that model's predictions alone.

## Key results

- `mostCommon_eq_some_iff`: the vote that wins
- `Voted.effect`: what one event does to the votes of a receiver
- `putsPure_of_run`: every prediction put in every run
-/

namespace Grimnir.Volva

/-! ## The winner -/

/-- The majority is the first vote of the greatest count. -/
private theorem mostCommon_eq_argmax (votes : List String) :
    mostCommon votes = votes.argmax votes.count := by
  unfold mostCommon List.argmax
  congr 1
  funext best vote
  cases best <;> rfl

/-- The vote that wins is a most frequent one, and the first of these. -/
theorem mostCommon_eq_some_iff {votes : List String} {room : String} :
    mostCommon votes = some room ↔
      room ∈ votes ∧ (∀ vote ∈ votes, votes.count vote ≤ votes.count room) ∧
        ∀ vote ∈ votes, votes.count room ≤ votes.count vote →
          votes.idxOf room ≤ votes.idxOf vote := by
  rw [mostCommon_eq_argmax]
  exact List.argmax_eq_some_iff

/-- The last at most `VOTE_HISTORY` of a receiver's predictions. -/
def lastVotes (predictions : List String) : List String :=
  predictions.drop (predictions.length - voteHistory)

/-- The `deque` keeps the last predictions. -/
private theorem lastVotes_concat (predictions : List String) (room : String) :
    lastVotes (predictions ++ [room]) = appendVote (lastVotes predictions) room := by
  unfold lastVotes appendVote
  rw [List.length_append, List.length_singleton, List.length_drop]
  by_cases hfull : voteHistory ≤ predictions.length
  -- the history is full: one vote comes and the oldest one goes
  · have hdrop : predictions.length - (predictions.length - voteHistory) + 1 - voteHistory = 1 := by
      omega
    have hlater : predictions.length + 1 - voteHistory = predictions.length - voteHistory + 1 := by
      omega
    rw [hdrop, hlater, ← List.drop_append_of_le_length (by omega), List.drop_drop]
  · have hnone : predictions.length - voteHistory = 0 := by omega
    have hfits : predictions.length + 1 - voteHistory = 0 := by omega
    rw [hnone, Nat.sub_zero, hfits, List.drop_zero, List.drop_zero, List.drop_zero]

/-! ## The predictions of the active model -/

/-- The entries since `m` last became the active model, newest first. -/
def since (m : Int) (log : List TaskEntry) : List TaskEntry :=
  log.takeWhile fun x => x.2.activeModelId = some m

/-- The rooms predicted for a receiver at an entry, by the model its row was handled with. -/
def predictedAt (extract : Extractor) (rid : Int) (x : TaskEntry) : List String :=
  match x.2.model with
  | none => []
  | some model =>
    (callsOf rid x.2.windows).filterMap fun rows => (predictOnce extract model rows).toOption

/-- The rooms predicted for a receiver since `m` last became the active model, the oldest
    first. -/
def predictions (extract : Extractor) (m rid : Int) (log : List TaskEntry) : List String :=
  (since m log).reverse.flatMap (predictedAt extract rid)

variable {extract : Extractor} {windowSize : Int}

/-- One more entry under the model adds its predictions. -/
private theorem predictions_cons {m : Int} {x : TaskEntry} (h : x.2.activeModelId = some m)
    (rid : Int) (log : List TaskEntry) : predictions extract m rid (x :: log) =
      predictions extract m rid log ++ predictedAt extract rid x := by
  unfold predictions since
  rw [List.takeWhile_cons_of_pos (by simpa using h), List.reverse_cons]
  simp

/-- A model that was not active has made no predictions since. -/
private theorem predictions_of_head {m : Int} {log : List TaskEntry}
    (h : ∀ x ∈ log.head?, x.2.activeModelId ≠ some m) (rid : Int) :
    predictions extract m rid log = [] := by
  cases log with
  | nil => rfl
  | cons x log =>
    have hx := h x rfl
    unfold predictions since
    rw [List.takeWhile_cons_of_neg (by simpa using hx)]
    rfl

/-! ## One event -/

/-- The votes of each receiver. -/
def votesOf (receivers : Dict Int ReceiverState) (rid : Int) : List String :=
  ((receivers.get? rid).getD ⟨[], []⟩).votes

/-- Setting a receiver's state sets its votes. -/
private theorem votesOf_set (receivers : Dict Int ReceiverState) (rid rid' : Int)
    (rs : ReceiverState) : votesOf (receivers.set rid rs) rid' =
      if rid = rid' then rs.votes else votesOf receivers rid' := by
  unfold votesOf
  rw [Dict.get?_set]
  split
  · rfl
  · rfl

/-- Clearing the buffers keeps the votes. -/
private theorem votesOf_clearBuffers (receivers : Dict Int ReceiverState) (rid : Int) :
    votesOf (StreamLoop.clearBuffers receivers) rid = votesOf receivers rid := by
  unfold votesOf StreamLoop.clearBuffers Dict.get?
  rw [Table.find?_update]
  cases receivers.find? rid <;> rfl

/-- A model that becomes active finds no votes. -/
private theorem votesOf_adopt (s : StreamLoop) (model : ActiveModel) (rid : Int) :
    votesOf (s.adopt model).receivers rid =
      if s.activeModelId = some model.id then votesOf s.receivers rid else [] := by
  unfold StreamLoop.adopt
  split
  · rfl
  · rfl

/-- One window is predicted on for its receiver only. -/
private theorem predicted_single (model : ActiveModel) (rid rid' : Int) (rows : List RowDoc) :
    (callsOf rid [⟨rid', rows⟩]).filterMap
        (fun rows => (predictOnce extract model rows).toOption) =
      if rid' = rid then (predictOnce extract model rows).toOption.toList else [] := by
  by_cases hsame : rid' = rid
  · cases hroom : (predictOnce extract model rows).toOption <;> simp [callsOf, hsame, hroom]
  · simp [callsOf, hsame]

/-- The votes of a receiver, as the last of what was predicted for it, take in what a row
    predicts. -/
private theorem handleRow_votes (model : ActiveModel) (receivers : Dict Int ReceiverState)
    (row : RowDoc) (rid : Int) {x : TaskEntry}
    (hwindows : x.2.windows =
      (StreamLoop.handleRow extract row model windowSize receivers).2.1)
    (hmodel : x.2.model = some model) {predicted : List String}
    (hvotes : votesOf receivers rid = lastVotes predicted) :
    votesOf (StreamLoop.handleRow extract row model windowSize receivers).2.2 rid =
      lastVotes (predicted ++ predictedAt extract rid x) := by
  unfold predictedAt
  rw [hmodel, hwindows]
  -- a row without a receiver votes for nobody
  cases hrid : row.receiverId with
  | none =>
    rw [handleRow_none extract model windowSize receivers hrid]
    simpa [callsOf] using hvotes
  | some rid' =>
    have hkept : ∀ buf, votesOf (receivers.set rid'
        ⟨buf, ((receivers.get? rid').getD ⟨[], []⟩).votes⟩) rid = lastVotes predicted := by
      intro buf
      rw [votesOf_set, ← hvotes]
      split
      · rename_i hsame
        rw [hsame]
        rfl
      · rfl
    unfold StreamLoop.handleRow
    simp only [hrid]
    split
    · -- the window is not full yet
      simpa [callsOf] using hkept _
    · cases hpredict : predictOnce extract model
          (((receivers.get? rid').getD ⟨[], []⟩).buf ++ [row]) with
      | error e =>
        -- a window that fails is emptied and gives no vote
        simp only [predicted_single, hpredict]
        simpa [Except.toOption] using hkept []
      | ok room =>
        simp only [predicted_single, hpredict]
        rw [votesOf_set]
        -- the vote is appended for its receiver and no other
        split
        · rename_i hsame
          show appendVote _ room = lastVotes (predicted ++ [room])
          rw [lastVotes_concat, ← hvotes, hsame]
          rfl
        · rw [List.append_nil, hvotes]

/-- The votes of every receiver are the last ones of its predictions since the active model
    became active. -/
structure Voted (extract : Extractor) (c : Config VolvaTasks TaskEvent TaskResponse) : Prop where
  active : ∀ x ∈ c.log.head?, x.2.activeModelId = c.state.loop.activeModelId
  idle : c.state.Idle
  start : c.log = [] → c.state.loop.activeModelId = none
  votes : ∀ m, c.state.loop.activeModelId = some m → ∀ rid,
    votesOf c.state.loop.receivers rid = lastVotes (predictions extract m rid c.log)
  models : ∀ x ∈ c.log, ∀ model, x.2.model = some model →
    x.2.activeModelId = some model.id

/-- Nothing is voted at the start. -/
theorem voted_start : Voted extract ⟨[], .start⟩ where
  active x hx := by cases hx
  idle _ rid := bufOf_empty rid
  start _ := rfl
  votes m hm := by cases hm
  models x hx := by cases hx

/-- Taking up a model keeps the votes of the model that was active, and those only. -/
theorem Voted.adopt {c : Config VolvaTasks TaskEvent TaskResponse} (h : Voted extract c)
    (model : ActiveModel) (rid : Int) :
    votesOf (c.state.loop.adopt model).receivers rid =
      lastVotes (predictions extract model.id rid c.log) := by
  rw [votesOf_adopt]
  split
  · rename_i hactive
    exact h.votes model.id hactive rid
  · rename_i hother
    -- another model was active, so this one has predicted nothing since
    rw [predictions_of_head]
    · rfl
    · intro x hx hsame
      exact hother ((h.active x hx).symm.trans hsame)

section Effect

variable {c : Config VolvaTasks TaskEvent TaskResponse} {e : TaskEvent} {r : TaskResponse}
  {s' : VolvaTasks}

/-- An entry without a model predicted nothing. -/
private theorem predictedAt_of_model {rid : Int} {x : TaskEntry} (h : x.2.model = none) :
    predictedAt extract rid x = [] := by
  rw [predictedAt, h]

/-- What one event does to the votes. -/
theorem Voted.effect (h : Voted extract c) (heff : c.state.Effect extract windowSize e r s')
    {m : Int} (hm : s'.loop.activeModelId = some m) (rid : Int) :
    votesOf s'.loop.receivers rid =
      lastVotes (predictions extract m rid c.log ++ predictedAt extract rid (e, r)) := by
  -- of the effects only a row may bring votes
  cases heff with
  | quiet s' hreceivers hactive =>
    rw [predictedAt_of_model rfl, List.append_nil, hreceivers]
    exact h.votes m (hactive.symm.trans hm) rid
  | dropped => cases hm
  | row row model r s' hevent hholder hmodel hlost hid hactive hwindows hreceivers =>
    obtain rfl : model.id = m := Option.some.inj (hactive.symm.trans hm)
    rw [hreceivers]
    exact handleRow_votes model _ row rid hwindows hmodel (h.adopt model rid)
  | lost loop hloop =>
    -- the buffers are cleared, and the votes stay
    have hvotes : votesOf loop.receivers rid = lastVotes (predictions extract m rid c.log) := by
      cases hloop with
      | inl heq =>
        subst heq
        exact h.votes m hm rid
      | inr hadopt =>
        obtain ⟨model, rfl⟩ := hadopt
        obtain rfl : model.id = m :=
          Option.some.inj ((c.state.loop.activeModelId_adopt model).symm.trans hm)
        exact h.adopt model rid
    rw [predictedAt_of_model rfl, List.append_nil, ← hvotes]
    exact votesOf_clearBuffers _ rid

end Effect

/-- A row is handled with the model that is active afterwards. -/
theorem VolvaTasks.Effect.model {s s' : VolvaTasks} {e : TaskEvent} {r : TaskResponse}
    (h : s.Effect extract windowSize e r s') {model : ActiveModel} (hr : r.model = some model) :
    r.activeModelId = some model.id := by
  cases h with
  | quiet => cases hr
  | dropped => cases hr
  | row row model' r s' _ _ hmodel _ hid =>
    rw [hmodel] at hr
    cases hr
    exact hid
  | lost => cases hr

/-- A prediction is put when a row was handled, and is the one of the votes that it leaves. -/
theorem VolvaTasks.Effect.put {s s' : VolvaTasks} {e : TaskEvent} {r : TaskResponse}
    (h : s.Effect extract windowSize e r s') {p : Prediction} (hp : p ∈ r.puts) :
    ∃ model, s.holder = some model ∧ s'.loop.activeModelId = some model.id ∧
      p = ⟨model.id, aggregate (s'.loop.receivers.rows.map fun p => p.2.votes) model.classes⟩ := by
  cases h with
  | quiet => cases hp
  | dropped => cases hp
  | row row model r s' _ hholder _ _ _ hactive _ _ hputs =>
    exact ⟨model, hholder, hactive, hputs p hp⟩
  | lost => cases hp

/-- One step, by cases on what it did. -/
theorem Voted.answer {c : Config VolvaTasks TaskEvent TaskResponse} (h : Voted extract c)
    (e : TaskEvent) : Voted extract ((volvaMachine extract windowSize).answer c e) := by
  have heff := c.state.step_effect extract windowSize e
  constructor
  · intro x hx
    cases hx
    exact heff.active
  · exact heff.idle h.idle
  · intro hnil
    cases hnil
  · intro m hm rid
    show _ = lastVotes (predictions extract m rid
      ((e, (c.state.step extract windowSize e).1) :: c.log))
    rw [predictions_cons (heff.active.trans hm)]
    exact h.effect heff hm rid
  · intro x hx model hmodel
    cases hx with
    | head => exact heff.model hmodel
    | tail _ hin => exact h.models x hin model hmodel

/-! ## What is put -/

/-- The winners that `_aggregate` counts are those of the receivers. -/
private theorem mem_winners_iff (receivers : Dict Int ReceiverState) (room : String) :
    room ∈ (receivers.rows.map fun p => p.2.votes).filterMap mostCommon ↔
      ∃ rid, mostCommon (votesOf receivers rid) = some room := by
  rw [List.filterMap_map, List.mem_filterMap]
  constructor
  · rintro ⟨⟨rid, rs⟩, hmem, hroom⟩
    refine ⟨rid, ?_⟩
    have hfind : receivers.find? rid = some (rid, rs) := Table.find?_of_mem hmem
    unfold votesOf Dict.get?
    rw [hfind]
    exact hroom
  · rintro ⟨rid, hroom⟩
    unfold votesOf Dict.get? at hroom
    cases hfind : receivers.find? rid with
    | none =>
      rw [hfind] at hroom
      cases hroom
    | some p =>
      rw [hfind] at hroom
      exact ⟨p, Table.mem_of_find? hfind, hroom⟩

/-- `p` is decided by the predictions of `model` in a log, each counted for its receiver. -/
structure PurePut (extract : Extractor) (log : List TaskEntry) (model : ActiveModel)
    (p : Prediction) : Prop where
  modelId : p.modelId = model.id
  rooms : p.rooms.map Prod.fst = model.classes
  binary : ∀ r ∈ p.rooms, r.2 = 0 ∨ r.2 = 1
  /-- A room is occupied when it is the winner among some receiver's last predictions. -/
  occupied : ∀ r ∈ p.rooms, r.2 = 1 ↔ ∃ rid, ∃ votes,
    votes = lastVotes (predictions extract model.id rid log) ∧ r.1 ∈ votes ∧
      (∀ vote ∈ votes, votes.count vote ≤ votes.count r.1) ∧
      ∀ vote ∈ votes, votes.count r.1 ≤ votes.count vote → votes.idxOf r.1 ≤ votes.idxOf vote
  /-- The predictions counted are those of models with its id. -/
  made : ∀ x ∈ since model.id log, ∀ model', x.2.model = some model' → model'.id = model.id

/-- The distribution is one of the last votes of each receiver. -/
theorem aggregate_pure {receivers : Dict Int ReceiverState} {log : List TaskEntry}
    {model : ActiveModel}
    (hvotes : ∀ rid, votesOf receivers rid =
      lastVotes (predictions extract model.id rid log))
    (hmodels : ∀ x ∈ log, ∀ model, x.2.model = some model →
      x.2.activeModelId = some model.id) :
    PurePut extract log model
      ⟨model.id, aggregate (receivers.rows.map fun p => p.2.votes) model.classes⟩ := by
  -- a room has probability 1 exactly when some receiver's votes elect it
  have hrooms : ∀ r ∈ aggregate (receivers.rows.map fun p => p.2.votes) model.classes,
      r.2 = if r.1 ∈ (receivers.rows.map fun p => p.2.votes).filterMap mostCommon then 1
        else 0 := by
    intro r hr
    obtain ⟨room, -, rfl⟩ := List.mem_map.mp hr
    simp only [List.contains_iff_mem]
  -- the model's id, the rooms in its order, the probabilities, the votes, the session
  constructor
  · rfl
  · show (model.classes.map _).map Prod.fst = model.classes
    rw [List.map_map]
    exact List.map_id _
  · intro r hr
    rw [hrooms r hr]
    split
    · exact .inr rfl
    · exact .inl rfl
  · intro r hr
    have hone : r.2 = 1 ↔ ∃ rid, mostCommon (votesOf receivers rid) = some r.1 := by
      rw [hrooms r hr, ← mem_winners_iff]
      split
      · exact iff_of_true rfl (by assumption)
      · exact iff_of_false Nat.zero_ne_one (by assumption)
    rw [hone]
    apply exists_congr
    intro rid
    rw [hvotes, mostCommon_eq_some_iff]
    simp
  · intro x hx model' hmodel
    have hactive := hmodels x (List.takeWhile_subset _ hx) model' hmodel
    have hsince := List.mem_takeWhile_imp hx
    rw [decide_eq_true_eq, hactive] at hsince
    exact Option.some.inj hsince

/-- In every run of the two tasks, a prediction that is put next is decided by the model that
    the holder has then. -/
theorem putsPure_of_run (extract : Extractor) (windowSize : Int)
    (c : Config VolvaTasks TaskEvent TaskResponse)
    (hrun : (volvaMachine extract windowSize).Run TaskOrder ⟨[], .start⟩ c) (e : TaskEvent)
    (henabled : TaskOrder c e) (p : Prediction)
    (hp : p ∈ (c.state.step extract windowSize e).1.puts) :
    ∃ model, c.state.holder = some model ∧
      PurePut extract ((e, (c.state.step extract windowSize e).1) :: c.log) model p := by
  -- what is put is in the log of the run that goes one event further
  have hnext : Voted extract ((volvaMachine extract windowSize).answer c e) := by
    apply (hrun.snoc e henabled).invariant (I := Voted extract) voted_start
    intro c e h _
    exact h.answer e
  obtain ⟨model, hholder, hactive, rfl⟩ :=
    (c.state.step_effect extract windowSize e).put hp
  exact ⟨model, hholder,
    aggregate_pure (fun rid => hnext.votes model.id hactive rid) hnext.models⟩

/-- A model that always answers `den`. -/
def denModel : ActiveModel :=
  { kitchenModel with id := 2, name := "den", classifier := fun _ => .ok "den", classes := ["den"] }

/-- The model is swapped while the prediction of the first one is being put. -/
def swapRun : List TaskEvent :=
  [.refreshed (some kitchenModel), .message (plainRow 1), .refreshed (some denModel),
    .putEnded .acknowledged]

/-- The next row is predicted on by the new model, and the vote of the old one is gone. -/
theorem putsPure_of_swapRun :
    let c := (volvaMachine (fun _ _ => .ok []) 1).replay ⟨[], .start⟩ swapRun
    ∃ model, c.state.holder = some model ∧
      PurePut (fun _ _ => .ok []) ((.message (plainRow 2),
        (c.state.step (fun _ _ => .ok []) 1 (.message (plainRow 2))).1) :: c.log) model
        ⟨2, [("den", 1)]⟩ := by
  have hadmits : (volvaMachine (fun _ _ => .ok []) 1).Admits TaskOrder ⟨[], .start⟩ swapRun :=
    ⟨trivial, rfl, trivial, rfl, trivial⟩
  exact putsPure_of_run (fun _ _ => .ok []) 1 _ (Machine.run_of_admits hadmits)
    (.message (plainRow 2)) rfl ⟨2, [("den", 1)]⟩ (List.Mem.head [])

end Grimnir.Volva
