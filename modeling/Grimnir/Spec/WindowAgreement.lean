import Grimnir.ForStd.Blocks
import Grimnir.ForStd.Except
import Grimnir.Native.Predict
import Grimnir.Native.Train
import Grimnir.Native.TrainingJobs

/-!
# The windows Nornir trains on and the windows Völva predicts on

Under one label, on one connection and under one model both loops keep one buffer for each
receiver and hand it on when it is full, so both cut each receiver's rows into blocks; only
the length of the block differs, since Völva takes it from its environment and not from
the model.

## Key results

- `windows_ok`: Nornir's loop extracts the features of the windows it cuts
- `cutWindows_doc`, `windowsOf_doc`: both loops are `chunkByKey`
- `windows_agree_iff`: they agree exactly for one window size, or while no window is full
-/

namespace Grimnir

open List (chunkByKey ofKey)

/-- The length of the windows that a loop cuts with `windowSize`: the test comes after a row
    was appended, so a window has at least one. -/
def blockLength (windowSize : Int) : Nat := (max 1 windowSize).toNat

/-- A window has at least one row. -/
theorem blockLength_pos (windowSize : Int) : 0 < blockLength windowSize := by
  unfold blockLength
  omega

/-- `len(buf) >= window_size` after an append. -/
private theorem le_length_iff {α : Type} (windowSize : Int) (buf : List α) (a : α) :
    windowSize ≤ (buf ++ [a]).length ↔ blockLength windowSize ≤ (buf ++ [a]).length := by
  rw [List.length_append, List.length_singleton]
  unfold blockLength
  omega

/-- A row with its receiver. -/
def keyed (label : String) (r : CsiRow) : Int × RowDoc := (r.receiverId, r.doc label)

namespace Nornir

/-- What `_windows` yields are the features and labels of the windows it cuts, in order. -/
theorem windows_ok {extract : List RowDoc → Except JobError FeatureVector} {windowSize : Int}
    {s : WindowState} {rows : List RowDoc} {out : List (FeatureVector × String)}
    (h : windows extract windowSize s rows = .ok out) :
    ∃ cuts, cutWindows windowSize s rows = .ok cuts ∧
      List.Forall₂ (fun cut result => extract cut.rows = .ok result.1 ∧ result.2 = cut.label)
        cuts out := by
  induction rows generalizing s out with
  | nil =>
    cases h
    exact ⟨[], rfl, .nil⟩
  | cons row rows ih =>
    rw [windows] at h
    obtain ⟨⟨cut, s'⟩, hstep, h⟩ := Except.bind_eq_ok.mp h
    cases cut with
    | none =>
      obtain ⟨cuts, hcuts, hall⟩ := ih h
      exact ⟨cuts, Except.bind_eq_ok.mpr ⟨_, hstep, Except.bind_eq_ok.mpr ⟨_, hcuts, rfl⟩⟩, hall⟩
    | some cut =>
      -- the features are extracted before the loop goes on
      obtain ⟨features, hextract, h⟩ := Except.bind_eq_ok.mp h
      obtain ⟨rest, hrest, h⟩ := Except.bind_eq_ok.mp h
      cases h
      obtain ⟨cuts, hcuts, hall⟩ := ih hrest
      exact ⟨cut :: cuts, Except.bind_eq_ok.mpr
        ⟨_, hstep, Except.bind_eq_ok.mpr ⟨_, hcuts, rfl⟩⟩, .cons ⟨hextract, rfl⟩ hall⟩

/-- The buffer of each receiver. -/
def WindowState.buf (s : WindowState) (rid : Int) : List RowDoc := (s.buffers.get? rid).getD []

/-- Setting a receiver's buffer updates the buffers at that receiver. -/
private theorem WindowState.buf_set (s : WindowState) (labels : Dict Int String) (rid : Int)
    (buf : List RowDoc) :
    (WindowState.mk (s.buffers.set rid buf) labels).buf = Function.update s.buf rid buf :=
  Dict.read_set (fun found => found.getD []) s.buffers rid buf

/-- The backlog that a row with `label` adds to. -/
def WindowState.backlog (s : WindowState) (rid : Int) (label : String) : List RowDoc :=
  if (s.labels.get? rid).all (· = label) then s.buf rid else []

/-- A row with a receiver and a label is added to the backlog, and a full one is handed on. -/
theorem WindowState.step_row (windowSize : Int) (s : WindowState) {row : RowDoc} {rid : Int}
    {label : String} (hrid : row.receiverId = some rid) (hlabel : row.label = some label) :
    ∃ cut s', s.step windowSize row = .ok (cut, s') ∧
      cut.toList = (List.pushItem (blockLength windowSize) (s.backlog rid label) row).1.map
        (⟨rid, ·, label⟩) ∧
      s'.buf = Function.update s.buf rid
        (List.pushItem (blockLength windowSize) (s.backlog rid label) row).2 ∧
      s'.labels = s.labels.set rid label := by
  have hlen := le_length_iff windowSize (s.backlog rid label) row
  unfold List.pushItem
  by_cases hfull : windowSize ≤ (s.backlog rid label ++ [row]).length
  · refine ⟨some ⟨rid, s.backlog rid label ++ [row], label⟩,
      ⟨s.buffers.set rid [], s.labels.set rid label⟩, ?_, ?_, ?_, rfl⟩
    · simp only [step, hrid, hlabel, getItem, bind, Except.bind, pure, Except.pure]
      exact if_pos hfull
    · rw [if_pos (hlen.mp hfull)]
      rfl
    · rw [if_pos (hlen.mp hfull), buf_set]
  · refine ⟨none, ⟨s.buffers.set rid (s.backlog rid label ++ [row]),
      s.labels.set rid label⟩, ?_, ?_, ?_, rfl⟩
    · simp only [step, hrid, hlabel, getItem, bind, Except.bind, pure, Except.pure]
      exact if_neg hfull
    · rw [if_neg (fun h => hfull (hlen.mpr h))]
      rfl
    · rw [if_neg (fun h => hfull (hlen.mpr h)), buf_set]

/-- On rows of one label `_windows` fills one buffer for each receiver. -/
theorem cutWindows_doc {s : WindowState} {label : String} (windowSize : Int)
    (hlabels : ∀ rid, (s.labels.get? rid).all (· = label) = true) (rows : List CsiRow) :
    ∃ cuts, cutWindows windowSize s (rows.map (CsiRow.doc label)) = .ok cuts ∧
      cuts.map (fun cut => (cut.receiverId, cut.rows)) =
        chunkByKey (blockLength windowSize) s.buf (rows.map (keyed label)) := by
  induction rows generalizing s with
  | nil => exact ⟨[], rfl, rfl⟩
  | cons r rows ih =>
    have hrid : (r.doc label).receiverId = some r.receiverId := rfl
    have hlabel : (r.doc label).label = some label := rfl
    obtain ⟨cut, s', hstep, hcut, hbuf, hlabels'⟩ := s.step_row windowSize hrid hlabel
    -- under one label no transition drops a partial window
    have hbacklog : s.backlog r.receiverId label = s.buf r.receiverId :=
      if_pos (hlabels r.receiverId)
    have hnext : ∀ rid, (s'.labels.get? rid).all (· = label) = true := by
      intro rid
      rw [hlabels', Dict.get?_set]
      split
      · simp
      · exact hlabels rid
    obtain ⟨cuts, hcuts, hmap⟩ := ih hnext
    refine ⟨cut.toList ++ cuts, ?_, ?_⟩
    · rw [List.map_cons, cutWindows, hstep]
      show (cutWindows windowSize s' (rows.map (CsiRow.doc label)) >>= _) = _
      rw [hcuts]
      rfl
    · rw [List.map_append, hmap, hcut, hbuf, hbacklog, List.map_cons, keyed, chunkByKey,
        List.pushItem]
      -- the row completes a window, or its buffer grows
      split
      · rfl
      · rfl

end Nornir

namespace Volva

/-- The buffer of each receiver. -/
def bufOf (receivers : Dict Int ReceiverState) (rid : Int) : List RowDoc :=
  ((receivers.get? rid).getD ⟨[], []⟩).buf

/-- Setting a receiver's state updates the buffers at that receiver. -/
private theorem bufOf_set (receivers : Dict Int ReceiverState) (rid : Int) (rs : ReceiverState) :
    bufOf (receivers.set rid rs) = Function.update (bufOf receivers) rid rs.buf :=
  Dict.read_set (fun found => (found.getD ⟨[], []⟩).buf) receivers rid rs

/-- Without receivers there is nothing buffered. -/
theorem bufOf_empty (rid : Int) : bufOf .empty rid = [] := rfl

/-- After a clear every buffer is empty. -/
theorem bufOf_clearBuffers (receivers : Dict Int ReceiverState) (rid : Int) :
    bufOf (StreamLoop.clearBuffers receivers) rid = [] := by
  unfold bufOf StreamLoop.clearBuffers Dict.get?
  rw [Table.find?_update]
  cases receivers.find? rid <;> rfl

/-- A model that becomes active finds no buffered rows. -/
theorem bufOf_adopt (s : StreamLoop) (model : ActiveModel) (rid : Int) :
    bufOf (s.adopt model).receivers rid =
      if s.activeModelId = some model.id then bufOf s.receivers rid else [] := by
  unfold StreamLoop.adopt
  split
  · rfl
  · rfl

/-- A row with a receiver fills the receiver's buffer, and a full one is given to
    `_predict_once` and emptied, whether or not the prediction fails. -/
theorem handleRow_some (extract : Extractor) (model : ActiveModel) (windowSize : Int)
    (receivers : Dict Int ReceiverState) {row : RowDoc} {rid : Int}
    (hrid : row.receiverId = some rid) :
    (StreamLoop.handleRow extract row model windowSize receivers).2.1 =
        (List.pushItem (blockLength windowSize) (bufOf receivers rid) row).1.map
          (PredictCall.mk rid) ∧
      bufOf (StreamLoop.handleRow extract row model windowSize receivers).2.2 =
        Function.update (bufOf receivers) rid
          (List.pushItem (blockLength windowSize) (bufOf receivers rid) row).2 := by
  have hbuf : ((receivers.get? rid).getD ⟨[], []⟩).buf = bufOf receivers rid := rfl
  have hlen := le_length_iff windowSize (bufOf receivers rid) row
  simp only [StreamLoop.handleRow, hrid, hbuf, List.pushItem]
  by_cases hfull : windowSize ≤ (bufOf receivers rid ++ [row]).length
  · rw [if_neg (by omega), if_pos (hlen.mp hfull)]
    -- the buffer is emptied before the prediction is looked at
    cases predictOnce extract model (bufOf receivers rid ++ [row]) with
    | error e => exact ⟨rfl, bufOf_set _ _ _⟩
    | ok room => exact ⟨rfl, bufOf_set _ _ _⟩
  · rw [if_pos (by omega), if_neg (fun h => hfull (hlen.mpr h))]
    exact ⟨rfl, bufOf_set _ _ _⟩

/-- A row without a receiver changes nothing. -/
theorem handleRow_none (extract : Extractor) (model : ActiveModel) (windowSize : Int)
    (receivers : Dict Int ReceiverState) {row : RowDoc} (hrid : row.receiverId = none) :
    StreamLoop.handleRow extract row model windowSize receivers = (false, [], receivers) := by
  rw [StreamLoop.handleRow, hrid]

namespace StreamLoop

/-- The model that is active already is adopted without a change. -/
private theorem adopt_of_active {s : StreamLoop} {model : ActiveModel}
    (h : s.activeModelId = some model.id) : s.adopt model = s :=
  if_pos h

/-- An adopted model is the active one. -/
theorem activeModelId_adopt (s : StreamLoop) (model : ActiveModel) :
    (s.adopt model).activeModelId = some model.id := by
  unfold adopt
  split
  · assumption
  · rfl

/-- A row under a model: the windows and the buffers are those of `_handle_row`. -/
theorem step_row (extract : Extractor) (windowSize : Int) (s : StreamLoop) (row : RowDoc)
    (model : ActiveModel) (put : Bool) :
    (s.step extract windowSize (.row row (some model) put)).1.windows =
        (handleRow extract row model windowSize (s.adopt model).receivers).2.1 ∧
      (s.step extract windowSize (.row row (some model) put)).2.receivers =
        (handleRow extract row model windowSize (s.adopt model).receivers).2.2 ∧
      (s.step extract windowSize (.row row (some model) put)).2.activeModelId =
        some model.id := by
  have hactive := s.activeModelId_adopt model
  simp only [step]
  split
  · exact ⟨rfl, rfl, hactive⟩
  · exact ⟨rfl, rfl, hactive⟩

end StreamLoop

/-- Rows under one label and one model, each with the outcome of a `PUT`. -/
def rowEvents (label : String) (model : ActiveModel) (rows : List (CsiRow × Bool)) :
    List StreamEvent :=
  rows.map fun p => .row (p.1.doc label) (some model) p.2

/-- The windows given to `_predict_once` while the events are answered. -/
def windowsOf (extract : Extractor) (windowSize : Int) (s : StreamLoop)
    (events : List StreamEvent) : List PredictCall :=
  ((streamMachine extract windowSize).outputs s events).flatMap (·.windows)

/-- On one connection and under one model `stream_loop` fills one buffer for each receiver. -/
theorem windowsOf_doc (extract : Extractor) (windowSize : Int) (s : StreamLoop)
    (label : String) (model : ActiveModel) (rows : List (CsiRow × Bool)) :
    (windowsOf extract windowSize s (rowEvents label model rows)).map
        (fun call => (call.receiverId, call.rows)) =
      chunkByKey (blockLength windowSize) (bufOf (s.adopt model).receivers)
        (rows.map fun p => keyed label p.1) := by
  -- one row of the stream at a time, each put or not
  induction rows generalizing s with
  | nil => rfl
  | cons p rows ih =>
    obtain ⟨r, put⟩ := p
    obtain ⟨hwindows, hreceivers, hactive⟩ :=
      s.step_row extract windowSize (r.doc label) model put
    have hrid : (r.doc label).receiverId = some r.receiverId := rfl
    obtain ⟨hcalls, hbufs⟩ :=
      handleRow_some extract model windowSize (s.adopt model).receivers hrid
    have hrest := ih (s.step extract windowSize (.row (r.doc label) (some model) put)).2
    -- from the second row on the model is the active one already
    rw [StreamLoop.adopt_of_active hactive, hreceivers] at hrest
    have hhead : windowsOf extract windowSize s (rowEvents label model ((r, put) :: rows)) =
        (s.step extract windowSize (.row (r.doc label) (some model) put)).1.windows ++
          windowsOf extract windowSize
            (s.step extract windowSize (.row (r.doc label) (some model) put)).2
            (rowEvents label model rows) := rfl
    rw [hhead, List.map_append, hrest, hwindows, hcalls, hbufs, List.map_cons, keyed, chunkByKey,
      List.pushItem]
    split
    · rfl
    · rfl

/-- No buffered row would join the next one: the connection is new, or the model is. -/
def StreamLoop.Fresh (s : StreamLoop) (model : ActiveModel) : Prop :=
  s.activeModelId ≠ some model.id ∨ ∀ rid, bufOf s.receivers rid = []

/-- A fresh loop adopts a model with empty buffers. -/
theorem StreamLoop.Fresh.bufOf_adopt {s : StreamLoop} {model : ActiveModel}
    (h : s.Fresh model) : bufOf (s.adopt model).receivers = fun _ => [] := by
  funext rid
  rw [Volva.bufOf_adopt]
  split
  · rename_i hactive
    cases h with
    | inl hne => exact absurd hactive hne
    | inr hempty => exact hempty rid
  · rfl

end Volva

open Nornir Volva

/-- The windows that `_windows` cuts from `rows` with a job's window size. -/
def Nornir.jobWindows (intOfStr : String → Option Int) (spec : SpecDoc) (rows : List RowDoc) :
    Except JobError (List Cut) := do
  cutWindows (← jobWindowSize intOfStr spec) .empty rows

/-- The rows of the windows cut for one receiver, in order. -/
def Nornir.cutsOf (rid : Int) (cuts : List Cut) : List (List RowDoc) :=
  (cuts.filter (·.receiverId = rid)).map Cut.rows

/-- The rows of the windows predicted on for one receiver, in order. -/
def Volva.callsOf (rid : Int) (calls : List PredictCall) : List (List RowDoc) :=
  (calls.filter (·.receiverId = rid)).map PredictCall.rows

/-- The cuts of a receiver are the items of its key. -/
private theorem cutsOf_eq (rid : Int) (cuts : List Cut) :
    cutsOf rid cuts = ofKey rid (cuts.map fun cut => (cut.receiverId, cut.rows)) := by
  simp [cutsOf, ofKey, List.filter_map, Function.comp_def]

/-- The predictions of a receiver are the items of its key. -/
private theorem callsOf_eq (rid : Int) (calls : List PredictCall) :
    callsOf rid calls = ofKey rid (calls.map fun call => (call.receiverId, call.rows)) := by
  simp [callsOf, ofKey, List.filter_map, Function.comp_def]

/-- The rows of one receiver. -/
private theorem length_ofKey_keyed (rid : Int) (label : String) (rows : List CsiRow) :
    (ofKey rid (rows.map (keyed label))).length =
      (rows.filter (·.receiverId = rid)).length := by
  unfold ofKey
  rw [List.length_map, List.filter_map, List.length_map]
  rfl

/-- Under one label, on one connection and under one model, Völva predicts on the windows
    that Nornir cuts with the job's window size exactly when both windows have one length, or
    no receiver sends enough rows for the shorter one. -/
theorem windows_agree_iff (intOfStr : String → Option Int) (spec : JobSpec) (windowSize : Int)
    (hspec : jobWindowSize intOfStr spec.dump = .ok windowSize) (extract : Extractor)
    (volvaWindowSize : Int) (model : ActiveModel) (s : StreamLoop) (hfresh : s.Fresh model)
    (label : String) (rows : List (CsiRow × Bool)) :
    (∃ cuts, jobWindows intOfStr spec.dump (rows.map fun p => p.1.doc label) = .ok cuts ∧
        ∀ rid, callsOf rid (windowsOf extract volvaWindowSize s (rowEvents label model rows)) =
          cutsOf rid cuts) ↔
      blockLength windowSize = blockLength volvaWindowSize ∨
        ∀ rid, (rows.filter (·.1.receiverId = rid)).length <
          min (blockLength windowSize) (blockLength volvaWindowSize) := by
  obtain ⟨cuts, hcuts, hpairs⟩ := cutWindows_doc (s := .empty) windowSize
    (fun _ => rfl : ∀ rid, (WindowState.empty.labels.get? rid).all (· = label) = true)
    (rows.map Prod.fst)
  have hjob : jobWindows intOfStr spec.dump (rows.map fun p => p.1.doc label) = .ok cuts := by
    rw [jobWindows, hspec, ← hcuts, List.map_map]
    rfl
  -- both sides cut the receiver's rows into blocks of their own length
  have hcutsOf : ∀ rid, cutsOf rid cuts =
      (ofKey rid ((rows.map Prod.fst).map (keyed label))).blocks (blockLength windowSize) := by
    intro rid
    rw [cutsOf_eq, hpairs, show WindowState.empty.buf = fun _ => [] from rfl]
    exact List.chunkByKey_key (fun _ => blockLength_pos windowSize) _ rid
  have hcallsOf : ∀ rid,
      callsOf rid (windowsOf extract volvaWindowSize s (rowEvents label model rows)) =
        (ofKey rid ((rows.map Prod.fst).map (keyed label))).blocks
          (blockLength volvaWindowSize) := by
    intro rid
    rw [callsOf_eq, windowsOf_doc, hfresh.bufOf_adopt, List.map_map]
    exact List.chunkByKey_key (fun _ => blockLength_pos volvaWindowSize) _ rid
  have hlength : ∀ rid, (ofKey rid ((rows.map Prod.fst).map (keyed label))).length =
      (rows.filter (·.1.receiverId = rid)).length := by
    intro rid
    rw [length_ofKey_keyed, List.filter_map, List.length_map]
    rfl
  -- receiver by receiver, two block lengths are compared on the same rows
  have hagree : ∀ rid,
      callsOf rid (windowsOf extract volvaWindowSize s (rowEvents label model rows)) =
          cutsOf rid cuts ↔
        blockLength windowSize = blockLength volvaWindowSize ∨
          (rows.filter (·.1.receiverId = rid)).length <
            min (blockLength windowSize) (blockLength volvaWindowSize) := by
    intro rid
    rw [hcallsOf, hcutsOf, eq_comm, ← hlength]
    exact List.blocks_eq_iff (blockLength_pos _) (blockLength_pos _)
  constructor
  · rintro ⟨cuts', hcuts', hall⟩
    rw [hjob] at hcuts'
    cases hcuts'
    exact forall_or_left.mp fun rid => (hagree rid).mp (hall rid)
  · intro h
    exact ⟨cuts, hjob, fun rid => (hagree rid).mpr (h.imp_right fun hall => hall rid)⟩

/-- A job whose windows have two rows. -/
def pairSpec : JobSpec where
  modelType := "random_forest"
  hyperparams := [("window_size", .int 2)]
  featureConfig := .default .current
  timeStart := 0
  timeEnd := 10
  rooms := ["kitchen", "den"]
  roomsBounds := by decide

/-- A model that always answers `kitchen`. -/
def kitchenModel : ActiveModel where
  id := 1
  name := "kitchen"
  classifier _ := .ok "kitchen"
  featureConfig := pairSpec.featureConfig
  classes := ["kitchen"]
  createdAt := 0

/-- A row of receiver 1. -/
def bareRow (time : Timestamp) : CsiRow where
  time := time
  receiverId := 1
  transmitterMac := "aa:bb:cc:01:02:03"
  rssi := -40
  noiseFloor := some (-95)
  channel := 6
  bandwidth := 20
  antennaCount := 1
  subcarrierCount := 0
  amplitude := []
  phase := []
  rawBytes := none

/-- Two rows make one window on either side. -/
theorem windows_agree_iff_pairSpec :
    ∃ cuts, jobWindows (fun _ => none) pairSpec.dump
        ([(bareRow 1, true), (bareRow 2, true)].map fun p => p.1.doc "kitchen") = .ok cuts ∧
      ∀ rid, callsOf rid (windowsOf (fun _ _ => .ok []) 2 .start
        (rowEvents "kitchen" kitchenModel [(bareRow 1, true), (bareRow 2, true)])) =
          cutsOf rid cuts :=
  (windows_agree_iff (fun _ => none) pairSpec 2 rfl (fun _ _ => .ok []) 2 kitchenModel .start
    (.inr fun _ => rfl) "kitchen" [(bareRow 1, true), (bareRow 2, true)]).mpr (.inl rfl)

/-- Of the two rows that make a window of the job, Völva with its default window size makes
    none. -/
theorem windows_disagree :
    jobWindows (fun _ => none) pairSpec.dump
        [(bareRow 1).doc "kitchen", (bareRow 2).doc "kitchen"] =
          .ok [⟨1, [(bareRow 1).doc "kitchen", (bareRow 2).doc "kitchen"], "kitchen"⟩] ∧
      windowsOf (fun _ _ => .ok []) 50 .start
        (rowEvents "kitchen" kitchenModel [(bareRow 1, true), (bareRow 2, true)]) = [] ∧
      ¬∃ cuts, jobWindows (fun _ => none) pairSpec.dump
            [(bareRow 1).doc "kitchen", (bareRow 2).doc "kitchen"] = .ok cuts ∧
          ∀ rid, callsOf rid (windowsOf (fun _ _ => .ok []) 50 .start
            (rowEvents "kitchen" kitchenModel [(bareRow 1, true), (bareRow 2, true)])) =
              cutsOf rid cuts := by
  have hcuts : jobWindows (fun _ => none) pairSpec.dump
      [(bareRow 1).doc "kitchen", (bareRow 2).doc "kitchen"] =
        .ok [⟨1, [(bareRow 1).doc "kitchen", (bareRow 2).doc "kitchen"], "kitchen"⟩] := by decide
  have hcalls : windowsOf (fun _ _ => .ok []) 50 .start
      (rowEvents "kitchen" kitchenModel [(bareRow 1, true), (bareRow 2, true)]) = [] := by decide
  refine ⟨hcuts, hcalls, ?_⟩
  rintro ⟨cuts, hok, hall⟩
  rw [hcuts] at hok
  cases hok
  have hone := hall 1
  rw [hcalls] at hone
  exact absurd hone (by decide)

end Grimnir
