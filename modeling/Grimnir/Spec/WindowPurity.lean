import Grimnir.ForStd.Spans
import Grimnir.Native.VolvaTasks
import Grimnir.Spec.WindowAgreement

/-!
# Window purity

A session is a piece of a run in which no connection ends and the active model id stays.  In
each session, and for each receiver on its own, the windows given to `_predict_once` are the
consecutive blocks of the receiver's rows, whatever the rows of other receivers are and
whichever windows failed.  A partial window does not outlive its session.

## Key results

- `step_effect`: what one event does
- `Effect.feeds`: what it does to the buffer of a receiver
- `Feeds.cutInto`: so the rows of a session stay cut into its windows and the buffer
- `windowsPure_of_run`: every run
- `step_message`: the two tasks refine `stream_loop` as one machine
-/

namespace Grimnir.Volva

open List (CutInto pushItem)

/-- An event with its response. -/
abbrev TaskEntry := TaskEvent × TaskResponse

/-- Between the two no connection ended, and the active model is the same. -/
def sameSession (x y : TaskEntry) : Bool :=
  !y.2.lost && x.2.activeModelId == y.2.activeModelId

/-- The sessions of a log, the oldest first, and so are the entries of each. -/
def sessions (log : List TaskEntry) : List (List TaskEntry) := log.reverse.splitBy sameSession

/-- The row of a receiver that the entry handled. -/
def handledRow (rid : Int) (x : TaskEntry) : Option RowDoc :=
  match x.1, x.2.model with
  | .message row, some _ => if row.receiverId = some rid then some row else none
  | _, _ => none

/-- The rows of a receiver that were handled, in order. -/
def rowsOf (rid : Int) (s : List TaskEntry) : List RowDoc := s.filterMap (handledRow rid)

/-- The windows given to `_predict_once`, in order. -/
def callsIn (s : List TaskEntry) : List PredictCall := s.flatMap (·.2.windows)

/-! ## One event -/

/-- What a step answers and leaves. -/
inductive VolvaTasks.Effect (extract : Extractor) (windowSize : Int) (s : VolvaTasks)
    (e : TaskEvent) : TaskResponse → VolvaTasks → Prop where
  /-- The loop is not at a message. -/
  | quiet (s' : VolvaTasks) (hreceivers : s'.loop.receivers = s.loop.receivers)
      (hactive : s'.loop.activeModelId = s.loop.activeModelId) :
      Effect extract windowSize s e s.quiet s'
  /-- A message while no model is active. -/
  | dropped : Effect extract windowSize s e s.drop.1 s.drop.2
  /-- A row, under the model that the holder has. -/
  | row (row : RowDoc) (model : ActiveModel) (r : TaskResponse) (s' : VolvaTasks)
      (hevent : e = .message row) (hholder : s.holder = some model) (hmodel : r.model = some model)
      (hlost : r.lost = false) (hid : r.activeModelId = some model.id)
      (hactive : s'.loop.activeModelId = some model.id)
      (hwindows : r.windows = (StreamLoop.handleRow extract row model windowSize
        (s.loop.adopt model).receivers).2.1)
      (hreceivers : s'.loop.receivers = (StreamLoop.handleRow extract row model windowSize
        (s.loop.adopt model).receivers).2.2)
      (hputs : ∀ p ∈ r.puts, p = ⟨model.id,
        aggregate (s'.loop.receivers.rows.map fun p => p.2.votes) model.classes⟩) :
      Effect extract windowSize s e r s'
  /-- The connection ends, maybe at a message that was taken up under the holder's model. -/
  | lost (loop : StreamLoop) (hloop : loop = s.loop ∨ ∃ model, loop = s.loop.adopt model) :
      Effect extract windowSize s e (s.disconnect loop).1 (s.disconnect loop).2

/-- One step, by cases on the event. -/
theorem VolvaTasks.step_effect (extract : Extractor) (windowSize : Int) (s : VolvaTasks)
    (e : TaskEvent) : s.Effect extract windowSize e (s.step extract windowSize e).1
      (s.step extract windowSize e).2 := by
  -- one case per event; a message needs a holder
  cases e with
  | refreshed latest => exact .quiet _ rfl rfl
  | message row =>
    cases hholder : s.holder with
    | none =>
      simp only [step, hholder]
      exact .dropped
    | some model =>
      have hactive := s.loop.activeModelId_adopt model
      simp only [step, hholder]
      refine .row row model _ _ rfl hholder rfl rfl hactive hactive rfl rfl ?_
      intro p hp
      split at hp
      · unfold StreamLoop.maybePublish at hp
        dsimp only at hp
        -- an unchanged prediction is not put again
        split at hp
        · cases hp
        · exact List.mem_singleton.mp hp
      · cases hp
  | badMessage =>
    cases hholder : s.holder with
    | none =>
      simp only [step, hholder]
      exact .dropped
    | some model =>
      simp only [step, hholder]
      exact .lost _ (.inr ⟨model, rfl⟩)
  | connectionLost => exact .lost _ (.inl rfl)
  | putEnded outcome =>
    cases outcome with
    | acknowledged => exact .quiet _ rfl rfl
    | httpError => exact .quiet _ rfl rfl
    | otherError => exact .lost _ (.inl rfl)

/-- What an entry does to a receiver's buffer, in blocks of `w` rows. -/
inductive Feeds (w : Nat) (rid : Int) (x : TaskEntry) (before : List RowDoc) :
    List RowDoc → Prop where
  | other (hrow : handledRow rid x = none) (hcalls : callsOf rid x.2.windows = []) :
      Feeds w rid x before before
  | row (row : RowDoc) (hrow : handledRow rid x = some row)
      (hcalls : callsOf rid x.2.windows = (pushItem w before row).1) :
      Feeds w rid x before (pushItem w before row).2

/-- The predictions of a receiver, part by part. -/
private theorem callsOf_append (rid : Int) (calls calls' : List PredictCall) :
    callsOf rid (calls ++ calls') = callsOf rid calls ++ callsOf rid calls' := by
  simp [callsOf]

/-- Windows of one receiver are all its own. -/
private theorem callsOf_mk_self (rid : Int) (windows : List (List RowDoc)) :
    callsOf rid (windows.map (PredictCall.mk rid)) = windows := by
  simp [callsOf, List.filter_map, Function.comp_def]

/-- Windows of one receiver are no other receiver's. -/
private theorem callsOf_mk_ne {rid rid' : Int} (h : rid' ≠ rid) (windows : List (List RowDoc)) :
    callsOf rid (windows.map (PredictCall.mk rid')) = [] := by
  simp [callsOf, List.filter_map, Function.comp_def, h]

/-- One more entry adds the row that it handled. -/
private theorem rowsOf_concat (rid : Int) (s : List TaskEntry) (x : TaskEntry) :
    rowsOf rid (s ++ [x]) = rowsOf rid s ++ (handledRow rid x).toList := by
  unfold rowsOf
  rw [List.filterMap_append]
  cases hrow : handledRow rid x <;> simp [hrow]

/-- One more entry adds the windows that it predicted on. -/
private theorem callsIn_concat (s : List TaskEntry) (x : TaskEntry) :
    callsIn (s ++ [x]) = callsIn s ++ x.2.windows := by
  simp [callsIn]

/-- One more entry of a session. -/
theorem Feeds.cutInto {w : Nat} (hw : 0 < w) {rid : Int} {x : TaskEntry}
    {before after : List RowDoc} (h : Feeds w rid x before after) {s : List TaskEntry}
    (hcut : CutInto w (rowsOf rid s) (callsOf rid (callsIn s)) before) :
    CutInto w (rowsOf rid (s ++ [x])) (callsOf rid (callsIn (s ++ [x]))) after := by
  rw [rowsOf_concat, callsIn_concat, callsOf_append]
  cases h with
  | other hrow hcalls =>
    rw [hrow, hcalls]
    simpa using hcut
  | row row hrow hcalls =>
    -- the row completes a block exactly when it completes a window
    rw [hrow, hcalls]
    exact hcut.append hw row

variable {extract : Extractor} {windowSize : Int}

/-- A row under a model feeds the buffer of its receiver. -/
private theorem handleRow_feeds (model : ActiveModel) (receivers : Dict Int ReceiverState)
    (row : RowDoc) (rid : Int) {x : TaskEntry} (hevent : x.1 = .message row)
    (hwindows : x.2.windows =
      (StreamLoop.handleRow extract row model windowSize receivers).2.1)
    (hmodel : x.2.model = some model) :
    Feeds (blockLength windowSize) rid x (bufOf receivers rid)
      (bufOf (StreamLoop.handleRow extract row model windowSize receivers).2.2 rid) := by
  -- a row of another receiver, or without one, leaves this buffer alone
  cases hrid : row.receiverId with
  | none =>
    rw [handleRow_none extract model windowSize receivers hrid] at hwindows ⊢
    apply Feeds.other
    · simp [handledRow, hevent, hmodel, hrid]
    · rw [hwindows]
      rfl
  | some rid' =>
    obtain ⟨hcalls, hbufs⟩ := handleRow_some extract model windowSize receivers hrid
    rw [hbufs]
    by_cases hsame : rid' = rid
    · subst hsame
      rw [Function.update_self]
      apply Feeds.row
      · simp [handledRow, hevent, hmodel, hrid]
      · rw [hwindows, hcalls, callsOf_mk_self]
    · rw [Function.update_of_ne (Ne.symm hsame)]
      apply Feeds.other
      · simp [handledRow, hevent, hmodel, hrid, hsame]
      · rw [hwindows, hcalls, callsOf_mk_ne hsame]

/-- Nothing is buffered while no model is active. -/
def VolvaTasks.Idle (s : VolvaTasks) : Prop :=
  s.loop.activeModelId = none → ∀ rid, bufOf s.loop.receivers rid = []

/-- What is left of a receiver's buffer when an event has cleared what it clears. -/
def VolvaTasks.kept (s : VolvaTasks) (response : TaskResponse) (rid : Int) : List RowDoc :=
  if response.lost = false ∧ s.loop.activeModelId = response.activeModelId then
    bufOf s.loop.receivers rid
  else []

/-- An entry without a model handled no row. -/
private theorem handledRow_of_model {rid : Int} {x : TaskEntry} (h : x.2.model = none) :
    handledRow rid x = none := by
  unfold handledRow
  rw [h]
  cases x.1 <;> rfl

namespace VolvaTasks

variable {s s' : VolvaTasks} {e : TaskEvent} {r : TaskResponse}

/-- What one event does to the buffer of a receiver. -/
theorem Effect.feeds (h : s.Effect extract windowSize e r s') (hidle : s.Idle) (rid : Int) :
    Feeds (blockLength windowSize) rid (e, r) (s.kept r rid) (bufOf s'.loop.receivers rid) := by
  cases h with
  | quiet s' hreceivers =>
    have hkept : s.kept s.quiet rid = bufOf s.loop.receivers rid := if_pos ⟨rfl, rfl⟩
    rw [hkept, hreceivers]
    exact .other (handledRow_of_model rfl) rfl
  | dropped =>
    -- without an active model nothing was buffered
    have hkept : s.kept s.drop.1 rid = [] := by
      unfold kept
      split
      · rename_i hsame
        exact hidle hsame.2 rid
      · rfl
    rw [hkept]
    exact .other (handledRow_of_model rfl) rfl
  | row row model r s' hevent _ hmodel hlost hid _ hwindows hreceivers =>
    have hkept : s.kept r rid = bufOf (s.loop.adopt model).receivers rid := by
      rw [bufOf_adopt, kept, hlost, hid]
      simp only [true_and]
    rw [hkept, hreceivers]
    exact handleRow_feeds model _ row rid hevent hwindows hmodel
  | lost loop =>
    -- whatever was buffered for the connection is gone
    have hkept : s.kept (s.disconnect loop).1 rid = [] := if_neg (by simp [disconnect])
    have hbuf : bufOf (s.disconnect loop).2.loop.receivers rid = [] :=
      bufOf_clearBuffers _ rid
    rw [hkept, hbuf]
    exact .other (handledRow_of_model rfl) rfl

/-- The response shows the model that is active afterwards. -/
theorem Effect.active (h : s.Effect extract windowSize e r s') :
    r.activeModelId = s'.loop.activeModelId := by
  cases h with
  | quiet s' _ hactive => exact hactive.symm
  | dropped => rfl
  | row row model r s' _ _ _ _ hid hactive => exact hid.trans hactive.symm
  | lost loop => rfl

/-- Nothing is buffered without a model, again. -/
theorem Effect.idle (h : s.Effect extract windowSize e r s') (hidle : s.Idle) : s'.Idle := by
  intro hnone rid
  cases h with
  | quiet s' hreceivers hactive =>
    rw [hreceivers]
    exact hidle (hactive.symm.trans hnone) rid
  | dropped => exact bufOf_empty rid
  | row row model r s' _ _ _ _ _ hactive =>
    rw [hactive] at hnone
    cases hnone
  | lost loop => exact bufOf_clearBuffers _ rid

end VolvaTasks

/-! ## Every run -/

/-- The entries of `s` cut a receiver's rows into the windows, with `rest` left over. -/
def CutsRows (w : Nat) (rid : Int) (s : List TaskEntry) (rest : List RowDoc) : Prop :=
  CutInto w (rowsOf rid s) (callsOf rid (callsIn s)) rest

/-- What holds after any number of events: each session is cut into windows, and the present
    one leaves what is buffered. -/
structure Cutting (w : Nat) (c : Config VolvaTasks TaskEvent TaskResponse) : Prop where
  active : ∀ x ∈ c.log.head?, x.2.activeModelId = c.state.loop.activeModelId
  idle : c.state.Idle
  fresh : c.log = [] → ∀ rid, bufOf c.state.loop.receivers rid = []
  past : ∀ s ∈ sessions c.log, ∀ rid, ∃ rest, CutsRows w rid s rest
  present : ∀ s ∈ (sessions c.log).getLast?, ∀ rid,
    CutsRows w rid s (bufOf c.state.loop.receivers rid)

/-- Nothing has been handled at the start. -/
private theorem cutting_start (w : Nat) : Cutting w ⟨[], .start⟩ where
  active x hx := by cases hx
  idle _ rid := bufOf_empty rid
  fresh _ rid := bufOf_empty rid
  past s hs := by cases hs
  present s hs := by cases hs

/-- One step, by cases on what it did to the buffers. -/
theorem Cutting.answer {c : Config VolvaTasks TaskEvent TaskResponse}
    (h : Cutting (blockLength windowSize) c) (e : TaskEvent) :
    Cutting (blockLength windowSize) ((volvaMachine extract windowSize).answer c e) := by
  let x : TaskEntry := (e, (c.state.step extract windowSize e).1)
  have heff := c.state.step_effect extract windowSize e
  have hfeeds : ∀ rid, Feeds (blockLength windowSize) rid x (c.state.kept x.2 rid)
      (bufOf (c.state.step extract windowSize e).2.loop.receivers rid) := heff.feeds h.idle
  have hw := blockLength_pos windowSize
  have hlast : c.log.reverse.getLast? = c.log.head? := List.getLast?_reverse
  -- which session does the new entry belong to?
  suffices hspans : ∃ spans s, sessions (x :: c.log) = spans ++ [s] ∧
      (∀ s' ∈ spans, s' ∈ sessions c.log) ∧
      ∀ rid, CutsRows (blockLength windowSize) rid s
        (bufOf (c.state.step extract windowSize e).2.loop.receivers rid) by
    obtain ⟨spans, s, hsplit, hold, hcuts⟩ := hspans
    refine ⟨?_, heff.idle h.idle, fun hnil => (nomatch hnil), ?_, ?_⟩
    · intro y hy
      cases hy
      exact heff.active
    · intro s' hs' rid
      change s' ∈ sessions (x :: c.log) at hs'
      rw [hsplit, List.mem_append, List.mem_singleton] at hs'
      cases hs' with
      | inl hin => exact h.past s' (hold s' hin) rid
      | inr heq => exact ⟨_, heq ▸ hcuts rid⟩
    · intro s' hs' rid
      change s' ∈ (sessions (x :: c.log)).getLast? at hs'
      rw [hsplit, List.getLast?_append_cons] at hs'
      cases hs'
      exact hcuts rid
  have hreverse : sessions (x :: c.log) = (c.log.reverse ++ [x]).splitBy sameSession := by
    rw [sessions, List.reverse_cons]
  rw [hreverse]
  cases List.splitBy_concat sameSession c.log.reverse x with
  | inl hnew =>
    -- a new session starts with nothing in any buffer
    obtain ⟨hbreak, hsplit⟩ := hnew
    refine ⟨sessions c.log, [x], hsplit, fun s' hs' => hs', fun rid => ?_⟩
    have hkept : c.state.kept x.2 rid = [] := by
      unfold VolvaTasks.kept
      split
      · rename_i hsame
        cases hlog : c.log with
        | nil => exact h.fresh hlog rid
        | cons y log =>
          have hy : y ∈ c.log.head? := by rw [hlog]; rfl
          have hfalse := hbreak y (hlast ▸ hy)
          simp [sameSession, hsame.1, h.active y hy, hsame.2] at hfalse
      · rfl
    have hcut := (hfeeds rid).cutInto hw (s := []) (by
      rw [hkept]
      exact CutInto.nil hw)
    exact hcut
  | inr hsame =>
    obtain ⟨y, spans, s, hy, hrel, hold, hsplit⟩ := hsame
    rw [hlast] at hy
    refine ⟨spans, s ++ [x], hsplit, ?_, fun rid => ?_⟩
    · intro s' hs'
      rw [sessions, hold]
      exact List.mem_append_left _ hs'
    · -- the session goes on from what is buffered
      have hkept : c.state.kept x.2 rid = bufOf c.state.loop.receivers rid := by
        rw [sameSession, Bool.and_eq_true, Bool.not_eq_true', beq_iff_eq] at hrel
        exact if_pos ⟨hrel.1, (h.active y hy).symm.trans hrel.2⟩
      have hpresent : CutsRows (blockLength windowSize) rid s
          (bufOf c.state.loop.receivers rid) := by
        apply h.present
        rw [sessions, hold, List.getLast?_append_cons]
        rfl
      apply (hfeeds rid).cutInto hw
      rw [hkept]
      exact hpresent

/-- The handled rows of a receiver carry its id. -/
private theorem mem_rowsOf {rid : Int} {s : List TaskEntry} {row : RowDoc}
    (h : row ∈ rowsOf rid s) : row.receiverId = some rid := by
  obtain ⟨x, -, hx⟩ := List.mem_filterMap.mp h
  unfold handledRow at hx
  split at hx
  · split at hx
    · cases hx
      assumption
    · cases hx
  · cases hx

/-- Each list given to `_predict_once` is a whole window, all of it of its receiver. -/
theorem Cutting.whole {w : Nat} {c : Config VolvaTasks TaskEvent TaskResponse}
    (h : Cutting w c) {s : List TaskEntry} (hs : s ∈ sessions c.log) {call : PredictCall}
    (hcall : call ∈ callsIn s) :
    call.rows.length = w ∧ ∀ row ∈ call.rows, row.receiverId = some call.receiverId := by
  obtain ⟨rest, hcut⟩ := h.past s hs call.receiverId
  have hmem : call.rows ∈ callsOf call.receiverId (callsIn s) :=
    List.mem_map_of_mem (List.mem_filter.mpr ⟨hcall, by simp⟩)
  refine ⟨hcut.complete _ hmem, fun row hrow => ?_⟩
  apply mem_rowsOf (s := s)
  rw [hcut.joined]
  exact List.mem_append_left _ (List.mem_flatten.mpr ⟨_, hmem, hrow⟩)

/-- The sessions are the whole run. -/
theorem Cutting.whole_of_log {w : Nat} {c : Config VolvaTasks TaskEvent TaskResponse}
    (h : Cutting w c) {x : TaskEntry} (hx : x ∈ c.log) {call : PredictCall}
    (hcall : call ∈ x.2.windows) :
    call.rows.length = w ∧ ∀ row ∈ call.rows, row.receiverId = some call.receiverId := by
  have hflat : (sessions c.log).flatten = c.log.reverse := List.flatten_splitBy _ _
  have hin : x ∈ (sessions c.log).flatten := hflat ▸ List.mem_reverse.mpr hx
  obtain ⟨s, hs, hxs⟩ := List.mem_flatten.mp hin
  exact h.whole hs (List.mem_flatMap.mpr ⟨x, hxs, hcall⟩)

/-- In every run of the two tasks the sessions are cut into windows. -/
theorem cutting_of_run {c : Config VolvaTasks TaskEvent TaskResponse}
    (hrun : (volvaMachine extract windowSize).Run TaskOrder ⟨[], .start⟩ c) :
    Cutting (blockLength windowSize) c := by
  apply hrun.invariant (I := Cutting (blockLength windowSize)) (cutting_start _)
  intro c e h _
  exact h.answer e

/-- What every session of a log does. -/
structure WindowsPure (w : Nat) (log : List TaskEntry) : Prop where
  /-- The sessions are the whole run, -/
  run : (sessions log).flatten = log.reverse
  /-- no connection ends within one, -/
  connected : ∀ s ∈ sessions log, ∀ x ∈ s.tail, x.2.lost = false
  /-- and one model id is active. -/
  oneModel : ∀ s ∈ sessions log, ∀ x ∈ s, ∀ y ∈ s, x.2.activeModelId = y.2.activeModelId
  /-- Each list given to `_predict_once` has `w` rows, all of its receiver. -/
  whole : ∀ s ∈ sessions log, ∀ call ∈ callsIn s,
    call.rows.length = w ∧ ∀ row ∈ call.rows, row.receiverId = some call.receiverId
  /-- The `k`-th list of a receiver is the `k`-th block of its rows. -/
  blocks : ∀ s ∈ sessions log, ∀ rid, callsOf rid (callsIn s) = (rowsOf rid s).blocks w
  /-- One after another they are the first rows of the receiver, so no row is in two. -/
  once : ∀ s ∈ sessions log, ∀ rid, (callsOf rid (callsIn s)).flatten <+: rowsOf rid s

/-- In every run of the two tasks. -/
theorem windowsPure_of_run (extract : Extractor) (w : Nat) (hw : 1 ≤ w)
    (c : Config VolvaTasks TaskEvent TaskResponse)
    (hrun : (volvaMachine extract w).Run TaskOrder ⟨[], .start⟩ c) : WindowsPure w c.log := by
  have hlength : blockLength w = w := by
    unfold blockLength
    omega
  have hcutting : Cutting (blockLength w) c := cutting_of_run hrun
  rw [hlength] at hcutting
  constructor
  · exact List.flatten_splitBy _ _
  · intro s hs
    -- a session breaks where an entry was lost or the model changed
    apply List.forall_tail_of_mem_splitBy (p := fun x => x.2.lost = false) _ hs
    intro x y hrel
    rw [sameSession, Bool.and_eq_true, Bool.not_eq_true'] at hrel
    exact hrel.1
  · intro s hs
    apply List.eq_of_mem_splitBy _ hs
    intro x y hrel
    rw [sameSession, Bool.and_eq_true, beq_iff_eq] at hrel
    exact hrel.2
  -- the windows of a session are the blocks of its rows
  · exact fun s hs call hcall => hcutting.whole hs hcall
  · intro s hs rid
    obtain ⟨rest, hcut⟩ := hcutting.past s hs rid
    exact (hcut.blocks_eq hw).symm
  · intro s hs rid
    obtain ⟨rest, hcut⟩ := hcutting.past s hs rid
    exact ⟨rest, hcut.joined.symm⟩

/-- A row of a receiver. -/
def plainRow (rid : Int) : RowDoc := ⟨0, some rid, none, [], []⟩

/-- Two receivers take turns; a row without a receiver, a lost connection and an unloaded model
    come in between. -/
def interleavedRun : List TaskEvent :=
  [.refreshed (some kitchenModel), .message (plainRow 1), .message (plainRow 2),
    .message ⟨0, none, none, [], []⟩, .message (plainRow 1), .refreshed none,
    .putEnded .httpError, .connectionLost, .refreshed (some kitchenModel),
    .message (plainRow 2), .message (plainRow 1), .message (plainRow 2), .putEnded .otherError]

/-- Two receivers take turns through a lost connection and an unloaded model. -/
theorem windowsPure_of_interleavedRun :
    WindowsPure 2 ((volvaMachine (fun _ _ => .ok []) (2 : Nat)).replay ⟨[], .start⟩
      interleavedRun).log := by
  apply windowsPure_of_run (fun _ _ => .ok []) 2 (by decide)
  apply Machine.run_of_admits
  exact ⟨trivial, rfl, rfl, rfl, rfl, trivial, rfl, rfl, trivial, rfl, rfl, rfl, rfl, trivial⟩

/-! ## The two tasks and `stream_loop` on its own -/

/-- A row is handled as by `stream_loop` under the model that the holder has then.  Without a
    `PUT` the row is done with; otherwise its outcome decides what the loop remembers. -/
theorem step_message (s : VolvaTasks) (row : RowDoc) (hready : s.publishing = none) :
    let (response, s') := s.step extract windowSize (.message row)
    let answer := fun put => s.loop.step extract windowSize (.row row s.holder put)
    (∀ put, response.windows = (answer put).1.windows ∧ response.puts = (answer put).1.puts) ∧
      (response.puts = [] → ∀ put, s' = { s with loop := (answer put).2 }) ∧
      (response.puts ≠ [] → s'.publishing.isSome = true ∧
        (s'.step extract windowSize (.putEnded .acknowledged)).2 =
          { s with loop := (answer true).2 } ∧
        (s'.step extract windowSize (.putEnded .httpError)).2 =
          { s with loop := (answer false).2 }) := by
  obtain ⟨holder, loop, publishing⟩ := s
  obtain rfl : publishing = none := hready
  cases holder with
  | none =>
    refine ⟨fun put => ⟨rfl, rfl⟩, fun _ put => rfl, fun hputs => absurd rfl hputs⟩
  | some model =>
    cases hrow : StreamLoop.handleRow extract row model windowSize (loop.adopt model).receivers with
    | mk changed rest =>
      obtain ⟨windows, receivers⟩ := rest
      simp only [VolvaTasks.step, StreamLoop.step, hrow]
      cases changed with
      | false => simp
      | true =>
        simp only [if_true, StreamLoop.maybePublish]
        -- an unchanged prediction is not put again
        split
        · rename_i hsame
          simp [hsame]
        · simp

end Grimnir.Volva
