import Grimnir.Native.PredictionStream
import Grimnir.Spec.StreamWire

/-!
# What a subscriber of the predictions sees

The generator only compares `updated_at` with the one it sent last.  A subscriber never sees a
prediction twice or out of order, may miss some between two polls, and is up to date after each
poll as long as no two predictions have one `updated_at`.

## Key results

- `SubscriberLogged.answer`: what one event does to the rows written and the rows received
- `subscribed_of_run`: what a subscriber sees in every run
-/

namespace Grimnir

open EventStream

/-- A log of a connection, newest first. -/
abbrev SubscriberLog := List (SubscriberEvent × SubscriberOutput)

/-- The rows that the table has had, the oldest first. -/
def writtenRows (row₀ : Option CurrentPrediction) : SubscriberLog → List CurrentPrediction
  | [] => row₀.toList
  | (.put body now, _) :: log => writtenRows row₀ log ++ [putCurrent body now]
  | _ :: log => writtenRows row₀ log

/-- The rows that were sent, the oldest first. -/
def receivedRows : SubscriberLog → List CurrentPrediction
  | [] => []
  | (_, .data row) :: log => receivedRows log ++ [row]
  | _ :: log => receivedRows log

/-- When the last data or keepalive was sent, or the connection started. -/
def lastOutputAt (t₀ : Timestamp) : SubscriberLog → Timestamp
  | [] => t₀
  | (.polled now, .data _) :: _ => now.timestamp
  | (.polled now, .keepalive _) :: _ => now.timestamp
  | _ :: log => lastOutputAt t₀ log

/-- The rows received are some of the rows written, in their order.  Either the newest row is
    still to come, or it is the last one received. -/
def SampledFrom (received written : List CurrentPrediction) : Prop :=
  received.Sublist written.dropLast ∨
    received.Sublist written ∧ received.getLast? = written.getLast?

/-- What was sampled are some of the written rows, in their order. -/
theorem SampledFrom.sublist {received written : List CurrentPrediction}
    (h : SampledFrom received written) : received.Sublist written := by
  cases h with
  | inl h => exact h.trans written.dropLast_sublist
  | inr h => exact h.1

/-- The row that was not the last one received is received next. -/
theorem SampledFrom.receive {received written : List CurrentPrediction} {row : CurrentPrediction}
    (h : SampledFrom received written) (hrow : written.getLast? = some row)
    (hnew : received.getLast? ≠ some row) : SampledFrom (received ++ [row]) written := by
  right
  cases h with
  | inr h => exact absurd (h.2.trans hrow) hnew
  | inl h =>
    have hsplit : written.dropLast ++ [row] = written :=
      List.dropLast_append_getLast? row hrow
    refine ⟨?_, by rw [List.getLast?_concat, hrow]⟩
    rw [← hsplit]
    exact h.append (List.Sublist.refl [row])

/-- The stream's variables are what the log says. -/
structure SubscriberLogged (row₀ : Option CurrentPrediction) (t₀ : Timestamp)
    (c : Config SubscriberSystem SubscriberEvent SubscriberOutput) : Prop where
  row : c.state.row = (writtenRows row₀ c.log).getLast?
  last : c.state.stream.lastUpdatedAt = (receivedRows c.log).getLast?.map (·.updatedAt)
  order : SampledFrom (receivedRows c.log) (writtenRows row₀ c.log)
  output : c.state.stream.lastKeepaliveAt = lastOutputAt t₀ c.log

namespace SubscriberLogged

variable {row₀ : Option CurrentPrediction} {t₀ : Timestamp}
  {c : Config SubscriberSystem SubscriberEvent SubscriberOutput}

/-- At the start nothing was written or received. -/
theorem start (row₀ : Option CurrentPrediction) (t₀ : Timestamp) :
    SubscriberLogged row₀ t₀ ⟨[], row₀, .start t₀⟩ where
  row := by cases row₀ <;> rfl
  last := rfl
  order := .inl (List.nil_sublist _)
  output := rfl

/-- Nothing is written and nothing is sent. -/
theorem quiet (h : SubscriberLogged row₀ t₀ c) {e : SubscriberEvent}
    (hput : ∀ body now, e ≠ .put body now) {stream : Subscriber}
    (hlast : stream.lastUpdatedAt = c.state.stream.lastUpdatedAt)
    (hkeepalive : stream.lastKeepaliveAt = c.state.stream.lastKeepaliveAt) :
    SubscriberLogged row₀ t₀ ⟨(e, .nothing) :: c.log, c.state.row, stream⟩ := by
  have hwritten : writtenRows row₀ ((e, .nothing) :: c.log) = writtenRows row₀ c.log := by
    cases e with
    | put body now => exact absurd rfl (hput body now)
    | polled now => rfl
    | resumed => rfl
    | woke => rfl
    | cancelled => rfl
  have houtput : lastOutputAt t₀ ((e, .nothing) :: c.log) = lastOutputAt t₀ c.log := by
    cases e <;> rfl
  constructor
  · rw [hwritten]
    exact h.row
  · exact hlast.trans h.last
  · rw [hwritten]
    exact h.order
  · rw [houtput]
    exact hkeepalive.trans h.output

/-- A `PUT` is logged and read later. -/
theorem put (h : SubscriberLogged row₀ t₀ c) (body : PredictionUpdate) (now : Timestamp) :
    SubscriberLogged row₀ t₀ (subscriberMachine.answer c (.put body now)) where
  row := by
    change some (putCurrent body now) = (writtenRows row₀ c.log ++ [_]).getLast?
    rw [List.getLast?_concat]
  last := h.last
  order := by
    left
    change (receivedRows c.log).Sublist (writtenRows row₀ c.log ++ [_]).dropLast
    rw [List.dropLast_concat]
    exact h.order.sublist
  output := h.output

/-- A poll that finds nothing new. -/
theorem idle (h : SubscriberLogged row₀ t₀ c) (now : Datetime) :
    SubscriberLogged row₀ t₀ ⟨(.polled now, (c.state.stream.idle now).1) :: c.log, c.state.row,
      (c.state.stream.idle now).2⟩ := by
  unfold Subscriber.idle
  split
  · exact ⟨h.row, h.last, h.order, rfl⟩
  · exact h.quiet (fun _ _ => SubscriberEvent.noConfusion) rfl rfl

/-- A poll hands out the row if it is a new one. -/
theorem polled (h : SubscriberLogged row₀ t₀ c) (now : Datetime) :
    SubscriberLogged row₀ t₀ (subscriberMachine.answer c (.polled now)) := by
  simp only [subscriberMachine, Machine.answer, Subscriber.step]
  -- only an answer to a poll that was under way is looked at
  split
  · unfold Subscriber.polled
    split
    · exact h.idle now
    · rename_i row hrow
      split
      · rename_i hchanged
        have hwritten := h.row.symm.trans hrow
        -- the row last received has another `updated_at`
        have hnew : (receivedRows c.log).getLast? ≠ some row := by
          intro hsame
          have hlast := h.last
          rw [hsame] at hlast
          simp [Subscriber.changed, hlast] at hchanged
        refine ⟨h.row, ?_, h.order.receive hwritten hnew, rfl⟩
        change some row.updatedAt = (receivedRows c.log ++ [row]).getLast?.map (·.updatedAt)
        rw [List.getLast?_concat]
        rfl
      · exact h.idle now
  · exact h.quiet (fun _ _ => SubscriberEvent.noConfusion) rfl rfl

/-- One step, by cases on the event. -/
theorem answer (h : SubscriberLogged row₀ t₀ c) (e : SubscriberEvent) :
    SubscriberLogged row₀ t₀ (subscriberMachine.answer c e) := by
  cases e with
  | put body now => exact h.put body now
  | polled now => exact h.polled now
  | resumed =>
    refine h.quiet (fun _ _ => SubscriberEvent.noConfusion) ?_ ?_
    · change Subscriber.lastUpdatedAt (if _ then _ else _) = _
      split <;> rfl
    · change Subscriber.lastKeepaliveAt (if _ then _ else _) = _
      split <;> rfl
  | woke =>
    refine h.quiet (fun _ _ => SubscriberEvent.noConfusion) ?_ ?_
    · change Subscriber.lastUpdatedAt (if _ then _ else _) = _
      split <;> rfl
    · change Subscriber.lastKeepaliveAt (if _ then _ else _) = _
      split <;> rfl
  | cancelled => exact h.quiet (fun _ _ => SubscriberEvent.noConfusion) rfl rfl

end SubscriberLogged

variable {row₀ : Option CurrentPrediction} {t₀ : Timestamp}
  {c : Config SubscriberSystem SubscriberEvent SubscriberOutput}

/-- After a poll the row last received has the `updated_at` of the row. -/
private theorem updatedAt_of_polled (h : SubscriberLogged row₀ t₀ c)
    (hpolling : c.state.stream.await = .polling) (now : Datetime) :
    (receivedRows (subscriberMachine.answer c (.polled now)).log).getLast?.map (·.updatedAt) =
        c.state.row.map (·.updatedAt) ∨
      c.state.row = none := by
  cases hrow : c.state.row with
  | none => exact .inr rfl
  | some row =>
    left
    have hlogged := (h.polled now).last
    rw [← hlogged]
    simp only [subscriberMachine, Machine.answer, Subscriber.step, if_pos hpolling,
      Subscriber.polled, hrow]
    split
    · rfl
    · rename_i hchanged
      have hsame : c.state.stream.lastUpdatedAt = some row.updatedAt := by
        simpa [Subscriber.changed] using hchanged
      unfold Subscriber.idle
      split <;> exact hsame

/-- What a subscriber sees. -/
structure Subscribed (row₀ : Option CurrentPrediction) (t₀ : Timestamp)
    (c : Config SubscriberSystem SubscriberEvent SubscriberOutput) : Prop where
  /-- It receives rows that were written, each at most once and in their order. -/
  order : (receivedRows c.log).Sublist (writtenRows row₀ c.log)
  /-- After a poll it has the current row, unless two rows have one `updated_at`. -/
  current : ∀ now, c.state.stream.await = .polling →
    ((writtenRows row₀ c.log).map (·.updatedAt)).Nodup →
      (receivedRows (subscriberMachine.answer c (.polled now)).log).getLast? = c.state.row
  /-- A poll that sends nothing comes less than `STREAM_KEEPALIVE_S` after the last output. -/
  alive : ∀ now, c.state.stream.await = .polling →
    (subscriberMachine.step c.state (.polled now)).1 = .nothing →
      now.timestamp - lastOutputAt t₀ c.log < streamKeepalive
  /-- The text of the connection is decoded to the payloads of the rows received. -/
  text : ∀ ft stored, decode (subscriberText ft stored c.log) =
    (receivedRows c.log).map fun row => ⟨messageType, Json.dumps ft (stored row.payload)⟩

/-- The text of a subscriber is read as the rows it was sent. -/
private theorem decode_subscriberText (ft : Json.FloatText) (stored : PredictionUpdate → Json)
    (log : SubscriberLog) :
    decode (subscriberText ft stored log) =
      (receivedRows log).map fun row => ⟨messageType, Json.dumps ft (stored row.payload)⟩ := by
  have hinline : ∀ b ∈ log.reverse.flatMap fun x => x.2.blocks ft stored, b.Inline := by
    intro b hb
    obtain ⟨⟨e, output⟩, -, hb⟩ := List.mem_flatMap.mp hb
    cases output with
    -- the payload is one line of JSON, and so is the comment of a keepalive
    | nothing => cases hb
    | data row =>
      obtain rfl := List.mem_singleton.mp hb
      exact not_mem_of_plain (Json.plain_dumps _)
    | keepalive now =>
      obtain rfl := List.mem_singleton.mp hb
      refine not_mem_of_plain ?_
      intro c hc
      rcases List.mem_append.mp hc with hc | hc
      · exact Json.plain_of_all rfl c hc
      · exact now.plain_isoformat c hc
  rw [subscriberText, decode_blocks hinline]
  -- the log is newest first, the text oldest first
  induction log with
  | nil => rfl
  | cons x log ih =>
    obtain ⟨e, output⟩ := x
    rw [List.reverse_cons, List.flatMap_append] at hinline ⊢
    rw [List.filterMap_append, ih fun b hb => hinline b (List.mem_append_left _ hb)]
    cases output with
    | nothing => exact List.append_nil _
    | keepalive now => exact List.append_nil _
    | data row =>
      change _ = (receivedRows log ++ [row]).map _
      rw [List.map_append]
      rfl

/-- The row last received after a poll is the current one when its `updated_at` is its own. -/
private theorem current_of_polled (h : SubscriberLogged row₀ t₀ c)
    (hpolling : c.state.stream.await = .polling)
    (hdistinct : ((writtenRows row₀ c.log).map (·.updatedAt)).Nodup) (now : Datetime) :
    (receivedRows (subscriberMachine.answer c (.polled now)).log).getLast? = c.state.row := by
  have hsublist : (receivedRows (subscriberMachine.answer c (.polled now)).log).Sublist
      (writtenRows row₀ c.log) := (h.polled now).order.sublist
  -- the row received last has the `updated_at` of the row written last
  rcases updatedAt_of_polled h hpolling now with hsame | hnone
  · cases hrow : c.state.row with
    | none =>
      rw [hrow] at hsame
      exact Option.map_eq_none_iff.mp hsame
    | some row =>
      rw [hrow] at hsame
      obtain ⟨received, hreceived, hupdated⟩ := Option.map_eq_some_iff.mp hsame
      have hwritten : row ∈ writtenRows row₀ c.log :=
        List.mem_of_getLast? (h.row.symm.trans hrow)
      have hmem : received ∈ writtenRows row₀ c.log :=
        hsublist.subset (List.mem_of_getLast? hreceived)
      -- no two writes share their `updated_at`, so they are one row
      rw [hreceived, List.inj_on_of_nodup_map hdistinct hmem hwritten hupdated]
  · have hempty : writtenRows row₀ c.log = [] :=
      List.getLast?_eq_none_iff.mp (h.row.symm.trans hnone)
    rw [hempty] at hsublist
    rw [hnone, List.sublist_nil.mp hsublist]
    rfl

/-- Without a keepalive the last one is recent. -/
private theorem lt_of_idle {s : Subscriber} {now : Datetime} (h : (s.idle now).1 = .nothing) :
    now.timestamp - s.lastKeepaliveAt < streamKeepalive := by
  unfold Subscriber.idle at h
  split at h
  · cases h
  · exact Int.not_le.mp ‹_›

/-- What a subscriber sees in every run, whoever writes predictions at whatever moment. -/
theorem subscribed_of_run
    (hrun : subscriberMachine.Run (fun _ _ => True) ⟨[], row₀, .start t₀⟩ c) :
    Subscribed row₀ t₀ c := by
  have hlogged : SubscriberLogged row₀ t₀ c :=
    hrun.invariant (I := SubscriberLogged row₀ t₀) (.start row₀ t₀) fun _ e h _ => h.answer e
  refine ⟨hlogged.order.sublist, ?_, ?_, ?_⟩
  · exact fun now hpolling hdistinct => current_of_polled hlogged hpolling hdistinct now
  · intro now hpolling hnothing
    rw [← hlogged.output]
    simp only [subscriberMachine, Subscriber.step, if_pos hpolling, Subscriber.polled] at hnothing
    split at hnothing
    · exact lt_of_idle hnothing
    · split at hnothing
      · cases hnothing
      · exact lt_of_idle hnothing
  · exact fun ft stored => decode_subscriberText ft stored c.log

/-- Someone is in the kitchen, or nobody is. -/
def kitchenUpdate (count : Nat) : PredictionUpdate :=
  ⟨0, 1, [("kitchen", count)], List.cons_ne_nil _ _⟩

/-- The connection sleeps through the first of two predictions. -/
def sleepingRun : List SubscriberEvent :=
  [.polled epoch, .put (kitchenUpdate 1) 1, .put (kitchenUpdate 0) 2, .woke, .polled epoch,
    .resumed]

example : receivedRows (subscriberMachine.replay ⟨[], none, .start 0⟩ sleepingRun).log =
    [⟨kitchenUpdate 0, 2⟩] := rfl

/-- A subscriber that sleeps through a `PUT`. -/
theorem subscribed_of_sleepingRun :
    Subscribed none 0 (subscriberMachine.replay ⟨[], none, .start 0⟩ sleepingRun) := by
  have hrun : subscriberMachine.Run (fun _ _ => True) ⟨[], none, .start 0⟩
      (subscriberMachine.replay ⟨[], none, .start 0⟩ sleepingRun) :=
    Machine.run_of_admits ⟨trivial, trivial, trivial, trivial, trivial, trivial, trivial⟩
  exact subscribed_of_run hrun

end Grimnir
