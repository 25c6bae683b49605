import Grimnir.Spec.StreamBacklog

/-!
# What a stream that keeps up has handed out

While every committed row lies past the table and no poll finds more than it may fetch, the
consumer has been handed the rows that were committed up to the last poll, each of them once
and in the order of their keys, as long as no poll finds two that differ and have one identity:
then it is handed the first one twice.  Whatever the order of the commits, the handed keys
ascend as long as no two commits share one.

## Key results

- `step_polled`, `outbound_quiet`: a poll adds its rows to what is on its way, and nothing
  else does
- `InStep.answer`, `Climbing.answer`: the two invariants
- `perm_polled_iff`: a poll hands out what was committed exactly when no two rows share an
  identity
- `stream_delivers`: all of it for every connection to a table with rows
- `twins_repeated`: two packets that agree in the mapper's key
-/

namespace Grimnir

open SeekPaging IdentityMap

/-- The rows that the last poll fetched and the consumer has not been handed yet. -/
def pending (s : CsiStream) : List CsiSample :=
  match s.await with
  | .yielded _ rest => rest
  | _ => []

/-- Where the cursor stands once the consumer has taken what was fetched. -/
def roundEnd (s : CsiStream) : Option StreamCursor :=
  match s.await with
  | .yielded row rest => (row :: rest).getLast?.map CsiSample.orderKey
  | _ => s.cursor

/-- The rows committed so far. -/
def committedRows : List (StreamEvent × StreamOutput) → List CsiSample
  | [] => []
  | (.commit rows, _) :: log => committedRows log ++ commitRows rows []
  | _ :: log => committedRows log

/-- The rows that were committed before the last poll. -/
def committedAtPoll : List (StreamEvent × StreamOutput) → List CsiSample
  | [] => []
  | (.polled _ _, _) :: log => committedRows log
  | _ :: log => committedAtPoll log

/-- The rows that were committed since the last poll. -/
def committedSince : List (StreamEvent × StreamOutput) → List CsiSample
  | [] => []
  | (.commit rows, _) :: log => committedSince log ++ commitRows rows []
  | (.polled _ _, _) :: _ => []
  | _ :: log => committedSince log

/-- A connection once `_latest_cursor` has returned. -/
def connect (table : List CsiSample) (loopTime : Int) :
    Config StreamSystem StreamEvent StreamOutput :=
  streamMachine.answer ⟨[], table, .start⟩ (.latest loopTime)

/-- A statement returns when it was sent, and with rows that it may return. -/
def Polls (maxBatch : Nat) (c : Config StreamSystem StreamEvent StreamOutput) :
    StreamEvent → Prop
  | .polled rows _ => c.state.stream.await = .polling ∧
      ∀ cursor, c.state.stream.cursor = some cursor →
        PollReturns maxBatch cursor c.state.table rows
  | _ => True

/-- Commits append past the end of the table, and the limit covers every poll. -/
def KeepsUp (maxBatch : Nat) (c : Config StreamSystem StreamEvent StreamOutput)
    (e : StreamEvent) : Prop :=
  Polls maxBatch c e ∧
    match e with
    | .commit rows =>
      ∀ r ∈ commitRows rows [], ∀ t ∈ c.state.table, t.orderKey < r.orderKey
    | .polled _ _ =>
      (beyond CsiSample.orderKey c.state.stream.cursor c.state.table).length ≤ maxBatch
    | _ => True

/-- And the rows that a poll finds differ in their identities. -/
def TellsApart (maxBatch : Nat) (c : Config StreamSystem StreamEvent StreamOutput)
    (e : StreamEvent) : Prop :=
  KeepsUp maxBatch c e ∧
    match e with
    | .polled _ _ => Unambiguous (·.identity)
        (beyond CsiSample.orderKey c.state.stream.cursor c.state.table)
    | _ => True

/-- No two committed rows share a key. -/
def DistinctCommits (maxBatch : Nat) (c : Config StreamSystem StreamEvent StreamOutput)
    (e : StreamEvent) : Prop :=
  Polls maxBatch c e ∧
    match e with
    | .commit rows => ((committedRows c.log ++ commitRows rows []).map CsiSample.orderKey).Nodup
    | _ => True

/-! ## The log -/

/-- The committed rows are those before the last poll and those since. -/
private theorem committedRows_eq (log : List (StreamEvent × StreamOutput)) :
    committedRows log = committedAtPoll log ++ committedSince log := by
  induction log with
  | nil => rfl
  | cons entry log ih =>
    obtain ⟨e, output⟩ := entry
    cases e <;> simp [committedRows, committedAtPoll, committedSince, ih]

/-! ## One event -/

/-- The connection has a cursor and is past its first statement. -/
def Streaming (s : CsiStream) : Prop :=
  s.cursor ≠ none ∧ match s.await with
    | .polling => True
    | .yielded _ _ => True
    | .keepalive => True
    | .sleeping => True
    | .connecting => False
    | .looking => False
    | .closed => False

/-- An event that fetches nothing: what is on its way stays what it was, and so does the place
    where the round ends. -/
structure Quiet (s : CsiStream) (e : StreamEvent) (after : StreamOutput × CsiStream) : Prop where
  outbound : emitted [(e, after.1)] ++ pending after.2 = pending s
  roundEnd : roundEnd after.2 = roundEnd s
  streaming : Streaming after.2

variable {s : CsiStream}

/-- An event that is not awaited does nothing. -/
theorem Quiet.refl (h : Streaming s) (e : StreamEvent) : Quiet s e (.nothing, s) :=
  ⟨rfl, rfl, h⟩

/-- The end of a round changes neither the cursor nor what was handed out. -/
private theorem quiet_endRound (loopTime : Int) (hcursor : s.cursor ≠ none) (e : StreamEvent)
    {s₀ : CsiStream} (hpending : pending s₀ = []) (hround : roundEnd s₀ = s.cursor) :
    Quiet s₀ e (CsiStream.endRound loopTime s) := by
  unfold CsiStream.endRound
  split
  · exact ⟨hpending.symm, hround.symm, hcursor, trivial⟩
  · exact ⟨hpending.symm, hround.symm, hcursor, trivial⟩

/-- Once the cursor stands, `_latest_cursor` has no further answer. -/
private theorem quiet_latest (table : List CsiSample) (h : Streaming s) (loopTime : Int) :
    Quiet s (.latest loopTime) (s.step table (.latest loopTime)) := by
  cases hawait : s.await with
  | connecting => simp [Streaming, hawait] at h
  | looking => simp [Streaming, hawait] at h
  | polling => simpa only [CsiStream.step, hawait] using Quiet.refl h _
  | yielded row rest => simpa only [CsiStream.step, hawait] using Quiet.refl h _
  | keepalive => simpa only [CsiStream.step, hawait] using Quiet.refl h _
  | sleeping => simpa only [CsiStream.step, hawait] using Quiet.refl h _
  | closed => simp [Streaming, hawait] at h

/-- The consumer asks for more: the next row goes from what is fetched to what is handed out. -/
private theorem quiet_resumed (table : List CsiSample) (h : Streaming s) (loopTime : Int) :
    Quiet s (.resumed loopTime) (s.step table (.resumed loopTime)) := by
  -- only a row yielded or a keepalive resumes to a new state
  cases hawait : s.await with
  | connecting => simp [Streaming, hawait] at h
  | looking => simp [Streaming, hawait] at h
  | polling => simpa only [CsiStream.step, hawait] using Quiet.refl h _
  | yielded row rest =>
    simp only [CsiStream.step, hawait, CsiStream.advance]
    cases rest with
    | nil =>
      -- the last row: the cursor moves to where the round was to end
      apply quiet_endRound loopTime (Option.some_ne_none _)
      · simp [pending, hawait]
      · simp [roundEnd, hawait]
    | cons next rest =>
      refine ⟨?_, ?_, Option.some_ne_none _, trivial⟩
      · simp [pending, hawait, emitted]
      · simp [roundEnd, hawait]
  | keepalive =>
    simp only [CsiStream.step, hawait]
    refine ⟨?_, ?_, h.1, trivial⟩
    · simp [pending, hawait, emitted]
    · simp [roundEnd, hawait]
  | sleeping => simpa only [CsiStream.step, hawait] using Quiet.refl h _
  | closed => simp [Streaming, hawait] at h

/-- A waking connection sends its statement and hands out nothing. -/
private theorem quiet_woke (table : List CsiSample) (h : Streaming s) :
    Quiet s .woke (s.step table .woke) := by
  cases hawait : s.await with
  | connecting => simp [Streaming, hawait] at h
  | looking => simp [Streaming, hawait] at h
  | polling => simpa only [CsiStream.step, hawait] using Quiet.refl h _
  | yielded row rest => simpa only [CsiStream.step, hawait] using Quiet.refl h _
  | keepalive => simpa only [CsiStream.step, hawait] using Quiet.refl h _
  | sleeping =>
    -- the cursor is set, so the next statement is a poll and not another look
    have hcursor : s.cursor.isNone = false := by
      simpa [Option.isSome_iff_ne_none] using h.1
    simp only [CsiStream.step, hawait, CsiStream.pollAgain, hcursor]
    refine ⟨?_, ?_, h.1, trivial⟩
    · simp [pending, hawait, emitted]
    · simp [roundEnd, hawait]
  | closed => simp [Streaming, hawait] at h

/-- A poll: its rows are what is handed out from here on. -/
theorem step_polled (table : List CsiSample) (h : Streaming s) (hawait : s.await = .polling)
    (rows : List CsiSample) (loopTime : Int) :
    emitted [(.polled rows loopTime, (s.step table (.polled rows loopTime)).1)] ++
        pending (s.step table (.polled rows loopTime)).2 = rows ∧
      roundEnd (s.step table (.polled rows loopTime)).2 =
        (rows.getLast?.map CsiSample.orderKey).or s.cursor ∧
      Streaming (s.step table (.polled rows loopTime)).2 := by
  simp only [CsiStream.step, hawait]
  cases rows with
  | nil =>
    have hquiet : Quiet s (.polled [] loopTime) (CsiStream.endRound loopTime s) := by
      apply quiet_endRound loopTime h.1
      · simp [pending, hawait]
      · simp [roundEnd, hawait]
    have hnothing : pending s = [] := by simp [pending, hawait]
    have hcursor : roundEnd s = s.cursor := by simp [roundEnd, hawait]
    exact ⟨hquiet.outbound.trans hnothing, hquiet.roundEnd.trans hcursor, hquiet.streaming⟩
  | cons row rest =>
    refine ⟨rfl, ?_, h.1, trivial⟩
    simp [CsiStream.handOut, roundEnd, List.getLast?_cons]

/-! ## Commits in order -/

/-- What is handed out or on its way. -/
def outbound (c : Config StreamSystem StreamEvent StreamOutput) : List CsiSample :=
  emitted c.log ++ pending c.state.stream

/-- The consumer keeps up: `opened` are the rows that were there when it connected. -/
structure InStep (opened : List CsiSample) (c : Config StreamSystem StreamEvent StreamOutput) :
    Prop where
  streaming : Streaming c.state.stream
  table_eq : c.state.table = opened ++ committedRows c.log
  delivered : (outbound c).Perm (committedAtPoll c.log)
  sorted : Sorted CsiSample.orderKey (outbound c)
  newest : ∃ k, roundEnd c.state.stream = some k ∧
    IsNewest (opened ++ committedAtPoll c.log) k ∧ ∀ r ∈ committedSince c.log, k < r.orderKey

variable {opened : List CsiSample} {c : Config StreamSystem StreamEvent StreamOutput}

/-- An event that fetches nothing hands out nothing new. -/
theorem outbound_quiet {e : StreamEvent} {output : StreamOutput} {s : CsiStream}
    (hquiet : Quiet c.state.stream e (output, s)) :
    outbound ⟨(e, output) :: c.log, c.state.table, s⟩ = outbound c := by
  rw [outbound, outbound, ← hquiet.outbound, ← List.singleton_append, emitted_append,
    List.append_assoc]

/-- The log of an event that is neither a poll nor a commit. -/
theorem InStep.quiet (hI : InStep opened c) {e : StreamEvent} {output : StreamOutput}
    {s : CsiStream} (hquiet : Quiet c.state.stream e (output, s))
    (hcommitted : committedRows ((e, output) :: c.log) = committedRows c.log)
    (hatPoll : committedAtPoll ((e, output) :: c.log) = committedAtPoll c.log)
    (hsince : committedSince ((e, output) :: c.log) = committedSince c.log) :
    InStep opened ⟨(e, output) :: c.log, c.state.table, s⟩ := by
  have hout := outbound_quiet hquiet
  exact {
    streaming := hquiet.streaming
    table_eq := by rw [hcommitted, ← hI.table_eq]
    delivered := by rw [hout, hatPoll]; exact hI.delivered
    sorted := by rw [hout]; exact hI.sorted
    newest := by rw [hatPoll, hsince, hquiet.roundEnd]; exact hI.newest }

/-- A commit past the end of the table leaves the consumer in step. -/
theorem InStep.commit (hI : InStep opened c) {rows : List CsiRow}
    (hpast : ∀ r ∈ commitRows rows [], ∀ t ∈ c.state.table, t.orderKey < r.orderKey) :
    InStep opened (streamMachine.answer c (.commit rows)) := by
  obtain ⟨k, hround, hnewest, hsince⟩ := hI.newest
  exact {
    streaming := hI.streaming
    table_eq := by
      show commitRows rows c.state.table = opened ++ (committedRows c.log ++ commitRows rows [])
      rw [commitRows_append, hI.table_eq, List.append_assoc]
    delivered := hI.delivered
    sorted := hI.sorted
    newest := by
      refine ⟨k, hround, hnewest, ?_⟩
      intro r hr
      cases List.mem_append.mp hr with
      | inl hold => exact hsince r hold
      | inr hnew =>
        -- the new rows lie past the row that the cursor ends at
        obtain ⟨t, ht, hk⟩ := hnewest.1
        have htable : t ∈ c.state.table := by
          rw [hI.table_eq, committedRows_eq, ← List.append_assoc]
          exact List.mem_append_left _ ht
        rw [← hk]
        exact hpast r hnew t htable }

/-- What lies past the cursor was committed since the last poll. -/
private theorem InStep.beyond_cursor (hI : InStep opened c) {k : StreamCursor}
    (hnewest : IsNewest (opened ++ committedAtPoll c.log) k)
    (hsince : ∀ r ∈ committedSince c.log, k < r.orderKey) :
    beyond CsiSample.orderKey (some k) c.state.table = committedSince c.log := by
  rw [hI.table_eq, committedRows_eq, ← List.append_assoc, beyond_append_of_le hnewest.2]
  apply List.filter_eq_self.mpr
  intro r hr
  simpa [Beyond] using hsince r hr

/-- While a poll is under way nothing is left to hand out. -/
private theorem outbound_polling (hawait : c.state.stream.await = .polling) :
    outbound c = emitted c.log := by
  simp [outbound, pending, hawait]

/-- What is handed out or on its way after a poll. -/
private theorem outbound_polled (hstreaming : Streaming c.state.stream)
    (hawait : c.state.stream.await = .polling) (rows : List CsiSample) (loopTime : Int) :
    outbound (streamMachine.answer c (.polled rows loopTime)) = emitted c.log ++ rows := by
  obtain ⟨hrows, -, -⟩ := step_polled c.state.table hstreaming hawait rows loopTime
  conv => rhs; rw [← hrows]
  rw [← List.append_assoc, ← emitted_append]
  rfl

/-- The newest key does not depend on the rows' order. -/
theorem IsNewest.perm {l m : List CsiSample} {k : StreamCursor} (h : IsNewest l k)
    (hperm : l.Perm m) : IsNewest m k := by
  obtain ⟨⟨t, ht, hk⟩, hall⟩ := h
  exact ⟨⟨t, hperm.mem_iff.mp ht, hk⟩, fun r hr => hall r (hperm.mem_iff.mpr hr)⟩

/-- The last of the rows in order has the newest key of everything that was there. -/
private theorem isNewest_append {old rows : List CsiSample} {k : StreamCursor}
    (hold : IsNewest old k)
    (hsorted : Sorted CsiSample.orderKey rows) (hpast : ∀ r ∈ rows, k < r.orderKey) :
    ∃ k', (rows.getLast?.map CsiSample.orderKey).or (some k) = some k' ∧
      IsNewest (old ++ rows) k' := by
  cases hlast : rows.getLast? with
  | none =>
    rw [List.getLast?_eq_none_iff.mp hlast, List.append_nil]
    exact ⟨k, rfl, hold⟩
  | some last =>
    have hmem : last ∈ rows := List.mem_of_getLast? hlast
    refine ⟨last.orderKey, rfl, ⟨last, List.mem_append_right _ hmem, rfl⟩, ?_⟩
    intro r hr
    cases List.mem_append.mp hr with
    | inl hr => exact le_of_lt (lt_of_le_of_lt (hold.2 r hr) (hpast last hmem))
    | inr hr => exact le_getLast_of_sorted hsorted hlast r hr

/-- What a poll fetches that keeps up: the objects of the rows committed since the last one. -/
private theorem InStep.exists_found (hI : InStep opened c) {maxBatch : Nat} {rows : List CsiSample}
    {loopTime : Int} (hpolls : Polls maxBatch c (.polled rows loopTime))
    (hlimit : (beyond CsiSample.orderKey c.state.stream.cursor c.state.table).length ≤ maxBatch) :
    ∃ found, found.Perm (committedSince c.log) ∧ Sorted CsiSample.orderKey found ∧
      rows = load (·.identity) found ∧
      found.Perm (beyond CsiSample.orderKey c.state.stream.cursor c.state.table) := by
  obtain ⟨hawait, hreturns⟩ := hpolls
  obtain ⟨k, hround, hnewest, hsince⟩ := hI.newest
  have hcursor : c.state.stream.cursor = some k := by simpa [roundEnd, hawait] using hround
  obtain ⟨found, ⟨hperm, hordered⟩, hrows⟩ := hreturns k hcursor
  -- the limit cuts nothing off
  rw [hcursor, ← hperm.length_eq] at hlimit
  rw [loadBatch, List.take_of_length_le hlimit] at hrows
  rw [hcursor]
  refine ⟨found, ?_, hordered, hrows, hperm⟩
  rwa [hI.beyond_cursor hnewest hsince] at hperm

/-- A poll that keeps up hands out the rows committed before it exactly when no two of those
    that it finds share an identity. -/
theorem InStep.perm_polled_iff (hI : InStep opened c) {maxBatch : Nat} {rows : List CsiSample}
    {loopTime : Int} (hok : KeepsUp maxBatch c (.polled rows loopTime)) :
    (outbound (streamMachine.answer c (.polled rows loopTime))).Perm
        (committedAtPoll (streamMachine.answer c (.polled rows loopTime)).log) ↔
      Unambiguous (·.identity)
        (beyond CsiSample.orderKey c.state.stream.cursor c.state.table) := by
  obtain ⟨hpolls, hlimit⟩ := hok
  obtain ⟨found, hperm, -, rfl, hfound⟩ := hI.exists_found hpolls hlimit
  have hdelivered := hI.delivered
  rw [outbound_polling hpolls.1] at hdelivered
  have hall : committedAtPoll
      (streamMachine.answer c (.polled (load (·.identity) found) loopTime)).log =
      committedAtPoll c.log ++ committedSince c.log := committedRows_eq c.log
  have hloaded : (load (·.identity) found).Perm found ↔ Unambiguous (·.identity) found := by
    have hiff : ((load (·.identity) found).map id).Perm (found.map id) ↔
        Unambiguous (·.identity) found :=
      perm_map_load_iff fun a b h => congrArg (fun r : CsiSample => r.identity) h
    rwa [List.map_id, List.map_id] at hiff
  rw [outbound_polled hI.streaming hpolls.1, hall, (hdelivered.append_right _).congr_left,
    List.perm_append_left_iff, hperm.symm.congr_right, hloaded]
  unfold Unambiguous
  simp only [hfound.mem_iff]

/-- A poll that the limit covers hands out every row committed before it, once each. -/
theorem InStep.polled (hI : InStep opened c) {maxBatch : Nat} {rows : List CsiSample}
    {loopTime : Int} (hok : KeepsUp maxBatch c (.polled rows loopTime))
    (happart : Unambiguous (·.identity)
      (beyond CsiSample.orderKey c.state.stream.cursor c.state.table)) :
    InStep opened (streamMachine.answer c (.polled rows loopTime)) := by
  have hdelivered' := (hI.perm_polled_iff hok).mpr happart
  obtain ⟨hpolls, hlimit⟩ := hok
  obtain ⟨k, hround, hnewest, hsince⟩ := hI.newest
  have hcursor : c.state.stream.cursor = some k := by
    simpa [roundEnd, hpolls.1] using hround
  obtain ⟨-, hround', hstreaming'⟩ :=
    step_polled c.state.table hI.streaming hpolls.1 rows loopTime
  obtain ⟨found, hperm, hordered, hrows, hfound⟩ := hI.exists_found hpolls hlimit
  -- no row stands for another one, so the rows are those committed since the last poll
  have happart' : Unambiguous (·.identity) found := fun a ha b hb =>
    happart a (hfound.mem_iff.mp ha) b (hfound.mem_iff.mp hb)
  rw [load_eq_self happart'] at hrows
  subst hrows
  have hpast : ∀ r ∈ rows, k < r.orderKey := fun r hr => hsince r (hperm.mem_iff.mp hr)
  have hdelivered := hI.delivered
  have hsorted := hI.sorted
  rw [outbound_polling hpolls.1] at hdelivered hsorted
  have hout := outbound_polled hI.streaming hpolls.1 rows loopTime
  have hall : committedAtPoll (streamMachine.answer c (.polled rows loopTime)).log =
      committedAtPoll c.log ++ committedSince c.log := committedRows_eq c.log
  refine ⟨hstreaming', hI.table_eq, hdelivered', ?_, ?_⟩
  -- what was handed out is at or below the cursor, what was fetched is past it
  · rw [hout]
    apply List.pairwise_append.mpr ⟨hsorted, hordered, ?_⟩
    intro a ha b hb
    have hbelow := hnewest.2 a (List.mem_append_right _ (hdelivered.mem_iff.mp ha))
    exact le_of_lt (lt_of_le_of_lt hbelow (hpast b hb))
  · obtain ⟨k', hlast, hnewest'⟩ := isNewest_append hnewest hordered hpast
    refine ⟨k', ?_, ?_, ?_⟩
    · rw [← hcursor] at hlast
      exact hround'.trans hlast
    · rw [hall, ← List.append_assoc]
      exact hnewest'.perm (hperm.append_left _)
    · intro r hr
      cases hr

/-- A connection that is still open keeps up after every admitted event. -/
theorem InStep.answer (hI : InStep opened c) {maxBatch : Nat} {e : StreamEvent}
    (hok : TellsApart maxBatch c e) :
    (streamMachine.answer c e).state.stream.await = .closed ∨
      InStep opened (streamMachine.answer c e) := by
  cases e with
  | commit rows => exact .inr (hI.commit hok.1.2)
  | latest loopTime =>
    exact .inr (hI.quiet (quiet_latest c.state.table hI.streaming loopTime) rfl rfl rfl)
  | polled rows loopTime => exact .inr (hI.polled hok.1 hok.2)
  | resumed loopTime =>
    exact .inr (hI.quiet (quiet_resumed c.state.table hI.streaming loopTime) rfl rfl rfl)
  | woke => exact .inr (hI.quiet (quiet_woke c.state.table hI.streaming) rfl rfl rfl)
  | cancelled => exact .inl rfl

/-! ## Commits in any order -/

/-- The handed keys ascend: `opened` are the rows that were there when it connected. -/
structure Climbing (opened : List CsiSample)
    (c : Config StreamSystem StreamEvent StreamOutput) : Prop where
  streaming : Streaming c.state.stream
  table_eq : c.state.table = opened ++ committedRows c.log
  distinct : ((committedRows c.log).map CsiSample.orderKey).Nodup
  ascending : Ascending CsiSample.orderKey (outbound c)
  below : ∃ k, roundEnd c.state.stream = some k ∧
    (∀ r ∈ opened, r.orderKey ≤ k) ∧ ∀ r ∈ outbound c, r.orderKey ≤ k

/-- An event that fetches and commits nothing leaves the keys ascending. -/
theorem Climbing.quiet (hI : Climbing opened c) {e : StreamEvent} {output : StreamOutput}
    {s : CsiStream} (hquiet : Quiet c.state.stream e (output, s))
    (hcommitted : committedRows ((e, output) :: c.log) = committedRows c.log) :
    Climbing opened ⟨(e, output) :: c.log, c.state.table, s⟩ := by
  have hout := outbound_quiet hquiet
  exact {
    streaming := hquiet.streaming
    table_eq := by rw [hcommitted, ← hI.table_eq]
    distinct := by rw [hcommitted]; exact hI.distinct
    ascending := by rw [hout]; exact hI.ascending
    below := by rw [hout, hquiet.roundEnd]; exact hI.below }

/-- So does a commit of rows with keys of their own. -/
theorem Climbing.commit (hI : Climbing opened c) {rows : List CsiRow}
    (hdistinct : ((committedRows c.log ++ commitRows rows []).map CsiSample.orderKey).Nodup) :
    Climbing opened (streamMachine.answer c (.commit rows)) where
  streaming := hI.streaming
  table_eq := by
    show commitRows rows c.state.table = opened ++ (committedRows c.log ++ commitRows rows [])
    rw [commitRows_append, hI.table_eq, List.append_assoc]
  distinct := hdistinct
  ascending := hI.ascending
  below := hI.below

/-- What a poll may return lies past the cursor, with no key twice. -/
private theorem Climbing.pollReturns (hI : Climbing opened c) {maxBatch : Nat} {k : StreamCursor}
    (hopened : ∀ r ∈ opened, r.orderKey ≤ k) {rows : List CsiSample}
    (hreturns : PollReturns maxBatch k c.state.table rows) :
    Ascending CsiSample.orderKey rows ∧ ∀ r ∈ rows, k < r.orderKey := by
  obtain ⟨found, ⟨hperm, hordered⟩, rfl⟩ := hreturns
  have hnew : beyond CsiSample.orderKey (some k) c.state.table =
      beyond CsiSample.orderKey (some k) (committedRows c.log) := by
    rw [hI.table_eq, beyond_append_of_le hopened]
  have hnodup : (found.map CsiSample.orderKey).Nodup := by
    rw [(hperm.map CsiSample.orderKey).nodup_iff, hnew]
    exact hI.distinct.sublist (List.filter_sublist.map _)
  constructor
  · -- the objects have the keys of the rows they stand for
    have hascending : Ascending CsiSample.orderKey (found.take maxBatch) :=
      (hordered.ascending hnodup).sublist (List.take_sublist maxBatch found)
    have hkeys := List.pairwise_map.mpr hascending
    rw [← map_orderKey_loadBatch] at hkeys
    exact List.pairwise_map.mp hkeys
  · intro r hr
    have hmem := List.mem_of_mem_take (mem_of_mem_load hr)
    exact (mem_beyond.mp (hperm.mem_iff.mp hmem)).2

/-- The rows a poll finds are past the cursor, so the keys go on ascending. -/
theorem Climbing.polled (hI : Climbing opened c) {maxBatch : Nat} {rows : List CsiSample}
    {loopTime : Int} (hpolls : Polls maxBatch c (.polled rows loopTime)) :
    Climbing opened (streamMachine.answer c (.polled rows loopTime)) := by
  obtain ⟨hawait, hreturns⟩ := hpolls
  -- the round starts where the last one ended
  obtain ⟨k, hround, hopened, hbelow⟩ := hI.below
  have hcursor : c.state.stream.cursor = some k := by simpa [roundEnd, hawait] using hround
  obtain ⟨-, hround', hstreaming'⟩ :=
    step_polled c.state.table hI.streaming hawait rows loopTime
  obtain ⟨hrows, hpast⟩ := hI.pollReturns hopened (hreturns k hcursor)
  have hascending := hI.ascending
  rw [outbound_polling hawait] at hascending hbelow
  have hout := outbound_polled hI.streaming hawait rows loopTime
  refine ⟨hstreaming', hI.table_eq, hI.distinct, ?_, ?_⟩
  · rw [hout]
    apply List.pairwise_append.mpr ⟨hascending, hrows, ?_⟩
    intro a ha b hb
    exact lt_of_le_of_lt (hbelow a ha) (hpast b hb)
  · rw [hout]
    have hend : roundEnd (streamMachine.answer c (.polled rows loopTime)).state.stream =
        (rows.getLast?.map CsiSample.orderKey).or (some k) := by
      rw [← hcursor]
      exact hround'
    rw [hend]
    cases hlast : rows.getLast? with
    | none =>
      -- nothing was fetched: the cursor stays
      rw [List.getLast?_eq_none_iff.mp hlast, List.append_nil]
      exact ⟨k, rfl, hopened, hbelow⟩
    | some last =>
      have hmem : k < last.orderKey := hpast last (List.mem_of_getLast? hlast)
      refine ⟨last.orderKey, rfl, ?_, ?_⟩
      · intro r hr
        exact le_of_lt (lt_of_le_of_lt (hopened r hr) hmem)
      · intro r hr
        cases List.mem_append.mp hr with
        | inl hr => exact le_of_lt (lt_of_le_of_lt (hbelow r hr) hmem)
        | inr hr => exact le_getLast_of_sorted hrows.sorted hlast r hr

/-- One step, after which the keys ascend or the stream has ended. -/
theorem Climbing.answer (hI : Climbing opened c) {maxBatch : Nat} {e : StreamEvent}
    (hok : DistinctCommits maxBatch c e) :
    Climbing opened (streamMachine.answer c e) ∨
      (streamMachine.answer c e).state.stream.await = .closed ∧
        emitted (streamMachine.answer c e).log = emitted c.log := by
  cases e with
  | commit rows => exact .inl (hI.commit hok.2)
  | latest loopTime =>
    exact .inl (hI.quiet (quiet_latest c.state.table hI.streaming loopTime) rfl)
  | polled rows loopTime => exact .inl (hI.polled hok.1)
  | resumed loopTime =>
    exact .inl (hI.quiet (quiet_resumed c.state.table hI.streaming loopTime) rfl)
  | woke => exact .inl (hI.quiet (quiet_woke c.state.table hI.streaming) rfl)
  | cancelled => exact .inr ⟨rfl, rfl⟩

/-! ## Every run -/

/-- In a table that is not empty the first statement finds the newest key. -/
private theorem mem_latestCursor {table : List CsiSample} (h : table ≠ []) :
    ∃ k, latestCursor table = some k ∧ IsNewest table k := by
  have hperm := List.perm_insertionSort
    (fun a b : CsiSample => b.orderKey ≤ a.orderKey) table
  -- the newest row is the head of the sorted table
  have : Std.Total fun a b : CsiSample => b.orderKey ≤ a.orderKey :=
    ⟨fun a b => le_total _ _⟩
  have : IsTrans CsiSample fun a b => b.orderKey ≤ a.orderKey :=
    ⟨fun a b c hab hbc => le_trans hbc hab⟩
  have hsorted := List.pairwise_insertionSort
    (fun a b : CsiSample => b.orderKey ≤ a.orderKey) table
  unfold latestCursor
  cases hfound : table.insertionSort fun a b => b.orderKey ≤ a.orderKey with
  | nil =>
    rw [hfound] at hperm
    exact absurd (List.nil_perm.mp hperm) h
  | cons first rest =>
    rw [hfound] at hperm hsorted
    -- every other row is behind the head in the order
    refine ⟨first.orderKey, rfl, ⟨first, hperm.mem_iff.mp List.mem_cons_self, rfl⟩, ?_⟩
    intro r hr
    cases List.mem_cons.mp (hperm.mem_iff.mpr hr) with
    | inl hfirst => rw [hfirst]
    | inr hrest => exact (List.pairwise_cons.mp hsorted).1 r hrest

/-- A connection to a table with rows starts at its newest key. -/
private theorem connect_eq {table : List CsiSample} (h : table ≠ []) (loopTime : Int) :
    ∃ k, connect table loopTime =
        ⟨[(.latest loopTime, .nothing)], table, ⟨some k, loopTime, .polling⟩⟩ ∧
      IsNewest table k := by
  obtain ⟨k, hlatest, hnewest⟩ := mem_latestCursor h
  refine ⟨k, ?_, hnewest⟩
  simp [connect, Machine.answer, streamMachine, CsiStream.start, CsiStream.step,
    CsiStream.pollAgain, hlatest]

/-- A consumer that has just connected is in step. -/
private theorem inStep_connect {table : List CsiSample} (h : table ≠ []) (loopTime : Int) :
    InStep table (connect table loopTime) := by
  obtain ⟨k, hconnect, hnewest⟩ := connect_eq h loopTime
  rw [hconnect]
  refine ⟨⟨Option.some_ne_none k, trivial⟩, ?_, .refl _, .nil, k, rfl, ?_, ?_⟩
  · simp [committedRows]
  · simpa [committedAtPoll] using hnewest
  · simp [committedSince]

/-- It has been handed nothing, so the keys ascend. -/
private theorem climbing_connect {table : List CsiSample} (h : table ≠ []) (loopTime : Int) :
    Climbing table (connect table loopTime) := by
  obtain ⟨k, hconnect, hnewest⟩ := connect_eq h loopTime
  rw [hconnect]
  refine ⟨⟨Option.some_ne_none k, trivial⟩, ?_, .nil, .nil, k, rfl, hnewest.2, ?_⟩
  · simp [committedRows]
  · simp [outbound, emitted, pending]

/-- A stream that has ended hands out nothing more. -/
private theorem closed_answer (hclosed : c.state.stream.await = .closed) (e : StreamEvent) :
    (streamMachine.answer c e).state.stream.await = .closed ∧
      emitted (streamMachine.answer c e).log = emitted c.log := by
  cases e <;>
    simp [Machine.answer, streamMachine, CsiStream.step, hclosed, emitted]

/-- In a run that tells its rows apart an open connection keeps up. -/
theorem inStep_of_run {maxBatch : Nat} {table : List CsiSample} (hrows : table ≠ [])
    {loopTime : Int} (hrun : streamMachine.Run (TellsApart maxBatch) (connect table loopTime) c)
    (hopen : c.state.stream.await ≠ .closed) : InStep table c := by
  -- a closed connection hands out nothing more, so the invariant may end there
  have hinv : c.state.stream.await = .closed ∨ InStep table c := by
    apply hrun.invariant (I := fun c => c.state.stream.await = .closed ∨ InStep table c)
    · exact .inr (inStep_connect hrows loopTime)
    intro c e hI hok
    cases hI with
    | inl hclosed => exact .inl (closed_answer hclosed e).1
    | inr hI => exact hI.answer hok
  exact hinv.resolve_left hopen

/-- A consumer that keeps up has, with what it is being handed, the rows committed since it
    connected and before the last poll, each of them once and in the order of their keys, as
    long as no poll finds two rows of one identity that differ; and the first poll that does
    hands out something else.  Where the commits come in any order, what it is handed still
    ascends as long as no two of their rows share a key. -/
theorem stream_delivers (maxBatch : Nat) {table : List CsiSample} (hrows : table ≠ [])
    (loopTime : Int) :
    (∀ c, streamMachine.Run (TellsApart maxBatch) (connect table loopTime) c →
      c.state.stream.await ≠ .closed →
      (emitted c.log ++ pending c.state.stream).Perm (committedAtPoll c.log) ∧
        Sorted CsiSample.orderKey (emitted c.log ++ pending c.state.stream) ∧
        ∀ rows loopTime', KeepsUp maxBatch c (.polled rows loopTime') →
          let c' := streamMachine.answer c (.polled rows loopTime')
          ((emitted c'.log ++ pending c'.state.stream).Perm (committedAtPoll c'.log) ↔
            Unambiguous (·.identity)
              (beyond CsiSample.orderKey c.state.stream.cursor c.state.table))) ∧
    ∀ c, streamMachine.Run (DistinctCommits maxBatch) (connect table loopTime) c →
      Ascending CsiSample.orderKey (emitted c.log) := by
  constructor
  · intro c hrun hopen
    -- in step while the stream lives, frozen once it has ended
    have hI := inStep_of_run hrows hrun hopen
    exact ⟨hI.delivered, hI.sorted, fun rows loopTime' hok => hI.perm_polled_iff hok⟩
  · intro c hrun
    have hinv : Climbing table c ∨ c.state.stream.await = .closed ∧
        Ascending CsiSample.orderKey (emitted c.log) := by
      apply hrun.invariant (I := fun c => Climbing table c ∨ c.state.stream.await = .closed ∧
        Ascending CsiSample.orderKey (emitted c.log))
      · exact .inl (climbing_connect hrows loopTime)
      intro c e hI hok
      cases hI with
      | inl hI =>
        cases hI.answer hok with
        | inl hI' => exact .inl hI'
        | inr hclosed =>
          -- the stream was cancelled in this step, after the rows it had emitted
          right
          rw [hclosed.2]
          exact ⟨hclosed.1, hI.ascending.sublist (List.sublist_append_left _ _)⟩
      | inr hclosed =>
        right
        rw [(closed_answer hclosed.1 e).2]
        exact ⟨(closed_answer hclosed.1 e).1, hclosed.2⟩
    cases hinv with
    | inl hI => exact hI.ascending.sublist (List.sublist_append_left _ _)
    | inr hclosed => exact hclosed.2

/-- Two receivers share the time 11; the second batch comes while the first is handed out. -/
def sharedTimeEvents : List StreamEvent :=
  [.commit [(tailRow 11).toCsiRow, { (tailRow 11).toCsiRow with receiverId := 2 }],
    .polled [{ tailRow 11 with receiverId := 2 }, tailRow 11] 0, .resumed 1,
    .commit [(tailRow 12).toCsiRow], .resumed 2, .woke, .polled [tailRow 12] 3]

/-- The example's run meets both conditions. -/
theorem sharedTime_polls :
    streamMachine.Admits (TellsApart 2) (connect [tailRow 10] 0) sharedTimeEvents ∧
      streamMachine.Admits (DistinctCommits 2) (connect [tailRow 10] 0) sharedTimeEvents := by
  -- rows of two receivers at one time, in both orders of the tie
  have hfirst : PollReturns 2 (tailRow 10).orderKey
      [tailRow 10, tailRow 11, { tailRow 11 with receiverId := 2 }]
      [{ tailRow 11 with receiverId := 2 }, tailRow 11] :=
    ⟨[{ tailRow 11 with receiverId := 2 }, tailRow 11], ⟨by decide, by unfold Sorted; decide⟩,
      by decide⟩
  have hsecond : PollReturns 2 (tailRow 11).orderKey
      [tailRow 10, tailRow 11, { tailRow 11 with receiverId := 2 }, tailRow 12]
      [tailRow 12] :=
    ⟨[tailRow 12], ⟨by decide, by unfold Sorted; decide⟩, by decide⟩
  refine ⟨⟨⟨⟨trivial, by decide⟩, trivial⟩, ⟨⟨⟨rfl, ?_⟩, by decide⟩, ?_⟩,
    ⟨⟨trivial, trivial⟩, trivial⟩, ⟨⟨trivial, by decide⟩, trivial⟩, ⟨⟨trivial, trivial⟩, trivial⟩,
    ⟨⟨trivial, trivial⟩, trivial⟩, ⟨⟨⟨rfl, ?_⟩, by decide⟩, ?_⟩, trivial⟩,
    ⟨⟨trivial, by decide⟩, ⟨⟨rfl, ?_⟩, trivial⟩, ⟨trivial, trivial⟩, ⟨trivial, by decide⟩,
    ⟨trivial, trivial⟩, ⟨trivial, trivial⟩, ⟨⟨rfl, ?_⟩, trivial⟩, trivial⟩⟩
  · intro cursor hcursor
    cases hcursor
    exact hfirst
  · show Unambiguous _ [tailRow 11, { tailRow 11 with receiverId := 2 }]
    unfold Unambiguous
    decide
  · intro cursor hcursor
    cases hcursor
    exact hsecond
  · show Unambiguous _ [tailRow 12]
    unfold Unambiguous
    decide
  · intro cursor hcursor
    cases hcursor
    exact hfirst
  · intro cursor hcursor
    cases hcursor
    exact hsecond

/-- Its stream is still open. -/
theorem sharedTime_open :
    (streamMachine.replay (connect [tailRow 10] 0) sharedTimeEvents).state.stream.await =
      .yielded (tailRow 12) [] := rfl

/-- Both halves in a run whose receivers share a time. -/
theorem stream_delivers_sharedTime :
    (emitted (streamMachine.replay (connect [tailRow 10] 0) sharedTimeEvents).log ++
        pending (streamMachine.replay (connect [tailRow 10] 0) sharedTimeEvents).state.stream).Perm
      (committedAtPoll (streamMachine.replay (connect [tailRow 10] 0) sharedTimeEvents).log) ∧
    Ascending CsiSample.orderKey
      (emitted (streamMachine.replay (connect [tailRow 10] 0) sharedTimeEvents).log) :=
  have h := stream_delivers 2 (List.cons_ne_nil (tailRow 10) []) 0
  ⟨(h.1 _ (Machine.run_of_admits sharedTime_polls.1) (by simp [sharedTime_open])).1,
    h.2 _ (Machine.run_of_admits sharedTime_polls.2)⟩

/-- Another packet of the same microsecond, from the same transmitter and as loud. -/
def twinRow : CsiSample := { tailRow 11 with amplitude := [1] }

/-- Two such packets are committed, and the next poll finds both. -/
def twinEvents : List StreamEvent :=
  [.commit [(tailRow 11).toCsiRow, twinRow.toCsiRow],
    .polled [tailRow 11, tailRow 11] 0, .resumed 1]

/-- The first packet is handed out twice and the second one never. -/
theorem twins_repeated :
    ¬∀ (maxBatch : Nat) (table : List CsiSample) (loopTime : Int)
      (c : Config StreamSystem StreamEvent StreamOutput), table ≠ [] →
      streamMachine.Run (KeepsUp maxBatch) (connect table loopTime) c →
      c.state.stream.await ≠ .closed →
      (emitted c.log ++ pending c.state.stream).Perm (committedAtPoll c.log) := by
  intro h
  have hreturns : PollReturns 2 (tailRow 10).orderKey [tailRow 10, tailRow 11, twinRow]
      [tailRow 11, tailRow 11] :=
    ⟨[tailRow 11, twinRow], ⟨by decide, by unfold Sorted; decide⟩, by decide⟩
  have hrun : streamMachine.Run (KeepsUp 2) (connect [tailRow 10] 0)
      (streamMachine.replay (connect [tailRow 10] 0) twinEvents) := by
    refine Machine.run_of_admits ⟨⟨trivial, by decide⟩, ⟨⟨rfl, ?_⟩, by decide⟩,
      ⟨trivial, trivial⟩, trivial⟩
    intro cursor hcursor
    cases hcursor
    exact hreturns
  have hawait : (streamMachine.replay (connect [tailRow 10] 0) twinEvents).state.stream.await =
      .yielded (tailRow 11) [] := rfl
  have hperm : [tailRow 11, tailRow 11].Perm [tailRow 11, twinRow] :=
    h 2 [tailRow 10] 0 _ (List.cons_ne_nil _ _) hrun (by simp [hawait])
  exact absurd hperm (by decide)

end Grimnir
