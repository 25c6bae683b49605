import Grimnir.ForStd.SortedEnds
import Grimnir.Native.CsiStream

/-!
# Which end of a backlog the stream hands out

A poll orders the rows past the cursor by their keys and keeps the first `MAX_BATCH` of
them, so a consumer that has fallen behind gets the oldest rows of its backlog and not the
newest.  Rows that agree in the mapper's key are one object of the session, so of them it gets
the first one again and again.

## Key results

- `replay_poll`: what one poll hands out and where it leaves the cursor
- `broughtToTail_iff`: a poll brings the consumer to the tail exactly when the limit covers
  the backlog or one key is all there is, and no row is lost to another one of its identity
- `backlog_kept`: three rows and a limit of two
-/

namespace Grimnir

open SeekPaging IdentityMap

/-- The rows handed out so far. -/
def emitted : List (StreamEvent × StreamOutput) → List CsiSample
  | [] => []
  | (_, .data row) :: log => emitted log ++ [row]
  | (_, .nothing) :: log => emitted log
  | (_, .tail) :: log => emitted log

/-- The consumer takes `n` rows, while others may commit. -/
inductive Takes : Nat → List StreamEvent → Prop where
  | nil : Takes 0 []
  | resumed {n : Nat} {es : List StreamEvent} (loopTime : Int) (h : Takes n es) :
      Takes (n + 1) (.resumed loopTime :: es)
  | commit {n : Nat} {es : List StreamEvent} (rows : List CsiRow) (h : Takes n es) :
      Takes n (.commit rows :: es)

/-- The rows committed by the events. -/
def arrivals : List StreamEvent → List CsiSample
  | [] => []
  | .commit rows :: es => commitRows rows [] ++ arrivals es
  | _ :: es => arrivals es

/-- The cursor is the newest key of the table. -/
def IsNewest (table : List CsiSample) (cursor : StreamCursor) : Prop :=
  (∃ r ∈ table, r.orderKey = cursor) ∧ ∀ r ∈ table, r.orderKey ≤ cursor

/-- The consumer was handed the newest rows past its cursor, at most `maxBatch` of them in
    ascending order, and stands at the end of the table that was read.  What it does not have
    yet arrived during the poll. -/
structure BroughtToTail (maxBatch : Nat) (cursor : StreamCursor)
    (table arrived handed : List CsiSample) (after : StreamSystem) : Prop where
  newest : ∃ backlog : List CsiSample,
    backlog.Perm (beyond CsiSample.orderKey (some cursor) table) ∧
    Sorted CsiSample.orderKey backlog ∧ handed = backlog.drop (backlog.length - maxBatch)
  atTail : ∃ newest, after.stream.cursor = some newest ∧ IsNewest table newest
  lag : ∀ r ∈ beyond CsiSample.orderKey after.stream.cursor after.table, r ∈ arrived

/-! ## One poll -/

/-- The rows handed out in two parts of a log. -/
theorem emitted_append (log log' : List (StreamEvent × StreamOutput)) :
    emitted (log ++ log') = emitted log' ++ emitted log := by
  induction log with
  | nil => simp [emitted]
  | cons entry log ih =>
    obtain ⟨e, output⟩ := entry
    cases output <;> simp [emitted, ih]

/-- A commit appends its rows, without labels. -/
theorem commitRows_append (rows : List CsiRow) (table : List CsiSample) :
    commitRows rows table = table ++ commitRows rows [] := by
  simp [commitRows]

/-- A commit does not touch the connection. -/
private theorem answer_commit (rows : List CsiRow) (log : List (StreamEvent × StreamOutput))
    (table : List CsiSample) (s : CsiStream) :
    streamMachine.answer ⟨log, table, s⟩ (.commit rows) =
      ⟨(.commit rows, .nothing) :: log, table ++ commitRows rows [], s⟩ := by
  rw [← commitRows_append]
  rfl

/-- The end of a round hands out no row and leaves the cursor. -/
private theorem endRound_frame (loopTime : Int) (s : CsiStream) (e : StreamEvent) :
    emitted [(e, (CsiStream.endRound loopTime s).1)] = [] ∧
      (CsiStream.endRound loopTime s).2.cursor = s.cursor := by
  unfold CsiStream.endRound
  split
  · exact ⟨rfl, rfl⟩
  · exact ⟨rfl, rfl⟩

/-- A round that has handed out everything only sees commits. -/
private theorem replay_commits {es : List StreamEvent} (hes : Takes 0 es)
    (log : List (StreamEvent × StreamOutput)) (table : List CsiSample) (s : CsiStream) :
    ∃ log', streamMachine.replay ⟨log, table, s⟩ es = ⟨log', table ++ arrivals es, s⟩ ∧
      emitted log' = emitted log := by
  generalize hn : 0 = n at hes
  induction hes generalizing log table with
  | nil => exact ⟨log, by simp [Machine.replay, arrivals], rfl⟩
  | resumed loopTime h ih => cases hn
  | commit rows h ih =>
    obtain ⟨log', hreplay, hemitted⟩ :=
      ih ((.commit rows, .nothing) :: log) (table ++ commitRows rows []) hn
    refine ⟨log', ?_, ?_⟩
    · rw [Machine.replay_cons, answer_commit, hreplay, arrivals, List.append_assoc]
    · simp [hemitted, emitted]

/-- What a consumer that has `row` gets of the rest. -/
private theorem replay_rest {n : Nat} {es : List StreamEvent} (hes : Takes n es)
    {rest : List CsiSample} (hn : n = rest.length + 1) (row : CsiSample)
    (log : List (StreamEvent × StreamOutput)) (table : List CsiSample) (s : CsiStream)
    (hawait : s.await = .yielded row rest) :
    ∃ log' s', streamMachine.replay ⟨log, table, s⟩ es = ⟨log', table ++ arrivals es, s'⟩ ∧
      emitted log' = emitted log ++ rest ∧
      s'.cursor = (row :: rest).getLast?.map CsiSample.orderKey := by
  -- the induction follows the events; only `resumed` hands out a row
  induction hes generalizing rest row log table s with
  | nil => cases hn
  | commit rows h ih =>
    obtain ⟨log', s', hreplay, hemitted, hcursor⟩ :=
      ih hn row ((.commit rows, .nothing) :: log) (table ++ commitRows rows []) s hawait
    refine ⟨log', s', ?_, ?_, hcursor⟩
    · rw [Machine.replay_cons, answer_commit, hreplay, arrivals, List.append_assoc]
    · simp [hemitted, emitted]
  | @resumed n es loopTime h ih =>
    cases rest with
    | nil =>
      -- the last row: the cursor is on it, and the round ends
      obtain ⟨hnone, hcursor⟩ := endRound_frame loopTime
        { s with cursor := some row.orderKey, lastEmit := loopTime } (.resumed loopTime)
      have hlast : streamMachine.answer ⟨log, table, s⟩ (.resumed loopTime) =
          ⟨(.resumed loopTime, (CsiStream.endRound loopTime
              { s with cursor := some row.orderKey, lastEmit := loopTime }).1) :: log, table,
            (CsiStream.endRound loopTime
              { s with cursor := some row.orderKey, lastEmit := loopTime }).2⟩ := by
        simp only [Machine.answer, streamMachine, CsiStream.step, hawait, CsiStream.advance]
      have hzero : n = 0 := by simpa using hn
      subst hzero
      rw [Machine.replay_cons, hlast]
      obtain ⟨log', hreplay, hemitted⟩ := replay_commits h _ table _
      refine ⟨log', _, hreplay, ?_, ?_⟩
      · rw [hemitted, ← List.singleton_append, emitted_append, hnone]
      · simp [hcursor]
    | cons next rest =>
      have hfirst : streamMachine.answer ⟨log, table, s⟩ (.resumed loopTime) =
          ⟨(.resumed loopTime, .data next) :: log, table,
            { s with cursor := some row.orderKey, await := .yielded next rest }⟩ := by
        simp only [Machine.answer, streamMachine, CsiStream.step, hawait, CsiStream.advance]
      obtain ⟨log', s', hreplay, hemitted, hcursor⟩ :=
        ih (by simpa using hn) next ((.resumed loopTime, .data next) :: log) table
          { s with cursor := some row.orderKey, await := .yielded next rest } rfl
      refine ⟨log', s', ?_, ?_, ?_⟩
      · rw [Machine.replay_cons, hfirst, hreplay]
        rfl
      · simp [hemitted, emitted]
      · simp [hcursor]

/-- A poll hands out its rows and leaves the cursor at the last one. -/
theorem replay_poll (loopTime : Int) {rows : List CsiSample} {es : List StreamEvent}
    (hes : Takes rows.length es) (table : List CsiSample) {s : CsiStream}
    (hawait : s.await = .polling) :
    ∃ log' s', streamMachine.replay ⟨[], table, s⟩ (.polled rows loopTime :: es) =
        ⟨log', table ++ arrivals es, s'⟩ ∧
      emitted log' = rows ∧
      s'.cursor = (rows.getLast?.map CsiSample.orderKey).or s.cursor := by
  -- an empty poll ends its round, else its first row goes out at once
  cases rows with
  | nil =>
    obtain ⟨hnone, hcursor⟩ := endRound_frame loopTime s (.polled [] loopTime)
    have hround : streamMachine.answer ⟨[], table, s⟩ (.polled [] loopTime) =
        ⟨[(.polled [] loopTime, (CsiStream.endRound loopTime s).1)], table,
          (CsiStream.endRound loopTime s).2⟩ := by
      simp only [Machine.answer, streamMachine, CsiStream.step, hawait, CsiStream.handOut]
    rw [Machine.replay_cons, hround]
    obtain ⟨log', hreplay, hemitted⟩ := replay_commits hes _ table _
    refine ⟨log', _, hreplay, ?_, ?_⟩
    · rw [hemitted, hnone]
    · simp [hcursor]
  | cons row rest =>
    have hfirst : streamMachine.answer ⟨[], table, s⟩ (.polled (row :: rest) loopTime) =
        ⟨[(.polled (row :: rest) loopTime, .data row)], table,
          { s with await := .yielded row rest }⟩ := by
      simp only [Machine.answer, streamMachine, CsiStream.step, hawait, CsiStream.handOut]
    obtain ⟨log', s', hreplay, hemitted, hcursor⟩ :=
      replay_rest hes rfl row [(.polled (row :: rest) loopTime, .data row)] table
        { s with await := .yielded row rest } rfl
    refine ⟨log', s', ?_, ?_, ?_⟩
    · rw [Machine.replay_cons, hfirst, hreplay]
    · simp [hemitted, emitted]
    · simp [hcursor, List.getLast?_cons]

/-! ## Where the cursor lands -/

/-- The rows past the cursor are those with a greater key. -/
theorem mem_beyond {cursor : StreamCursor} {table : List CsiSample} {r : CsiSample} :
    r ∈ beyond CsiSample.orderKey (some cursor) table ↔ r ∈ table ∧ cursor < r.orderKey := by
  simp [beyond, Beyond]

/-- The newest key past a cursor is the newest key of the table. -/
private theorem isNewest_of_beyond {cursor : StreamCursor} {table : List CsiSample} {r : CsiSample}
    (hr : r ∈ beyond CsiSample.orderKey (some cursor) table)
    (hall : ∀ a ∈ beyond CsiSample.orderKey (some cursor) table, a.orderKey ≤ r.orderKey) :
    IsNewest table r.orderKey := by
  refine ⟨⟨r, (mem_beyond.mp hr).1, rfl⟩, ?_⟩
  intro a ha
  by_cases hpast : cursor < a.orderKey
  · exact hall a (mem_beyond.mpr ⟨ha, hpast⟩)
  · exact le_trans (not_lt.mp hpast) (le_of_lt (mem_beyond.mp hr).2)

/-- A consumer at the end of the table that was read lacks only what came since. -/
private theorem lag_of_isNewest {table arrived : List CsiSample} {newest : StreamCursor}
    (h : IsNewest table newest) :
    ∀ r ∈ beyond CsiSample.orderKey (some newest) (table ++ arrived), r ∈ arrived := by
  intro r hr
  obtain ⟨hmem, hpast⟩ := mem_beyond.mp hr
  cases List.mem_append.mp hmem with
  | inl hold => exact absurd (h.2 r hold) (not_le.mpr hpast)
  | inr hnew => exact hnew

/-! ## Which end of the backlog -/

/-- Rows of one identity have one key. -/
private theorem orderKey_of_identity (a b : CsiSample) (h : a.identity = b.identity) :
    a.orderKey = b.orderKey := by
  have htime : a.time = b.time := congrArg Prod.fst h
  have hreceiver : a.receiverId = b.receiverId := congrArg (·.2.1) h
  exact congrArg toLex (Prod.ext htime hreceiver)

/-- The identity map keeps the keys of the rows it merges. -/
theorem map_orderKey_loadBatch (maxBatch : Nat) (found : List CsiSample) :
    (loadBatch maxBatch found).map CsiSample.orderKey =
      (found.take maxBatch).map CsiSample.orderKey :=
  map_load orderKey_of_identity _

/-- The statement returns no more rows of an identity than there are rows like the first one of
    them past the cursor. -/
def EnoughCopies (maxBatch : Nat) (found : List CsiSample) : Prop :=
  ∀ r ∈ found.take maxBatch, object (·.identity) (found.take maxBatch) r = r →
    ((found.take maxBatch).countP fun x => x.identity = r.identity) ≤ found.count r

instance (maxBatch : Nat) (found : List CsiSample) : Decidable (EnoughCopies maxBatch found) := by
  unfold EnoughCopies
  infer_instance

/-- The batch consists of rows of the backlog exactly when each object has copies enough. -/
private theorem subperm_loadBatch_iff {maxBatch : Nat} {found backlog : List CsiSample}
    (h : backlog.Perm found) :
    (loadBatch maxBatch found).Subperm backlog ↔ EnoughCopies maxBatch found := by
  rw [loadBatch, subperm_load_iff, EnoughCopies]
  simp only [h.count_eq]

/-- Whether rows are sorted is decided by their keys. -/
private theorem sorted_of_map_orderKey {rows rows' : List CsiSample}
    (h : rows.map CsiSample.orderKey = rows'.map CsiSample.orderKey)
    (hsorted : Sorted CsiSample.orderKey rows') : Sorted CsiSample.orderKey rows := by
  have hkeys : (rows.map CsiSample.orderKey).Pairwise (· ≤ ·) := by
    rw [h]
    exact List.pairwise_map.mpr hsorted
  exact List.pairwise_map.mp hkeys

/-- The rows of one poll are also the newest ones only when the limit takes them all or their
    keys do not differ, and when each of them is there as often as it is handed out. -/
private theorem loadBatch_newest_iff {maxBatch : Nat} (hbatch : 1 ≤ maxBatch)
    {cursor : StreamCursor} {table found : List CsiSample} (hfound : FoundPast cursor table found) :
    (∃ backlog : List CsiSample,
      backlog.Perm (beyond CsiSample.orderKey (some cursor) table) ∧
      Sorted CsiSample.orderKey backlog ∧
      loadBatch maxBatch found = backlog.drop (backlog.length - maxBatch)) ↔
    (found.length ≤ maxBatch ∨ ∀ a ∈ found, ∀ b ∈ found, a.orderKey = b.orderKey) ∧
      EnoughCopies maxBatch found := by
  have hkeys : (found.map CsiSample.orderKey).Pairwise (· ≤ ·) :=
    List.pairwise_map.mpr hfound.sorted
  constructor
  · rintro ⟨backlog, hbacklog, hascending, hends⟩
    have hperm : backlog.Perm found := hbacklog.trans hfound.perm.symm
    constructor
    · -- both orders have the same keys
      have hsame : backlog.map CsiSample.orderKey = found.map CsiSample.orderKey :=
        List.eq_of_perm_of_ascending (hperm.map _) (List.pairwise_map.mpr hascending) hkeys
      have htake := congrArg (List.map CsiSample.orderKey) hends
      rw [map_orderKey_loadBatch, List.map_take, List.map_drop, hsame, hperm.length_eq,
        ← @List.length_map _ _ found CsiSample.orderKey] at htake
      cases (List.take_eq_drop_iff hkeys maxBatch).mp htake with
      | inl hall => exact .inl (by simpa using hall)
      | inr hone =>
        right
        intro a ha b hb
        exact hone.resolve_left (by omega) _ (List.mem_map_of_mem ha) _ (List.mem_map_of_mem hb)
    · rw [← subperm_loadBatch_iff hperm, hends]
      exact (List.drop_sublist _ _).subperm
  · rintro ⟨hkeep, hcopies⟩
    have hsub := (subperm_loadBatch_iff (.refl found)).mpr hcopies
    cases hkeep with
    | inl hall =>
      -- the limit takes all rows, so those that are loaded are all of them
      have htake : found.take maxBatch = found := List.take_of_length_le hall
      have hlength : (loadBatch maxBatch found).length = found.length := by
        rw [loadBatch, length_load, htake]
      have hperm : (loadBatch maxBatch found).Perm found :=
        hsub.perm_of_length_le (Nat.le_of_eq hlength.symm)
      refine ⟨loadBatch maxBatch found, hperm.trans hfound.perm, ?_, ?_⟩
      · apply sorted_of_map_orderKey _ hfound.sorted
        rw [map_orderKey_loadBatch, htake]
      · rw [hlength, Nat.sub_eq_zero_of_le hall, List.drop_zero]
    | inr hone =>
      -- rows of one key may come in any order, so those that are loaded may be the last ones
      have hrest : (found.diff (loadBatch maxBatch found) ++ loadBatch maxBatch found).Perm
          found := by
        have hdiff := List.subperm_append_diff_self_of_count_le fun r _ => hsub.count_le r
        exact List.perm_append_comm.trans hdiff
      refine ⟨found.diff (loadBatch maxBatch found) ++ loadBatch maxBatch found,
        hrest.trans hfound.perm, ?_, ?_⟩
      · apply List.pairwise_of_forall_mem_list
        intro a ha b hb
        exact le_of_eq (hone a (hrest.mem_iff.mp ha) b (hrest.mem_iff.mp hb))
      · have hlast : (found.diff (loadBatch maxBatch found) ++ loadBatch maxBatch found).length -
            maxBatch = (found.diff (loadBatch maxBatch found)).length := by
          have hlength := hrest.length_eq
          have hloaded : (loadBatch maxBatch found).length = min maxBatch found.length := by
            rw [loadBatch, length_load, List.length_take]
          rw [List.length_append] at hlength ⊢
          omega
        rw [hlast, List.drop_left]

/-- The last of sorted rows has their largest key. -/
theorem le_getLast_of_sorted {rows : List CsiSample} (hsorted : Sorted CsiSample.orderKey rows)
    {last : CsiSample} (hlast : rows.getLast? = some last) :
    ∀ r ∈ rows, r.orderKey ≤ last.orderKey := by
  obtain ⟨before, rfl⟩ := List.getLast?_eq_some_iff.mp hlast
  have hbelow := (List.pairwise_append.mp hsorted).2.2
  intro r hr
  cases List.mem_append.mp hr with
  | inl hbefore => exact hbelow r hbefore last List.mem_cons_self
  | inr hend => rw [List.mem_singleton.mp hend]

/-- The cursor ends at the newest key of the table when the rows of the poll do. -/
private theorem exists_isNewest {maxBatch : Nat} (hbatch : 1 ≤ maxBatch) {cursor : StreamCursor}
    {table found : List CsiSample} (hfound : FoundPast cursor table found)
    (hall : found.length ≤ maxBatch ∨ ∀ a ∈ found, ∀ b ∈ found, a.orderKey = b.orderKey)
    (hnone : found = [] → IsNewest table cursor) :
    ∃ newest, ((loadBatch maxBatch found).getLast?.map CsiSample.orderKey).or (some cursor) =
      some newest ∧ IsNewest table newest := by
  rw [← List.getLast?_map, map_orderKey_loadBatch, List.getLast?_map]
  cases hlast : (found.take maxBatch).getLast? with
  | none =>
    -- the limit is at least one, so an empty answer means an empty backlog
    have htake := List.getLast?_eq_none_iff.mp hlast
    rw [List.take_eq_nil_iff] at htake
    exact ⟨cursor, rfl, hnone (htake.resolve_left (by omega))⟩
  | some last =>
    have hmem : last ∈ found := List.mem_of_mem_take (List.mem_of_getLast? hlast)
    refine ⟨last.orderKey, rfl, isNewest_of_beyond (hfound.perm.mem_iff.mp hmem) ?_⟩
    intro a ha
    have hin := hfound.perm.mem_iff.mpr ha
    cases hall with
    | inl hfits =>
      rw [List.take_of_length_le hfits] at hlast
      exact le_getLast_of_sorted hfound.sorted hlast a hin
    | inr hone => exact le_of_eq (hone a hin last hmem)

/-- A poll brings the consumer to the tail exactly when at most `MAX_BATCH` rows lie past the
    cursor, or rows of one key only, when the statement returns no more rows of an identity
    than there are rows like the first of them, and when the cursor was at the tail where no
    row lies past it. -/
theorem broughtToTail_iff {maxBatch : Nat} (hbatch : 1 ≤ maxBatch) {cursor : StreamCursor}
    {table found : List CsiSample} (hfound : FoundPast cursor table found)
    {s : CsiStream} (hawait : s.await = .polling) (hcursor : s.cursor = some cursor)
    (loopTime : Int) {es : List StreamEvent}
    (hes : Takes (loadBatch maxBatch found).length es) :
    BroughtToTail maxBatch cursor table (arrivals es)
        (emitted (streamMachine.replay ⟨[], table, s⟩
          (.polled (loadBatch maxBatch found) loopTime :: es)).log)
        (streamMachine.replay ⟨[], table, s⟩
          (.polled (loadBatch maxBatch found) loopTime :: es)).state ↔
      (found.length ≤ maxBatch ∨ ∀ a ∈ found, ∀ b ∈ found, a.orderKey = b.orderKey) ∧
      EnoughCopies maxBatch found ∧ (found = [] → IsNewest table cursor) := by
  obtain ⟨log', s', hreplay, hemitted, hafter⟩ := replay_poll loopTime hes table hawait
  rw [hreplay, hemitted]
  -- the rows found decide the tail, the rows that were loaded the batch
  have hends := loadBatch_newest_iff hbatch hfound
  constructor
  · intro h
    obtain ⟨hall, hcopies⟩ := hends.mp h.newest
    refine ⟨hall, hcopies, ?_⟩
    -- a poll that fetches nothing leaves the cursor where it was
    rintro rfl
    obtain ⟨newest, hnewest, htail⟩ := h.atTail
    have hstays : s'.cursor = some cursor := by
      rw [hafter, hcursor, loadBatch, List.take_nil]
      rfl
    rw [hstays] at hnewest
    cases hnewest
    exact htail
  · rintro ⟨hall, hcopies, hnone⟩
    have htail : ∃ newest, s'.cursor = some newest ∧ IsNewest table newest := by
      rw [hafter, hcursor]
      exact exists_isNewest hbatch hfound hall hnone
    refine ⟨hends.mpr ⟨hall, hcopies⟩, htail, ?_⟩
    obtain ⟨newest, hnewest, hisNewest⟩ := htail
    rw [hnewest]
    exact lag_of_isNewest hisNewest

/-! ## A backlog over the limit -/

/-- A row of receiver 4. -/
def tailRow (time : Int) : CsiSample where
  time := time
  receiverId := 4
  transmitterMac := "7c:df:a1:00:00:04"
  rssi := -48
  noiseFloor := none
  channel := 6
  bandwidth := 20
  antennaCount := 1
  subcarrierCount := 0
  amplitude := []
  phase := []
  rawBytes := none
  label := none

/-- A consumer that stands at time 10. -/
def consumerAtTen : CsiStream := ⟨some (tailRow 10).orderKey, 0, .polling⟩

/-- A row is committed while the one before it is handed out. -/
theorem broughtToTail_iff_two :
    BroughtToTail 2 (tailRow 10).orderKey [tailRow 10, tailRow 11]
        (arrivals [.resumed 0, .commit [(tailRow 12).toCsiRow]])
        (emitted (streamMachine.replay ⟨[], [tailRow 10, tailRow 11], consumerAtTen⟩
          [.polled [tailRow 11] 0, .resumed 0, .commit [(tailRow 12).toCsiRow]]).log)
        (streamMachine.replay ⟨[], [tailRow 10, tailRow 11], consumerAtTen⟩
          [.polled [tailRow 11] 0, .resumed 0, .commit [(tailRow 12).toCsiRow]]).state := by
  have hfound : FoundPast (tailRow 10).orderKey [tailRow 10, tailRow 11] [tailRow 11] :=
    ⟨by decide, List.pairwise_singleton _ _⟩
  have hiff := @broughtToTail_iff 2 (by decide) _ _ _ hfound consumerAtTen rfl rfl 0 _
    (.resumed 0 (.commit [(tailRow 12).toCsiRow] .nil))
  exact hiff.mpr ⟨.inl (by decide), by decide, fun hnil => nomatch hnil⟩

/-- Three rows lie past the cursor and the limit is two: the poll ends at the second one. -/
theorem backlog_kept :
    ¬∀ (maxBatch : Nat) (cursor : StreamCursor) (table rows : List CsiSample) (s : CsiStream)
      (loopTime : Int) (es : List StreamEvent), 1 ≤ maxBatch →
      PollReturns maxBatch cursor table rows → s.await = .polling → s.cursor = some cursor →
      Takes rows.length es →
      BroughtToTail maxBatch cursor table (arrivals es)
        (emitted (streamMachine.replay ⟨[], table, s⟩ (.polled rows loopTime :: es)).log)
        (streamMachine.replay ⟨[], table, s⟩ (.polled rows loopTime :: es)).state := by
  intro h
  have hpoll := h 2 (tailRow 10).orderKey [tailRow 11, tailRow 12, tailRow 13]
    [tailRow 11, tailRow 12] consumerAtTen 0 [.resumed 0, .resumed 0] (by decide)
    ⟨[tailRow 11, tailRow 12, tailRow 13], ⟨by decide, by unfold Sorted; decide⟩, by decide⟩ rfl
    rfl (.resumed 0 (.resumed 0 .nil))
  obtain ⟨newest, hnewest, -, hbelow⟩ := hpoll.atTail
  have hsecond : some (tailRow 12).orderKey = some newest := hnewest
  have hthird := hbelow (tailRow 13) (by simp)
  rw [← Option.some.inj hsecond] at hthird
  exact absurd hthird (by decide)

end Grimnir
