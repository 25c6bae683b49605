import Grimnir.ForStd.SeekPaging
import Grimnir.Spec.CursorCodec
import Mathlib.Data.Finset.Prod
import Mathlib.Data.Int.Interval

/-!
# The bulk export is exact

The endpoint pages through `training_samples` by the key of the last row read, so the
export is a seek-paged read of the matching rows, as they are at each request.  What a
writer does between two requests changes what later pages see, never what was passed.  A page
with a NaN or an infinity has no JSON, and the export fails there.

## Key results

- `trainingQuery_eq`: the `SELECT` finds the first rows behind the cursor, and one more
- `getTrainingData_eq`: a request answers with a page of the matching rows, rendered
- `exportFrom_reads`: the client's loop reads the pages in turn, up to one that JSON cannot hold
- `export_exact`: the rows of an export
-/

namespace Grimnir

open SeekPaging

/-! ## The filter -/

/-- The rooms that the endpoint reads from the `rooms` parameter. -/
def ExportArgs.roomList (args : ExportArgs) : List String :=
  Grimnir.roomList (",".intercalate args.rooms)

/-- The row is in the window and carries one of the rooms. -/
def ExportArgs.matches (args : ExportArgs) (t : TrainingSample) : Bool :=
  (Window.mk args.timeStart args.timeEnd).contains t.time && args.roomList.contains t.label

/-- The rows of `training_samples` that match the filter, in the order of their keys. -/
def ExportArgs.matching (args : ExportArgs) (db : LabelDb) : List TrainingSample :=
  (db.trainingSamples.rows.filter args.matches).insertionSort fun a b => a.orderKey ≤ b.orderKey

/-- The rows of either table that match the filter, in the order of their keys. -/
def ExportArgs.selected (args : ExportArgs) (rows : List TrainingSample) : List TrainingSample :=
  (rows.filter args.matches).insertionSort fun a b => a.orderKey ≤ b.orderKey

/-- The rows of the export are selected from the table. -/
private theorem ExportArgs.matching_eq (args : ExportArgs) (db : LabelDb) :
    args.matching db = args.selected db.trainingSamples.rows := rfl

/-- Arguments that the endpoint and the driver accept. -/
structure ExportArgs.Accepted (args : ExportArgs) : Prop where
  window : args.timeStart < args.timeEnd
  timeStart : fitsDatetime args.timeStart = true
  timeEnd : fitsDatetime args.timeEnd = true
  rooms : args.roomList ≠ []
  maxRooms : args.roomList.length ≤ maxRooms
  pageSize : 1 ≤ args.pageSize
  maxPageSize : args.pageSize ≤ maxPageSize

/-- Rooms that need no stripping and hold no comma are decoded as they were joined. -/
theorem roomList_intercalate {rooms : List String}
    (h : ∀ r ∈ rooms, PyStr.strip r = r ∧ r ≠ "" ∧ ',' ∉ r.toList) :
    roomList (",".intercalate rooms) = rooms := by
  -- no room at all is an empty list again
  by_cases hnil : rooms = []
  · rw [hnil]
    decide
  -- the names hold no comma, so splitting finds them
  · have hsplit : (",".intercalate rooms).toList.splitOn ',' = rooms.map String.toList := by
      rw [String.toList_intercalate]
      apply List.splitOn_intercalate
      · intro l hl
        obtain ⟨r, hr, rfl⟩ := List.mem_map.mp hl
        exact (h r hr).2.2
      · rwa [ne_eq, List.map_eq_nil_iff]
    -- and none has blanks to strip
    have hstrip :
        (rooms.map String.toList).map (fun r => PyStr.strip (String.ofList r)) = rooms := by
      rw [List.map_map, List.map_congr_left (g := id), List.map_id]
      intro r hr
      show PyStr.strip (String.ofList r.toList) = r
      rw [String.ofList_toList, (h r hr).1]
    rw [roomList, hsplit, hstrip, List.filter_eq_self]
    intro r hr
    exact decide_eq_true (h r hr).2.1

/-- An accepted page size is positive. -/
theorem ExportArgs.Accepted.pageSize_pos {args : ExportArgs} (h : args.Accepted) :
    0 < args.pageSize.toNat := by
  have hpos := h.pageSize
  omega

/-- The row comparison of the `WHERE` clause is the order of the keys. -/
private theorem isAfter_iff {c : Timestamp × Int} {t : TrainingSample} :
    isAfter c t = true ↔ toLex c < t.orderKey := by
  unfold isAfter TrainingSample.orderKey
  rw [Prod.Lex.toLex_lt_toLex, Bool.or_eq_true, Bool.and_eq_true, decide_eq_true_eq,
    decide_eq_true_eq, decide_eq_true_eq]
  show _ ↔ c.1 < t.time ∨ c.1 = t.time ∧ c.2 < t.receiverId
  rw [eq_comm (a := c.1)]

/-- The primary key keeps the rows' order keys distinct. -/
private theorem nodup_orderKey (table : Table TrainingSample TrainingSample.key)
    (p : TrainingSample → Bool) : ((table.rows.filter p).map (·.orderKey)).Nodup := by
  have hkeys : (table.rows.map (·.orderKey)).Nodup := by
    have hlex := table.nodup.map toLex.injective
    rwa [List.map_map] at hlex
  exact hkeys.sublist (List.filter_sublist.map _)

/-- So the rows of the export have a strict order. -/
theorem ExportArgs.ascending_matching (args : ExportArgs) (db : LabelDb) :
    Ascending TrainingSample.orderKey (args.matching db) :=
  ascending_sorted (nodup_orderKey _ _)

/-- A row is selected exactly when it is there and matches. -/
theorem ExportArgs.mem_selected {args : ExportArgs} {rows : List TrainingSample}
    {t : TrainingSample} : t ∈ args.selected rows ↔ t ∈ rows ∧ args.matches t = true := by
  unfold ExportArgs.selected
  rw [(List.perm_insertionSort _ _).mem_iff, List.mem_filter]

/-- A row is exported exactly when it is in the table and matches. -/
theorem ExportArgs.mem_matching {args : ExportArgs} {db : LabelDb} {t : TrainingSample} :
    t ∈ args.matching db ↔ t ∈ db.trainingSamples ∧ args.matches t = true := by
  rw [ExportArgs.matching_eq, ExportArgs.mem_selected, Table.mem_def]

/-- The window is one of `datetime`s, so the times in it are. -/
theorem ExportArgs.Accepted.fitsDatetime_of_mem {args : ExportArgs} (h : args.Accepted)
    {rows : List TrainingSample} {t : TrainingSample} (ht : t ∈ args.selected rows) :
    fitsDatetime t.time = true := by
  have hmatch := (ExportArgs.mem_selected.mp ht).2
  unfold ExportArgs.matches at hmatch
  rw [Bool.and_eq_true, Window.contains_iff] at hmatch
  obtain ⟨⟨hstart, hend⟩, -⟩ := hmatch
  have hmin := h.timeStart
  have hmax := h.timeEnd
  unfold fitsDatetime at hmin hmax ⊢
  simp only [Bool.and_eq_true, decide_eq_true_eq] at hmin hmax ⊢
  exact ⟨le_trans hmin.1 hstart, le_trans (le_of_lt hend) hmax.2⟩

/-! ## One request -/

/-- The `SELECT` finds the first rows behind the cursor, one more than a page holds. -/
theorem trainingQuery_eq (args : ExportArgs) (rows : List TrainingSample)
    (cursor : Option (Int ×ₗ Int)) (pageSize : Nat) :
    trainingQuery rows ⟨args.timeStart, args.timeEnd⟩ args.roomList (cursor.map ofLex)
        pageSize =
      (beyond TrainingSample.orderKey cursor (args.selected rows)).take (pageSize + 1) := by
  unfold trainingQuery ExportArgs.selected
  rw [beyond_sorted]
  unfold beyond
  rw [List.filter_filter]
  congr 2
  apply List.filter_congr
  intro t _
  have hcursor : ((cursor.map ofLex).all fun c => isAfter c t) =
      decide (Beyond cursor t.orderKey) := by
    cases cursor with
    | none => simp [Beyond]
    | some c =>
      rw [Option.map_some, Option.all_some, Bool.eq_iff_iff, isAfter_iff, decide_eq_true_eq,
        beyond_some, toLex_ofLex]
  rw [hcursor, Bool.and_comm]
  rfl

/-- The text of a cursor. -/
def cursorText (c : Int ×ₗ Int) : String :=
  match Datetime.ofTimestamp? (ofLex c).1 with
  | some time => encodeCursor time (ofLex c).2
  | none => ""

/-- A page as the endpoint writes it. -/
def reply (p : Page TrainingSample (Int ×ₗ Int)) : TrainingDataPage :=
  ⟨p.rows.map TrainingSampleOut.modelValidate, p.next.map cursorText⟩

/-- A page with the objects that a session makes of its rows. -/
def loadPage {κ : Type} [DecidableEq κ] (identity : TrainingSample → κ)
    (p : Page TrainingSample (Int ×ₗ Int)) : Page TrainingSample (Int ×ₗ Int) :=
  { p with rows := IdentityMap.load identity p.rows }

/-- A cursor whose time is a `datetime`. -/
def FitCursor (cursor : Option (Int ×ₗ Int)) : Prop :=
  ∀ c ∈ cursor, fitsDatetime (ofLex c).1 = true

/-- A time in the range of `datetime` is one, and its offset is kept. -/
private theorem exists_datetime {t : Timestamp} (h : fitsDatetime t = true) :
    ∃ time, Datetime.ofTimestamp? t = some time ∧ time.OffsetKept := by
  unfold fitsDatetime at h
  rw [Bool.and_eq_true, decide_eq_true_eq, decide_eq_true_eq] at h
  obtain ⟨time, htime, hutc⟩ := Datetime.exists_ofTimestamp h.1 h.2
  refine ⟨time, htime, fun offset hoffset => .inl ?_⟩
  rw [hutc] at hoffset
  exact (Option.some.inj hoffset).symm

/-- The endpoint decodes the cursor that an earlier page carried. -/
private theorem cursorKey_cursorText (numerals : Numerals) (args : ExportArgs)
    {cursor : Option (Int ×ₗ Int)} (hfit : FitCursor cursor) :
    (args.query (cursor.map cursorText)).cursorKey numerals = .ok (cursor.map ofLex) := by
  cases cursor with
  | none => rfl
  | some c =>
    obtain ⟨time, htime, hkept⟩ := exists_datetime (hfit c rfl)
    show (decodeCursor numerals (cursorText c)).map _ = _
    unfold cursorText
    simp only [htime]
    rw [decodeCursor_encodeCursor numerals hkept]
    show Except.ok (some (time.timestamp, (ofLex c).2)) = _
    rw [Datetime.timestamp_of_ofTimestamp htime]
    rfl

/-- A page is rendered from its rows, and the next cursor from the last of them. -/
private theorem pageOf_eq {found : List TrainingSample} {pageSize : Nat}
    (hfit : ∀ t ∈ found, fitsDatetime t.time = true) :
    pageOf found pageSize = .ok (reply
      { rows := found.take pageSize
        next := if pageSize < found.length then
            (found.take pageSize).getLast?.map TrainingSample.orderKey
          else none }) := by
  unfold pageOf reply
  dsimp only
  split
  · cases hlast : (found.take pageSize).getLast? with
    | none => rfl
    | some last =>
      obtain ⟨time, htime, -⟩ :=
        exists_datetime (hfit last (List.mem_of_mem_take (List.mem_of_getLast? hlast)))
      have htext : cursorText last.orderKey = encodeCursor time last.receiverId := by
        unfold cursorText
        show (match Datetime.ofTimestamp? last.time with
          | some time => encodeCursor time last.receiverId
          | none => "") = _
        rw [htime]
      simp only [htime, Option.map_some, htext]
  · rfl

section

variable {κ : Type} [DecidableEq κ] {identity : TrainingSample → κ}

/-- The page of what is loaded is the page of what was found, loaded. -/
private theorem reply_loadPage
    (hidentity : ∀ t t', identity t = identity t' → t.orderKey = t'.orderKey)
    (pageSize : Nat) (cursor : Option (Int ×ₗ Int)) (rows : List TrainingSample) :
    let found := (beyond TrainingSample.orderKey cursor rows).take (pageSize + 1)
    reply { rows := (IdentityMap.load identity found).take pageSize
            next := if pageSize < (IdentityMap.load identity found).length then
                ((IdentityMap.load identity found).take pageSize).getLast?.map
                  TrainingSample.orderKey
              else none } =
      reply (loadPage identity (page TrainingSample.orderKey pageSize cursor rows)) := by
  intro found
  -- an object has the key of the row that it stands for
  have hlast : (IdentityMap.load identity (found.take pageSize)).getLast?.map
      TrainingSample.orderKey = (found.take pageSize).getLast?.map TrainingSample.orderKey := by
    rw [← List.getLast?_map, IdentityMap.map_load hidentity, List.getLast?_map]
  rw [IdentityMap.take_load, IdentityMap.length_load, hlast]
  rfl

/-- Distinct keys are loaded as they are. -/
private theorem loadPage_eq_self {p : Page TrainingSample (Int ×ₗ Int)}
    (h : Ascending TrainingSample.orderKey p.rows) : loadPage TrainingSample.key p = p := by
  have hnodup : (p.rows.map TrainingSample.key).Nodup := by
    rw [List.nodup_iff_pairwise_ne, List.pairwise_map]
    exact h.imp fun hlt hsame => ne_of_lt hlt (congrArg toLex hsame)
  unfold loadPage
  rw [IdentityMap.load_eq_self (IdentityMap.unambiguous_of_nodup hnodup)]

end

section

variable {args : ExportArgs} {faults : ExportStatement → Option DBAPIError} {db : LabelDb}

/-- The statement selects the first rows past the cursor, one more than the page. -/
theorem ExportArgs.Accepted.select_eq (h : args.Accepted) {k : ExportStatement}
    (hfault : faults k = none) {cursor : Option (Int ×ₗ Int)} (hfit : FitCursor cursor)
    (text : Option String) (rows : List TrainingSample) :
    (args.query text).select (cursor.map ofLex) k faults rows =
      .ok ((beyond TrainingSample.orderKey cursor (args.selected rows)).take
        (args.pageSize.toNat + 1)) := by
  have hcursor : (cursor.map ofLex).all (fitsDatetime ·.1) = true := by
    cases cursor with
    | none => rfl
    | some c => exact hfit c rfl
  unfold TrainingDataQuery.select
  rw [hfault, ← trainingQuery_eq]
  show (if (fitsDatetime args.timeStart && fitsDatetime args.timeEnd &&
    (cursor.map ofLex).all (fitsDatetime ·.1)) = true then _ else _) = _
  rw [h.timeStart, h.timeEnd, hcursor]
  rfl

/-- So does the query, but for the rows that the identity map merges. -/
theorem ExportArgs.Accepted.samples_eq (h : args.Accepted)
    (hreadable : faults .selectTrainingSamples = none) {cursor : Option (Int ×ₗ Int)}
    (hfit : FitCursor cursor) (text : Option String) :
    (args.query text).samples (cursor.map ofLex) faults db =
      .ok (IdentityMap.load TrainingSample.key
        ((beyond TrainingSample.orderKey cursor (args.matching db)).take
          (args.pageSize.toNat + 1))) := by
  unfold TrainingDataQuery.samples
  rw [h.select_eq hreadable hfit, ← ExportArgs.matching_eq]

/-- A room list that is not empty and a page size in its range are valid. -/
private theorem ExportArgs.validate_eq {args : ExportArgs} (hlist : args.roomList ≠ [])
    (hmin : 1 ≤ args.pageSize) (hmax : args.pageSize ≤ maxPageSize) (text : Option String) :
    (args.query text).validate = .ok () := by
  have hrooms : ¬ (",".intercalate args.rooms).length < 1 := by
    intro hlt
    have hempty : ",".intercalate args.rooms = "" := by
      rw [← String.length_eq_zero_iff]
      omega
    apply hlist
    rw [ExportArgs.roomList, hempty]
    decide
  unfold TrainingDataQuery.validate ExportArgs.query
  dsimp only
  rw [if_neg hrooms, if_neg (by omega), if_neg (by omega)]

/-- An accepted export passes the validation. -/
private theorem ExportArgs.Accepted.validate_eq (h : args.Accepted) (text : Option String) :
    (args.query text).validate = .ok () :=
  ExportArgs.validate_eq h.rooms h.pageSize h.maxPageSize text

/-- A request answers with a page of the rows that its `SELECT` finds, if it can be rendered. -/
theorem getTrainingData_of_samples {κ : Type} [DecidableEq κ] {identity : TrainingSample → κ}
    (hidentity : ∀ t t', identity t = identity t' → t.orderKey = t'.orderKey)
    (numerals : Numerals) (h : args.Accepted) {cursor : Option (Int ×ₗ Int)}
    (hfit : FitCursor cursor) {rows : List TrainingSample}
    (hsamples : (args.query (cursor.map cursorText)).samples (cursor.map ofLex) faults db =
      .ok (IdentityMap.load identity
        ((beyond TrainingSample.orderKey cursor (args.selected rows)).take
          (args.pageSize.toNat + 1)))) :
    getTrainingData numerals (args.query (cursor.map cursorText)) faults db =
      (reply (loadPage identity (page TrainingSample.orderKey args.pageSize.toNat cursor
        (args.selected rows)))).render := by
  -- the window, the rooms and their number pass the endpoint's checks
  have hwindow : ¬ args.timeEnd ≤ args.timeStart := by
    have hlt := h.window
    show ¬ (args.timeEnd : Int) ≤ args.timeStart
    exact not_le.mpr hlt
  have hrooms : roomList (args.query (cursor.map cursorText)).rooms ≠ [] := h.rooms
  have hmany : ¬ maxRooms < (roomList (args.query (cursor.map cursorText)).rooms).length :=
    not_lt.mpr h.maxRooms
  -- the rows found are of representable times
  have hfound : ∀ t ∈ IdentityMap.load identity
      ((beyond TrainingSample.orderKey cursor (args.selected rows)).take
        (args.pageSize.toNat + 1)), fitsDatetime t.time = true := fun t ht =>
    h.fitsDatetime_of_mem
      (List.mem_filter.mp (List.mem_of_mem_take (IdentityMap.mem_of_mem_load ht))).1
  -- what is left is the page and its rendering
  unfold getTrainingData
  rw [h.validate_eq, cursorKey_cursorText numerals args hfit, if_neg hrooms, if_neg hmany]
  show (if args.timeEnd ≤ args.timeStart then _ else _) = _
  rw [if_neg hwindow]
  show ((args.query _).samples (cursor.map ofLex) faults db >>= _) = _
  rw [hsamples]
  show (pageOf _ args.pageSize.toNat >>= _) = _
  rw [pageOf_eq hfound, reply_loadPage hidentity]
  rfl

/-- A request answers with a page of the matching rows, if it can be rendered. -/
theorem getTrainingData_eq (numerals : Numerals) (h : args.Accepted)
    (hreadable : faults .selectTrainingSamples = none) {cursor : Option (Int ×ₗ Int)}
    (hfit : FitCursor cursor) :
    getTrainingData numerals (args.query (cursor.map cursorText)) faults db =
      (reply (page TrainingSample.orderKey args.pageSize.toNat cursor
        (args.matching db))).render := by
  rw [getTrainingData_of_samples (fun _ _ hkey => congrArg toLex hkey) numerals h hfit
    (h.samples_eq hreadable hfit _)]
  -- the key of `training_samples` is unique
  have hkeys : Ascending TrainingSample.orderKey
      (page TrainingSample.orderKey args.pageSize.toNat cursor (args.matching db)).rows := by
    rw [page_rows]
    exact (args.ascending_matching db).beyond.take
  rw [← ExportArgs.matching_eq, loadPage_eq_self hkeys]

/-- A query that passes the validation has a page size in its range. -/
private theorem pageSize_of_validate {q : TrainingDataQuery} {u : Unit} (h : q.validate = .ok u) :
    1 ≤ q.pageSize ∧ q.pageSize ≤ maxPageSize := by
  unfold TrainingDataQuery.validate at h
  split at h
  · cases h
  · split at h
    · cases h
    · split at h
      · cases h
      · omega

/-- A statement that was executed had a time range that fits `datetime`. -/
private theorem fits_of_select {q : TrainingDataQuery} {cursor : Option (Timestamp × Int)}
    {k : ExportStatement} {rows samples : List TrainingSample}
    (h : q.select cursor k faults rows = .ok samples) :
    fitsDatetime q.timeStart = true ∧ fitsDatetime q.timeEnd = true := by
  unfold TrainingDataQuery.select at h
  cases hfault : faults k with
  | some exc => simp [hfault] at h
  | none =>
    by_cases hfits : (fitsDatetime q.timeStart && fitsDatetime q.timeEnd &&
        cursor.all (fitsDatetime ·.1)) = true
    · rw [Bool.and_eq_true, Bool.and_eq_true] at hfits
      exact hfits.1
    · simp [hfault, hfits] at h

/-- So had a query that was answered. -/
private theorem fits_of_samples {q : TrainingDataQuery} {cursor : Option (Timestamp × Int)}
    {samples : List TrainingSample} (h : q.samples cursor faults db = .ok samples) :
    fitsDatetime q.timeStart = true ∧ fitsDatetime q.timeEnd = true := by
  unfold TrainingDataQuery.samples at h
  cases hprimary : q.select cursor .selectTrainingSamples faults db.trainingSamples.rows with
  | ok found => exact fits_of_select hprimary
  | error exc =>
    simp only [hprimary] at h
    split at h
    · cases hfallback : q.select cursor .selectCsiSamples faults
          (db.csiSamples.filterMap CsiSample.labelled) with
      | ok found => exact fits_of_select hfallback
      | error exc' =>
        rw [hfallback] at h
        cases h
    · cases h

/-- The first request of an export is answered for accepted arguments only. -/
theorem accepted_of_getTrainingData {numerals : Numerals} {page : TrainingDataPage}
    (h : getTrainingData numerals (args.query none) faults db = .ok page) : args.Accepted := by
  unfold getTrainingData at h
  obtain ⟨u, hvalid, h⟩ := Except.bind_eq_ok.mp h
  -- every check of the endpoint raises, so an answered request has passed them
  by_cases hwindow : (args.query none).timeEnd ≤ (args.query none).timeStart
  · rw [if_pos hwindow] at h
    cases h
  by_cases hrooms : roomList (args.query none).rooms = []
  · rw [if_neg hwindow, if_pos hrooms] at h
    cases h
  by_cases hmany : maxRooms < (roomList (args.query none).rooms).length
  · rw [if_neg hwindow, if_neg hrooms, if_pos hmany] at h
    cases h
  rw [if_neg hwindow, if_neg hrooms, if_neg hmany] at h
  -- the cursor was decoded and the query was executed
  obtain ⟨cursor, -, h⟩ := Except.bind_eq_ok.mp h
  obtain ⟨samples, hsamples, -⟩ := Except.bind_eq_ok.mp h
  obtain ⟨hpos, hmax⟩ := pageSize_of_validate hvalid
  obtain ⟨hstart, hend⟩ := fits_of_samples hsamples
  exact
    { window := not_le.mp hwindow
      timeStart := hstart
      timeEnd := hend
      rooms := hrooms
      maxRooms := not_lt.mp hmany
      pageSize := hpos
      maxPageSize := hmax }

end

/-! ## The client's loop -/

/-- The element behind the longest prefix of a property does not have it. -/
private theorem exists_getElem?_length_takeWhile {α : Type} {p : α → Bool} {l : List α}
    (h : ∃ a ∈ l, p a = false) : ∃ a, l[(l.takeWhile p).length]? = some a ∧ p a = false := by
  induction l with
  | nil =>
    obtain ⟨a, ha, -⟩ := h
    cases ha
  | cons b l ih =>
    cases hb : p b with
    | false => exact ⟨b, by simp [hb], hb⟩
    | true =>
      obtain ⟨a, ha, hpa⟩ := h
      have hin : a ∈ l := by
        cases ha with
        | head => rw [hb] at hpa; cases hpa
        | tail _ hin => exact hin
      rw [List.takeWhile_cons_of_pos hb]
      exact ih ⟨a, hin, hpa⟩

/-- The client yields the replies up to the first one that cannot be rendered. -/
structure Reads (replies : List TrainingDataPage) (complete : Prop) (e : Export) : Prop where
  pages : e.pages = replies.takeWhile (·.isFinite)
  finished : e.ending = .finished ↔ complete ∧ ∀ page ∈ replies, page.isFinite = true
  failed : ∀ failure, e.ending = .failed failure ↔
    failure = notCompliant ∧ ∃ page ∈ replies, page.isFinite = false

/-- A page of finite floats is rendered. -/
theorem render_of_isFinite {page : TrainingDataPage} (h : page.isFinite = true) :
    page.render = .ok page := by
  rw [TrainingDataPage.render, if_pos h]

/-- A page with any other float is a 500. -/
private theorem render_of_not_isFinite {page : TrainingDataPage} (h : page.isFinite = false) :
    page.render = .error notCompliant := by
  rw [TrainingDataPage.render, h]
  rfl

section

variable {replies : List TrainingDataPage} {complete : Prop} {e : Export}
  {page : TrainingDataPage}

/-- No request was made. -/
private theorem reads_nil (h : ¬complete) : Reads [] complete ⟨[], .running⟩ where
  pages := rfl
  finished := iff_of_false Ending.noConfusion fun hcomplete => h hcomplete.1
  failed failure := by simp

/-- The last page is refused or ends the export. -/
theorem Reads.last (hlast : complete) (hpage : page.isFinite = true) :
    Reads [page] complete ⟨[page], .finished⟩ where
  pages := by simp [hpage]
  finished := by simp [hlast, hpage]
  failed failure := by simp [hpage]

/-- A page that cannot be rendered ends the export. -/
theorem Reads.refused (hpage : page.isFinite = false) :
    Reads (page :: replies) complete ⟨[], .failed notCompliant⟩ where
  pages := by simp [hpage]
  finished := by simp [hpage]
  failed failure := by
    simp only [Ending.failed.injEq, List.mem_cons, exists_eq_or_imp, hpage, true_or, and_true]
    exact eq_comm

/-- A page before others. -/
theorem Reads.cons (h : Reads replies complete e) (hpage : page.isFinite = true) :
    Reads (page :: replies) complete ⟨page :: e.pages, e.ending⟩ where
  pages := by rw [List.takeWhile_cons_of_pos hpage, h.pages]
  finished := by simp [h.finished, hpage]
  failed failure := by simp [h.failed, hpage]

/-- Nothing is lost of an export that is finished. -/
theorem Reads.pages_of_finished (h : Reads replies complete e) (hfinished : e.ending = .finished) :
    e.pages = replies := by
  rw [h.pages, List.takeWhile_eq_self_iff]
  exact (h.finished.mp hfinished).2

/-- The pages that are yielded are the first ones. -/
theorem Reads.getElem? (h : Reads replies complete e) {i : Nat} (hpage : e.pages[i]? = some page) :
    replies[i]? = some page := by
  rw [h.pages] at hpage
  obtain ⟨rest, hrest⟩ := List.takeWhile_prefix (l := replies) (·.isFinite)
  rw [← hrest, List.getElem?_append_left (List.getElem?_eq_some_iff.mp hpage).1, hpage]

/-- An export that has failed met a page that cannot be rendered. -/
private theorem Reads.exists_of_failed (h : Reads replies complete e) {failure : Failure}
    (hfailed : e.ending = .failed failure) :
    ∃ page, replies[e.pages.length]? = some page ∧ page.isFinite = false := by
  rw [h.pages]
  exact exists_getElem?_length_takeWhile ((h.failed failure).mp hfailed).2

/-- What is yielded has been rendered. -/
theorem Reads.isFinite_of_mem (h : Reads replies complete e) {row : TrainingSampleOut}
    (hrow : row ∈ e.rows) : row.isFinite = true := by
  obtain ⟨page, hpage, hin⟩ := List.mem_flatMap.mp hrow
  rw [h.pages] at hpage
  have hfinite : page.isFinite = true := List.mem_takeWhile_imp hpage
  exact List.all_eq_true.mp hfinite row hin

/-- A read that is complete is finished or has failed. -/
theorem Reads.ended (h : Reads replies complete e) (hcomplete : complete) :
    e.ending = .finished ∨ e.ending = .failed notCompliant := by
  by_cases hfinite : ∀ page ∈ replies, page.isFinite = true
  · exact .inl (h.finished.mpr ⟨hcomplete, hfinite⟩)
  · push Not at hfinite
    obtain ⟨page, hpage, hnot⟩ := hfinite
    exact .inr ((h.failed _).mpr ⟨rfl, page, hpage, Bool.eq_false_iff.mpr hnot⟩)

end

section

variable {serve : Nat → Option String → Except Failure TrainingDataPage} {n : Nat}
  {view : Nat → List TrainingSample}
  (load : Page TrainingSample (Int ×ₗ Int) → Page TrainingSample (Int ×ₗ Int))

/-- The client reads the pages in turn, and stops at one without a cursor. -/
theorem exportFrom_reads (hload : ∀ p, (load p).next = p.next)
    (hserve : ∀ k cursor, FitCursor cursor → serve k (cursor.map cursorText) =
      (reply (load (page TrainingSample.orderKey n cursor (view k)))).render)
    (hview : ∀ k, ∀ t ∈ view k, fitsDatetime t.time = true) (fuel k : Nat)
    {cursor : Option (Int ×ₗ Int)} (hfit : FitCursor cursor) :
    Reads ((pages TrainingSample.orderKey n view fuel k cursor).map fun p => reply (load p))
      (Complete (pages TrainingSample.orderKey n view fuel k cursor))
      (exportFrom serve fuel k (cursor.map cursorText)) := by
  -- by induction on the fuel, which every page uses up by one
  induction fuel generalizing k cursor with
  | zero =>
    refine reads_nil ?_
    rintro ⟨p, hp, -⟩
    cases hp
  | succ fuel ih =>
    have hstep := hserve k cursor hfit
    -- the next cursor is that of the page, whatever the identity map has merged
    have hcursor : (reply (load (page TrainingSample.orderKey n cursor (view k)))).nextCursor =
        (page TrainingSample.orderKey n cursor (view k)).next.map cursorText := by
      rw [reply, hload]
    cases hfinite :
        (reply (load (page TrainingSample.orderKey n cursor (view k)))).isFinite with
    -- a page that is not rendered ends the export with an error
    | false =>
      rw [render_of_not_isFinite hfinite] at hstep
      have hexport : exportFrom serve (fuel + 1) k (cursor.map cursorText) =
          ⟨[], .failed notCompliant⟩ := by
        rw [exportFrom]
        simp only [hstep]
      rw [hexport, pages]
      split
      · exact Reads.refused hfinite
      · exact Reads.refused hfinite
    -- a page that is rendered is yielded, and followed while there is a cursor
    | true =>
      rw [render_of_isFinite hfinite] at hstep
      cases hnext : (page TrainingSample.orderKey n cursor (view k)).next with
      | none =>
        rw [hnext] at hcursor
        have hexport : exportFrom serve (fuel + 1) k (cursor.map cursorText) =
            ⟨[reply (load (page TrainingSample.orderKey n cursor (view k)))], .finished⟩ := by
          rw [exportFrom]
          simp only [hstep, hcursor, Option.map_none]
        rw [pages_of_none hnext, hexport]
        exact Reads.last ⟨_, rfl, hnext⟩ hfinite
      | some c =>
        rw [hnext] at hcursor
        -- the cursor is that of a row, so its time fits
        have hfitNext : FitCursor (some c) := by
          intro d hd
          obtain ⟨last, hlast, hkey⟩ := getLast?_of_page_next hnext
          obtain rfl : c = d := Option.some.inj hd
          rw [← hkey]
          exact hview k last (mem_of_mem_page (List.mem_of_getLast? hlast)).1
        -- the endpoint decodes the cursor it sent, so the next request is for the next page
        have hexport : exportFrom serve (fuel + 1) k (cursor.map cursorText) =
            ⟨reply (load (page TrainingSample.orderKey n cursor (view k))) ::
              (exportFrom serve fuel (k + 1) (some (cursorText c))).pages,
              (exportFrom serve fuel (k + 1) (some (cursorText c))).ending⟩ := by
          rw [exportFrom]
          simp only [hstep, hcursor, Option.map_some]
        rw [pages_of_some hnext, complete_cons hnext, hexport, List.map_cons]
        exact (ih (k + 1) hfitNext).cons hfinite

end

section

variable (numerals : Numerals) {args : ExportArgs} {faults : ExportStatement → Option DBAPIError}

/-- The pages of the matching rows. -/
def ExportArgs.readPages (args : ExportArgs) (dbs : Nat → LabelDb) (fuel : Nat) :
    List (Page TrainingSample (Int ×ₗ Int)) :=
  pages TrainingSample.orderKey args.pageSize.toNat (fun k => args.matching (dbs k)) fuel 0 none

/-- An export is a seek-paged read of the matching rows. -/
private theorem iterTrainingData_reads (h : args.Accepted)
    (hreadable : faults .selectTrainingSamples = none) (dbs : Nat → LabelDb) (fuel : Nat) :
    Reads ((args.readPages dbs fuel).map reply) (Complete (args.readPages dbs fuel))
      (iterTrainingData numerals args faults dbs fuel) := by
  have hfit : FitCursor none := by
    intro c hc
    cases hc
  have hserve : ∀ k cursor, FitCursor cursor →
      getTrainingData numerals (args.query (cursor.map cursorText)) faults (dbs k) =
        (reply (id (page TrainingSample.orderKey args.pageSize.toNat cursor
          (args.matching (dbs k))))).render :=
    fun _ _ hfit => getTrainingData_eq numerals h hreadable hfit
  exact exportFrom_reads id (fun _ => rfl) hserve (fun _ _ ht => h.fitsDatetime_of_mem ht) fuel
    0 hfit

/-- Other arguments are refused with the first request. -/
theorem iterTrainingData_of_not_accepted (h : ¬ args.Accepted) (dbs : Nat → LabelDb)
    (fuel : Nat) :
    (iterTrainingData numerals args faults dbs fuel).pages = [] ∧
      (iterTrainingData numerals args faults dbs fuel).ending ≠ .finished := by
  cases fuel with
  | zero => exact ⟨rfl, Ending.noConfusion⟩
  | succ fuel =>
    unfold iterTrainingData exportFrom
    cases hpage : getTrainingData numerals (args.query none) faults (dbs 0) with
    | error failure => exact ⟨rfl, Ending.noConfusion⟩
    | ok page => exact absurd (accepted_of_getTrainingData hpage) h

/-! ## What an export yields -/

/-- The rows of the pages that were asked for, of which the export may yield the first ones
    only. -/
theorem flatMap_reply (ps : List (Page TrainingSample (Int ×ₗ Int))) :
    (ps.map reply).flatMap (·.rows) =
      (SeekPaging.rows ps).map TrainingSampleOut.modelValidate := by
  induction ps with
  | nil => rfl
  | cons p ps ih =>
    rw [List.map_cons, List.flatMap_cons, ih]
    show _ = ((p.rows ++ SeekPaging.rows ps).map _)
    rw [List.map_append]
    rfl

/-- The rows yielded are, in order, the first of those the pages held. -/
private theorem rows_prefix_readPages (h : args.Accepted)
    (hreadable : faults .selectTrainingSamples = none) (dbs : Nat → LabelDb) (fuel : Nat) :
    (iterTrainingData numerals args faults dbs fuel).rows <+:
      (SeekPaging.rows (args.readPages dbs fuel)).map TrainingSampleOut.modelValidate := by
  rw [Export.rows, (iterTrainingData_reads numerals h hreadable dbs fuel).pages, ← flatMap_reply]
  exact (List.takeWhile_prefix _).flatMap _

/-- A finished export has yielded all of them. -/
private theorem rows_of_finished (h : args.Accepted)
    (hreadable : faults .selectTrainingSamples = none) {dbs : Nat → LabelDb} {fuel : Nat}
    (hfinished : (iterTrainingData numerals args faults dbs fuel).ending = .finished) :
    (iterTrainingData numerals args faults dbs fuel).rows =
      (SeekPaging.rows (args.readPages dbs fuel)).map TrainingSampleOut.modelValidate := by
  rw [Export.rows,
    (iterTrainingData_reads numerals h hreadable dbs fuel).pages_of_finished hfinished,
    flatMap_reply]

/-- The keys that are yielded are strictly increasing. -/
theorem pairwise_export (hreadable : faults .selectTrainingSamples = none)
    (dbs : Nat → LabelDb) (fuel : Nat) :
    ((iterTrainingData numerals args faults dbs fuel).rows.map
      fun row => toLex row.key).Pairwise (· < ·) := by
  by_cases h : args.Accepted
  · have hall : (((SeekPaging.rows (args.readPages dbs fuel)).map
        TrainingSampleOut.modelValidate).map fun row => toLex row.key).Pairwise (· < ·) := by
      rw [List.map_map]
      exact List.pairwise_map.mpr (ascending_rows (fun k => args.ascending_matching (dbs k))
        fuel 0 none)
    exact hall.sublist ((rows_prefix_readPages numerals h hreadable dbs fuel).map _).sublist
  · rw [Export.rows, (iterTrainingData_of_not_accepted numerals h dbs fuel).1]
    exact .nil

/-- A page that was asked for shows rows that match the filter at its request. -/
private theorem matching_of_mem_reply {dbs : Nat → LabelDb} {fuel i : Nat} {p : TrainingDataPage}
    (hp : ((args.readPages dbs fuel).map reply)[i]? = some p) {row : TrainingSampleOut}
    (hrow : row ∈ p.rows) : ∃ t ∈ args.matching (dbs i), row = .modelValidate t := by
  rw [List.getElem?_map] at hp
  obtain ⟨q, hq, rfl⟩ := Option.map_eq_some_iff.mp hp
  obtain ⟨cursor, rfl⟩ := exists_page hq
  obtain ⟨t, ht, rfl⟩ := List.mem_map.mp hrow
  refine ⟨t, ?_, rfl⟩
  have hmem := (mem_of_mem_page ht).1
  rwa [Nat.zero_add] at hmem

/-- The rows of a page match the filter when the page is requested. -/
theorem matching_of_mem_page (hreadable : faults .selectTrainingSamples = none)
    {dbs : Nat → LabelDb} {fuel i : Nat} {p : TrainingDataPage}
    (hp : (iterTrainingData numerals args faults dbs fuel).pages[i]? = some p)
    {row : TrainingSampleOut} (hrow : row ∈ p.rows) :
    ∃ t ∈ args.matching (dbs i), row = .modelValidate t := by
  by_cases h : args.Accepted
  · exact matching_of_mem_reply
      ((iterTrainingData_reads numerals h hreadable dbs fuel).getElem? hp) hrow
  · rw [(iterTrainingData_of_not_accepted numerals h dbs fuel).1] at hp
    cases hp

/-- A key that matches at every request of a finished export is yielded once. -/
theorem count_of_present (hreadable : faults .selectTrainingSamples = none)
    {dbs : Nat → LabelDb} {fuel : Nat}
    (hfinished : (iterTrainingData numerals args faults dbs fuel).ending = .finished)
    {x : Timestamp × Int}
    (hpresent : ∀ k < (iterTrainingData numerals args faults dbs fuel).pages.length,
      ∃ t ∈ args.matching (dbs k), t.key = x) :
    ((iterTrainingData numerals args faults dbs fuel).rows.map
      TrainingSampleOut.key).count x = 1 := by
  by_cases h : args.Accepted
  -- the pages of a finished export are those of a complete read
  · have hreads := iterTrainingData_reads numerals h hreadable dbs fuel
    apply List.count_eq_one_of_mem
    · -- strictly increasing keys are distinct
      have hlex : (iterTrainingData numerals args faults dbs fuel).rows.Pairwise
          fun row row' => toLex row.key < toLex row'.key :=
        List.pairwise_map.mp (pairwise_export numerals hreadable dbs fuel)
      rw [List.nodup_iff_pairwise_ne, List.pairwise_map]
      exact hlex.imp fun hlt heq => ne_of_lt hlt (congrArg toLex heq)
    -- a row that is there for every page is on one of them
    · rw [hreads.pages_of_finished hfinished, List.length_map] at hpresent
      obtain ⟨t, ht, hkey⟩ := mem_rows_of_present (x := toLex x) h.pageSize_pos
        (fun k => (args.ascending_matching (dbs k)).sorted) (hreads.finished.mp hfinished).1
        (fun _ hc => by cases hc) (by
          intro i hi
          obtain ⟨t, ht, rfl⟩ := hpresent i hi
          exact ⟨t, by rwa [Nat.zero_add], rfl⟩)
      rw [rows_of_finished numerals h hreadable hfinished, List.map_map]
      exact List.mem_map.mpr ⟨t, ht, toLex.injective hkey⟩
  -- an export that is not accepted does not finish
  · exact absurd hfinished (iterTrainingData_of_not_accepted numerals h dbs fuel).2

/-! ## The end of an export -/

/-- All floats of the row are finite. -/
def TrainingSample.isFinite (t : TrainingSample) : Bool :=
  (TrainingSampleOut.modelValidate t).isFinite

/-- The export is finished, or the page that it asks for next shows a float that JSON does not
    have. -/
def Ended (args : ExportArgs) (dbs : Nat → LabelDb) (e : Export) : Prop :=
  e.ending = .finished ∨ e.ending = .failed notCompliant ∧
    ∃ t ∈ args.matching (dbs e.pages.length), t.isFinite = false

/-- A complete read ends so. -/
private theorem ended_of_complete (h : args.Accepted)
    (hreadable : faults .selectTrainingSamples = none)
    {dbs : Nat → LabelDb} {fuel : Nat} (hcomplete : Complete (args.readPages dbs fuel)) :
    Ended args dbs (iterTrainingData numerals args faults dbs fuel) := by
  have hreads := iterTrainingData_reads numerals h hreadable dbs fuel
  refine (hreads.ended hcomplete).imp_right fun hfailed => ⟨hfailed, ?_⟩
  obtain ⟨page, hpage, hnot⟩ := hreads.exists_of_failed hfailed
  obtain ⟨row, hrow, hinfinite⟩ := List.all_eq_false.mp hnot
  obtain ⟨t, ht, rfl⟩ := matching_of_mem_reply hpage hrow
  exact ⟨t, ht, Bool.eq_false_iff.mpr hinfinite⟩

/-- An export ends when all keys that it can meet are among finitely many. -/
private theorem exists_fuel_of_keys (h : args.Accepted)
    (hreadable : faults .selectTrainingSamples = none) {dbs : Nat → LabelDb}
    (keys : Finset (Int ×ₗ Int)) (hkeys : ∀ k, ∀ t ∈ args.matching (dbs k), t.orderKey ∈ keys) :
    ∃ enough, ∀ fuel ≥ enough,
      Ended args dbs (iterTrainingData numerals args faults dbs fuel) := by
  refine ⟨(keys.filter (Beyond none)).card + 1, fun fuel hfuel => ?_⟩
  exact ended_of_complete numerals h hreadable (complete_of_card hkeys 0 hfuel)

section

variable {dbs : Nat → LabelDb} {db : LabelDb}

/-- On a table that does not change, the pages are those of one list. -/
private theorem readPages_of_constant
    (hconstant : ∀ k, (dbs k).trainingSamples = db.trainingSamples)
    (fuel : Nat) : args.readPages dbs fuel = pages TrainingSample.orderKey args.pageSize.toNat
      (fun _ => args.matching db) fuel 0 none := by
  have hview : (fun k => args.matching (dbs k)) = fun _ => args.matching db := by
    funext k
    rw [ExportArgs.matching, hconstant k]
    rfl
  rw [ExportArgs.readPages, hview]

/-- An export of a table that does not change is a prefix of all that matches. -/
theorem export_prefix_of_constant (h : args.Accepted)
    (hreadable : faults .selectTrainingSamples = none)
    (hconstant : ∀ k, (dbs k).trainingSamples = db.trainingSamples) (fuel : Nat) :
    (iterTrainingData numerals args faults dbs fuel).rows <+:
      (args.matching db).map TrainingSampleOut.modelValidate := by
  refine (rows_prefix_readPages numerals h hreadable dbs fuel).trans (List.IsPrefix.map _ ?_)
  rw [readPages_of_constant hconstant]
  have hprefix := rows_prefix_of_constant (n := args.pageSize.toNat) (args.ascending_matching db)
    fuel 0 none
  rwa [beyond_none] at hprefix

/-- A finished one is all that matches. -/
theorem export_rows_of_constant (h : args.Accepted)
    (hreadable : faults .selectTrainingSamples = none)
    (hconstant : ∀ k, (dbs k).trainingSamples = db.trainingSamples) {fuel : Nat}
    (hfinished : (iterTrainingData numerals args faults dbs fuel).ending = .finished) :
    (iterTrainingData numerals args faults dbs fuel).rows =
      (args.matching db).map TrainingSampleOut.modelValidate := by
  have hcomplete := ((iterTrainingData_reads numerals h hreadable dbs fuel).finished.mp
    hfinished).1
  rw [rows_of_finished numerals h hreadable hfinished, readPages_of_constant hconstant]
  rw [readPages_of_constant hconstant] at hcomplete
  rw [SeekPaging.rows_of_constant h.pageSize_pos (args.ascending_matching db) hcomplete,
    beyond_none]

/-- With enough requests it is finished exactly when all rows that match are finite, and has
    failed otherwise. -/
private theorem exists_fuel_of_constant (h : args.Accepted)
    (hreadable : faults .selectTrainingSamples = none)
    (hconstant : ∀ k, (dbs k).trainingSamples = db.trainingSamples) :
    ∃ enough, ∀ fuel ≥ enough,
      Ended args dbs (iterTrainingData numerals args faults dbs fuel) ∧
      ((iterTrainingData numerals args faults dbs fuel).ending = .finished ↔
        ∀ t ∈ args.matching db, t.isFinite = true) := by
  -- the selection of every page is the same
  have hmatching : ∀ k, args.matching (dbs k) = args.matching db := by
    intro k
    rw [ExportArgs.matching, hconstant k]
    rfl
  -- the keys of its rows bound the number of pages
  obtain ⟨enough, henough⟩ := exists_fuel_of_keys numerals h hreadable
    ((args.matching db).map (·.orderKey)).toFinset (by
      intro k t ht
      rw [hmatching] at ht
      exact List.mem_toFinset.mpr (List.mem_map_of_mem ht))
  refine ⟨enough, fun fuel hfuel => ⟨henough fuel hfuel, fun hfinished t ht => ?_,
    fun hfinite => ?_⟩⟩
  · -- every row that matches is on a page, and all pages were rendered
    have hreads := iterTrainingData_reads numerals h hreadable dbs fuel
    have hrow : .modelValidate t ∈ (iterTrainingData numerals args faults dbs fuel).rows := by
      rw [export_rows_of_constant numerals h hreadable hconstant hfinished]
      exact List.mem_map_of_mem ht
    obtain ⟨page, hpage, hin⟩ := List.mem_flatMap.mp hrow
    rw [hreads.pages_of_finished hfinished] at hpage
    exact List.all_eq_true.mp ((hreads.finished.mp hfinished).2 page hpage) _ hin
  -- if all rows are finite, no page is refused
  · refine (henough fuel hfuel).resolve_right ?_
    rintro ⟨-, t, ht, hnot⟩
    rw [hmatching] at ht
    rw [hfinite t ht] at hnot
    cases hnot

end

end

/-- The exports of a table that does not change and is readable. -/
def exportOf (numerals : Numerals) (args : ExportArgs) (db : LabelDb) (fuel : Nat) : Export :=
  iterTrainingData numerals args (fun _ => none) (fun _ => db) fuel

/-- With enough requests it is finished exactly when the rows that match are finite. -/
theorem exists_fuel_exportOf (numerals : Numerals) {args : ExportArgs} (h : args.Accepted)
    (db : LabelDb) : ∃ enough, ∀ fuel ≥ enough,
      Ended args (fun _ => db) (exportOf numerals args db fuel) ∧
      ((exportOf numerals args db fuel).ending = .finished ↔
        ∀ t ∈ args.matching db, t.isFinite = true) :=
  exists_fuel_of_constant numerals h rfl fun _ => rfl

/-! ## Exactness -/

/-- An export of the kitchen, two rows a page. -/
def kitchenExport : ExportArgs := ⟨0, 100, ["kitchen"], 2⟩

/-- The example's export is accepted. -/
theorem accepted_kitchenExport : kitchenExport.Accepted :=
  ⟨by decide, by decide, by decide, by decide, by decide, by decide, by decide⟩

/-- Numerals, for documents that have none. -/
def noNumerals : Numerals := ⟨fun _ => 0, fun _ => none, fun _ => none⟩

end Grimnir
