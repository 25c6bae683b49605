import Grimnir.Native.JobSystem
import Grimnir.Native.TrainingStream
import Grimnir.Spec.ExportExact
import Grimnir.Spec.RoomEffects

/-!
# Room names in the query string

A job's rooms cross HTTP as one string, joined and split at commas.  The validators strip a
name and refuse an empty one, so a name survives the way exactly when it has no comma.

## Key results

- `notMem_of_mem_splitOn`: no piece contains the separator
- `createJob_ok`: what an accepted job says about its rooms
- `roomsSurvive_iff`: exactly when the endpoint reads the rooms of the job
-/

namespace Grimnir

/-! ## Splitting -/

theorem notMem_of_mem_splitOn {α : Type} [DecidableEq α] {a : α} {xs piece : List α}
    (h : piece ∈ xs.splitOn a) : a ∉ piece := by
  -- the induction is on the text: a separator opens an empty piece
  induction xs generalizing piece with
  | nil =>
    rw [List.splitOn_nil, List.mem_singleton] at h
    rw [h]
    exact List.not_mem_nil
  | cons x xs ih =>
    rw [List.splitOn_cons_eq_if_modifyHead] at h
    split at h
    · rcases List.mem_cons.mp h with rfl | h
      · exact List.not_mem_nil
      · exact ih h
    · rename_i hx
      cases hpieces : xs.splitOn a with
      | nil => exact absurd hpieces (List.splitOn_ne_nil a xs)
      | cons head pieces =>
        rw [hpieces, List.modifyHead_cons] at h
        rw [hpieces] at ih
        rcases List.mem_cons.mp h with rfl | h
        · -- the new element goes to the first piece, and is no separator
          rw [List.mem_cons]
          rintro (rfl | hmem)
          · exact hx (beq_self_eq_true a)
          · exact ih List.mem_cons_self hmem
        · exact ih (List.mem_cons_of_mem _ h)

/-- No room that the endpoint reads has a comma. -/
private theorem comma_notMem_of_mem_roomList {rooms room : String} (h : room ∈ roomList rooms) :
    ',' ∉ room.toList := by
  obtain ⟨hmem, -⟩ := List.mem_filter.mp h
  obtain ⟨piece, hpiece, rfl⟩ := List.mem_map.mp hmem
  intro hcomma
  have hpieceComma := PyStr.mem_of_mem_strip hcomma
  rw [String.toList_ofList] at hpieceComma
  exact notMem_of_mem_splitOn hpiece hpieceComma

private theorem roomList_intercalate_iff {rooms : List String}
    (h : ∀ r ∈ rooms, PyStr.strip r = r ∧ r ≠ "") :
    roomList (",".intercalate rooms) = rooms ↔ ∀ r ∈ rooms, ',' ∉ r.toList := by
  constructor
  · intro hsame r hr
    rw [← hsame] at hr
    exact comma_notMem_of_mem_roomList hr
  · intro hclean
    exact roomList_intercalate fun r hr => ⟨(h r hr).1, (h r hr).2, hclean r hr⟩

/-! ## Accepted jobs -/

private theorem strip_of_notEmpty {field v : String} (h : notEmpty field v = .ok v) :
    PyStr.strip v = v ∧ v ≠ "" := by
  unfold notEmpty at h
  split at h
  · cases h
  · rename_i hne
    have hstrip : PyStr.strip v = v := Except.ok.inj h
    rw [hstrip] at hne
    exact ⟨hstrip, hne⟩

/-- An accepted job has a time range, and every room it names exists. -/
theorem createJob_ok {rooms : List Room} {spec : JobSpec} {now : Timestamp} {jobs : JobDb}
    {out : JobOut} (h : (createJob rooms spec now jobs).1 = .ok out) :
    spec.timeStart < spec.timeEnd ∧
      (∀ r ∈ spec.rooms, (rooms.map (·.name)).contains r = true) ∧ out.spec = spec.dump := by
  unfold createJob at h
  split at h
  · cases h
  · rename_i hrange
    dsimp only at h
    split at h
    · cases h
    · rename_i hknown
      cases h
      refine ⟨not_le.mp hrange, ?_, rfl⟩
      simpa [List.filter_eq_nil_iff] using hknown

/-! ## The request -/

/-- The row of `training_samples` is in the time range of the job, in one of its rooms. -/
def InJob (spec : SpecDoc) (t : TrainingSample) : Prop :=
  (Window.mk spec.timeStart spec.timeEnd).contains t.time = true ∧ t.label ∈ spec.rooms

instance (spec : SpecDoc) (t : TrainingSample) : Decidable (InJob spec t) :=
  inferInstanceAs (Decidable (_ ∧ _))

/-- The requests that `run_job` makes are for the rooms of the job. -/
structure RoomsSurvive (numerals : Numerals) (db : LabelDb) (spec : SpecDoc) : Prop where
  /-- The endpoint answers the first request with a page. -/
  accepted : ∃ page,
    getTrainingData numerals (spec.exportArgs.query none) (fun _ => none) db = .ok page
  /-- The list it decodes is the job's. -/
  roomList : Grimnir.roomList (spec.exportArgs.query none).rooms = spec.rooms
  /-- The export comes to its end and has the rows of the job. -/
  rows : ∃ enough, ∀ fuel ≥ enough,
    (exportOf numerals spec.exportArgs db fuel).ending = .finished ∧
      ∀ row, row ∈ (exportOf numerals spec.exportArgs db fuel).rows ↔
        ∃ t ∈ db.trainingSamples, InJob spec t ∧ row = .modelValidate t

/-- What the request of a job needs. -/
structure Requestable (db : LabelDb) (spec : SpecDoc) : Prop where
  noComma : ∀ r ∈ spec.rooms, ',' ∉ r.toList
  timeStart : fitsDatetime spec.timeStart = true
  timeEnd : fitsDatetime spec.timeEnd = true
  finite : ∀ t ∈ db.trainingSamples, InJob spec t → t.isFinite = true

/-- Without times out of range the arguments of the job are accepted. -/
private theorem accepted_exportArgs {spec : SpecDoc} (hrange : spec.timeStart < spec.timeEnd)
    (hrooms : spec.rooms ≠ []) (hmany : spec.rooms.length ≤ maxRooms)
    (hlist : roomList (",".intercalate spec.rooms) = spec.rooms)
    (hstart : fitsDatetime spec.timeStart = true) (hend : fitsDatetime spec.timeEnd = true) :
    spec.exportArgs.Accepted where
  window := hrange
  timeStart := hstart
  timeEnd := hend
  rooms := by
    show roomList (",".intercalate spec.rooms) ≠ []
    rw [hlist]
    exact hrooms
  maxRooms := by
    show (roomList (",".intercalate spec.rooms)).length ≤ maxRooms
    rw [hlist]
    exact hmany
  pageSize := by
    show (1 : Int) ≤ 2000
    decide
  maxPageSize := by
    show (2000 : Int) ≤ 5000
    decide

/-- The rows that match the request are the rows of the job. -/
private theorem matches_iff_inJob {spec : SpecDoc}
    (hlist : roomList (",".intercalate spec.rooms) = spec.rooms) (t : TrainingSample) :
    spec.exportArgs.matches t = true ↔ InJob spec t := by
  have hargs : spec.exportArgs.roomList = spec.rooms := hlist
  rw [ExportArgs.matches, hargs, Bool.and_eq_true, List.contains_iff_mem]
  exact Iff.rfl

/-- A request that needs nothing more is answered, with the rows of the job. -/
private theorem roomsSurvive_of_requestable (numerals : Numerals) {db : LabelDb} {spec : SpecDoc}
    (haccepted : spec.exportArgs.Accepted)
    (hlist : roomList (",".intercalate spec.rooms) = spec.rooms)
    (hfinite : ∀ t ∈ db.trainingSamples, InJob spec t → t.isFinite = true) :
    RoomsSurvive numerals db spec := by
  have hmatching : ∀ t ∈ spec.exportArgs.matching db, t.isFinite = true := by
    intro t ht
    obtain ⟨hmem, hmatch⟩ := ExportArgs.mem_matching.mp ht
    exact hfinite t hmem ((matches_iff_inJob hlist t).mp hmatch)
  -- the page is answered because it renders, the export ends because every page does
  refine ⟨?_, hlist, ?_⟩
  · have hfit : FitCursor none := fun c hc => by cases hc
    have hpage := @getTrainingData_eq spec.exportArgs (fun _ => none) db numerals haccepted rfl
      none hfit
    refine ⟨_, hpage.trans (render_of_isFinite (List.all_eq_true.mpr fun row hrow => ?_))⟩
    obtain ⟨t, ht, rfl⟩ := List.mem_map.mp hrow
    exact hmatching t (SeekPaging.mem_of_mem_page ht).1
  · obtain ⟨enough, henough⟩ := exists_fuel_exportOf numerals haccepted db
    refine ⟨enough, fun fuel hfuel => ?_⟩
    have hfinished := (henough fuel hfuel).2.mpr hmatching
    have hrows : (exportOf numerals spec.exportArgs db fuel).rows = _ :=
      export_rows_of_constant numerals haccepted rfl (fun _ => rfl) hfinished
    -- the rows of the finished export are those that match
    refine ⟨hfinished, fun row => ?_⟩
    rw [hrows, List.mem_map]
    constructor
    · rintro ⟨t, ht, rfl⟩
      obtain ⟨hmem, hmatch⟩ := ExportArgs.mem_matching.mp ht
      exact ⟨t, hmem, (matches_iff_inJob hlist t).mp hmatch, rfl⟩
    · rintro ⟨t, hmem, hin, rfl⟩
      exact ⟨t, ExportArgs.mem_matching.mpr ⟨hmem, (matches_iff_inJob hlist t).mpr hin⟩, rfl⟩

/-- The rows of a job whose export comes to its end are finite. -/
private theorem finite_of_roomsSurvive {numerals : Numerals} {db : LabelDb} {spec : SpecDoc}
    (h : RoomsSurvive numerals db spec) {t : TrainingSample} (ht : t ∈ db.trainingSamples)
    (hin : InJob spec t) : t.isFinite = true := by
  obtain ⟨page, hpage⟩ := h.accepted
  have haccepted : spec.exportArgs.Accepted := accepted_of_getTrainingData hpage
  obtain ⟨enough, henough⟩ := exists_fuel_exportOf numerals haccepted db
  obtain ⟨enough', henough'⟩ := h.rows
  have hfinished := (henough' (max enough enough') (le_max_right _ _)).1
  exact (henough (max enough enough') (le_max_left _ _)).2.mp hfinished t
    (ExportArgs.mem_matching.mpr ⟨ht, (matches_iff_inJob h.roomList t).mpr hin⟩)

/-- Exactly the names without a comma survive, in a time range that the driver can send and for
    rows that JSON can hold. -/
theorem roomsSurvive_iff {s₀ : LabelSystem}
    {c : Config LabelSystem LabelEvent (Except Failure Unit)} (h₀ : s₀.db.RoomsNamed)
    (hrun : labelMachine.Run (fun _ _ => True) ⟨[], s₀⟩ c) (spec : JobSpec) (now : Timestamp)
    (jobs : JobDb) (out : JobOut)
    (hjob : (createJob c.state.db.rooms.rows spec now jobs).1 = .ok out)
    (numerals : Numerals) (db : LabelDb) :
    RoomsSurvive numerals db out.spec ↔ Requestable db out.spec := by
  obtain ⟨hrange, hknown, hspec⟩ := createJob_ok hjob
  rw [hspec]
  -- a room of an accepted job exists, and the names of rooms are stripped
  have hnamed : ∀ r ∈ spec.rooms, PyStr.strip r = r ∧ r ≠ "" := by
    intro r hr
    have hroom := LabelDb.hasRoom_iff.mpr (hknown r hr)
    exact strip_of_notEmpty (roomsNamed_of_run h₀ hrun r hroom)
  have hiff := roomList_intercalate_iff hnamed
  constructor
  · intro h
    obtain ⟨page, hpage⟩ := h.accepted
    have haccepted : spec.dump.exportArgs.Accepted := accepted_of_getTrainingData hpage
    exact ⟨hiff.mp h.roomList, haccepted.timeStart, haccepted.timeEnd,
      fun t ht hin => finite_of_roomsSurvive h ht hin⟩
  · intro h
    have hlist := hiff.mpr h.noComma
    have hrooms : spec.rooms ≠ [] := List.ne_nil_of_length_pos spec.roomsBounds.1
    have haccepted : spec.dump.exportArgs.Accepted :=
      accepted_exportArgs hrange hrooms spec.roomsBounds.2 hlist h.timeStart h.timeEnd
    exact roomsSurvive_of_requestable numerals haccepted hlist h.finite

/-! ## Two rooms under one name -/

/-- A store without rooms. -/
def bareStore : LabelSystem where
  db := {
    rooms := Table.empty
    labels := Table.empty
    labelsIdSeq := 1
    csiSamples := []
    trainingSamples := Table.empty
    labelsRoomFkey := fun l hl => absurd hl (Table.notMem_empty l)
    labelsIdBelow := labelsIdBelow_empty }
  backfills := []
  syncs := []
  resyncs := []

private theorem bareStore_roomsNamed : bareStore.db.RoomsNamed := by
  rintro name ⟨r, hr, -⟩
  exact absurd hr (Table.notMem_empty r)

/-- A job over one room. -/
def roomSpec (room : String) : JobSpec where
  modelType := "random_forest"
  hyperparams := []
  featureConfig := .default .current
  timeStart := 0
  timeEnd := 10
  rooms := [room]
  roomsBounds := ⟨Nat.le_refl 1, Nat.succ_le_succ (Nat.zero_le 31)⟩

/-- The store that a room was created in. -/
private theorem run_createRoom (body : RoomCreate) :
    labelMachine.Run (fun _ _ => True) ⟨[], bareStore⟩
      (labelMachine.replay ⟨[], bareStore⟩ [.createRoom body 1]) :=
  Machine.run_of_admits ⟨trivial, trivial⟩

/-- A store with one row of the bedroom. -/
def bedroomStore : LabelDb :=
  { bareStore.db with
    trainingSamples :=
      ⟨[⟨⟨5, 1, "aa:bb:cc:dd:ee:ff", -40, none, 6, 20, 1, 1, [0], [0], none⟩, "bed room"⟩],
        by decide⟩ }

theorem roomsSurvive_iff_bedroom :
    ∃ out, (createJob [⟨"bed room", 0, 1⟩] (roomSpec "bed room") 2 JobDb.empty).1 = .ok out ∧
      RoomsSurvive noNumerals bedroomStore out.spec :=
  ⟨_, rfl, (roomsSurvive_iff bareStore_roomsNamed
    (run_createRoom ⟨"bed room", 0, by decide⟩) (roomSpec "bed room") 2 JobDb.empty _ rfl
    noNumerals bedroomStore).mpr ⟨by decide, by decide, by decide, by decide⟩⟩

/-- One room with a comma in its name is read as two rooms. -/
theorem comma_splits_room :
    ¬∀ (s₀ : LabelSystem) (c : Config LabelSystem LabelEvent (Except Failure Unit))
      (spec : JobSpec) (now : Timestamp) (jobs : JobDb) (out : JobOut), s₀.db.RoomsNamed →
        labelMachine.Run (fun _ _ => True) ⟨[], s₀⟩ c →
        (createJob c.state.db.rooms.rows spec now jobs).1 = .ok out →
          ∀ numerals db, RoomsSurvive numerals db out.spec := by
  intro h
  have hsurvive := h bareStore _ (roomSpec "kitchen, north") 2 JobDb.empty _
    bareStore_roomsNamed (run_createRoom ⟨"kitchen, north", 0, by decide⟩) rfl noNumerals
    bedroomStore
  exact absurd hsurvive.roomList (by decide)

end Grimnir
