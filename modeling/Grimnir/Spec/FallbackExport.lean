import Grimnir.Spec.ExportExact

/-!
# The export without `training_samples`

A role that may not read `training_samples` is served from `csi_samples`, by the same query
and under the same cursor.  No key of `csi_samples` is unique, so the cursor does not tell
rows of one `(time, receiver_id)` apart: those that a page leaves are never read.  Nor does the
mapper of `CsiSample` tell all rows apart: of those on one page that share its key the first one
is sent again and again.

## Key results

- `getTrainingData_fallback`: a request answers with a page of the labelled rows, as a session
  loads them
- `iterTrainingData_fallback`: the export is a seek-paged read of them
- `fallback_exact_iff`: it yields each of them once exactly when no two rows of one key are
  on both sides of a page's end, rows of one mapper key look alike, and all floats are finite
-/

namespace Grimnir

open SeekPaging

/-! ## What the fallback reads -/

/-- The labelled rows of `csi_samples`. -/
def LabelDb.labelledSamples (db : LabelDb) : List TrainingSample :=
  db.csiSamples.filterMap CsiSample.labelled

/-- The role may not read `training_samples`. -/
structure Unreadable (faults : ExportStatement → Option DBAPIError) : Prop where
  denied : ∃ exc, faults .selectTrainingSamples = some exc ∧
    isTrainingSamplesPermissionError exc = true
  readable : faults .selectCsiSamples = none

/-- The selected rows are sorted by their keys. -/
private theorem ExportArgs.sorted_selected (args : ExportArgs) (rows : List TrainingSample) :
    Sorted TrainingSample.orderKey (args.selected rows) :=
  pairwise_sorted _ _

/-- The selection does not depend on the rows' order, up to ties. -/
private theorem ExportArgs.perm_selected (args : ExportArgs) {rows rows' : List TrainingSample}
    (h : rows.Perm rows') : (args.selected rows).Perm (args.selected rows') :=
  ((List.perm_insertionSort _ _).trans (h.filter _)).trans (List.perm_insertionSort _ _).symm

section

variable {args : ExportArgs} {faults : ExportStatement → Option DBAPIError} {db : LabelDb}

/-- Without the table the query reads the labelled samples, through the identity map. -/
theorem Unreadable.samples_eq (hfaults : Unreadable faults) (h : args.Accepted)
    {cursor : Option (Int ×ₗ Int)} (hfit : FitCursor cursor) (text : Option String) :
    (args.query text).samples (cursor.map ofLex) faults db =
      .ok (IdentityMap.load (·.identity)
        ((beyond TrainingSample.orderKey cursor (args.selected db.labelledSamples)).take
          (args.pageSize.toNat + 1))) := by
  obtain ⟨exc, hdenied, hpermission⟩ := hfaults.denied
  have hprimary : (args.query text).select (cursor.map ofLex) .selectTrainingSamples faults
      db.trainingSamples.rows = .error exc := by
    rw [TrainingDataQuery.select, hdenied]
  unfold TrainingDataQuery.samples
  rw [hprimary]
  simp only [hpermission, if_true]
  rw [h.select_eq hfaults.readable hfit]
  rfl

/-- Rows of one mapper key have one time and receiver. -/
private theorem orderKey_of_sampleIdentity {t t' : TrainingSample} (h : t.identity = t'.identity) :
    t.orderKey = t'.orderKey := by
  have htime : t.time = t'.time := congrArg (·.1) h
  have hreceiver : t.receiverId = t'.receiverId := congrArg (·.2.1) h
  exact congrArg toLex (Prod.ext htime hreceiver)

/-- A request answers with a page of the labelled rows, if it can be rendered. -/
theorem getTrainingData_fallback (numerals : Numerals) (h : args.Accepted)
    (hfaults : Unreadable faults) {cursor : Option (Int ×ₗ Int)} (hfit : FitCursor cursor) :
    getTrainingData numerals (args.query (cursor.map cursorText)) faults db =
      (reply (loadPage (·.identity) (page TrainingSample.orderKey args.pageSize.toNat cursor
        (args.selected db.labelledSamples)))).render :=
  getTrainingData_of_samples (fun _ _ => orderKey_of_sampleIdentity) numerals h hfit
    (hfaults.samples_eq h hfit _)

end

section

variable (numerals : Numerals) {args : ExportArgs} {faults : ExportStatement → Option DBAPIError}
  (dbs : Nat → LabelDb) (fuel : Nat)

/-- The pages that the fallback export reads. -/
def fallbackPages (args : ExportArgs) (dbs : Nat → LabelDb) (fuel : Nat) :
    List (Page TrainingSample (Int ×ₗ Int)) :=
  pages TrainingSample.orderKey args.pageSize.toNat
    (fun k => args.selected (dbs k).labelledSamples) fuel 0 none

/-- The export is a seek-paged read of the labelled rows. -/
theorem iterTrainingData_fallback (h : args.Accepted) (hfaults : Unreadable faults) :
    Reads ((fallbackPages args dbs fuel).map fun p => reply (loadPage (·.identity) p))
      (Complete (fallbackPages args dbs fuel))
      (iterTrainingData numerals args faults dbs fuel) := by
  have hfit : FitCursor none := by
    intro c hc
    cases hc
  have hserve : ∀ k cursor, FitCursor cursor →
      getTrainingData numerals (args.query (cursor.map cursorText)) faults (dbs k) =
        (reply (loadPage (·.identity) (page TrainingSample.orderKey args.pageSize.toNat cursor
          (args.selected (dbs k).labelledSamples)))).render :=
    fun _ _ hfit => getTrainingData_fallback numerals h hfaults hfit
  exact exportFrom_reads (loadPage (·.identity)) (fun _ => rfl) hserve
    (fun _ _ ht => h.fitsDatetime_of_mem ht) fuel 0 hfit

/-- The pages may be loaded one by one: no two of them have a key in common. -/
private theorem flatMap_fallback (args : ExportArgs) :
    ((fallbackPages args dbs fuel).map fun p => reply (loadPage (·.identity) p)).flatMap (·.rows) =
      (IdentityMap.load (·.identity) (SeekPaging.rows (fallbackPages args dbs fuel))).map
        TrainingSampleOut.modelValidate := by
  have hpages : SeekPaging.rows ((fallbackPages args dbs fuel).map (loadPage (·.identity))) =
      (fallbackPages args dbs fuel).flatMap fun p => IdentityMap.load (·.identity) p.rows :=
    List.flatMap_map ..
  rw [fallbackPages, IdentityMap.load_rows (fun _ _ => orderKey_of_sampleIdentity)
    fun k => args.sorted_selected (dbs k).labelledSamples, ← fallbackPages, ← hpages,
    ← flatMap_reply, List.map_map]
  rfl

end

/-! ## The two exports -/

/-- `training_samples` holds one row for each labelled `(time, receiver_id)` of
    `csi_samples`, with the same label. -/
structure LabelDb.CopiesLabelled (db : LabelDb) : Prop where
  source : ∀ t ∈ db.trainingSamples, ∃ r ∈ db.labelledSamples, r.key = t.key ∧ r.label = t.label
  copied : ∀ r ∈ db.labelledSamples, ∃ t ∈ db.trainingSamples, t.key = r.key ∧ t.label = r.label

/-- The fallback export is finished, its rows are the matching labelled rows, each of them once,
    and their keys are those of a finished primary export. -/
structure AgreesWithPrimary (numerals : Numerals) (args : ExportArgs) (db : LabelDb)
    (fallback : Export) : Prop where
  finished : fallback.ending = .finished
  once : fallback.rows.Perm
    ((args.selected db.labelledSamples).map TrainingSampleOut.modelValidate)
  keys : ∀ fuel primary,
    iterTrainingData numerals args (fun _ => none) (fun _ => db) fuel = primary →
      primary.ending = .finished →
        ∀ x, (∃ row ∈ fallback.rows, row.key = x) ↔ ∃ row ∈ primary.rows, row.key = x

/-- No two matching labelled rows of one `(time, receiver_id)` are the last row of one page and
    the first one behind it. -/
def CleanPages (args : ExportArgs) (db : LabelDb) : Prop :=
  CleanCuts args.pageSize.toNat
    ((args.selected db.labelledSamples).map TrainingSample.orderKey)

/-- What the fallback needs of the matching labelled rows. -/
structure Exportable (args : ExportArgs) (db : LabelDb) : Prop where
  clean : CleanPages args db
  /-- Rows of one mapper key look alike. -/
  alike : ∀ t ∈ args.selected db.labelledSamples, ∀ t' ∈ args.selected db.labelledSamples,
    t.identity = t'.identity →
      TrainingSampleOut.modelValidate t = TrainingSampleOut.modelValidate t'
  finite : ∀ t ∈ args.selected db.labelledSamples, t.isFinite = true

section

variable {args : ExportArgs} {db : LabelDb} {dbs : Nat → LabelDb}

/-- The labelled samples of two orders of the table are the same. -/
private theorem perm_labelledSamples {db' : LabelDb} (h : db'.csiSamples.Perm db.csiSamples) :
    (args.selected db'.labelledSamples).Perm (args.selected db.labelledSamples) :=
  args.perm_selected (h.filterMap _)

/-- A row as it is sent shows its mapper key. -/
private theorem identity_of_modelValidate (t t' : TrainingSample)
    (h : TrainingSampleOut.modelValidate t = TrainingSampleOut.modelValidate t') :
    t.identity = t'.identity :=
  congrArg (fun row : TrainingSampleOut => (row.time, row.receiverId, row.transmitterMac,
    row.channel, row.rssi, row.subcarrierCount)) h

/-- Rows of one key and label match alike. -/
private theorem ExportArgs.matches_congr {t t' : TrainingSample} (hkey : t.key = t'.key)
    (hlabel : t.label = t'.label) : args.matches t = args.matches t' := by
  have htime : t.time = t'.time := congrArg Prod.fst hkey
  rw [ExportArgs.matches, ExportArgs.matches, htime, hlabel]

/-- The labelled samples and the training rows have the same keys. -/
private theorem LabelDb.CopiesLabelled.mem_key (h : db.CopiesLabelled) {x : Timestamp × Int} :
    (∃ t ∈ args.selected db.labelledSamples, t.key = x) ↔
      ∃ t ∈ args.matching db, t.key = x := by
  simp only [ExportArgs.mem_selected, ExportArgs.mem_matching]
  constructor
  · rintro ⟨r, ⟨hr, hmatch⟩, rfl⟩
    obtain ⟨t, ht, hkey, hlabel⟩ := h.copied r hr
    exact ⟨t, ⟨ht, (args.matches_congr hkey hlabel).trans hmatch⟩, hkey⟩
  · rintro ⟨t, ⟨ht, hmatch⟩, rfl⟩
    obtain ⟨r, hr, hkey, hlabel⟩ := h.source t ht
    exact ⟨r, ⟨hr, (args.matches_congr hkey hlabel).trans hmatch⟩, hkey⟩

/-- A complete read finds each matching labelled row once exactly when no page ends between two
    rows of one key, even if only their keys count. -/
private theorem perm_fallbackPages_iff {β : Type} {f : TrainingSample → β}
    (hf : ∀ t t', f t = f t' → t.orderKey = t'.orderKey) (h : args.Accepted)
    (hconstant : ∀ k, (dbs k).csiSamples.Perm db.csiSamples) {fuel : Nat}
    (hcomplete : Complete (fallbackPages args dbs fuel)) :
    ((SeekPaging.rows (fallbackPages args dbs fuel)).map f).Perm
      ((args.selected db.labelledSamples).map f) ↔ CleanPages args db := by
  have hiff := perm_rows_iff f hf h.pageSize_pos
    (fun k => args.sorted_selected (dbs k).labelledSamples)
    (fun k => perm_labelledSamples (hconstant k)) (args.sorted_selected _) hcomplete
  rwa [beyond_none] at hiff

/-- What is found by a read that leaves no row out. -/
private theorem perm_of_cleanPages (h : args.Accepted)
    (hconstant : ∀ k, (dbs k).csiSamples.Perm db.csiSamples) {fuel : Nat}
    (hcomplete : Complete (fallbackPages args dbs fuel)) (hclean : CleanPages args db) :
    (SeekPaging.rows (fallbackPages args dbs fuel)).Perm (args.selected db.labelledSamples) := by
  have hperm := (perm_fallbackPages_iff (f := id) (fun _ _ => congrArg _) h hconstant
    hcomplete).mpr hclean
  rwa [List.map_id, List.map_id] at hperm

/-- Rows that are loaded from those that match are among those that match. -/
private theorem mem_selected_of_loaded (hconstant : ∀ k, (dbs k).csiSamples.Perm db.csiSamples)
    {fuel : Nat} {row : TrainingSampleOut}
    (hrow : row ∈ (IdentityMap.load (·.identity)
      (SeekPaging.rows (fallbackPages args dbs fuel))).map TrainingSampleOut.modelValidate) :
    ∃ t ∈ args.selected db.labelledSamples, row = .modelValidate t := by
  obtain ⟨t, ht, rfl⟩ := List.mem_map.mp hrow
  obtain ⟨k, hk⟩ := mem_view_of_mem_rows (IdentityMap.mem_of_mem_load ht)
  exact ⟨t, (perm_labelledSamples (hconstant k)).mem_iff.mp hk, rfl⟩

section

variable (numerals : Numerals) {faults : ExportStatement → Option DBAPIError} {fuel : Nat}

/-- What a finished fallback export yields. -/
private theorem rows_of_fallback_finished (h : args.Accepted) (hfaults : Unreadable faults)
    (hfinished : (iterTrainingData numerals args faults dbs fuel).ending = .finished) :
    (iterTrainingData numerals args faults dbs fuel).rows =
      (IdentityMap.load (·.identity) (SeekPaging.rows (fallbackPages args dbs fuel))).map
        TrainingSampleOut.modelValidate := by
  have hreads := iterTrainingData_fallback numerals dbs fuel h hfaults
  rw [Export.rows, hreads.pages_of_finished hfinished, flatMap_fallback]

/-- A complete fallback export of finite floats is finished. -/
private theorem finished_of_finite (h : args.Accepted) (hfaults : Unreadable faults)
    (hconstant : ∀ k, (dbs k).csiSamples.Perm db.csiSamples)
    (hcomplete : Complete (fallbackPages args dbs fuel))
    (hfinite : ∀ t ∈ args.selected db.labelledSamples, t.isFinite = true) :
    (iterTrainingData numerals args faults dbs fuel).ending = .finished := by
  refine (iterTrainingData_fallback numerals dbs fuel h hfaults).finished.mpr
    ⟨hcomplete, fun page hpage => List.all_eq_true.mpr fun row hrow => ?_⟩
  have hloaded := List.mem_flatMap.mpr ⟨page, hpage, hrow⟩
  rw [flatMap_fallback] at hloaded
  obtain ⟨t, ht, rfl⟩ := mem_selected_of_loaded hconstant hloaded
  exact hfinite t ht

/-- An export that yields each matching labelled row once had no reason not to. -/
private theorem exportable_of_once (h : args.Accepted) (hfaults : Unreadable faults)
    (hconstant : ∀ k, (dbs k).csiSamples.Perm db.csiSamples)
    (hfinished : (iterTrainingData numerals args faults dbs fuel).ending = .finished)
    (honce : (iterTrainingData numerals args faults dbs fuel).rows.Perm
      ((args.selected db.labelledSamples).map TrainingSampleOut.modelValidate)) :
    Exportable args db := by
  have hreads := iterTrainingData_fallback numerals dbs fuel h hfaults
  have hcomplete := (hreads.finished.mp hfinished).1
  have hfinite : ∀ t ∈ args.selected db.labelledSamples, t.isFinite = true :=
    fun t ht => hreads.isFinite_of_mem (honce.mem_iff.mpr (List.mem_map_of_mem ht))
  rw [rows_of_fallback_finished numerals h hfaults hfinished] at honce
  -- the keys that were loaded are those that were found
  have hkeys := honce.map fun row => toLex row.key
  rw [List.map_map, List.map_map] at hkeys
  have hloaded : (IdentityMap.load (·.identity)
      (SeekPaging.rows (fallbackPages args dbs fuel))).map TrainingSample.orderKey =
        (SeekPaging.rows (fallbackPages args dbs fuel)).map TrainingSample.orderKey :=
    IdentityMap.map_load (fun _ _ => orderKey_of_sampleIdentity) _
  have hclean : CleanPages args db := by
    rw [← perm_fallbackPages_iff (fun _ _ hsame => hsame) h hconstant hcomplete, ← hloaded]
    exact hkeys
  have hperm := perm_of_cleanPages h hconstant hcomplete hclean
  refine ⟨hclean, fun t ht t' ht' hsame => ?_, hfinite⟩
  exact (IdentityMap.perm_map_load_iff identity_of_modelValidate).mp
    (honce.trans (hperm.map _).symm) t (hperm.mem_iff.mpr ht) t' (hperm.mem_iff.mpr ht') hsame

/-- And without such a reason it does. -/
private theorem once_of_exportable (h : args.Accepted) (hfaults : Unreadable faults)
    (hconstant : ∀ k, (dbs k).csiSamples.Perm db.csiSamples)
    (hcomplete : Complete (fallbackPages args dbs fuel)) (hexportable : Exportable args db) :
    (iterTrainingData numerals args faults dbs fuel).ending = .finished ∧
      (iterTrainingData numerals args faults dbs fuel).rows.Perm
        ((args.selected db.labelledSamples).map TrainingSampleOut.modelValidate) := by
  have hfinished := finished_of_finite numerals h hfaults hconstant hcomplete hexportable.finite
  have hperm := perm_of_cleanPages h hconstant hcomplete hexportable.clean
  refine ⟨hfinished, ?_⟩
  rw [rows_of_fallback_finished numerals h hfaults hfinished]
  refine ((IdentityMap.perm_map_load_iff identity_of_modelValidate).mpr ?_).trans (hperm.map _)
  intro t ht t' ht'
  exact hexportable.alike t (hperm.mem_iff.mp ht) t' (hperm.mem_iff.mp ht')

end

/-- Each page moves the cursor on, so the export ends. -/
private theorem exists_fuel_complete (args : ExportArgs)
    (hconstant : ∀ k, (dbs k).csiSamples.Perm db.csiSamples) :
    ∃ enough, ∀ fuel ≥ enough, Complete (fallbackPages args dbs fuel) := by
  let keys := ((args.selected db.labelledSamples).map TrainingSample.orderKey).toFinset
  have hkeys : ∀ k, ∀ t ∈ args.selected (dbs k).labelledSamples, t.orderKey ∈ keys := by
    intro k t ht
    have hmem := (perm_labelledSamples (hconstant k)).mem_iff.mp ht
    exact List.mem_toFinset.mpr (List.mem_map_of_mem hmem)
  exact ⟨(keys.filter (Beyond none)).card + 1, fun fuel hfuel => complete_of_card hkeys 0 hfuel⟩

end

/-! ## When the exports agree -/

/-- `training_samples` is denied, and nothing else fails. -/
def deniedTable : ExportStatement → Option DBAPIError
  | .selectTrainingSamples => some ⟨false, "permission denied for table training_samples"⟩
  | .selectCsiSamples => none

/-- The example's role may not read the table. -/
private theorem unreadable_deniedTable : Unreadable deniedTable :=
  ⟨⟨_, rfl, by decide⟩, rfl⟩

/-- Two packets of one receiver in one microsecond, and a later one. -/
def doubledStore : LabelDb where
  rooms := ⟨[⟨"kitchen", 1, 1⟩], by decide⟩
  labels := Table.empty
  labelsIdSeq := 1
  csiSamples :=
    [⟨⟨10, 1, "aa:bb:cc:dd:ee:ff", -40, none, 6, 20, 1, 1, [0], [0], none⟩, some "kitchen"⟩,
      ⟨⟨10, 1, "aa:bb:cc:dd:ee:ff", -42, none, 6, 20, 1, 1, [1], [0], none⟩, some "kitchen"⟩,
      ⟨⟨20, 1, "aa:bb:cc:dd:ee:ff", -41, none, 6, 20, 1, 1, [0], [0], none⟩, some "kitchen"⟩]
  trainingSamples :=
    ⟨[⟨⟨10, 1, "aa:bb:cc:dd:ee:ff", -40, none, 6, 20, 1, 1, [0], [0], none⟩, "kitchen"⟩,
      ⟨⟨20, 1, "aa:bb:cc:dd:ee:ff", -41, none, 6, 20, 1, 1, [0], [0], none⟩, "kitchen"⟩],
      by decide⟩
  labelsRoomFkey := fun l hl => absurd hl (Table.notMem_empty l)
  labelsIdBelow := labelsIdBelow_empty

/-- The example's training rows are copies of its labelled samples. -/
private theorem copiesLabelled_doubledStore : doubledStore.CopiesLabelled where
  source := by decide
  copied := by decide

/-- An export of the kitchen, row by row. -/
def kitchenRowByRow : ExportArgs := { kitchenExport with pageSize := 1 }

/-- In pages of one row, the second packet of the microsecond is never read. -/
theorem fallback_skips_row :
    doubledStore.CopiesLabelled ∧ kitchenRowByRow.Accepted ∧
      ∃ fuel, (iterTrainingData noNumerals kitchenRowByRow deniedTable
          (fun _ => doubledStore) fuel).ending = .finished ∧
        ¬ (iterTrainingData noNumerals kitchenRowByRow deniedTable
          (fun _ => doubledStore) fuel).rows.Perm
            ((kitchenRowByRow.selected doubledStore.labelledSamples).map
              TrainingSampleOut.modelValidate) := by
  have haccepted : kitchenRowByRow.Accepted :=
    ⟨by decide, by decide, by decide, by decide, by decide, by decide, by decide⟩
  have hconstant : ∀ k : Nat, ((fun _ => doubledStore) k).csiSamples.Perm
      doubledStore.csiSamples := fun _ => .refl _
  obtain ⟨enough, henough⟩ := exists_fuel_complete kitchenRowByRow hconstant
  have hfinished := finished_of_finite noNumerals haccepted unreadable_deniedTable
    hconstant (henough enough le_rfl) (by decide)
  refine ⟨copiesLabelled_doubledStore, haccepted, enough, hfinished, fun honce => ?_⟩
  have hclean := (exportable_of_once noNumerals haccepted unreadable_deniedTable hconstant
    hfinished honce).clean
  exact hclean 1 (by decide) (by decide) (by decide)

/-- Under every content of the two tables, every window, room list and page size: with enough
    requests a fallback export is finished and agrees with the primary one exactly when no page
    ends between two rows of one key, rows of one mapper key look alike, and the floats are
    finite.  The rows of `csi_samples` may be found in another order at each request. -/
theorem fallback_exact_iff (numerals : Numerals) (args : ExportArgs)
    (faults : ExportStatement → Option DBAPIError) (hfaults : Unreadable faults)
    (db : LabelDb) (hcopies : db.CopiesLabelled) (dbs : Nat → LabelDb)
    (hconstant : ∀ k, (dbs k).csiSamples.Perm db.csiSamples) (h : args.Accepted) :
    ∃ enough, ∀ fuel ≥ enough,
      (AgreesWithPrimary numerals args db (iterTrainingData numerals args faults dbs fuel) ↔
        Exportable args db) := by
  obtain ⟨enough, henough⟩ := exists_fuel_complete args hconstant
  refine ⟨enough, fun fuel hfuel => ⟨fun hagrees => ?_, fun hexportable => ?_⟩⟩
  · exact exportable_of_once numerals h hfaults hconstant hagrees.finished hagrees.once
  · obtain ⟨hfinished, honce⟩ := once_of_exportable numerals h hfaults hconstant
      (henough fuel hfuel) hexportable
    refine ⟨hfinished, honce, ?_⟩
    rintro _ _ rfl hended x
    rw [export_rows_of_constant numerals h rfl (fun _ => rfl) hended]
    simp only [honce.mem_iff, List.mem_map, exists_exists_and_eq_and]
    exact hcopies.mem_key

/-- In pages of two rows, all three packets are. -/
theorem fallback_exact_doubledStore :
    ∃ fuel, (iterTrainingData noNumerals kitchenExport deniedTable
      (fun _ => doubledStore) fuel).rows.Perm
        ((kitchenExport.selected doubledStore.labelledSamples).map
          TrainingSampleOut.modelValidate) := by
  obtain ⟨enough, henough⟩ := fallback_exact_iff noNumerals kitchenExport deniedTable
    unreadable_deniedTable doubledStore copiesLabelled_doubledStore (fun _ => doubledStore)
    (fun _ => .refl _) accepted_kitchenExport
  refine ⟨enough, ((henough enough le_rfl).mpr ⟨?_, by decide, by decide⟩).once⟩
  -- the only cut is behind the second row
  have hkeys : (kitchenExport.selected doubledStore.labelledSamples).map
      TrainingSample.orderKey = [toLex (10, 1), toLex (10, 1), toLex (20, 1)] := by decide
  rw [CleanPages, hkeys]
  intro m hm hlt
  obtain rfl : m = 1 := by
    have hlt' : m * 2 < 3 := hlt
    omega
  decide

end Grimnir
