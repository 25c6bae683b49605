import Grimnir.Spec.StayWindows
import Grimnir.Spec.TrainingMirror
import Grimnir.Spec.WindowDefinition

/-!
# What a model is trained on

While a job reads its pages, labels come and go, rooms are renamed and samples arrive.  Whatever
is read at whatever moment, the model that the job uploads is fitted to the features of windows
of one receiver in one room, and each row of a window was, when its page was read, the copy of a
sample in `csi_samples`.

## Key results

- `copyOf_of_mem`: a training row is the copy of a sample, whose label it has unless a second
  transaction over it is outstanding
- `exists_fit_of_runJob`: what a job that succeeds has fitted
- `trainedOn_of_runs`: what a model is trained on, in every run of the label store
-/

namespace Grimnir

open Nornir LabelDb LabelSystem

/-! ## Rows -/

/-- The row shows the sample. -/
structure CopyOf (s : LabelSystem) (row : TrainingSampleOut) (r : CsiSample) : Prop where
  mem : r ∈ s.db.csiSamples
  data : row = .modelValidate { toCsiRow := r.toCsiRow, label := row.label }
  label : r.label = some row.label ∨ s.Outstanding r

/-- A training row is the copy of a sample. -/
theorem copyOf_of_mem {s : LabelSystem} (h : Mirrored s) {t : TrainingSample}
    (ht : t ∈ s.db.trainingSamples) : ∃ r, CopyOf s (.modelValidate t) r := by
  obtain ⟨r, hr, hrow⟩ := h.source t ht
  have hkey : r.key = t.key := congrArg CsiRow.key hrow
  refine ⟨r, hr, ?_, ?_⟩
  · rw [hrow]
    rfl
  · rcases h.agrees r hr with hagrees | houtstanding
    · rw [hkey, Table.find?_of_mem ht] at hagrees
      exact .inl (trainingRow?_eq_some.mp hagrees.symm).1
    · exact .inr houtstanding

/-- The label store as the pages of an export find it. -/
structure ReadDuring (s₀ : LabelSystem)
    (stores : Nat → Config LabelSystem LabelEvent (Except Failure Unit)) : Prop where
  first : labelMachine.Run DistinctInserts ⟨[], s₀⟩ (stores 0)
  next : ∀ k, labelMachine.Run DistinctInserts (stores k) (stores (k + 1))

theorem ReadDuring.mirrored {s₀ : LabelSystem}
    {stores : Nat → Config LabelSystem LabelEvent (Except Failure Unit)}
    (h : ReadDuring s₀ stores) (hstart : Mirrored s₀) (k : Nat) : Mirrored (stores k).state := by
  have hrun {c c' : Config LabelSystem LabelEvent (Except Failure Unit)}
      (hrun : labelMachine.Run DistinctInserts c c') (hc : Mirrored c.state) :
      Mirrored c'.state := by
    refine hrun.invariant (I := fun c => Mirrored c.state) hc ?_
    exact fun c e h hok => h.effect hok (step_effect c.state e)
  induction k with
  | zero => exact hrun h.first hstart
  | succ k ih => exact hrun (h.next k) ih

/-! ## Windows -/

private theorem labelled_rows (rows : List TrainingSampleOut) : Labelled (rows.map (·.doc)) := by
  intro row hrow
  obtain ⟨out, -, rfl⟩ := List.mem_map.mp hrow
  exact ⟨out.receiverId, out.label, rfl, rfl⟩

/-- The rows of one receiver are in the order of their times. -/
private theorem pairwise_times {rows : List TrainingSampleOut}
    (hkeys : (rows.map fun row => toLex row.key).Pairwise (· < ·)) (rid : Int) :
    (ofReceiver rid (rows.map (·.doc))).Pairwise fun x y => x.time < y.time := by
  have hmap : ofReceiver rid (rows.map (·.doc)) =
      (rows.filter (·.receiverId = rid)).map (·.doc) := by
    unfold ofReceiver
    rw [List.filter_map]
    -- the document keeps the receiver, so both filters agree
    congr 1
    apply List.filter_congr
    intro out _
    simp [TrainingSampleOut.doc]
  rw [hmap, List.pairwise_map]
  refine ((List.pairwise_map.mp hkeys).filter (·.receiverId = rid)).imp_of_mem ?_
  intro out out' hout hout' hlt
  have hrid : out.receiverId = rid := of_decide_eq_true (List.mem_filter.mp hout).2
  have hrid' : out'.receiverId = rid := of_decide_eq_true (List.mem_filter.mp hout').2
  change toLex (out.time, out.receiverId) < toLex (out'.time, out'.receiverId) at hlt
  rw [Prod.Lex.toLex_lt_toLex] at hlt
  -- of one receiver, the rows can only differ in their time
  cases hlt with
  | inl hbefore => exact hbefore
  | inr hsame =>
    rw [hrid, hrid'] at hsame
    exact absurd hsame.2 (lt_irrefl _)

theorem Nornir.BlockOf.sublist {w k : Nat} {rows run : List RowDoc} {cut : Cut}
    (h : BlockOf w rows cut run k) : cut.rows.Sublist (ofReceiver cut.receiverId rows) := by
  rw [h.eq]
  exact ((List.take_sublist _ _).trans (List.drop_sublist _ _)).trans
    (List.infix_of_mem_splitBy h.mem).sublist

/-- A window of rows that were read during a run of the label store. -/
structure TrueToStore (stores : Nat → Config LabelSystem LabelEvent (Except Failure Unit))
    (args : ExportArgs) (e : Export) (w : Nat) (cut : Cut) : Prop where
  length : cut.rows.length = w
  room : cut.label ∈ args.roomList
  alike : ∀ row ∈ cut.rows, row.receiverId = some cut.receiverId ∧ row.label = some cut.label
  ascending : cut.rows.Pairwise fun x y => x.time < y.time
  /-- Each row was the copy of a sample when its page was read. -/
  copies : ∀ row ∈ cut.rows, ∃ k p out r, e.pages[k]? = some p ∧ out ∈ p.rows ∧ row = out.doc ∧
    args.timeStart ≤ out.time ∧ out.time < args.timeEnd ∧ CopyOf (stores k).state out r

section

variable {numerals : Numerals} {args : ExportArgs} {fuel w k : Nat} {s₀ : LabelSystem}
variable {stores : Nat → Config LabelSystem LabelEvent (Except Failure Unit)}
variable {run : List RowDoc} {cut : Cut}

/-- Every row that was read matched, and was a copy, when its page was read. -/
private theorem copyOf_of_read (hreads : ReadDuring s₀ stores) (hstart : Mirrored s₀)
    {out : TrainingSampleOut} (hout : out ∈ (iterTrainingData numerals args (fun _ => none)
      (fun k => (stores k).state.db) fuel).rows) :
    out.label ∈ args.roomList ∧ args.timeStart ≤ out.time ∧ out.time < args.timeEnd ∧
      ∃ k p r, (iterTrainingData numerals args (fun _ => none)
        (fun k => (stores k).state.db) fuel).pages[k]? = some p ∧ out ∈ p.rows ∧
          CopyOf (stores k).state out r := by
  obtain ⟨p, hp, hrow⟩ := List.mem_flatMap.mp hout
  obtain ⟨k, hk⟩ := List.mem_iff_getElem?.mp hp
  obtain ⟨t, ht, rfl⟩ := matching_of_mem_page numerals rfl hk hrow
  obtain ⟨hmem, hmatch⟩ := ExportArgs.mem_matching.mp ht
  obtain ⟨hwindow, hroom⟩ := Bool.and_eq_true_iff.mp hmatch
  obtain ⟨hfrom, hto⟩ := Window.contains_iff.mp hwindow
  obtain ⟨r, hcopy⟩ := copyOf_of_mem (hreads.mirrored hstart k) hmem
  exact ⟨List.contains_iff_mem.mp hroom, hfrom, hto, k, p, r, hk, hrow, hcopy⟩

private theorem trueToStore_of_block (hreads : ReadDuring s₀ stores) (hstart : Mirrored s₀)
    (hw : 0 < w) (h : BlockOf w ((iterTrainingData numerals args (fun _ => none)
      (fun k => (stores k).state.db) fuel).rows.map (·.doc)) cut run k) :
    TrueToStore stores args (iterTrainingData numerals args (fun _ => none)
      (fun k => (stores k).state.db) fuel) w cut := by
  -- every row of the window is a row that the export yielded
  have hread : ∀ row ∈ cut.rows, ∃ out ∈ (iterTrainingData numerals args (fun _ => none)
      (fun k => (stores k).state.db) fuel).rows, out.doc = row :=
    fun row hrow => List.mem_map.mp (List.mem_filter.mp (h.mem_ofReceiver hrow)).1
  constructor
  case length => exact h.length hw
  case room =>
    obtain ⟨row, hrow⟩ := List.exists_mem_of_ne_nil _ (h.ne_nil hw)
    obtain ⟨out, hout, rfl⟩ := hread row hrow
    have hlabel : out.label = cut.label := Option.some.inj (h.label hrow)
    exact hlabel ▸ (copyOf_of_read hreads hstart hout).1
  case alike =>
    intro row hrow
    have hmem := List.mem_filter.mp (h.mem_ofReceiver hrow)
    exact ⟨of_decide_eq_true hmem.2, h.label hrow⟩
  case ascending =>
    exact (pairwise_times (pairwise_export numerals rfl _ fuel) cut.receiverId).sublist h.sublist
  case copies =>
    intro row hrow
    obtain ⟨out, hout, rfl⟩ := hread row hrow
    obtain ⟨-, hfrom, hto, k, p, r, hpage, hrow, hcopy⟩ := copyOf_of_read hreads hstart hout
    exact ⟨k, p, out, r, hpage, hrow, rfl, hfrom, hto, hcopy⟩

end

/-- The rows of a receiver's windows, one after the other, are in the order of their times, so
    no row is in two of them. -/
private theorem pairwise_windows {rows : List TrainingSampleOut} {windowSize : Int}
    {cuts : List Cut} (hkeys : (rows.map fun row => toLex row.key).Pairwise (· < ·))
    (hcuts : cutWindows windowSize .empty (rows.map (·.doc)) = .ok cuts) (rid : Int) :
    (cutsOf rid cuts).flatten.Pairwise fun x y => x.time < y.time := by
  obtain ⟨cuts', hcuts', hblocks, -⟩ := cutsOf_eq_blocks windowSize (labelled_rows rows)
  cases hcuts.symm.trans hcuts'
  have hsublist := List.flatten_blocks_sublist (blockLength_pos windowSize)
    (labelRuns rid (rows.map (·.doc)))
  rw [labelRuns, List.flatten_splitBy] at hsublist
  rw [hblocks, labelRuns]
  exact (pairwise_times hkeys rid).sublist hsublist

/-- A row that matched with the same content at every request was read. -/
private theorem mem_rows_of_stable {numerals : Numerals} {args : ExportArgs} {dbs : Nat → LabelDb}
    {fuel : Nat} {t : TrainingSample}
    (hstable : ∀ k < (iterTrainingData numerals args (fun _ => none) dbs fuel).pages.length,
      t ∈ args.matching (dbs k))
    (hfinished : (iterTrainingData numerals args (fun _ => none) dbs fuel).ending = .finished) :
    .modelValidate t ∈ (iterTrainingData numerals args (fun _ => none) dbs fuel).rows := by
  have hcount := count_of_present numerals rfl hfinished fun k hk => ⟨t, hstable k hk, rfl⟩
  obtain ⟨out, hout, hkey⟩ := List.mem_map.mp (List.count_pos_iff.mp (hcount ▸ Nat.one_pos))
  obtain ⟨p, hp, hrow⟩ := List.mem_flatMap.mp hout
  obtain ⟨k, hk⟩ := List.mem_iff_getElem?.mp hp
  obtain ⟨t', ht', rfl⟩ := matching_of_mem_page numerals rfl hk hrow
  have hlt := (List.getElem?_eq_some_iff.mp hk).1
  have hmem := (ExportArgs.mem_matching.mp (hstable k hlt)).1
  have hmem' := (ExportArgs.mem_matching.mp ht').1
  rw [← (dbs k).trainingSamples.eq_of_key_eq hmem' hmem hkey]
  exact hout

/-! ## The job -/

section

variable {py : Pydantic} {build : Build} {trainer : Trainer} {spec : SpecDoc}
variable {rows : List RowDoc} {result : Nornir.JobResult}

/-- The parameters of the classifier: the defaults under those of the job, but `window_size`. -/
def jobHyperparams (spec : SpecDoc) : Dict String Json :=
  (spec.hyperparams.foldl (fun d p => d.set p.1 p.2) defaultHyperparams).deleteWhere
    fun p => p.1 = "window_size"

/-- What a job that succeeds has fitted: the features and the labels of its windows. -/
structure FittedTo (trainer : Trainer) (spec : SpecDoc) (rows : List RowDoc) (cuts : List Cut)
    (result : Nornir.JobResult) : Prop where
  windows : jobWindows trainer.intOfStr spec rows = .ok cuts
  nonempty : cuts ≠ []
  fitted : ∃ (featureConfig : FeatureConfig) (features : List FeatureVector)
    (metrics : Dict String Json),
    List.Forall₂ (fun cut features => trainer.extractFeatures cut.rows featureConfig =
      .ok features) cuts features ∧
    (∀ f ∈ features, ∀ g ∈ features, f.length = g.length) ∧
    trainer.fit features (cuts.map (·.label)) (jobHyperparams spec) =
      .ok (result.modelBytes, metrics) ∧
    result.featureConfig = featureConfig.dump

/-- No second width is found among vectors of one width only. -/
private theorem eq_of_dedup_length {features : List FeatureVector}
    (h : ¬1 < (features.map List.length).dedup.length) :
    ∀ f ∈ features, ∀ g ∈ features, f.length = g.length := by
  intro f hf g hg
  have hwidth {f : FeatureVector} (hf : f ∈ features) :
      f.length ∈ (features.map List.length).dedup :=
    List.mem_dedup.mpr (List.mem_map_of_mem hf)
  have hfirst := hwidth hf
  have hsecond := hwidth hg
  cases hwidths : (features.map List.length).dedup with
  | nil =>
    rw [hwidths] at hfirst
    cases hfirst
  | cons width rest =>
    rw [hwidths, List.length_cons] at h
    have hnone : rest = [] := List.length_eq_zero_iff.mp (by omega)
    rw [hwidths, hnone] at hfirst hsecond
    rw [List.mem_singleton.mp hfirst, List.mem_singleton.mp hsecond]

/-- `_collect_windows` returns what `_windows` yields, which is not nothing. -/
private theorem windows_of_collectWindows {windowSize : Int} {featureConfig : FeatureConfig}
    {features : List FeatureVector} {targets : List String} {count : Nat}
    (h : collectWindows trainer windowSize featureConfig rows = .ok (features, targets, count)) :
    ∃ out, windows (trainer.extractFeatures · featureConfig) windowSize .empty rows = .ok out ∧
      out ≠ [] ∧ features = out.map Prod.fst ∧ targets = out.map Prod.snd ∧
      ∀ f ∈ features, ∀ g ∈ features, f.length = g.length := by
  obtain ⟨out, hout, h⟩ := Except.bind_eq_ok.mp h
  refine ⟨out, hout, ?_⟩
  dsimp only at h
  split at h
  · cases h
  · rename_i hsome
    split at h
    · cases h
    · rename_i hwidths
      cases h
      refine ⟨?_, rfl, rfl, eq_of_dedup_length hwidths⟩
      rintro rfl
      exact hsome rfl

/-- A job that succeeds has fitted the windows of its rows. -/
theorem exists_fit_of_runJob (h : runJob py build trainer spec (.ok rows) = .ok result) :
    ∃ cuts, FittedTo trainer spec rows cuts result := by
  -- the stages of `run_job` that must have succeeded
  obtain ⟨featureConfig, -, h⟩ := Except.bind_eq_ok.mp h
  obtain ⟨windowSize, hsize, h⟩ := Except.bind_eq_ok.mp h
  obtain ⟨rows', hrows, h⟩ := Except.bind_eq_ok.mp h
  cases hrows
  obtain ⟨⟨features, targets, count⟩, hcollect, h⟩ := Except.bind_eq_ok.mp h
  obtain ⟨⟨modelBytes, metrics⟩, hfit, h⟩ := Except.bind_eq_ok.mp h
  cases h
  obtain ⟨out, hout, hsome, rfl, rfl, hwidths⟩ := windows_of_collectWindows hcollect
  obtain ⟨cuts, hcuts, hpairs⟩ := windows_ok hout
  have hlabels : out.map Prod.snd = cuts.map (·.label) := by
    -- window by window, the collected labels and features
    rw [← List.forall₂_eq_eq_eq, List.forall₂_map_left_iff, List.forall₂_map_right_iff]
    exact hpairs.flip.imp fun _ _ h => h.2
  have hextracted : List.Forall₂ (fun cut features =>
      trainer.extractFeatures cut.rows featureConfig = .ok features) cuts (out.map Prod.fst) :=
    List.forall₂_map_right_iff.mpr (hpairs.imp fun _ _ h => h.1)
  refine ⟨cuts, ?_, ?_, featureConfig, _, metrics, hextracted, hwidths, ?_, rfl⟩
  · rw [jobWindows, hsize]
    exact hcuts
  · rintro rfl
    cases hpairs
    exact hsome rfl
  · rw [← hlabels]
    exact hfit

end

/-- The rows that a finished export hands to the job. -/
def Export.stream (e : Export) : List RowDoc := e.rows.map (·.doc)

/-- What a model is trained on, of the rows that `e` has read. -/
structure TrainedOn (trainer : Trainer) (spec : SpecDoc)
    (stores : Nat → Config LabelSystem LabelEvent (Except Failure Unit)) (e : Export)
    (windowSize : Int) (cuts : List Cut) (result : Nornir.JobResult) : Prop where
  size : jobWindowSize trainer.intOfStr spec = .ok windowSize
  fitted : FittedTo trainer spec e.stream cuts result
  /-- The windows show one receiver in one room, with samples of the store. -/
  trueToStore : ∀ cut ∈ cuts, TrueToStore stores spec.exportArgs e (blockLength windowSize) cut
  /-- No row is in two windows. -/
  apart : ∀ rid, (cutsOf rid cuts).flatten.Pairwise fun x y => x.time < y.time
  /-- What stayed in the table during the whole export was read. -/
  kept : e.ending = .finished → ∀ t,
    (∀ k < e.pages.length, t ∈ spec.exportArgs.matching (stores k).state.db) →
      .modelValidate t ∈ e.rows

/-- What a model is trained on, when its job begins to read in a store that mirrors its samples. -/
theorem trainedOn_of_mirrored (numerals : Numerals) {py : Pydantic} {build : Build}
    {trainer : Trainer} {spec : SpecDoc} {result : Nornir.JobResult} {s₀ : LabelSystem}
    {stores : Nat → Config LabelSystem LabelEvent (Except Failure Unit)} {e : Export} {fuel : Nat}
    (hmirrored : Mirrored s₀) (hreads : ReadDuring s₀ stores)
    (he : iterTrainingData numerals spec.exportArgs (fun _ => none) (fun k => (stores k).state.db)
      fuel = e)
    (hjob : runJob py build trainer spec (.ok e.stream) = .ok result) :
    ∃ windowSize cuts, TrainedOn trainer spec stores e windowSize cuts result := by
  subst he
  obtain ⟨cuts, hfitted⟩ := exists_fit_of_runJob hjob
  obtain ⟨windowSize, hsize, hcuts⟩ := Except.bind_eq_ok.mp hfitted.windows
  refine ⟨windowSize, cuts, hsize, hfitted, ?_, ?_, ?_⟩
  · obtain ⟨cuts', hcuts', hblocks, -⟩ := cutWindows_blocks windowSize (labelled_rows _)
    cases hcuts.symm.trans hcuts'
    intro cut hcut
    obtain ⟨run, k, hblock⟩ := hblocks cut hcut
    exact trueToStore_of_block hreads hmirrored (blockLength_pos windowSize) hblock
  · exact pairwise_windows (pairwise_export numerals rfl _ fuel) hcuts
  · exact fun hfinished t hstable => mem_rows_of_stable hstable hfinished

/-- What a model is trained on, when its job reads its pages at any moments of any run of the
    label store. -/
theorem trainedOn_of_runs (numerals : Numerals) {py : Pydantic} {build : Build}
    {trainer : Trainer} {spec : SpecDoc} {result : Nornir.JobResult} {s₀ : LabelSystem}
    {stores : Nat → Config LabelSystem LabelEvent (Except Failure Unit)} {e : Export} {fuel : Nat}
    (hkeys : s₀.db.DistinctKeys) (hstart : MirrorsCsiSamples s₀.db)
    (hidle : s₀.syncs = [] ∧ s₀.resyncs = []) (hreads : ReadDuring s₀ stores)
    (he : iterTrainingData numerals spec.exportArgs (fun _ => none) (fun k => (stores k).state.db)
      fuel = e)
    (hjob : runJob py build trainer spec (.ok e.stream) = .ok result) :
    ∃ windowSize cuts, TrainedOn trainer spec stores e windowSize cuts result :=
  trainedOn_of_mirrored numerals ((mirrored_iff hkeys hidle.1 hidle.2).mpr hstart) hreads he hjob

/-- A job over the kitchen, in windows of one row. -/
def kitchenJobSpec : SpecDoc :=
  ⟨"random_forest", [("window_size", .int 1)], .obj [], 0, 10, ["kitchen"]⟩

/-- A training whose model is the lengths of the feature vectors. -/
def tallyTrainer : Trainer where
  intOfStr _ := none
  extractFeatures rows _ := .ok (rows.map fun _ => 0)
  fit features _ _ := .ok (features.map fun f => UInt8.ofNat f.length, .empty)

/-- The store after its one sample was labelled. -/
def labelledKitchen : Config LabelSystem LabelEvent (Except Failure Unit) :=
  labelMachine.replay ⟨[], oneRoomStore⟩ [.createLabel kitchenLabel 1, .backfill 0, .sync 0]

theorem trainedOn_of_labelledKitchen :
    ∃ windowSize cuts result, TrainedOn tallyTrainer kitchenJobSpec (fun _ => labelledKitchen)
      (iterTrainingData noNumerals kitchenJobSpec.exportArgs (fun _ => none)
        (fun _ => labelledKitchen.state.db) 1) windowSize cuts result := by
  have hreads : ReadDuring oneRoomStore fun _ => labelledKitchen :=
    ⟨Machine.run_of_admits ⟨trivial, trivial, trivial, trivial⟩, fun _ => .refl⟩
  cases hjob : runJob exactPydantic .current tallyTrainer kitchenJobSpec
      (.ok (iterTrainingData noNumerals kitchenJobSpec.exportArgs (fun _ => none)
        (fun _ => labelledKitchen.state.db) 1).stream) with
  | ok result =>
    obtain ⟨windowSize, cuts, h⟩ := trainedOn_of_runs noNumerals (by decide)
      oneRoomStore_mirrors ⟨rfl, rfl⟩ hreads rfl hjob
    exact ⟨windowSize, cuts, result, h⟩
  | error e =>
    have hok : (runJob exactPydantic .current tallyTrainer kitchenJobSpec
        (.ok (iterTrainingData noNumerals kitchenJobSpec.exportArgs (fun _ => none)
          (fun _ => labelledKitchen.state.db) 1).stream)).toOption.isSome = true := by
      decide +kernel
    rw [hjob] at hok
    cases hok

end Grimnir
