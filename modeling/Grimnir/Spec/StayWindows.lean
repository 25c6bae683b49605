import Grimnir.ForStd.Spans
import Grimnir.Native.JobSystem
import Grimnir.Native.TrainingStream
import Grimnir.Spec.ExportExact
import Grimnir.Spec.WindowAgreement

/-!
# Training windows and separate stays

`_windows` drops a partial window when the label of a receiver changes in the stream it sees.
A job sees the rows of the rooms that the endpoint reads from its request, so a stay in another
room is no change there: rows from before and after it can share a window.

## Key results

- `cutsOf_eq_blocks`: the windows of a receiver are the blocks of its runs of one label
- `contiguous_iff`: every window is one stay exactly when no hidden stay lies within a block
- `stays_joined`: two stays in the study, with one in the hall left out
-/

namespace Grimnir

open List (pushItem SpansCut)

namespace Nornir

/-- The labels are the same. -/
def sameLabel (x y : RowDoc) : Bool := x.label = y.label

/-- The rows of a receiver. -/
def ofReceiver (rid : Int) (rows : List RowDoc) : List RowDoc :=
  rows.filter (·.receiverId = some rid)

/-- The longest runs of one label among the rows of a receiver. -/
def labelRuns (rid : Int) (rows : List RowDoc) : List (List RowDoc) :=
  (ofReceiver rid rows).splitBy sameLabel

/-! ## What `_windows` cuts -/

/-- Rows as Freki sends them. -/
def Labelled (rows : List RowDoc) : Prop :=
  ∀ row ∈ rows, ∃ rid label, row.receiverId = some rid ∧ row.label = some label

/-- What the loop remembers of the rows of a receiver. -/
structure Remembers (w : Nat) (rid : Int) (rows : List RowDoc) (s : WindowState)
    (out : List (List RowDoc)) : Prop where
  label : s.labels.get? rid = (ofReceiver rid rows).getLast?.bind (·.label)
  cut : SpansCut sameLabel w (ofReceiver rid rows) out (s.buf rid)

/-- Before the first row nothing is remembered. -/
private theorem remembers_empty (w : Nat) (rid : Int) : Remembers w rid [] .empty [] :=
  ⟨rfl, SpansCut.nil sameLabel w⟩

/-- A row of the receiver is its last one. -/
theorem ofReceiver_concat_self {rid : Int} {row : RowDoc} (hrid : row.receiverId = some rid)
    (rows : List RowDoc) : ofReceiver rid (rows ++ [row]) = ofReceiver rid rows ++ [row] := by
  simp [ofReceiver, hrid]

/-- A row of another receiver is not its. -/
theorem ofReceiver_concat_ne {rid rid' : Int} {row : RowDoc}
    (hrid : row.receiverId = some rid') (hne : rid' ≠ rid) (rows : List RowDoc) :
    ofReceiver rid (rows ++ [row]) = ofReceiver rid rows := by
  simp [ofReceiver, hrid, hne]

/-- The windows of one receiver are all its own. -/
private theorem cutsOf_map (rid rid' : Int) (label : String) (bs : List (List RowDoc)) :
    cutsOf rid (bs.map (⟨rid', ·, label⟩)) = if rid' = rid then bs else [] := by
  by_cases hsame : rid' = rid
  · simp [cutsOf, List.filter_map, Function.comp_def, hsame]
  · simp [cutsOf, List.filter_map, Function.comp_def, hsame]

/-- The windows of a receiver, part by part. -/
private theorem cutsOf_append (rid : Int) (cuts cuts' : List Cut) :
    cutsOf rid (cuts ++ cuts') = cutsOf rid cuts ++ cutsOf rid cuts' := by
  simp [cutsOf]

/-- One row. -/
theorem Remembers.step {windowSize : Int} {rid rid' : Int} {rows : List RowDoc}
    {s s' : WindowState} {out : List (List RowDoc)} {row : RowDoc} {label : String}
    (h : Remembers (blockLength windowSize) rid rows s out) (hrows : Labelled rows)
    (hrid : row.receiverId = some rid') (hlabel : row.label = some label)
    (hbuf : s'.buf = Function.update s.buf rid'
      (pushItem (blockLength windowSize) (s.backlog rid' label) row).2)
    (hlabels : s'.labels = s.labels.set rid' label) :
    Remembers (blockLength windowSize) rid (rows ++ [row]) s'
      (out ++ cutsOf rid ((pushItem (blockLength windowSize) (s.backlog rid' label) row).1.map
        (⟨rid', ·, label⟩))) := by
  have hget : s'.labels.get? rid = if rid' = rid then some label else s.labels.get? rid := by
    rw [hlabels, Dict.get?_set]
  by_cases hsame : rid' = rid
  · subst hsame
    rw [cutsOf_map, if_pos rfl]
    -- `rid'` is the receiver looked at: its backlog and its remembered label move
    constructor
    · rw [hget, if_pos rfl, ofReceiver_concat_self hrid, List.getLast?_concat]
      exact hlabel.symm
    · rw [hbuf, Function.update_self, ofReceiver_concat_self hrid]
      apply h.cut.append (blockLength_pos windowSize)
      · intro x hx
        -- the label that is remembered is that of the receiver's last row
        have hmem : x ∈ rows := (List.mem_filter.mp (List.mem_of_mem_getLast? hx)).1
        obtain ⟨-, label', -, hlabel'⟩ := hrows x hmem
        have hlast : s.labels.get? rid' = some label' := by
          rw [h.label, hx]
          exact hlabel'
        simp [WindowState.backlog, hlast, sameLabel, hlabel, hlabel']
      · intro hnil
        unfold WindowState.backlog
        split
        · exact h.cut.empty hnil
        · rfl
  -- another receiver's row touches neither
  · rw [cutsOf_map, if_neg hsame, List.append_nil]
    constructor
    · rw [hget, if_neg hsame, ofReceiver_concat_ne hrid hsame]
      exact h.label
    · rw [hbuf, Function.update_of_ne (Ne.symm hsame), ofReceiver_concat_ne hrid hsame]
      exact h.cut

/-- All rows. -/
private theorem cutWindows_runs {windowSize : Int} {before rows : List RowDoc} {s : WindowState}
    {outs : Int → List (List RowDoc)} (hbefore : Labelled before) (hrows : Labelled rows)
    (h : ∀ rid, Remembers (blockLength windowSize) rid before s (outs rid)) :
    ∃ cuts, cutWindows windowSize s rows = .ok cuts ∧
      (∀ rid, outs rid ++ cutsOf rid cuts =
        (labelRuns rid (before ++ rows)).flatMap (List.blocks (blockLength windowSize))) ∧
      ∀ cut ∈ cuts, cut.rows.getLast?.bind (·.label) = some cut.label := by
  -- `before` are the rows that the loop has read, `outs` the windows it has handed on
  induction rows generalizing before s outs with
  | nil =>
    refine ⟨[], rfl, fun rid => ?_, fun cut hcut => (nomatch hcut)⟩
    have hout := (h rid).cut.blocks
    rw [List.append_nil]
    simpa [cutsOf, labelRuns] using hout
  | cons row rows ih =>
    obtain ⟨rid', label, hrid, hlabel⟩ := hrows row List.mem_cons_self
    obtain ⟨cut, s', hstep, hcut, hbuf, hlabels⟩ :=
      s.step_row windowSize hrid hlabel
    have hnext : ∀ rid, Remembers (blockLength windowSize) rid (before ++ [row]) s'
        (outs rid ++ cutsOf rid cut.toList) := by
      intro rid
      rw [hcut]
      exact (h rid).step hbefore hrid hlabel hbuf hlabels
    have hbefore' : Labelled (before ++ [row]) := by
      intro r hr
      cases List.mem_append.mp hr with
      | inl hin => exact hbefore r hin
      | inr hin => exact ⟨rid', label, List.mem_singleton.mp hin ▸ ⟨hrid, hlabel⟩⟩
    obtain ⟨cuts, hcuts, hruns, hlast⟩ :=
      ih hbefore' (fun r hr => hrows r (List.mem_cons_of_mem row hr)) hnext
    refine ⟨cut.toList ++ cuts, ?_, fun rid => ?_, fun c hc => ?_⟩
    · rw [cutWindows, hstep]
      show (cutWindows windowSize s' rows >>= _) = _
      rw [hcuts]
      rfl
    · rw [cutsOf_append, ← List.append_assoc, hruns rid, List.append_assoc,
        List.singleton_append]
    · cases List.mem_append.mp hc with
      | inl hin =>
        -- the row that completes a window is its last one
        rw [hcut] at hin
        obtain ⟨b, hb, rfl⟩ := List.mem_map.mp hin
        unfold pushItem at hb
        split at hb
        · rw [List.mem_singleton.mp hb, List.getLast?_concat]
          exact hlabel
        · cases hb
      | inr hin => exact hlast c hin

/-- The windows of a receiver are the blocks of its runs of one label. -/
theorem cutsOf_eq_blocks (windowSize : Int) {rows : List RowDoc} (hrows : Labelled rows) :
    ∃ cuts, cutWindows windowSize .empty rows = .ok cuts ∧
      (∀ rid, cutsOf rid cuts =
        (labelRuns rid rows).flatMap (List.blocks (blockLength windowSize))) ∧
      ∀ cut ∈ cuts, cut.rows.getLast?.bind (·.label) = some cut.label := by
  have hempty : ∀ rid, Remembers (blockLength windowSize) rid [] .empty [] :=
    fun rid => remembers_empty _ rid
  have hnil : Labelled [] := by
    intro row hrow
    cases hrow
  exact cutWindows_runs hnil hrows hempty

/-- The window is the `k`-th block of a run of its receiver. -/
structure BlockOf (w : Nat) (rows : List RowDoc) (cut : Cut) (run : List RowDoc) (k : Nat) :
    Prop where
  mem : run ∈ labelRuns cut.receiverId rows
  complete : (k + 1) * w ≤ run.length
  eq : cut.rows = (run.drop (k * w)).take w
  last : cut.rows.getLast?.bind (·.label) = some cut.label

/-- The windows of a receiver are those that carry its id. -/
private theorem mem_cutsOf {rid : Int} {cuts : List Cut} {rows : List RowDoc} :
    rows ∈ cutsOf rid cuts ↔ ∃ cut ∈ cuts, cut.receiverId = rid ∧ cut.rows = rows := by
  simp [cutsOf, and_assoc]

/-- The windows are the complete blocks of the runs. -/
theorem cutWindows_blocks (windowSize : Int) {rows : List RowDoc} (hrows : Labelled rows) :
    ∃ cuts, cutWindows windowSize .empty rows = .ok cuts ∧
      (∀ cut ∈ cuts, ∃ run k, BlockOf (blockLength windowSize) rows cut run k) ∧
      ∀ rid, ∀ run ∈ labelRuns rid rows, ∀ k, (k + 1) * blockLength windowSize ≤ run.length →
        ∃ cut ∈ cuts, cut.receiverId = rid ∧ BlockOf (blockLength windowSize) rows cut run k := by
  have hw := blockLength_pos windowSize
  obtain ⟨cuts, hcuts, hruns, hlast⟩ := cutsOf_eq_blocks windowSize hrows
  refine ⟨cuts, hcuts, fun cut hcut => ?_, fun rid run hrun k hfit => ?_⟩
  · have hmem : cut.rows ∈ cutsOf cut.receiverId cuts := mem_cutsOf.mpr ⟨cut, hcut, rfl, rfl⟩
    rw [hruns, List.mem_flatMap] at hmem
    obtain ⟨run, hrun, hblock⟩ := hmem
    obtain ⟨k, hfit, hblock⟩ := (List.mem_blocks_iff hw).mp hblock
    exact ⟨run, k, hrun, hfit, hblock, hlast cut hcut⟩
  · have hmem : (run.drop (k * blockLength windowSize)).take (blockLength windowSize) ∈
        cutsOf rid cuts := by
      rw [hruns, List.mem_flatMap]
      exact ⟨run, hrun, (List.mem_blocks_iff hw).mpr ⟨k, hfit, rfl⟩⟩
    obtain ⟨cut, hcut, rfl, hblock⟩ := mem_cutsOf.mp hmem
    exact ⟨cut, hcut, rfl, hrun, hfit, hblock, hlast cut hcut⟩

section

variable {w k : Nat} {rows run : List RowDoc} {cut : Cut}

/-- A row of the window is a row of its run. -/
private theorem BlockOf.mem_run (h : BlockOf w rows cut run k) {row : RowDoc}
    (hrow : row ∈ cut.rows) : row ∈ run := by
  rw [h.eq] at hrow
  exact List.mem_of_mem_drop (List.mem_of_mem_take hrow)

/-- A row of the window is a row of its receiver. -/
theorem BlockOf.mem_ofReceiver (h : BlockOf w rows cut run k) {row : RowDoc}
    (hrow : row ∈ cut.rows) : row ∈ ofReceiver cut.receiverId rows :=
  (List.infix_of_mem_splitBy h.mem).subset (h.mem_run hrow)

/-- The window's rows by their places in the run. -/
theorem BlockOf.getElem? (h : BlockOf w rows cut run k) {j : Nat} (hj : j < w) :
    cut.rows[j]? = run[k * w + j]? := by
  rw [h.eq, List.getElem?_block hj]

/-- A window is full. -/
theorem BlockOf.length (hw : 0 < w) (h : BlockOf w rows cut run k) : cut.rows.length = w :=
  List.length_of_mem_blocks hw ((List.mem_blocks_iff hw).mpr ⟨k, h.complete, h.eq⟩)

/-- So it is not empty. -/
theorem BlockOf.ne_nil (hw : 0 < w) (h : BlockOf w rows cut run k) : cut.rows ≠ [] := by
  intro hnil
  have hlength := h.length hw
  rw [hnil, List.length_nil] at hlength
  omega

/-- All rows of a run have the label of the last row of the window. -/
theorem BlockOf.label (h : BlockOf w rows cut run k) {row : RowDoc} (hrow : row ∈ cut.rows) :
    row.label = some cut.label := by
  obtain ⟨last, hmem, hlabel⟩ := Option.bind_eq_some_iff.mp h.last
  have hsame := List.eq_of_mem_splitBy (f := RowDoc.label)
    (fun x y hxy => of_decide_eq_true hxy) h.mem
  rw [← hlabel]
  exact hsame row (h.mem_run hrow) last (h.mem_run (List.mem_of_mem_getLast? hmem))

end

end Nornir

open Nornir

/-! ## What a window spans -/

/-- The window is one stay of one receiver in one room. -/
structure Contiguous (db : LabelDb) (cut : Cut) : Prop where
  receiver : ∀ row ∈ cut.rows, row.receiverId = some cut.receiverId
  label : ∀ row ∈ cut.rows, row.label = some cut.label
  /-- No row of the receiver with another label is between its first and its last row. -/
  stay : ∀ t ∈ db.trainingSamples, t.receiverId = cut.receiverId → t.label ≠ cut.label →
    ∀ first ∈ cut.rows.head?, ∀ last ∈ cut.rows.getLast?,
      ¬(first.time ≤ t.time ∧ t.time ≤ last.time)

/-- The documents of the rows that match the filter. -/
def ExportArgs.docs (args : ExportArgs) (db : LabelDb) : List RowDoc :=
  (args.matching db).map fun t => (TrainingSampleOut.modelValidate t).doc

/-- No row of a room that is left out lies between two neighbours of a run that are in one
    complete block of it. -/
def NoHiddenStay (w : Nat) (args : ExportArgs) (db : LabelDb) (rows : List RowDoc) : Prop :=
  ∀ rid, ∀ run ∈ labelRuns rid rows, ∀ i a b,
    run[i]? = some a → run[i + 1]? = some b → (i + 1) % w ≠ 0 →
    ((i + 1) / w + 1) * w ≤ run.length →
      ∀ t ∈ db.trainingSamples, t.receiverId = rid → t.label ∉ args.roomList →
        ¬(a.time < t.time ∧ t.time < b.time)

section

variable {args : ExportArgs} {db : LabelDb} {rows : List RowDoc}

/-- The rows of an export carry labels and receivers. -/
private theorem labelled_docs (args : ExportArgs) (db : LabelDb) : Labelled (args.docs db) := by
  intro row hrow
  obtain ⟨t, -, rfl⟩ := List.mem_map.mp hrow
  exact ⟨t.receiverId, t.label, rfl, rfl⟩

/-- The exported rows of a receiver are its training samples that match. -/
theorem mem_ofReceiver {rid : Int} {row : RowDoc} (h : row ∈ ofReceiver rid (args.docs db)) :
    ∃ t ∈ db.trainingSamples, t.receiverId = rid ∧ args.matches t = true ∧
      row.time = t.time ∧ row.label = some t.label := by
  obtain ⟨hmem, hrid⟩ := List.mem_filter.mp h
  obtain ⟨t, ht, rfl⟩ := List.mem_map.mp hmem
  obtain ⟨hin, hmatch⟩ := ExportArgs.mem_matching.mp ht
  exact ⟨t, hin, Option.some.inj (of_decide_eq_true hrid), hmatch, rfl, rfl⟩

/-- A row that matches is among those of its receiver. -/
private theorem mem_ofReceiver_of_matches {t : TrainingSample} (ht : t ∈ db.trainingSamples)
    (hmatch : args.matches t = true) :
    (TrainingSampleOut.modelValidate t).doc ∈ ofReceiver t.receiverId (args.docs db) := by
  apply List.mem_filter.mpr
  constructor
  · exact List.mem_map_of_mem (ExportArgs.mem_matching.mpr ⟨ht, hmatch⟩)
  · exact decide_eq_true rfl

/-- The first exported rows of a receiver are the first of its rows that match. -/
private theorem prefix_ofReceiver (hstart : rows <+: args.docs db) (rid : Int) :
    ofReceiver rid rows <+: ofReceiver rid (args.docs db) :=
  hstart.filter _

/-- Their times ascend. -/
private theorem pairwise_ofReceiver (args : ExportArgs) (db : LabelDb) (rid : Int) :
    (ofReceiver rid (args.docs db)).Pairwise fun x y => x.time < y.time := by
  -- validation keeps the receiver, so the filter may go to the table
  have hmap : ofReceiver rid (args.docs db) =
      ((args.matching db).filter (·.receiverId = rid)).map
        fun t => (TrainingSampleOut.modelValidate t).doc := by
    unfold ofReceiver ExportArgs.docs
    rw [List.filter_map]
    congr 1
    apply List.filter_congr
    intro t _
    simp [TrainingSampleOut.doc, TrainingSampleOut.modelValidate]
  rw [hmap, List.pairwise_map]
  -- the keys ascend, and among rows of one receiver that means the times
  have hkeys := (args.ascending_matching db).filter (·.receiverId = rid)
  refine hkeys.imp_of_mem ?_
  intro t t' ht ht' hlt
  have hrid : t.receiverId = rid := of_decide_eq_true (List.mem_filter.mp ht).2
  have hrid' : t'.receiverId = rid := of_decide_eq_true (List.mem_filter.mp ht').2
  change toLex (t.time, t.receiverId) < toLex (t'.time, t'.receiverId) at hlt
  rw [Prod.Lex.toLex_lt_toLex] at hlt
  cases hlt with
  | inl hbefore => exact hbefore
  | inr hsame =>
    rw [hrid, hrid'] at hsame
    exact absurd hsame.2 (lt_irrefl _)

/-- A row of one receiver at one time has one label. -/
private theorem label_of_time_eq {rid : Int} {row : RowDoc}
    (h : row ∈ ofReceiver rid (args.docs db))
    {t : TrainingSample} (ht : t ∈ db.trainingSamples) (hrid : t.receiverId = rid)
    (htime : row.time = t.time) : row.label = some t.label := by
  obtain ⟨t', ht', hrid', -, htime', hlabel⟩ := mem_ofReceiver h
  -- time and receiver are the primary key
  have hkey : t'.key = t.key := Prod.ext (htime'.symm.trans htime) (hrid'.trans hrid.symm)
  rw [hlabel, db.trainingSamples.eq_of_key_eq ht' ht hkey]

/-- Of two neighbours in a run, none of the receiver's rows that match is between them. -/
private theorem not_between_of_matches (hstart : rows <+: args.docs db) {rid : Int}
    {run : List RowDoc} (hrun : run ∈ labelRuns rid rows) {i : Nat} {a b : RowDoc}
    (ha : run[i]? = some a) (hb : run[i + 1]? = some b) {t : TrainingSample}
    (ht : t ∈ db.trainingSamples) (hrid : t.receiverId = rid) (hmatch : args.matches t = true) :
    ¬(a.time < t.time ∧ t.time < b.time) := by
  intro hbetween
  obtain ⟨k, hk⟩ := List.exists_getElem?_of_infix (List.infix_of_mem_splitBy hrun)
  have hmem := mem_ofReceiver_of_matches ht hmatch
  rw [hrid] at hmem
  -- neighbours of the exported rows are neighbours among all that match
  have hall : ∀ j x, (ofReceiver rid rows)[j]? = some x →
      (ofReceiver rid (args.docs db))[j]? = some x :=
    fun j x hx => by
      obtain ⟨rest, hrest⟩ := prefix_ofReceiver hstart rid
      rw [← hrest, List.getElem?_append_left (List.getElem?_eq_some_iff.mp hx).1, hx]
  cases List.le_or_le_of_adjacent (pairwise_ofReceiver args db rid) (hall _ _ (hk i a ha))
    (hall _ _ (hk (i + 1) b hb)) hmem with
  | inl hle => exact absurd hbetween.1 (not_lt.mpr hle)
  | inr hle => exact absurd hbetween.2 (not_lt.mpr hle)

/-- A row between two rows that match is in the window of the export, so only its room can keep
    it out. -/
private theorem matches_of_between {rid : Int} {a b : RowDoc}
    (ha : a ∈ ofReceiver rid (args.docs db))
    (hb : b ∈ ofReceiver rid (args.docs db)) {t : TrainingSample}
    (hbetween : a.time < t.time ∧ t.time < b.time) (hroom : t.label ∈ args.roomList) :
    args.matches t = true := by
  obtain ⟨r, -, -, hr, hatime, -⟩ := mem_ofReceiver ha
  obtain ⟨r', -, -, hr', hbtime, -⟩ := mem_ofReceiver hb
  unfold ExportArgs.matches at hr hr' ⊢
  rw [Bool.and_eq_true, Window.contains_iff] at hr hr' ⊢
  rw [hatime, hbtime] at hbetween
  constructor
  · exact ⟨le_trans hr.1.1 (le_of_lt hbetween.1), lt_trans hbetween.2 hr'.1.2⟩
  · exact List.contains_iff_mem.mpr hroom

section Block

variable {w k : Nat} {run : List RowDoc} {cut : Cut}

/-- The rows of a window match the filter. -/
private theorem mem_of_block (hstart : rows <+: args.docs db) (h : BlockOf w rows cut run k)
    {row : RowDoc} (hrow : row ∈ cut.rows) : row ∈ ofReceiver cut.receiverId (args.docs db) :=
  (prefix_ofReceiver hstart cut.receiverId).subset (h.mem_ofReceiver hrow)

/-- A window's label is one of the rooms that were asked for. -/
private theorem room_of_block (hw : 0 < w) (hstart : rows <+: args.docs db)
    (h : BlockOf w rows cut run k) :
    cut.label ∈ args.roomList := by
  obtain ⟨row, hrow⟩ := List.exists_mem_of_ne_nil cut.rows (h.ne_nil hw)
  obtain ⟨t, -, -, hmatch, -, hlabel⟩ := mem_ofReceiver (mem_of_block hstart h hrow)
  rw [h.label hrow] at hlabel
  unfold ExportArgs.matches at hmatch
  rw [Bool.and_eq_true, List.contains_iff_mem] at hmatch
  rw [Option.some.inj hlabel]
  exact hmatch.2

/-- The rows of a window are of one receiver, so their times ascend strictly. -/
private theorem pairwise_block (hstart : rows <+: args.docs db) (h : BlockOf w rows cut run k) :
    cut.rows.Pairwise fun x y => x.time < y.time := by
  have hrun := (pairwise_ofReceiver args db cut.receiverId).sublist
    ((List.infix_of_mem_splitBy h.mem).sublist.trans
      (prefix_ofReceiver hstart cut.receiverId).sublist)
  rw [h.eq]
  exact (hrun.sublist (List.drop_sublist _ _)).sublist (List.take_sublist _ _)

/-- A row of another room within a window is between two neighbours of it, and it is hidden:
    one that matches would be among the rows of the receiver. -/
private theorem exists_hidden_of_within (hw : 0 < w) (hstart : rows <+: args.docs db)
    (h : BlockOf w rows cut run k)
    {t : TrainingSample} (ht : t ∈ db.trainingSamples) (hrid : t.receiverId = cut.receiverId)
    (hlabel : t.label ≠ cut.label) (hfirst : ∀ a ∈ cut.rows.head?, a.time ≤ t.time)
    (hlast : ∀ a ∈ cut.rows.getLast?, t.time ≤ a.time) :
    t.label ∉ args.roomList ∧ ∃ j a b, j + 1 < w ∧ run[k * w + j]? = some a ∧
      run[k * w + (j + 1)]? = some b ∧ a.time < t.time ∧ t.time < b.time := by
  cases List.exists_adjacent_of_between hfirst hlast (h.ne_nil hw) with
  | inl hsame =>
    obtain ⟨row, hrow, htime⟩ := hsame
    have heq := label_of_time_eq (mem_of_block hstart h hrow) ht hrid htime
    rw [h.label hrow] at heq
    exact absurd (Option.some.inj heq).symm hlabel
  | inr hbetween =>
    obtain ⟨j, a, b, ha, hb, hbetween⟩ := hbetween
    have hj : j + 1 < w := by
      rw [← h.length hw]
      exact (List.getElem?_eq_some_iff.mp hb).1
    have hrun := ha
    have hrun' := hb
    rw [h.getElem? (by omega)] at hrun
    rw [h.getElem? hj] at hrun'
    refine ⟨fun hroom => ?_, j, a, b, hj, hrun, hrun', hbetween⟩
    -- of a room of the job it would be a row between two neighbours of the run
    have hmatch := matches_of_between (mem_of_block hstart h (List.mem_of_getElem? ha))
      (mem_of_block hstart h (List.mem_of_getElem? hb)) hbetween hroom
    exact not_between_of_matches hstart h.mem hrun hrun' ht hrid hmatch hbetween

/-- A window is one stay exactly when no hidden row is between two neighbours of it. -/
private theorem contiguous_block_iff (hw : 0 < w) (hstart : rows <+: args.docs db)
    (h : BlockOf w rows cut run k) :
    Contiguous db cut ↔ ∀ j a b, j + 1 < w → run[k * w + j]? = some a →
      run[k * w + (j + 1)]? = some b → ∀ t ∈ db.trainingSamples,
        t.receiverId = cut.receiverId → t.label ∉ args.roomList →
          ¬(a.time < t.time ∧ t.time < b.time) := by
  have hnonempty := h.ne_nil hw
  constructor
  -- two neighbours of a window enclose the row, so the window does
  · intro hstay j a b hj ha hb t ht hrid hroom hbetween
    rw [← h.getElem? (by omega)] at ha
    rw [← h.getElem? hj] at hb
    have hlabel : t.label ≠ cut.label := by
      intro heq
      exact hroom (heq ▸ room_of_block hw hstart h)
    -- between two rows of the window is within the window
    have hsorted := pairwise_block hstart h
    have hfirst := List.head_le_of_mem hsorted (List.head?_eq_some_head hnonempty)
      (List.mem_of_getElem? ha)
    have hlast := List.le_getLast_of_mem hsorted (List.getLast?_eq_some_getLast hnonempty)
      (List.mem_of_getElem? hb)
    exact hstay.stay t ht hrid hlabel _ (List.head?_eq_some_head hnonempty) _
      (List.getLast?_eq_some_getLast hnonempty)
      ⟨le_trans hfirst (le_of_lt hbetween.1), le_trans (le_of_lt hbetween.2) hlast⟩
  · intro hhidden
    constructor
    · intro row hrow
      exact of_decide_eq_true (List.mem_filter.mp (h.mem_ofReceiver hrow)).2
    · intro row hrow
      exact h.label hrow
    -- a row inside the window lies strictly between two of its neighbours
    · intro t ht hrid hlabel first hfirst last hlast hwithin
      have hheads : ∀ a ∈ cut.rows.head?, a.time ≤ t.time := by
        intro a ha
        cases ha.symm.trans hfirst
        exact hwithin.1
      have hlasts : ∀ a ∈ cut.rows.getLast?, t.time ≤ a.time := by
        intro a ha
        cases ha.symm.trans hlast
        exact hwithin.2
      obtain ⟨hroom, j, a, b, hj, ha, hb, hbetween⟩ :=
        exists_hidden_of_within hw hstart h ht hrid hlabel hheads hlasts
      exact hhidden j a b hj ha hb t ht hrid hroom hbetween

end Block

end

/-! ## The windows of a job -/

/-- A job over the study, in windows of two rows. -/
def studyPairs : JobSpec where
  modelType := "random_forest"
  hyperparams := [("window_size", .int 2)]
  featureConfig := .default .current
  timeStart := 0
  timeEnd := 100
  rooms := ["study"]
  roomsBounds := ⟨Nat.le_refl 1, Nat.succ_le_succ (Nat.zero_le 31)⟩

/-- A labelled row of receiver 1. -/
def stayRow (time : Timestamp) (label : String) : TrainingSample :=
  ⟨⟨time, 1, "aa:bb:cc:dd:ee:ff", -40, none, 6, 20, 1, 1, [0], [0], none⟩, label⟩

/-- A store of two rooms. -/
def stayStore (rows : Table TrainingSample TrainingSample.key) : LabelDb where
  rooms := ⟨[⟨"study", 1, 1⟩, ⟨"hall", 1, 1⟩], by decide⟩
  labels := Table.empty
  labelsIdSeq := 1
  csiSamples := []
  trainingSamples := rows
  labelsRoomFkey := fun l hl => absurd hl (Table.notMem_empty l)
  labelsIdBelow := labelsIdBelow_empty

/-- A stay in the study, one in the hall and another one in the study. -/
def returnStore : LabelDb :=
  stayStore ⟨[stayRow 10 "study", stayRow 20 "hall", stayRow 30 "study"], by decide⟩

/-- An export hands the first rows that match to the job. -/
private theorem docs_prefix (numerals : Numerals) (args : ExportArgs) (db : LabelDb) (fuel : Nat) :
    (exportOf numerals args db fuel).rows.map (·.doc) <+: args.docs db := by
  by_cases h : args.Accepted
  · have hstart : (exportOf numerals args db fuel).rows <+: _ :=
      export_prefix_of_constant numerals h rfl (fun _ => rfl) fuel
    have hdocs := hstart.map (·.doc)
    rwa [List.map_map] at hdocs
  · rw [exportOf, Export.rows, (iterTrainingData_of_not_accepted numerals h _ fuel).1]
    exact List.nil_prefix

/-- A finished one hands on all of them. -/
private theorem docs_of_finished (numerals : Numerals) {args : ExportArgs} {db : LabelDb}
    {fuel : Nat} (hfinished : (exportOf numerals args db fuel).ending = .finished) :
    (exportOf numerals args db fuel).rows.map (·.doc) = args.docs db := by
  have h : args.Accepted := by
    by_contra hno
    exact (iterTrainingData_of_not_accepted numerals hno _ fuel).2 hfinished
  have hrows : (exportOf numerals args db fuel).rows = _ :=
    export_rows_of_constant numerals h rfl (fun _ => rfl) hfinished
  rw [hrows, List.map_map]
  rfl

/-- The example's export is accepted. -/
private theorem accepted_studyPairs : studyPairs.dump.exportArgs.Accepted :=
  ⟨by decide, by decide, by decide, by decide, by decide, by decide, by decide⟩

/-- Freki takes the job, and the rows of the two stays in the study are one window. -/
theorem stays_joined :
    ∃ out fuel cuts,
      (createJob returnStore.rooms.rows studyPairs 200 JobDb.empty).1 = .ok out ∧
      (exportOf noNumerals out.spec.exportArgs returnStore fuel).ending = .finished ∧
      jobWindows (fun _ => none) out.spec
        ((exportOf noNumerals out.spec.exportArgs returnStore fuel).rows.map (·.doc)) =
          .ok cuts ∧
      ¬∀ cut ∈ cuts, Contiguous returnStore cut := by
  obtain ⟨enough, henough⟩ := exists_fuel_exportOf noNumerals accepted_studyPairs returnStore
  have hfinished := (henough enough le_rfl).2.mpr (by decide)
  let joined := [stayRow 10 "study", stayRow 30 "study"].map fun t =>
    (TrainingSampleOut.modelValidate t).doc
  refine ⟨_, enough, [⟨1, joined, "study"⟩], rfl, hfinished, ?_, ?_⟩
  · show jobWindows _ studyPairs.dump
      ((exportOf noNumerals studyPairs.dump.exportArgs returnStore enough).rows.map (·.doc)) = _
    rw [docs_of_finished noNumerals hfinished]
    decide
  · intro hall
    have hstay := hall ⟨1, joined, "study"⟩ List.mem_cons_self
    have hhall : stayRow 20 "hall" ∈ returnStore.trainingSamples :=
      Table.mem_def.mpr (by decide)
    exact hstay.stay _ hhall rfl (by decide) _ rfl _ rfl (by decide)

/-- The windows of the first rows that match are one stay each exactly when no hidden stay lies
    within a block of them. -/
private theorem contiguous_iff_noHiddenStay {args : ExportArgs} {db : LabelDb} {rows : List RowDoc}
    {w : Nat} {cuts : List Cut} (hw : 0 < w) (hstart : rows <+: args.docs db)
    (hblocks : ∀ cut ∈ cuts, ∃ run k, BlockOf w rows cut run k)
    (hall : ∀ rid, ∀ run ∈ labelRuns rid rows, ∀ k, (k + 1) * w ≤ run.length →
      ∃ cut ∈ cuts, cut.receiverId = rid ∧ BlockOf w rows cut run k) :
    (∀ cut ∈ cuts, Contiguous db cut) ↔ NoHiddenStay w args db rows := by
  constructor
  · -- two neighbours of which the second one starts no block are in one window
    intro hstays rid run hrun i a b ha hb hmod hfit t ht hrid hroom
    obtain ⟨cut, hcut, hreceiver, hblock⟩ := hall rid run hrun _ hfit
    obtain ⟨j, hj, hi⟩ := List.exists_adjacent_of_mod hw hmod
    rw [← hi] at ha hb
    exact (contiguous_block_iff hw hstart hblock).mp (hstays cut hcut) j a b hj ha hb t ht
      (hrid.trans hreceiver.symm) hroom
  · -- and two neighbours of one window are such neighbours
    intro hhidden cut hcut
    obtain ⟨run, k, hblock⟩ := hblocks cut hcut
    rw [contiguous_block_iff hw hstart hblock]
    intro j a b hj ha hb
    obtain ⟨hmod, hdiv⟩ := List.block_of_adjacent (k := k) hj
    have hfit : ((k * w + j + 1) / w + 1) * w ≤ run.length := by
      rw [hdiv]
      exact hblock.complete
    exact hhidden cut.receiverId run hblock.mem _ a b ha hb hmod hfit

/-- For every content of `training_samples` and every job: the export of a job is finished, or
    it fails at a page with a float that JSON does not have, or its first request is refused.
    Of the rows that it yields, which are the first ones that match and all of them when it is
    finished, `_windows` hands windows on to the extraction, and each of them is one stay of one
    receiver in one room exactly when no row of a room that the endpoint leaves out lies within
    a complete block of a run. -/
theorem contiguous_iff (numerals : Numerals) (intOfStr : String → Option Int) (spec : JobSpec)
    {windowSize : Int} (hspec : jobWindowSize intOfStr spec.dump = .ok windowSize)
    (db : LabelDb) :
    (spec.dump.exportArgs.Accepted → ∃ enough, ∀ fuel ≥ enough,
      Ended spec.dump.exportArgs (fun _ => db)
        (exportOf numerals spec.dump.exportArgs db fuel) ∧
      ((exportOf numerals spec.dump.exportArgs db fuel).ending = .finished ↔
        ∀ t ∈ spec.dump.exportArgs.matching db, t.isFinite = true)) ∧
    (¬spec.dump.exportArgs.Accepted → ∀ fuel,
      (exportOf numerals spec.dump.exportArgs db fuel).rows = []) ∧
    ∀ fuel e, e = exportOf numerals spec.dump.exportArgs db fuel →
      e.rows.map (·.doc) <+: spec.dump.exportArgs.docs db ∧
      (e.ending = .finished → e.rows.map (·.doc) = spec.dump.exportArgs.docs db) ∧
      ∃ cuts, jobWindows intOfStr spec.dump (e.rows.map (·.doc)) = .ok cuts ∧
        (∀ extract out, windows extract windowSize .empty (e.rows.map (·.doc)) = .ok out →
          List.Forall₂ (fun cut result => extract cut.rows = .ok result.1 ∧
            result.2 = cut.label) cuts out) ∧
        ((∀ cut ∈ cuts, Contiguous db cut) ↔
          NoHiddenStay (blockLength windowSize) spec.dump.exportArgs db
            (e.rows.map (·.doc))) := by
  refine ⟨fun h => exists_fuel_exportOf numerals h db, fun h fuel => ?_, fun fuel e he => ?_⟩
  · rw [exportOf, Export.rows, (iterTrainingData_of_not_accepted numerals h _ fuel).1]
    rfl
  · subst he
    have hstart := docs_prefix numerals spec.dump.exportArgs db fuel
    refine ⟨hstart, docs_of_finished numerals, ?_⟩
    have hlabelled : Labelled ((exportOf numerals spec.dump.exportArgs db fuel).rows.map
        (·.doc)) := fun row hrow => labelled_docs _ db row (hstart.subset hrow)
    obtain ⟨cuts, hcuts, hblocks, hall⟩ := cutWindows_blocks windowSize hlabelled
    refine ⟨cuts, ?_, fun extract out hout => ?_, ?_⟩
    · rw [jobWindows, hspec]
      exact hcuts
    · obtain ⟨cuts', hcuts', hpairs⟩ := windows_ok hout
      cases hcuts.symm.trans hcuts'
      exact hpairs
    · exact contiguous_iff_noHiddenStay (blockLength_pos windowSize) hstart hblocks hall

/-- A stay in the study, and one in the hall behind it. -/
def leaveStore : LabelDb :=
  stayStore ⟨[stayRow 10 "study", stayRow 20 "study", stayRow 30 "hall"], by decide⟩

/-- One stay behind another makes one window, and it is contiguous. -/
theorem contiguous_leaveStore :
    ∃ fuel cuts, jobWindows (fun _ => none) studyPairs.dump
        ((exportOf noNumerals studyPairs.dump.exportArgs leaveStore fuel).rows.map (·.doc)) =
          .ok cuts ∧
      cuts.length = 1 ∧ ∀ cut ∈ cuts, Contiguous leaveStore cut := by
  obtain ⟨hend, -, hcut⟩ :=
    contiguous_iff noNumerals (fun _ => none) studyPairs rfl leaveStore
  obtain ⟨enough, henough⟩ := hend accepted_studyPairs
  have hfinished := (henough enough le_rfl).2.mpr (by decide)
  obtain ⟨-, hdocs, cuts, hcuts, -, hiff⟩ := hcut enough _ rfl
  -- the study's two rows make the one window
  rw [hdocs hfinished] at hcuts hiff
  have hone : cuts.length = 1 := by
    have hlength : (jobWindows (fun _ => none) studyPairs.dump
        (studyPairs.dump.exportArgs.docs leaveStore)).map List.length = .ok 1 := by decide
    rw [hcuts] at hlength
    exact Except.ok.inj hlength
  refine ⟨enough, cuts, ?_, hone, hiff.mpr ?_⟩
  · rw [hdocs hfinished]
    exact hcuts
  intro rid run hrun i a b _ hb _ _ t ht _ hroom hbetween
  -- the only hidden row is behind all rows of the study
  have hhidden : ∀ t ∈ leaveStore.trainingSamples.rows,
      t.label ∉ studyPairs.dump.exportArgs.roomList → t.time = 30 := by decide
  have hstudy : ∀ row ∈ studyPairs.dump.exportArgs.docs leaveStore, row.time ≤ 20 := by
    decide
  have hmem : b ∈ ofReceiver rid (studyPairs.dump.exportArgs.docs leaveStore) :=
    (List.infix_of_mem_splitBy hrun).subset (List.mem_of_getElem? hb)
  have htime := hstudy b (List.mem_filter.mp hmem).1
  have hlt := hbetween.2
  rw [hhidden t (Table.mem_def.mp ht) hroom] at hlt
  exact absurd (lt_of_lt_of_le hlt htime) (by decide)

end Grimnir
