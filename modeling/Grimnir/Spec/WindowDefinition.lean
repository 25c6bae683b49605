import Grimnir.Spec.StayWindows
import Mathlib.Data.List.Forall2

/-!
# What the windows of a stream are

The loop of `_windows` keeps two maps; its windows are nevertheless what one would write down
without them: each receiver's rows, split where the label changes, cut into blocks.

## Key results

- `windows_eq_mapM`: the loop extracts the features of the windows it cuts, in order
- `cutWindows_places`: a window comes when its last row does
- `windows_asDefined`: the windows are those of the definition
-/

namespace Grimnir.Nornir

/-- The label of a run; a run is never empty. -/
def runLabel (run : List RowDoc) : String := (run.head?.bind (·.label)).getD ""

/-- The windows of a receiver: the complete blocks of its runs of one label. -/
def definedWindows (w : Nat) (rid : Int) (rows : List RowDoc) : List Cut :=
  (labelRuns rid rows).flatMap fun run =>
    (run.blocks w).map fun block => ⟨rid, block, runLabel run⟩

/-- The `p`-th row of the stream is the last one of the window. -/
structure EndsAt (rows : List RowDoc) (p : Nat) (cut : Cut) : Prop where
  last : ∃ row, rows[p]? = some row ∧ row.receiverId = some cut.receiverId ∧
    cut.rows.getLast? = some row
  suffix : cut.rows <:+ ofReceiver cut.receiverId (rows.take (p + 1))

/-- The windows are those of the definition, in the order of their last rows. -/
structure AsDefined (w : Nat) (rows : List RowDoc) (cuts : List Cut) : Prop where
  windows : ∀ rid, cuts.filter (·.receiverId = rid) = definedWindows w rid rows
  order : ∃ places : List Nat, places.Pairwise (· < ·) ∧ List.Forall₂ (EndsAt rows) places cuts

/-! ## The features -/

/-- What `_windows` yields for a window. -/
def yieldWindow (extract : List RowDoc → Except JobError FeatureVector) (cut : Cut) :
    Except JobError (FeatureVector × String) := do
  return (← extract cut.rows, cut.label)

/-- On rows with a receiver and a label the loop extracts the windows it cuts, up to the
    first one whose extraction fails. -/
theorem windows_eq_mapM (extract : List RowDoc → Except JobError FeatureVector)
    (windowSize : Int) {rows : List RowDoc} (hrows : Labelled rows) (s : WindowState) :
    ∃ cuts, cutWindows windowSize s rows = .ok cuts ∧
      windows extract windowSize s rows = cuts.mapM (yieldWindow extract) := by
  induction rows generalizing s with
  | nil => exact ⟨[], rfl, rfl⟩
  | cons row rows ih =>
    obtain ⟨rid, label, hrid, hlabel⟩ := hrows row List.mem_cons_self
    obtain ⟨cut, s', hstep, -, -, -⟩ := s.step_row windowSize hrid hlabel
    obtain ⟨cuts, hcuts, hwindows⟩ := ih (fun r hr => hrows r (List.mem_cons_of_mem row hr)) s'
    refine ⟨cut.toList ++ cuts, ?_, ?_⟩
    · rw [cutWindows, hstep]
      show (cutWindows windowSize s' rows >>= _) = _
      rw [hcuts]
      rfl
    · rw [windows, hstep]
      cases cut with
      | none => exact hwindows
      | some cut =>
        show (extract cut.rows >>= _) = _
        rw [hwindows]
        simp [yieldWindow]

/-! ## The order -/

/-- Every buffer holds the last rows of its receiver. -/
def HoldsLast (before : List RowDoc) (s : WindowState) : Prop :=
  ∀ rid, s.buf rid <:+ ofReceiver rid before

/-- What a row joins are the last rows of its receiver, or none. -/
private theorem backlog_suffix {before : List RowDoc} {s : WindowState} (h : HoldsLast before s)
    (rid : Int) (label : String) : s.backlog rid label <:+ ofReceiver rid before := by
  unfold WindowState.backlog
  split
  · exact h rid
  · exact List.nil_suffix

/-- Appending the same item keeps a suffix one. -/
private theorem suffix_concat {α : Type} {l m : List α} (h : l <:+ m) (a : α) :
    l ++ [a] <:+ m ++ [a] := by
  obtain ⟨t, rfl⟩ := h
  exact ⟨t, by simp⟩

/-- After one more row the buffers hold the last rows still. -/
theorem HoldsLast.step {windowSize : Int} {before : List RowDoc} {s s' : WindowState}
    (h : HoldsLast before s) {row : RowDoc} {rid : Int} {label : String}
    (hrid : row.receiverId = some rid)
    (hbuf : s'.buf = Function.update s.buf rid
      (List.pushItem (blockLength windowSize) (s.backlog rid label) row).2) :
    HoldsLast (before ++ [row]) s' := by
  intro rid'
  rw [hbuf]
  by_cases hsame : rid' = rid
  · subst hsame
    rw [Function.update_self, ofReceiver_concat_self hrid]
    unfold List.pushItem
    split
    -- a full block leaves an empty buffer
    · exact List.nil_suffix
    · exact suffix_concat (backlog_suffix h rid' label) row
  · rw [Function.update_of_ne hsame, ofReceiver_concat_ne hrid (Ne.symm hsame)]
    exact h rid'

/-- The window that a row completes ends at that row. -/
private theorem endsAt_of_step {windowSize : Int} {before rows : List RowDoc} {s : WindowState}
    (h : HoldsLast before s) {row : RowDoc} {rid : Int} {label : String} {cut : Cut}
    (hrid : row.receiverId = some rid)
    (hcut : cut ∈ (List.pushItem (blockLength windowSize) (s.backlog rid label) row).1.map
      (⟨rid, ·, label⟩)) :
    EndsAt (before ++ row :: rows) before.length cut := by
  obtain ⟨block, hblock, rfl⟩ := List.mem_map.mp hcut
  unfold List.pushItem at hblock
  split at hblock
  · rw [List.mem_singleton.mp hblock]
    constructor
    · exact ⟨row, by simp, hrid, List.getLast?_concat⟩
    · have htake : (before ++ row :: rows).take (before.length + 1) = before ++ [row] := by
        simp [List.take_append]
      rw [htake, ofReceiver_concat_self hrid]
      exact suffix_concat (backlog_suffix h rid label) row
  · cases hblock

/-- The windows of the rows after `before`, each at its last row. -/
theorem cutWindows_places {windowSize : Int} {before rows : List RowDoc} {s : WindowState}
    {cuts : List Cut} (hrows : Labelled rows) (h : HoldsLast before s)
    (hcuts : cutWindows windowSize s rows = .ok cuts) :
    ∃ places : List Nat, places.Pairwise (· < ·) ∧ (∀ p ∈ places, before.length ≤ p) ∧
      List.Forall₂ (EndsAt (before ++ rows)) places cuts := by
  induction rows generalizing before s cuts with
  | nil =>
    cases hcuts
    exact ⟨[], .nil, by simp, .nil⟩
  | cons row rows ih =>
    obtain ⟨rid, label, hrid, hlabel⟩ := hrows row List.mem_cons_self
    obtain ⟨cut, s', hstep, hcut, hbuf, -⟩ := s.step_row windowSize hrid hlabel
    rw [cutWindows, hstep] at hcuts
    obtain ⟨later, hlater, hcuts⟩ := Except.bind_eq_ok.mp
      (show (cutWindows windowSize s' rows >>= _) = _ from hcuts)
    cases hcuts
    obtain ⟨places, hascending, hfrom, hplaces⟩ :=
      ih (fun r hr => hrows r (List.mem_cons_of_mem row hr)) (h.step hrid hbuf) hlater
    have hpast : ∀ p ∈ places, before.length + 1 ≤ p := by simpa using hfrom
    rw [List.append_assoc, List.singleton_append] at hplaces
    cases cut with
    | none =>
      -- the block is not full yet
      refine ⟨places, hascending, ?_, hplaces⟩
      intro p hp
      have := hpast p hp
      omega
    | some cut =>
      -- this window ends at the row that was just read
      have hends : EndsAt (before ++ row :: rows) before.length cut := by
        apply endsAt_of_step h hrid
        rw [← hcut]
        exact List.mem_singleton_self cut
      refine ⟨before.length :: places, ?_, ?_, .cons hends hplaces⟩
      · exact List.pairwise_cons.mpr ⟨hpast, hascending⟩
      · intro p hp
        cases List.mem_cons.mp hp with
        | inl hfirst => omega
        | inr hlater =>
          have := hpast p hlater
          omega

/-! ## Each receiver -/

/-- The window of a block has the label of its run. -/
private theorem lastLabel_of_mem_blocks {w : Nat} (hw : 0 < w) {rid : Int}
    {rows run block : List RowDoc}
    (hrun : run ∈ labelRuns rid rows) (hblock : block ∈ run.blocks w) :
    (block.getLast?.bind (·.label)).getD "" = runLabel run := by
  have hlength := List.length_of_mem_blocks hw hblock
  obtain ⟨k, -, hpiece⟩ := (List.mem_blocks_iff hw).mp hblock
  -- a block is not empty, so it has a last row, and the run contains it
  cases hlast : block.getLast? with
  | none =>
    rw [List.getLast?_eq_none_iff.mp hlast] at hlength
    exact absurd hlength (by simp; omega)
  | some last =>
    have hmem : last ∈ run := by
      have hin := List.mem_of_getLast? hlast
      rw [hpiece] at hin
      exact List.mem_of_mem_drop (List.mem_of_mem_take hin)
    -- `runLabel` reads the label of the first row of the run
    cases hrows : run with
    | nil =>
      rw [hrows] at hmem
      cases hmem
    | cons first rest =>
      have hfirst : first ∈ run := by
        rw [hrows]
        exact List.mem_cons_self
      have hsame : last.label = first.label := List.eq_of_mem_splitBy (f := RowDoc.label)
        (fun x y hxy => of_decide_eq_true hxy) hrun last hmem first hfirst
      simp [runLabel, hsame]

/-- The windows of a receiver, from their rows. -/
private theorem filter_eq_map {cuts : List Cut}
    (hlast : ∀ cut ∈ cuts, cut.rows.getLast?.bind (·.label) = some cut.label) (rid : Int) :
    cuts.filter (·.receiverId = rid) =
      (cutsOf rid cuts).map fun block =>
        ⟨rid, block, (block.getLast?.bind (·.label)).getD ""⟩ := by
  rw [cutsOf, List.map_map]
  conv_lhs => rw [← List.map_id' (cuts.filter (·.receiverId = rid))]
  apply List.map_congr_left
  intro cut hcut
  obtain ⟨hmem, hrid⟩ := List.mem_filter.mp hcut
  have hrid : cut.receiverId = rid := of_decide_eq_true hrid
  simp [hlast cut hmem, ← hrid]

/-- The windows of the definition, block by block. -/
private theorem definedWindows_eq_map {w : Nat} (hw : 0 < w) (rid : Int) (rows : List RowDoc) :
    definedWindows w rid rows =
      ((labelRuns rid rows).flatMap (List.blocks w)).map fun block =>
        ⟨rid, block, (block.getLast?.bind (·.label)).getD ""⟩ := by
  rw [definedWindows, List.map_flatMap]
  apply List.flatMap_congr
  intro run hrun
  apply List.map_congr_left
  intro block hblock
  rw [lastLabel_of_mem_blocks hw hrun hblock]

/-- The definition looks at the rows of the receiver only. -/
private theorem definedWindows_congr {w : Nat} {rid : Int} {rows rows' : List RowDoc}
    (h : ofReceiver rid rows' = ofReceiver rid rows) :
    definedWindows w rid rows' = definedWindows w rid rows := by
  rw [definedWindows, definedWindows, labelRuns, labelRuns, h]

/-- A positive window size is the length of the windows. -/
private theorem blockLength_of_pos {windowSize : Int} (h : 1 ≤ windowSize) :
    blockLength windowSize = windowSize.toNat := by
  unfold blockLength
  omega

/-- What the loop cuts are the windows of the definition. -/
private theorem cutWindows_asDefined {windowSize : Int} (hsize : 1 ≤ windowSize)
    {rows : List RowDoc} (hrows : Labelled rows) {cuts : List Cut}
    (hcuts : cutWindows windowSize .empty rows = .ok cuts) :
    AsDefined windowSize.toNat rows cuts := by
  obtain ⟨cuts', hcuts', hruns, hlast⟩ := cutsOf_eq_blocks windowSize hrows
  have hsame : cuts' = cuts := Except.ok.inj (hcuts'.symm.trans hcuts)
  subst hsame
  rw [← blockLength_of_pos hsize]
  constructor
  · intro rid
    rw [filter_eq_map hlast, hruns, definedWindows_eq_map (blockLength_pos windowSize)]
  · have hempty : HoldsLast [] .empty := fun rid => List.nil_suffix
    obtain ⟨places, hascending, -, hplaces⟩ := cutWindows_places hrows hempty hcuts
    exact ⟨places, hascending, hplaces⟩

/-- For every stream of rows with a receiver and a label `_windows` extracts, in order, the
    windows that the definition gives: for each receiver the complete blocks of its runs of
    one label, receivers interleaved by the last rows of their windows, and none of them
    touched by the rows of another receiver. -/
theorem windows_asDefined (extract : List RowDoc → Except JobError FeatureVector)
    {windowSize : Int} (hsize : 1 ≤ windowSize) {rows : List RowDoc} (hrows : Labelled rows) :
    ∃ cuts, windows extract windowSize .empty rows = cuts.mapM (yieldWindow extract) ∧
      cutWindows windowSize .empty rows = .ok cuts ∧ AsDefined windowSize.toNat rows cuts ∧
      ∀ rid rows' cuts', Labelled rows' → ofReceiver rid rows' = ofReceiver rid rows →
        cutWindows windowSize .empty rows' = .ok cuts' →
        cuts'.filter (·.receiverId = rid) = cuts.filter (·.receiverId = rid) := by
  obtain ⟨cuts, hcuts, hwindows⟩ := windows_eq_mapM extract windowSize hrows .empty
  have hdefined := cutWindows_asDefined hsize hrows hcuts
  refine ⟨cuts, hwindows, hcuts, hdefined, ?_⟩
  intro rid rows' cuts' hrows' hsame hcuts'
  rw [(cutWindows_asDefined hsize hrows' hcuts').windows rid, hdefined.windows rid,
    definedWindows_congr hsame]

/-- Two receivers in two rooms; the second one fills its window first. -/
def interleavedDocs : List RowDoc :=
  [⟨1, some 7, some "study", [], []⟩, ⟨1, some 9, some "hall", [], []⟩,
    ⟨2, some 9, some "hall", [], []⟩, ⟨2, some 7, some "study", [], []⟩]

example : (cutWindows 2 .empty interleavedDocs).map (·.map (·.receiverId)) = .ok [9, 7] := by
  decide

/-- The example's rows carry labels and receivers. -/
private theorem labelled_interleavedDocs : Labelled interleavedDocs := by
  simp [Labelled, interleavedDocs]

/-- The rows of two receivers take turns. -/
theorem windows_asDefined_interleaved :
    ∃ cuts, windows (fun _ => .ok []) 2 .empty interleavedDocs =
        cuts.mapM (yieldWindow fun _ => .ok []) ∧
      cutWindows 2 .empty interleavedDocs = .ok cuts ∧
      AsDefined (2 : Int).toNat interleavedDocs cuts ∧
      ∀ rid rows' cuts', Labelled rows' →
        ofReceiver rid rows' = ofReceiver rid interleavedDocs →
        cutWindows 2 .empty rows' = .ok cuts' →
        cuts'.filter (·.receiverId = rid) = cuts.filter (·.receiverId = rid) :=
  windows_asDefined (fun _ => .ok []) (by decide) labelled_interleavedDocs

end Grimnir.Nornir
