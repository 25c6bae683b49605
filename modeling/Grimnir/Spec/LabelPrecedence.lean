import Grimnir.Spec.LabelRebuild
import Grimnir.Spec.RoomEffects

/-!
# Creating a label and deleting it again

A backfill overwrites its whole window, so among overlapping labels the one created last
wins; a deletion re-applies the survivors in the order `(time_start, created_at, id)`.
Creating a label and deleting it again leaves `csi_samples` alone in exactly those states
in which every sample already has the room of its foremost label, and these are kept as
long as no label is created below one of another room.

## Key results

- `InPrecedence.created` / `InPrecedence.deleted`: one completed operation
- `roundTrips_of_inPrecedence`: create and delete, from a state in precedence
- `not_roundTrips_of_below`: a label created below another one
- `roundTrips_iff`: exactly when every state of a run is left alone
-/

namespace Grimnir

open LabelDb

/-! ## Completed operations -/

/-- `create_label` with its backfill run before anything else. -/
def createBackfilled (body : LabelCreate) (now : Timestamp) (db : LabelDb) :
    Except Failure Label × LabelDb :=
  match createLabel body now Tx.noFaults db with
  | (.ok (l, b), db') => (.ok l, (backfillLabelBestEffort b Tx.noFaults db').2)
  | (.error f, db') => (.error f, db')

/-- What a client asks for. -/
inductive LabelOp where
  | create (body : LabelCreate) (now : Timestamp)
  | delete (labelId : Nat) (faults resyncFaults : Faults)

/-- One operation, completed before the next. -/
def LabelOp.perform (db : LabelDb) : LabelOp → Except Failure Unit × LabelDb
  | .create body now =>
    match createBackfilled body now db with
    | (.ok _, db') => (.ok (), db')
    | (.error f, db') => (.error f, db')
  | .delete labelId faults resyncFaults => deleteLabel labelId faults resyncFaults db

/-- The label store under completed operations. -/
def labelOpMachine : Machine LabelDb LabelOp (Except Failure Unit) := ⟨LabelOp.perform⟩

namespace LabelDb

/-- No sample carries a label, and no label covers a sample. -/
structure Unlabelled (db : LabelDb) : Prop where
  csiSamples : ∀ r ∈ db.csiSamples, r.label = none
  labels : ∀ r ∈ db.csiSamples, ∀ l, ¬db.Covering r.time l

/-- Every label that is created and deleted again leaves `csi_samples` as it was. -/
def RoundTrips (db : LabelDb) : Prop :=
  ∀ body now faults resyncFaults l db₁, createBackfilled body now db = (.ok l, db₁) →
    (deleteLabel l.id faults resyncFaults db₁).1 = .ok () →
      (deleteLabel l.id faults resyncFaults db₁).2.csiSamples = db.csiSamples

/-- Every sample has the room of its foremost label. -/
def InPrecedence (db : LabelDb) : Prop :=
  ∀ r ∈ db.csiSamples,
    ∃ o, Foremost orderKey (db.Covering r.time) o ∧ r.label = o.map (·.room)

/-- The label that `body` describes would not come below a label of another room: at each
    sample of its window the foremost label so far starts earlier, or at the same time and
    was created no later, or names the same room. -/
def ComesLast (body : LabelCreate) (now : Timestamp) (db : LabelDb) : Prop :=
  ∀ r ∈ db.csiSamples, (⟨body.timeStart, body.timeEnd⟩ : Window).contains r.time = true →
    ∀ v, Foremost orderKey (db.Covering r.time) (some v) →
      toLex (v.timeStart, v.createdAt) ≤ toLex (body.timeStart, now) ∨ v.room = body.room

/-- The operation creates no label below a label of another room.  A body that is refused
    creates none. -/
def InOrder (db : LabelDb) : LabelOp → Prop
  | .create body now =>
    fitsSmallint body.occupants = true → (∃ r ∈ db.rooms.rows, r.name = body.room) →
      ComesLast body now db
  | .delete _ _ _ => True

/-! ## The foremost label -/

private theorem Covering.eq_of_orderKey {db : LabelDb} {t : Timestamp} (a b : Label)
    (ha : db.Covering t a) (hb : db.Covering t b) (h : orderKey a = orderKey b) : a = b := by
  -- the id is part of the key
  have hid : a.id = b.id := congrArg (fun k => (ofLex (ofLex k).2).2) h
  exact db.labels.eq_of_key_eq ha.1 hb.1 hid

/-- A fresh row comes after `v` exactly when its start and creation do. -/
private theorem orderKey_le_iff {l v : Label} (h : v.id < l.id) :
    orderKey v ≤ orderKey l ↔
      toLex (v.timeStart, v.createdAt) ≤ toLex (l.timeStart, l.createdAt) := by
  unfold orderKey
  rw [Prod.Lex.toLex_le_toLex, Prod.Lex.toLex_le_toLex, Prod.Lex.toLex_le_toLex]
  show (v.timeStart < l.timeStart ∨ v.timeStart = l.timeStart ∧
      (v.createdAt < l.createdAt ∨ v.createdAt = l.createdAt ∧ v.id ≤ l.id)) ↔
    v.timeStart < l.timeStart ∨ v.timeStart = l.timeStart ∧ v.createdAt ≤ l.createdAt
  rw [le_iff_lt_or_eq (a := v.createdAt), and_iff_left h.le]

/-! ## A created label -/

/-- The row `create_label` inserts for `body`. -/
def createdLabel (body : LabelCreate) (id : Nat) (now : Timestamp) : Label :=
  ⟨id, body.timeStart, body.timeEnd, body.room, body.occupants, body.notes, now,
    body.endAfterStart⟩

/-- `db'` is `db` with the label of `body` and its window labelled. -/
structure Backfilled (body : LabelCreate) (now : Timestamp) (db db' : LabelDb) : Prop where
  rooms : db'.rooms = db.rooms
  labels : ∀ v, v ∈ db'.labels ↔ v ∈ db.labels ∨ v = createdLabel body db.labelsIdSeq now
  csiSamples : db'.csiSamples = db.csiSamples.map
    (relabel ⟨body.timeStart, body.timeEnd⟩ (some body.room))

private theorem insertLabel_eq (body : LabelCreate) (now : Timestamp) (db : LabelDb) :
    (fitsSmallint body.occupants = true ∧ (∃ r ∈ db.rooms.rows, r.name = body.room) ∧
        ∃ db', insertLabel body.timeStart body.timeEnd body.room body.occupants body.notes
            body.endAfterStart now db = .ok (createdLabel body db.labelsIdSeq now, db') ∧
          db'.rooms = db.rooms) ∨
      (¬(fitsSmallint body.occupants = true ∧ ∃ r ∈ db.rooms.rows, r.name = body.room) ∧
        ∃ exc, insertLabel body.timeStart body.timeEnd body.room body.occupants body.notes
          body.endAfterStart now db = .error exc) := by
  unfold insertLabel
  split
  · rename_i hfits
    refine .inr ⟨fun h => ?_, _, rfl⟩
    rw [h.1] at hfits
    cases hfits
  · rename_i hfits
    have hfits : fitsSmallint body.occupants = true := by simpa using hfits
    split
    · rename_i hroom
      exact .inl ⟨hfits, hroom, _, rfl, rfl⟩
    · rename_i hroom
      exact .inr ⟨fun h => hroom h.2, _, rfl⟩

/-- The backfill after the insert only writes samples. -/
private theorem backfilled_of_inserted {body : LabelCreate} {now : Timestamp} {db db' : LabelDb}
    (h : Inserted (createdLabel body db.labelsIdSeq now) db db') (hrooms : db'.rooms = db.rooms)
    (id : Nat) :
    Backfilled body now db (backfillLabelBestEffort
      ⟨id, body.timeStart, body.timeEnd, body.room⟩ Tx.noFaults db').2 := by
  have hbackfill : (backfillLabelBestEffort ⟨id, body.timeStart, body.timeEnd, body.room⟩
      Tx.noFaults db').2 = (syncTrainingSamplesBestEffort ⟨body.timeStart, body.timeEnd⟩
        Tx.noFaults (setLabelIn ⟨body.timeStart, body.timeEnd⟩ (some body.room) db')).2 := rfl
  obtain ⟨hlabels, -, hcsi⟩ := syncTrainingSamplesBestEffort_frame
    ⟨body.timeStart, body.timeEnd⟩
    (setLabelIn ⟨body.timeStart, body.timeEnd⟩ (some body.room) db')
  rw [hbackfill]
  constructor
  · rw [syncTrainingSamplesBestEffort_rooms]
    exact hrooms
  · rw [hlabels]
    exact h.labels
  · rw [hcsi]
    show db'.csiSamples.map _ = _
    rw [h.csiSamples]

end LabelDb

/-- `create_label` with its backfill labels the window, or refuses and changes no row. -/
private theorem createBackfilled_cases (body : LabelCreate) (now : Timestamp) (db : LabelDb) :
    (fitsSmallint body.occupants = true ∧ (∃ r ∈ db.rooms.rows, r.name = body.room) ∧
        ∃ db', createBackfilled body now db = (.ok (createdLabel body db.labelsIdSeq now), db') ∧
          Backfilled body now db db') ∨
      (¬(fitsSmallint body.occupants = true ∧ ∃ r ∈ db.rooms.rows, r.name = body.room) ∧
        ∃ f db', createBackfilled body now db = (.error f, db') ∧ Unchanged db db') := by
  unfold createBackfilled createLabel
  dsimp only
  rw [Tx.run_execute]
  rcases insertLabel_eq body now db with ⟨hfits, hroom, db', hins, hrooms⟩ | ⟨hno, exc, hins⟩
  · left
    rw [hins]
    refine ⟨hfits, hroom, _, rfl, ?_⟩
    exact backfilled_of_inserted (insertLabel_inserted hins).1 hrooms db.labelsIdSeq
  · right
    refine ⟨hno, ?_⟩
    rw [hins]
    by_cases hintegrity : exc.integrity = true
    · simp only [hintegrity, if_true]
      exact ⟨_, _, rfl, unchanged_skipLabelId db⟩
    · simp only [hintegrity]
      exact ⟨_, _, rfl, .refl db⟩

namespace LabelDb

/-! ## Labels in precedence -/

variable {body : LabelCreate} {now : Timestamp} {db db' : LabelDb}

/-- The precedence of labels is about labels and samples only. -/
theorem InPrecedence.congr (h : InPrecedence db) (hsame : Unchanged db db') : InPrecedence db' := by
  have hcovering : ∀ t, db'.Covering t = db.Covering t := by
    intro t
    unfold LabelDb.Covering
    rw [hsame.labels]
  intro r hr
  rw [hsame.csiSamples] at hr
  rw [hcovering]
  exact h r hr

private theorem Unlabelled.inPrecedence (h : Unlabelled db) : InPrecedence db :=
  fun r hr => ⟨none, h.labels r hr, h.csiSamples r hr⟩

/-- The new label is one more candidate inside its window. -/
private theorem Backfilled.covering_of_contains (hback : Backfilled body now db db') {t : Timestamp}
    (hin : (⟨body.timeStart, body.timeEnd⟩ : Window).contains t = true) (v : Label) :
    db'.Covering t v ↔ db.Covering t v ∨ v = createdLabel body db.labelsIdSeq now := by
  unfold Covering
  rw [hback.labels]
  constructor
  · rintro ⟨hv | hv, hcov⟩
    · exact .inl ⟨hv, hcov⟩
    · exact .inr hv
  · rintro (⟨hv, hcov⟩ | rfl)
    · exact ⟨.inl hv, hcov⟩
    · exact ⟨.inr rfl, hin⟩

private theorem Backfilled.covering_of_not_contains (hback : Backfilled body now db db')
    {t : Timestamp} (hout : (⟨body.timeStart, body.timeEnd⟩ : Window).contains t = false)
    (v : Label) : db'.Covering t v ↔ db.Covering t v := by
  unfold Covering
  rw [hback.labels]
  constructor
  · rintro ⟨hv | rfl, hcov⟩
    · exact ⟨hv, hcov⟩
    · cases hout.symm.trans hcov
  · rintro ⟨hv, hcov⟩
    exact ⟨.inl hv, hcov⟩

/-- Inside its window the new label is foremost when none so far comes after it. -/
private theorem Backfilled.foremost_last (hback : Backfilled body now db db') {t : Timestamp}
    {o : Option Label} (hin : (⟨body.timeStart, body.timeEnd⟩ : Window).contains t = true)
    (ho : Foremost orderKey (db.Covering t) o)
    (hle : ∀ v, o = some v → toLex (v.timeStart, v.createdAt) ≤ toLex (body.timeStart, now)) :
    Foremost orderKey (db'.Covering t) (some (createdLabel body db.labelsIdSeq now)) := by
  refine Foremost.congr (Foremost.insert_greater (.inr rfl) ?_)
    fun v => (hback.covering_of_contains hin v).symm
  rintro u (hu | rfl)
  · cases o with
    | none => exact absurd hu (ho u)
    | some v =>
      have hkey : orderKey v ≤ orderKey (createdLabel body db.labelsIdSeq now) :=
        (orderKey_le_iff (db.labelsIdBelow v ho.1.1)).mpr (hle v rfl)
      exact (ho.2 u hu).trans hkey
  · exact le_rfl

/-- A label that comes after the new one stays foremost. -/
private theorem Backfilled.foremost_below (hback : Backfilled body now db db') {t : Timestamp}
    {v : Label} (hin : (⟨body.timeStart, body.timeEnd⟩ : Window).contains t = true)
    (hv : Foremost orderKey (db.Covering t) (some v))
    (hafter : ¬toLex (v.timeStart, v.createdAt) ≤ toLex (body.timeStart, now)) :
    Foremost orderKey (db'.Covering t) (some v) := by
  have hkey : ¬orderKey v ≤ orderKey (createdLabel body db.labelsIdSeq now) :=
    mt (orderKey_le_iff (db.labelsIdBelow v hv.1.1)).mp hafter
  have hge := (le_total (orderKey v) _).resolve_left hkey
  exact (hv.insert_lesser hge).congr fun u => (hback.covering_of_contains hin u).symm

/-- A label that comes last is foremost wherever another room's label lay. -/
theorem InPrecedence.created (h : InPrecedence db) (hlast : ComesLast body now db)
    (hback : Backfilled body now db db') : InPrecedence db' := by
  intro r' hr'
  rw [hback.csiSamples] at hr'
  obtain ⟨r, hr, rfl⟩ := List.mem_map.mp hr'
  obtain ⟨o, ho, hroom⟩ := h r hr
  rw [relabel_time, relabel_label]
  cases hin : (⟨body.timeStart, body.timeEnd⟩ : Window).contains r.time with
  | false => exact ⟨o, ho.congr fun v => (hback.covering_of_not_contains hin v).symm, hroom⟩
  | true =>
    by_cases hle : ∀ v, o = some v →
        toLex (v.timeStart, v.createdAt) ≤ toLex (body.timeStart, now)
    · exact ⟨_, hback.foremost_last hin ho hle, rfl⟩
    · -- the label that stays foremost names the same room
      simp only [not_forall] at hle
      obtain ⟨v, rfl, hafter⟩ := hle
      have hsame := (hlast r hr hin v ho).resolve_left hafter
      exact ⟨some v, hback.foremost_below hin ho hafter, congrArg some hsame.symm⟩

/-- The cleanup leaves precedence inside the window, and nothing changes outside. -/
theorem InPrecedence.deleted {l : Label} (h : InPrecedence db) (hl : l ∈ db.labels)
    (hlabels : db'.labels = (cleaned l db).labels)
    (hcsi : db'.csiSamples = (cleaned l db).csiSamples) : InPrecedence db' := by
  have hcovering : ∀ t v, db'.Covering t v ↔ (cleaned l db).Covering t v := by
    intro t v
    unfold Covering
    rw [hlabels]
  intro r' hr'
  -- row by row: the sample was under the deleted label, or it was not
  rw [hcsi, cleaned_csiSamples] at hr'
  obtain ⟨r, hr, rfl⟩ := List.mem_map.mp hr'
  have htime : (cleanedSample l db r).time = r.time :=
    congrArg CsiRow.time (cleanedSample_toCsiRow l db r)
  rw [htime]
  cases hcov : l.covers r.time with
  | true =>
    exact ⟨_, (foremost_survivors hcov db).congr fun v => (hcovering _ v).symm,
      label_cleanedSample hcov db⟩
  -- its foremost label survives
  | false =>
    obtain ⟨o, ho, hroom⟩ := h r hr
    rw [cleanedSample_of_not_covers hcov]
    refine ⟨o, ho.congr fun v => ?_, hroom⟩
    rw [hcovering, covering_cleaned]
    constructor
    · -- a label that covers the sample is not the deleted one
      intro hv
      refine ⟨hv, fun hid => ?_⟩
      have hsame := db.labels.eq_of_key_eq hv.1 hl hid
      rw [hsame] at hv
      cases hcov.symm.trans hv.2
    · exact And.left

/-! ## Create and delete -/

/-- Once it is deleted the new label is no candidate any more. -/
theorem Backfilled.covering_cleaned (hback : Backfilled body now db db') (t : Timestamp)
    (v : Label) :
    (cleaned (createdLabel body db.labelsIdSeq now) db').Covering t v ↔ db.Covering t v := by
  rw [LabelDb.covering_cleaned]
  unfold Covering
  rw [hback.labels]
  constructor
  · rintro ⟨⟨hv | rfl, hcov⟩, hne⟩
    · exact ⟨hv, hcov⟩
    · exact absurd rfl hne
  · rintro ⟨hv, hcov⟩
    exact ⟨⟨.inl hv, hcov⟩, (db.labelsIdBelow v hv).ne⟩

/-- Inside the window the two operations leave the foremost label so far. -/
private theorem Backfilled.label_roundTrip (hback : Backfilled body now db db') {r : CsiSample}
    (hin : (⟨body.timeStart, body.timeEnd⟩ : Window).contains r.time = true) {o : Option Label}
    (ho : Foremost orderKey (db.Covering r.time) o) :
    (cleanedSample (createdLabel body db.labelsIdSeq now) db'
      (relabel ⟨body.timeStart, body.timeEnd⟩ (some body.room) r)).label = o.map (·.room) := by
  have hcov : (createdLabel body db.labelsIdSeq now).covers
      (relabel ⟨body.timeStart, body.timeEnd⟩ (some body.room) r).time = true := by
    rw [relabel_time]
    exact hin
  have hlast := (foremost_survivors hcov db').congr (hback.covering_cleaned _)
  rw [relabel_time] at hlast
  rw [label_cleanedSample hcov, relabel_time]
  exact congrArg _ (Foremost.unique Covering.eq_of_orderKey hlast ho)

/-- A successful deletion of the new label has run the two rewrites on every sample. -/
private theorem Backfilled.csiSamples_deleted (hback : Backfilled body now db db')
    {faults resyncFaults : Faults}
    (hok : (deleteLabel db.labelsIdSeq faults resyncFaults db').1 = .ok ()) :
    (deleteLabel db.labelsIdSeq faults resyncFaults db').2.csiSamples =
      db.csiSamples.map fun r => cleanedSample (createdLabel body db.labelsIdSeq now) db'
        (relabel ⟨body.timeStart, body.timeEnd⟩ (some body.room) r) := by
  rcases deleteLabel_cases db.labelsIdSeq faults resyncFaults db' with
    ⟨l, hl, hid, -, -, hcsi⟩ | ⟨hno, -⟩
  · have hnew : createdLabel body db.labelsIdSeq now ∈ db'.labels :=
      (hback.labels _).mpr (.inr rfl)
    have hsame : l = createdLabel body db.labelsIdSeq now := db'.labels.eq_of_key_eq hl hnew hid
    rw [hcsi, hsame, cleaned_csiSamples, hback.csiSamples, List.map_map]
    rfl
  · exact absurd hok hno

private theorem csiSample_eq {a b : CsiSample} (hrow : a.toCsiRow = b.toCsiRow)
    (hlabel : a.label = b.label) : a = b := by
  cases a
  cases b
  cases hrow
  cases hlabel
  rfl

/-- From a state in precedence, creating a label and deleting it changes no sample. -/
theorem roundTrips_of_inPrecedence (h : InPrecedence db) : RoundTrips db := by
  intro body now faults resyncFaults l db₁ hcreate hok
  rcases createBackfilled_cases body now db with ⟨-, -, db', hcreated, hback⟩ |
    ⟨-, f, db', hrefused, -⟩
  · rw [hcreated] at hcreate
    cases hcreate
    refine (hback.csiSamples_deleted hok).trans ?_
    -- sample by sample
    apply (List.map_congr_left ?_).trans (List.map_id _)
    -- within the new label's window, or outside of it
    intro r hr
    obtain ⟨o, ho, hroom⟩ := h r hr
    cases hin : (⟨body.timeStart, body.timeEnd⟩ : Window).contains r.time with
    | false =>
      have hskip : relabel ⟨body.timeStart, body.timeEnd⟩ (some body.room) r = r := by
        simp [relabel, hin]
      rw [hskip]
      exact cleanedSample_of_not_covers (l := createdLabel body db.labelsIdSeq now) hin db₁
    | true =>
      have hlabel := hback.label_roundTrip hin ho
      have hrow : (cleanedSample (createdLabel body db.labelsIdSeq now) db₁
          (relabel ⟨body.timeStart, body.timeEnd⟩ (some body.room) r)).toCsiRow = r.toCsiRow := by
        rw [cleanedSample_toCsiRow, relabel_toCsiRow]
      rw [← hroom] at hlabel
      exact csiSample_eq hrow hlabel
  · rw [hrefused] at hcreate
    cases hcreate

/-- Without faults an existing label is deleted. -/
private theorem deleteLabel_ok {l : Label} (h : l ∈ db.labels) :
    (deleteLabel l.id Tx.noFaults Tx.noFaults db).1 = .ok () := by
  unfold deleteLabel
  rw [deleteLabelCleanup_eq, db.labels.find?_of_mem h]

/-- A label created below one of another room hides it, until a deletion brings it back. -/
theorem not_roundTrips_of_below (hfits : fitsSmallint body.occupants = true)
    (hroom : ∃ r ∈ db.rooms.rows, r.name = body.room) (hbelow : ¬ComesLast body now db)
    (hback : Backfilled body now db db') : ¬RoundTrips db' := by
  intro hround
  -- the sample whose foremost label lies below the new one
  simp only [ComesLast, not_forall, not_or] at hbelow
  obtain ⟨r, hr, hin, v, ho, hafter, hne⟩ := hbelow
  -- the same body once more, over the labels that hide `v`
  rw [← hback.rooms] at hroom
  rcases createBackfilled_cases body now db' with ⟨-, -, db₂, hcreated, hback₂⟩ | ⟨hno, -⟩
  · have hnew : createdLabel body db'.labelsIdSeq now ∈ db₂.labels :=
      (hback₂.labels _).mpr (.inr rfl)
    have hok := deleteLabel_ok hnew
    have hsame := hround body now Tx.noFaults Tx.noFaults _ db₂ hcreated hok
    have hsame := (hback₂.csiSamples_deleted hok).symm.trans hsame
    have hmem : relabel ⟨body.timeStart, body.timeEnd⟩ (some body.room) r ∈ db'.csiSamples := by
      rw [hback.csiSamples]
      exact List.mem_map_of_mem hr
    have hv : Foremost orderKey (db'.Covering
        (relabel ⟨body.timeStart, body.timeEnd⟩ (some body.room) r).time) (some v) := by
      rw [relabel_time]
      exact hback.foremost_below hin ho hafter
    have hlabel := hback₂.label_roundTrip (by rw [relabel_time]; exact hin) hv
    rw [List.map_inj_left.mp (hsame.trans (List.map_id _).symm) _ hmem] at hlabel
    rw [id, relabel_label, if_pos hin] at hlabel
    exact hne (Option.some.inj hlabel).symm
  · exact hno ⟨hfits, hroom⟩

/-! ## Runs -/

/-- An operation in order keeps precedence. -/
private theorem InPrecedence.perform (h : InPrecedence db) {op : LabelOp} (hop : InOrder db op) :
    InPrecedence (op.perform db).2 := by
  cases op with
  | create body now =>
    unfold LabelOp.perform
    rcases createBackfilled_cases body now db with
      ⟨hfits, hroom, db', hcreated, hback⟩ | ⟨-, f, db', hrefused, hsame⟩
    · simp only [hcreated]
      exact h.created (hop hfits hroom) hback
    · simp only [hrefused]
      exact h.congr hsame
  | delete labelId faults resyncFaults =>
    show InPrecedence (deleteLabel labelId faults resyncFaults db).2
    rcases deleteLabel_cases labelId faults resyncFaults db with
      ⟨l, hl, -, -, hlabels, hcsi⟩ | ⟨-, hsame⟩
    · exact h.deleted hl hlabels hcsi
    · rw [hsame]
      exact h

/-- After an operation out of order some label can be created and deleted with a trace. -/
private theorem not_roundTrips_of_not_inOrder {op : LabelOp} (hop : ¬InOrder db op) :
    ¬RoundTrips (op.perform db).2 := by
  cases op with
  | create body now =>
    simp only [InOrder, Classical.not_imp] at hop
    obtain ⟨hfits, hroom, hbelow⟩ := hop
    unfold LabelOp.perform
    rcases createBackfilled_cases body now db with
      ⟨-, -, db', hcreated, hback⟩ | ⟨hno, -⟩
    · simp only [hcreated]
      exact not_roundTrips_of_below hfits hroom hbelow hback
    · exact absurd ⟨hfits, hroom⟩ hno
  | delete labelId faults resyncFaults => exact absurd trivial hop

end LabelDb

/-- Every state of a run from precedence is left alone by creating and deleting a label
    exactly when no operation of the run is out of order. -/
private theorem roundTrips_iff_of_inPrecedence (ops : List LabelOp)
    (c : Config LabelDb LabelOp (Except Failure Unit)) (h : InPrecedence c.state) :
    (∀ pre, pre <+: ops → RoundTrips (labelOpMachine.replay c pre).state) ↔
      labelOpMachine.Admits (fun c op => InOrder c.state op) c ops := by
  induction ops generalizing c with
  | nil =>
    refine ⟨fun _ => trivial, fun _ pre hpre => ?_⟩
    rw [List.prefix_nil.mp hpre]
    exact roundTrips_of_inPrecedence h
  | cons op ops ih =>
    constructor
    · intro hall
      -- the state after the first operation decides whether it was in order
      have hop : InOrder c.state op := by
        by_contra hop
        exact not_roundTrips_of_not_inOrder hop (hall [op] ⟨ops, rfl⟩)
      refine ⟨hop, (ih (labelOpMachine.answer c op) (h.perform hop)).mp fun pre hpre => ?_⟩
      exact hall (op :: pre) (List.cons_prefix_cons.mpr ⟨rfl, hpre⟩)
    · rintro ⟨hop, hrest⟩ pre hpre
      rcases List.prefix_cons_iff.mp hpre with rfl | ⟨tail, rfl, htail⟩
      · exact roundTrips_of_inPrecedence h
      · exact (ih (labelOpMachine.answer c op) (h.perform hop)).mpr hrest tail htail

/-- From unlabelled samples: creating and deleting a label changes nothing in any state of a
    run exactly when no label of the run was created below one of another room. -/
theorem roundTrips_iff (db : LabelDb) (h : Unlabelled db) (ops : List LabelOp) :
    (∀ pre, pre <+: ops → RoundTrips (labelOpMachine.replay ⟨[], db⟩ pre).state) ↔
      labelOpMachine.Admits (fun c op => InOrder c.state op) ⟨[], db⟩ ops :=
  roundTrips_iff_of_inPrecedence ops ⟨[], db⟩ h.inPrecedence

/-! ## A label created below another one -/

/-- Two rooms and one sample at 7. -/
def twoRoomStore : LabelDb where
  rooms := ⟨[⟨"attic", 2, 0⟩, ⟨"cellar", -1, 5⟩], by decide⟩
  labels := Table.empty
  labelsIdSeq := 1
  csiSamples := [⟨⟨7, 1, "aa:bb:cc:dd:ee:ff", -40, none, 6, 20, 1, 1, [0], [0], none⟩, none⟩]
  trainingSamples := Table.empty
  labelsRoomFkey := fun l hl => absurd hl (Table.notMem_empty l)
  labelsIdBelow := labelsIdBelow_empty

def atticLabel : LabelCreate := ⟨4, 14, "attic", 1, none, by decide, by decide⟩
def cellarLabel : LabelCreate := ⟨0, 11, "cellar", 1, none, by decide, by decide⟩

private theorem twoRoomStore_unlabelled : Unlabelled twoRoomStore where
  csiSamples := by decide
  labels := fun _ _ l hl => absurd hl.1 (Table.notMem_empty l)

/-- The attic label alone is in order, and so is a deletion. -/
theorem roundTrips_iff_twoRoom :
    (∀ pre, pre <+: [LabelOp.create atticLabel 100, .delete 1 Tx.noFaults Tx.noFaults] →
        RoundTrips (labelOpMachine.replay ⟨[], twoRoomStore⟩ pre).state) ↔
      labelOpMachine.Admits (fun c op => InOrder c.state op) ⟨[], twoRoomStore⟩
        [.create atticLabel 100, .delete 1 Tx.noFaults Tx.noFaults] :=
  roundTrips_iff twoRoomStore twoRoomStore_unlabelled _

/-- The cellar label is created last and wins; creating one more label over the sample and
    deleting it gives the sample to the attic. -/
theorem deletion_reorders_labels :
    ¬∀ (db : LabelDb), Unlabelled db → ∀ ops : List LabelOp,
      RoundTrips (labelOpMachine.replay ⟨[], db⟩ ops).state := by
  intro h
  have hround := h twoRoomStore twoRoomStore_unlabelled
    [.create atticLabel 100, .create cellarLabel 200]
  have hsame := hround ⟨6, 8, "attic", 1, none, by decide, by decide⟩ 300 Tx.noFaults Tx.noFaults
    _ _ rfl rfl
  exact absurd (congrArg (List.map CsiSample.label) hsame) (by decide)

end Grimnir
