import Grimnir.Spec.LabelEffects

/-!
# What each request does to the room names

Only the room endpoints write `rooms`: one adds a name, one replaces a name, one takes a
name away.  Every name was stripped and found non-empty by its validator.

## Key results

- `RoomNames`: the effect of an event on the names
- `step_roomNames`: every event of the label store has one
- `roomsNamed_of_run`: the names of every reachable store passed their validator
-/

namespace Grimnir

namespace LabelDb

/-- A room of this name exists. -/
def HasRoom (db : LabelDb) (name : String) : Prop := ∃ r ∈ db.rooms, r.name = name

/-- A room exists exactly when its name is among the rows'. -/
theorem hasRoom_iff {db : LabelDb} {name : String} :
    db.HasRoom name ↔ (db.rooms.rows.map (·.name)).contains name = true := by
  rw [List.contains_iff_mem, List.mem_map]
  exact Iff.rfl

/-- Every room has a name its validator let through. -/
def RoomsNamed (db : LabelDb) : Prop :=
  ∀ name, db.HasRoom name → notEmpty "name" name = .ok name

/-! ## The statements -/

/-- After an `INSERT` there is one more room. -/
private theorem hasRoom_insertRoom {room : Room} {db db' : LabelDb}
    (h : insertRoom room db = .ok ((), db')) (name : String) :
    db'.HasRoom name ↔ db.HasRoom name ∨ name = room.name := by
  unfold insertRoom at h
  split at h
  · cases h
  · split at h
    · cases h
      unfold HasRoom
      simp only [Table.mem_insert, or_and_right, exists_or, exists_eq_left]
      exact or_congr_right eq_comm
    · cases h

/-- After a rename the new name is there in the place of the old one. -/
private theorem hasRoom_updateRoomRow {old new : String} {floor : Option Int} {db db' : LabelDb}
    (hold : db.HasRoom old) (h : updateRoomRow old new floor db = .ok ((), db'))
    (name : String) :
    db'.HasRoom name ↔ (db.HasRoom name ∧ name ≠ old) ∨ name = new := by
  unfold HasRoom
  simp only [Table.mem_updateAt? (updateRoomRow_rooms h)]
  constructor
  · rintro ⟨r, ⟨r₀, hr₀, rfl⟩, rfl⟩
    by_cases hname : r₀.name = old
    · exact .inr (by rw [if_pos hname])
    · rw [if_neg hname]
      exact .inl ⟨⟨r₀, hr₀, rfl⟩, hname⟩
  · rintro (⟨⟨r₀, hr₀, rfl⟩, hne⟩ | rfl)
    · exact ⟨r₀, ⟨r₀, hr₀, if_neg hne⟩, rfl⟩
    · obtain ⟨r₀, hr₀, hname⟩ := hold
      exact ⟨_, ⟨r₀, hr₀, rfl⟩, by rw [if_pos hname]⟩

/-- The index on the names refuses a name that is taken. -/
theorem not_hasRoom_of_updateRoomRow {old new : String} {floor : Option Int} {db db' : LabelDb}
    (hold : db.HasRoom old) (hne : new ≠ old)
    (h : updateRoomRow old new floor db = .ok ((), db')) : ¬db.HasRoom new := by
  rintro ⟨r, hr, hname⟩
  obtain ⟨r₀, hr₀, hname₀⟩ := hold
  have hold' : ¬r.name = old := by
    rw [hname]
    exact hne
  -- the row that is renamed would get the name of `r`
  have hsame : r = r₀ := by
    apply Table.eq_of_updateAt? (updateRoomRow_rooms h) hr hr₀
    rw [if_neg hold', if_pos hname₀]
    exact hname
  exact hold' (hsame ▸ hname₀)

/-- `ON DELETE RESTRICT` lets a room go only when no label names it. -/
private theorem not_referenced_of_deleteRoomRow {old : String} {db db' : LabelDb}
    (h : deleteRoomRow old db = .ok ((), db')) : ∀ l ∈ db.labels, l.room ≠ old := by
  unfold deleteRoomRow at h
  split at h
  · rename_i hfree
    exact hfree
  · cases h

/-- After a `DELETE` the room is gone and the others are there. -/
private theorem hasRoom_deleteRoomRow {old : String} {db db' : LabelDb}
    (h : deleteRoomRow old db = .ok ((), db')) (name : String) :
    db'.HasRoom name ↔ db.HasRoom name ∧ name ≠ old := by
  unfold deleteRoomRow at h
  split at h
  · cases h
    unfold HasRoom
    simp only [Table.mem_deleteWhere, decide_eq_false_iff_not]
    constructor
    · rintro ⟨r, ⟨hr, hne⟩, rfl⟩
      exact ⟨⟨r, hr, rfl⟩, hne⟩
    · rintro ⟨⟨r, hr, rfl⟩, hne⟩
      exact ⟨r, ⟨hr, hne⟩, rfl⟩
  · cases h

end LabelDb

open LabelDb

/-! ## The endpoints -/

/-- What an event can do to the room names. -/
inductive RoomNames (db : LabelDb) : LabelEvent → LabelDb → Prop where
  | kept (e : LabelEvent) (db' : LabelDb) (h : ∀ name, db'.HasRoom name ↔ db.HasRoom name) :
      RoomNames db e db'
  | created (body : RoomCreate) (now : Timestamp) (db' : LabelDb)
      (h : ∀ name, db'.HasRoom name ↔ db.HasRoom name ∨ name = body.name) :
      RoomNames db (.createRoom body now) db'
  | renamed (roomName newName : String) (body : RoomUpdate) (hbody : body.name = some newName)
      (hne : newName ≠ roomName) (hfree : ¬db.HasRoom newName) (db' : LabelDb)
      (h : ∀ name, db'.HasRoom name ↔ (db.HasRoom name ∧ name ≠ roomName) ∨ name = newName) :
      RoomNames db (.updateRoom roomName body) db'
  | deleted (roomName : String) (hfree : ∀ l ∈ db.labels, l.room ≠ roomName) (db' : LabelDb)
      (h : ∀ name, db'.HasRoom name ↔ db.HasRoom name ∧ name ≠ roomName) :
      RoomNames db (.deleteRoom roomName) db'

/-- `create_room` adds its room or changes nothing. -/
private theorem createRoom_roomNames (body : RoomCreate) (now : Timestamp) (db : LabelDb) :
    RoomNames db (.createRoom body now) (createRoom body now Tx.noFaults db).2 := by
  unfold createRoom Tx.transact
  simp only [Tx.run_bind, Tx.run_execute]
  cases hins : insertRoom ⟨body.name, body.floor, now⟩ db with
  | error exc =>
    dsimp only
    split <;> exact .kept _ _ fun _ => Iff.rfl
  | ok p => exact .created body now _ (hasRoom_insertRoom hins)

/-- `delete_room` removes its room or changes nothing. -/
private theorem deleteRoom_roomNames (roomName : String) (db : LabelDb) :
    RoomNames db (.deleteRoom roomName) (deleteRoom roomName Tx.noFaults db).2 := by
  unfold deleteRoom
  rw [Tx.run_read]
  cases hfind : db.rooms.find? roomName with
  | none => exact .kept _ _ fun _ => Iff.rfl
  | some room =>
    obtain ⟨-, rfl⟩ := Table.find?_eq_some_iff.mp hfind
    simp only [Tx.transact, Tx.run_bind, Tx.run_execute]
    cases hdel : deleteRoomRow room.name db with
    | error exc =>
      dsimp only
      split <;> exact .kept _ _ fun _ => Iff.rfl
    | ok p =>
      exact .deleted room.name (not_referenced_of_deleteRoomRow hdel) _
        (hasRoom_deleteRoomRow hdel)

/-- `update_room` renames its room or changes nothing. -/
private theorem updateRoom_roomNames (roomName : String) (body : RoomUpdate) (db : LabelDb) :
    RoomNames db (.updateRoom roomName body) (updateRoom roomName body Tx.noFaults db).2 := by
  unfold updateRoom
  rw [Tx.run_read]
  cases hfind : db.rooms.find? roomName with
  | none => exact .kept _ _ fun _ => Iff.rfl
  | some room =>
    obtain ⟨hroom, rfl⟩ := Table.find?_eq_some_iff.mp hfind
    dsimp only
    by_cases hsame : body.name.getD room.name = room.name ∧
        body.floor.getD room.floor = room.floor
    · rw [if_pos hsame, Tx.run_pure]
      dsimp only
      rw [if_neg (not_not.mpr hsame.1)]
      exact .kept _ _ fun _ => Iff.rfl
    · rw [if_neg hsame, Tx.run_execute]
      cases hflush : updateRoomRow room.name (body.name.getD room.name) body.floor db with
      | error exc =>
        dsimp only
        split <;> exact .kept _ _ fun _ => Iff.rfl
      | ok p =>
        have hnames := hasRoom_updateRoomRow ⟨room, hroom, rfl⟩ hflush
        dsimp only
        -- a new name enters where the old one leaves
        by_cases hname : body.name.getD room.name = room.name
        · rw [if_neg (not_not.mpr hname)]
          -- only the floor changes
          apply RoomNames.kept
          intro name
          refine (hnames name).trans ?_
          rw [hname]
          constructor
          · rintro (h | rfl)
            · exact h.1
            · exact ⟨room, hroom, rfl⟩
          · intro h
            by_cases hne : name = room.name
            · exact .inr hne
            · exact .inl ⟨h, hne⟩
        · rw [if_pos hname]
          have hbody : body.name = some (body.name.getD room.name) := by
            cases hgiven : body.name with
            | none => rw [hgiven] at hname; exact absurd rfl hname
            | some given => rfl
          have hfree := not_hasRoom_of_updateRoomRow ⟨room, hroom, rfl⟩ hname hflush
          exact .renamed room.name _ body hbody hname hfree _ hnames

/-! ## The label endpoints write no room -/

/-- The sync touches no room. -/
theorem syncTrainingSamplesBestEffort_rooms (w : Window) (db : LabelDb) :
    (syncTrainingSamplesBestEffort w Tx.noFaults db).2.rooms = db.rooms := by
  rw [syncTrainingSamplesBestEffort_snd]
  unfold insertTrainingIn
  by_cases hnd : ((selectLabelled w db).map TrainingSample.key).Nodup
  · rw [if_pos hnd]
  · rw [if_neg hnd]

/-- The rebuild of a window touches no room. -/
private theorem resyncTrainingSamplesBestEffort_rooms (w : Window) (db : LabelDb) :
    (resyncTrainingSamplesBestEffort w Tx.noFaults db).rooms = db.rooms := by
  rw [resyncTrainingSamplesBestEffort_eq]
  unfold insertTrainingIn
  by_cases hnd : ((selectLabelled w (deleteTrainingIn w db)).map TrainingSample.key).Nodup
  · rw [if_pos hnd]
    rfl
  · rw [if_neg hnd]

/-- The `INSERT` of a label touches no room. -/
private theorem insertLabel_rooms {timeStart timeEnd : Timestamp} {room : String} {occupants : Int}
    {notes : Option String} {valid : timeStart < timeEnd} {now : Timestamp} {l : Label}
    {db db' : LabelDb}
    (h : LabelDb.insertLabel timeStart timeEnd room occupants notes valid now db = .ok (l, db')) :
    db'.rooms = db.rooms := by
  unfold LabelDb.insertLabel at h
  split at h
  · cases h
  · split at h
    · cases h; rfl
    · cases h

/-- `create_label` touches no room. -/
private theorem createLabel_rooms (body : LabelCreate) (now : Timestamp) (db : LabelDb) :
    (createLabel body now Tx.noFaults db).2.rooms = db.rooms := by
  unfold createLabel
  dsimp only
  rw [Tx.run_execute]
  cases hins : LabelDb.insertLabel body.timeStart body.timeEnd body.room body.occupants
      body.notes body.endAfterStart now db with
  | error exc =>
    dsimp only
    split <;> rfl
  | ok p => exact insertLabel_rooms hins

/-- What each event does to the room names. -/
theorem LabelSystem.step_roomNames (s : LabelSystem) (e : LabelEvent) :
    RoomNames s.db e (LabelSystem.step s e).2.db := by
  -- every statement of the label endpoints leaves the rooms alone
  have kept : ∀ db' : LabelDb, db'.rooms = s.db.rooms → RoomNames s.db e db' := by
    intro db' hrooms
    refine .kept _ _ fun name => ?_
    unfold HasRoom
    rw [hrooms]
  cases e with
  | insertBatch rows => exact kept _ rfl
  | createRoom body now => exact createRoom_roomNames body now s.db
  | updateRoom roomName body => exact updateRoom_roomNames roomName body s.db
  | deleteRoom roomName => exact deleteRoom_roomNames roomName s.db
  | createLabel body now =>
    have hrooms := createLabel_rooms body now s.db
    apply kept
    rw [LabelSystem.step]
    split
    · rename_i hcreate
      rw [hcreate] at hrooms
      exact hrooms
    · rename_i hcreate
      rw [hcreate] at hrooms
      exact hrooms
  | deleteLabel labelId =>
    apply kept
    simp only [LabelSystem.step, deleteLabelCleanup_eq]
    cases s.db.labels.find? labelId with
    | none => rfl
    | some l =>
      dsimp only
      rw [cleaned_eq]
      rfl
  | backfill i =>
    apply kept
    simp only [LabelSystem.step]
    cases s.backfills[i]? <;> rfl
  | sync i =>
    apply kept
    simp only [LabelSystem.step]
    cases s.syncs[i]? with
    | none => rfl
    | some w => exact syncTrainingSamplesBestEffort_rooms w s.db
  | resync i =>
    apply kept
    simp only [LabelSystem.step]
    cases s.resyncs[i]? with
    | none => rfl
    | some w => exact resyncTrainingSamplesBestEffort_rooms w s.db

/-! ## Runs -/

/-- Every name that is added has passed its validator. -/
theorem LabelDb.RoomsNamed.step {s : LabelSystem} (h : s.db.RoomsNamed) (e : LabelEvent) :
    (LabelSystem.step s e).2.db.RoomsNamed := by
  intro name hname
  cases s.step_roomNames e with
  | kept e db' hnames => exact h name ((hnames name).mp hname)
  | created body now db' hnames =>
    rcases (hnames name).mp hname with hname | rfl
    · exact h name hname
    · exact body.nameNotEmpty
  | renamed roomName newName body hbody hne hfree db' hnames =>
    rcases (hnames name).mp hname with ⟨hname, -⟩ | rfl
    · exact h name hname
    · exact body.nameNotEmpty _ hbody
  | deleted roomName hfree db' hnames => exact h name ((hnames name).mp hname).1

/-- In every run the rooms keep names that the validators let through. -/
theorem roomsNamed_of_run {s₀ : LabelSystem}
    {ok : Config LabelSystem LabelEvent (Except Failure Unit) → LabelEvent → Prop}
    {c : Config LabelSystem LabelEvent (Except Failure Unit)} (h₀ : s₀.db.RoomsNamed)
    (hrun : labelMachine.Run ok ⟨[], s₀⟩ c) : c.state.db.RoomsNamed := by
  apply hrun.invariant (I := fun c => c.state.db.RoomsNamed) h₀
  intro c e h _
  exact h.step e

end Grimnir
