import Grimnir.Native.Migrate

/-!
# Every migration is applied once

Any number of processes run `run_migrations` on one database.  Their statements may be
refused or lose the connection at any point, and a process may crash.  In every state the
committed scripts are a prefix of the sorted list, and `schema_migrations` records exactly
these.

## Key results

- `loadMigrations_of_same`: the order in which a directory lists its files does not matter
- `nextMigration_of_known`: the loop starts after the applied migrations
- `advanced_of_call`: what one statement of a process comes to
- `appliedOnce_of_run`: the migrations in every state of every run
-/

namespace Grimnir

variable {Schema : Type} {inst : Installation Schema}

/-! ## The list of migrations -/

/-- Listings of the same files. -/
structure Resources.Same (files files' : Resources) : Prop where
  entries : (files.entries.getD []).Perm (files'.entries.getD [])
  source : files.source = files'.source

variable (inst) in
/-- The version numbers of the migrations are distinct. -/
def DistinctVersions (ms : List Migration) : Prop :=
  (ms.map fun m => versionNumber inst m.version).Nodup

/-- Sorting loses and adds no migration. -/
theorem sortMigrations_perm (ms : List Migration) : (sortMigrations inst ms).Perm ms :=
  List.perm_insertionSort _ ms

/-- The version numbers ascend. -/
private theorem sortMigrations_pairwise (ms : List Migration) :
    (sortMigrations inst ms).Pairwise fun a b =>
      versionNumber inst a.version ≤ versionNumber inst b.version := by
  let r : Migration → Migration → Prop := fun a b =>
    versionNumber inst a.version ≤ versionNumber inst b.version
  have : Std.Total r := ⟨fun a b => Nat.le_total _ _⟩
  have : IsTrans Migration r := ⟨fun a b c => Nat.le_trans⟩
  exact List.pairwise_insertionSort r ms

/-- Whether the version numbers are distinct does not depend on the order. -/
private theorem DistinctVersions.of_sorted {ms : List Migration}
    (h : DistinctVersions inst (sortMigrations inst ms)) : DistinctVersions inst ms :=
  ((sortMigrations_perm ms).map _).nodup_iff.mp h

/-- Sorting forgets the order of migrations with distinct versions. -/
private theorem sortMigrations_of_perm {ms ms' : List Migration} (hperm : ms.Perm ms')
    (hdistinct : DistinctVersions inst ms) :
    sortMigrations inst ms = sortMigrations inst ms' := by
  refine List.Perm.eq_of_pairwise ?_ (sortMigrations_pairwise ms) (sortMigrations_pairwise ms')
    ((sortMigrations_perm ms).trans (hperm.trans (sortMigrations_perm ms').symm))
  intro a b ha hb hab hba
  have ha' : a ∈ ms := (sortMigrations_perm ms).mem_iff.mp ha
  have hb' : b ∈ ms := hperm.mem_iff.mpr ((sortMigrations_perm ms').mem_iff.mp hb)
  exact List.inj_on_of_nodup_map hdistinct ha' hb' (Nat.le_antisymm hab hba)

/-- `_load_migrations` returns the same list whatever order the directory is read in. -/
theorem loadMigrations_of_same {files files' : Resources} {ms : List Migration}
    (hsame : files.Same files') (hload : loadMigrations inst files = .ok ms)
    (hdistinct : DistinctVersions inst ms) : loadMigrations inst files' = .ok ms := by
  have hperm : (bundledMigrations inst (files.entries.getD [])).Perm
      (bundledMigrations inst (files'.entries.getD [])) := hsame.entries.filterMap _
  unfold loadMigrations at hload ⊢
  by_cases hnone : bundledMigrations inst (files.entries.getD []) = []
  · rw [hnone] at hperm
    rw [List.nil_perm.mp hperm, ← hsame.source]
    rw [hnone] at hload
    exact hload
  · have hnone' : bundledMigrations inst (files'.entries.getD []) ≠ [] := by
      intro heq
      rw [heq] at hperm
      exact hnone (List.perm_nil.mp hperm)
    simp only [ne_eq, hnone, not_false_eq_true, if_true, Except.ok.injEq] at hload
    simp only [ne_eq, hnone', not_false_eq_true, if_true, Except.ok.injEq]
    subst hload
    exact (sortMigrations_of_perm hperm hdistinct.of_sorted).symm

/-- The loaded list is in the numeric order of its versions. -/
private theorem ordered_of_load {files : Resources} {ms : List Migration}
    (hload : loadMigrations inst files = .ok ms) (hdistinct : DistinctVersions inst ms) :
    ms.Pairwise fun a b => versionNumber inst a.version < versionNumber inst b.version := by
  have hsorted : ms.Pairwise fun a b =>
      versionNumber inst a.version ≤ versionNumber inst b.version := by
    unfold loadMigrations at hload
    dsimp only at hload
    split at hload
    · cases hload
      exact sortMigrations_pairwise _
    · split at hload
      · cases hload
      · cases hload
        exact sortMigrations_pairwise _
      · cases hload
  have hne := List.pairwise_map.mp hdistinct
  exact hsorted.imp₂ (fun _ _ hle hne => Nat.lt_of_le_of_ne hle hne) hne

/-! ## The loop -/

variable (inst) in
/-- The row of a migration. -/
def Migration.row (m : Migration) : String × String := (m.version, inst.sha256 m.sql)

variable {ms known done todo : List Migration}

/-- Distinct numbers have distinct texts. -/
private theorem DistinctVersions.versions (h : DistinctVersions inst ms) :
    (ms.map (·.version)).Nodup := by
  refine List.Nodup.of_map (versionNumber inst) ?_
  rw [List.map_map]
  exact h

/-- So no migration is listed twice. -/
theorem DistinctVersions.nodup (h : DistinctVersions inst ms) : ms.Nodup :=
  h.versions.of_map _

/-- A recorded migration is found with its checksum. -/
private theorem lookup_rows_of_mem (hnodup : (known.map (·.version)).Nodup) {m : Migration}
    (hm : m ∈ known) : (known.map (·.row inst)).lookup m.version = some (inst.sha256 m.sql) := by
  induction known with
  | nil => cases hm
  | cons x xs ih =>
    obtain ⟨hx, hxs⟩ := List.nodup_cons.mp hnodup
    rw [List.map_cons]
    rcases List.mem_cons.mp hm with rfl | hm
    · exact List.lookup_cons_self
    · have hne : (m.version == x.version) = false := by
        refine beq_false_of_ne fun heq => hx ?_
        show x.version ∈ _
        rw [← heq]
        exact List.mem_map_of_mem hm
      show List.lookup m.version ((x.version, _) :: _) = _
      rw [List.lookup_cons, hne]
      exact ih hxs hm

/-- A version without a row is not found. -/
private theorem lookup_rows_of_fresh {version : String} (h : version ∉ known.map (·.version)) :
    (known.map (·.row inst)).lookup version = none := by
  rw [List.lookup_eq_none_iff]
  intro p hp
  obtain ⟨m, hm, rfl⟩ := List.mem_map.mp hp
  exact bne_iff_ne.mpr fun heq => h (heq ▸ List.mem_map_of_mem hm)

/-- The loop skips what it knows to be applied. -/
private theorem nextMigration_skip {applied : List (String × String)}
    (skipped rest : List Migration)
    (h : ∀ m ∈ skipped, applied.lookup m.version = some (inst.sha256 m.sql)) :
    nextMigration inst applied (skipped ++ rest) = nextMigration inst applied rest := by
  induction skipped with
  | nil => rfl
  | cons m skipped ih =>
    have hm := h m List.mem_cons_self
    simp only [List.cons_append, nextMigration, hm, ne_eq, not_true_eq_false, if_false]
    exact ih fun m' hm' => h m' (List.mem_cons_of_mem _ hm')

/-- The loop does not close the connection before its end. -/
theorem nextMigration_ne_closing (applied : List (String × String)) (ms : List Migration)
    (exc : Option RunError) : nextMigration inst applied ms ≠ .closing exc := by
  induction ms with
  | nil => exact fun h => nomatch h
  | cons m rest ih =>
    simp only [nextMigration]
    split
    · split
      · exact fun h => nomatch h
      · exact ih
    · exact fun h => nomatch h

/-- Nor does loading the files. -/
theorem afterLoad_ne_closing (applied : List (String × String))
    (outcome : Except RunError Resources) (exc : Option RunError) :
    afterLoad inst applied outcome ≠ .closing exc := by
  unfold afterLoad
  split
  · exact fun h => nomatch h
  · split
    · exact fun h => nomatch h
    · exact nextMigration_ne_closing applied _ exc

/-- Where the loop goes when `done` is applied. -/
def nextStage (applied : List (String × String)) : List Migration → MigrateStage
  | [] => .unlocking none
  | m :: rest => .executing applied m rest

/-- The loop passes over what is recorded and stops at the first script that is not. -/
private theorem nextMigration_fresh (hnodup : ((done ++ todo).map (·.version)).Nodup)
    (hknown : known <+: done) :
    nextMigration inst (known.map (·.row inst)) todo =
      nextStage (known.map (·.row inst)) todo := by
  cases todo with
  | nil => rfl
  | cons m rest =>
    have hfresh : m.version ∉ known.map (·.version) := by
      rw [List.map_append, List.map_cons] at hnodup
      intro hmem
      have hdisj := (List.nodup_append.mp hnodup).2.2
      exact hdisj _ ((hknown.map _).subset hmem) _ List.mem_cons_self rfl
    simp only [nextMigration, lookup_rows_of_fresh hfresh, nextStage]

/-- The loop over the whole list starts after the applied migrations. -/
theorem nextMigration_of_known (hnodup : ((done ++ todo).map (·.version)).Nodup) :
    nextMigration inst (done.map (·.row inst)) (done ++ todo) =
      nextStage (done.map (·.row inst)) todo := by
  have hdone : (done.map (·.version)).Nodup := by
    rw [List.map_append] at hnodup
    exact (List.nodup_append.mp hnodup).1
  rw [nextMigration_skip done todo fun m hm => lookup_rows_of_mem hdone hm]
  exact nextMigration_fresh hnodup (List.prefix_refl done)

/-! ## What is committed -/

/-- The migration of a script. -/
def Write.migration? : Write → Option Migration
  | .script m => some m
  | _ => none

/-- The log of a run. -/
abbrev MigrateLog := List (MigrateEvent × MigrateResponse)

/-- The migrations whose scripts are committed, oldest first. -/
def committed (log : MigrateLog) : List Migration :=
  log.reverse.flatMap fun x => x.2.durable.filterMap Write.migration?

/-- One more entry makes its own writes durable. -/
theorem committed_cons (x : MigrateEvent × MigrateResponse) (log : MigrateLog) :
    committed (x :: log) = committed log ++ x.2.durable.filterMap Write.migration? := by
  simp only [committed, List.reverse_cons, List.flatMap_append, List.flatMap_cons,
    List.flatMap_nil, List.append_nil]

variable (inst) in
/-- The scripts of a list, one after the other. -/
def replayScripts (ms : List Migration) (schema : Schema) : Except RunError Schema :=
  ms.foldlM (fun schema m => inst.execute m.sql schema) schema

variable (inst) in
/-- The database after the migrations `done`. -/
structure Ledger (ms : List Migration) (start : Schema) (done : List Migration)
    (db : Database Schema) : Prop where
  inOrder : done <+: ms
  rows : db.rows.getD [] = done.map (·.row inst)
  schema : replayScripts inst done start = .ok db.schema

variable {start : Schema} {db : Database Schema}

/-- Creating the table again changes no row. -/
theorem Ledger.createTable (h : Ledger inst ms start done db) :
    Ledger inst ms start done { db with rows := some (db.rows.getD []) } :=
  ⟨h.inOrder, h.rows, h.schema⟩

/-- One more migration. -/
theorem Ledger.record {m : Migration} {rest : List Migration} {schema : Schema}
    (h : Ledger inst ms start done db) (hms : ms = done ++ m :: rest)
    (hexec : inst.execute m.sql db.schema = .ok schema) :
    Ledger inst ms start (done ++ [m])
      ⟨schema, some (db.rows.getD [] ++ [m.row inst])⟩ where
  inOrder := ⟨rest, by rw [hms, List.append_assoc]; rfl⟩
  rows := by rw [Option.getD_some, h.rows, List.map_append]; rfl
  schema := by
    unfold replayScripts
    rw [List.foldlM_append]
    have hdone : done.foldlM (fun schema m => inst.execute m.sql schema) start =
      .ok db.schema := h.schema
    rw [hdone]
    show [m].foldlM (fun schema m => inst.execute m.sql schema) db.schema = _
    rw [List.foldlM_cons, hexec]
    rfl

/-! ## Where a process stands -/

/-- All migrations are applied. -/
structure Complete (ms done : List Migration) (created : Prop) : Prop where
  done : done = ms
  created : created

variable (inst) in
/-- What the transaction of a process has written, and whether it holds the lock. -/
def Fits (ms done : List Migration) (created : Prop) (held : Prop) (pending : List Write) :
    MigrateStage → Prop
  | .idle => False
  | .locking => pending = []
  | .creatingTable => held ∧ pending = []
  | .committingTable => held ∧ pending = [.createTable]
  | .reading => held ∧ pending = [] ∧ created
  | .loading applied => held ∧ pending = [] ∧ created ∧ applied = done.map (·.row inst)
  | .executing applied m rest => held ∧ pending = [] ∧ created ∧ ms = done ++ m :: rest ∧
      ∃ known, known <+: done ∧ applied = known.map (·.row inst)
  | .recording applied m rest => held ∧ pending = [.script m] ∧ created ∧
      ms = done ++ m :: rest ∧ ∃ known, known <+: done ∧ applied = known.map (·.row inst)
  | .committing applied rest => held ∧ created ∧ ∃ m,
      pending = [.script m, .record m.version (inst.sha256 m.sql)] ∧ ms = done ++ m :: rest ∧
        ∃ known, known <+: done ∧ applied = known.map (·.row inst)
  | .rollingBack _ => held
  | .unlocking exc => held ∧ pending = [] ∧ (exc = none → Complete ms done created)
  | .finalCommit exc => pending = [] ∧ (exc = none → Complete ms done created)
  | .closing _ => pending = []

/-- A process in a state of the database. -/
structure Standing (inst : Installation Schema) (ms done : List Migration)
    (server : Server (Database Schema) Write) (pid : Nat) (stage : MigrateStage) : Prop where
  session : ∀ pending, server.sessions pid = some pending →
    Fits inst ms done (server.committed.rows.isSome = true) (server.lock = some pid) pending stage
  /-- A process that succeeds has seen every migration applied. -/
  complete : stage = .closing none → Complete ms done (server.committed.rows.isSome = true)

/-- What a process without the lock expects does not depend on what is applied. -/
theorem Fits.mono {done' : List Migration} {created created' held held' : Prop}
    {pending : List Write} {stage : MigrateStage}
    (h : Fits inst ms done created held pending stage) (hheld : held → held' ∧ done' = done)
    (hcreated : created → created') (hdone : done = ms → done' = ms) :
    Fits inst ms done' created' held' pending stage := by
  have hcomplete (h : Complete ms done created) : Complete ms done' created' :=
    ⟨hdone h.done, hcreated h.created⟩
  -- while the lock is held the ledger does not change, otherwise nothing is known of it
  cases stage with
  | idle => exact h
  | locking => exact h
  | creatingTable => exact ⟨(hheld h.1).1, h.2⟩
  | committingTable => exact ⟨(hheld h.1).1, h.2⟩
  | reading => exact ⟨(hheld h.1).1, h.2.1, hcreated h.2.2⟩
  | loading applied =>
    rw [(hheld h.1).2]
    exact ⟨(hheld h.1).1, h.2.1, hcreated h.2.2.1, h.2.2.2⟩
  | executing applied m rest =>
    rw [(hheld h.1).2]
    exact ⟨(hheld h.1).1, h.2.1, hcreated h.2.2.1, h.2.2.2⟩
  | recording applied m rest =>
    rw [(hheld h.1).2]
    exact ⟨(hheld h.1).1, h.2.1, hcreated h.2.2.1, h.2.2.2⟩
  | committing applied rest =>
    rw [(hheld h.1).2]
    exact ⟨(hheld h.1).1, hcreated h.2.1, h.2.2⟩
  | rollingBack exc => exact (hheld h).1
  | unlocking exc => exact ⟨(hheld h.1).1, h.2.1, fun hnone => hcomplete (h.2.2 hnone)⟩
  | finalCommit exc => exact ⟨h.1, fun hnone => hcomplete (h.2 hnone)⟩
  | closing exc => exact h

/-! ## One statement -/

/-- What a statement of process `pid` comes to. -/
structure Advanced (inst : Installation Schema) (ms : List Migration) (start : Schema)
    (done : List Migration) (pid : Nat) (server : Server (Database Schema) Write)
    (stage : MigrateStage) (durable : List Write)
    (server' : Server (Database Schema) Write) : Prop where
  ledger : Ledger inst ms start (done ++ durable.filterMap Write.migration?) server'.committed
  standing : Standing inst ms (done ++ durable.filterMap Write.migration?) server' pid stage
  created : server.committed.rows.isSome = true → server'.committed.rows.isSome = true
  held : durable.filterMap Write.migration? ≠ [] → server.lock = some pid

variable {s s' : Server (Database Schema) Write} {pid : Nat} {stage stage' : MigrateStage}
  {durable : List Write}

/-- A statement that commits nothing. -/
theorem Advanced.of_committed_eq (hledger : Ledger inst ms start done s.committed)
    (hcommitted : s'.committed = s.committed)
    (hstanding : Standing inst ms done s' pid stage) :
    Advanced inst ms start done pid s stage [] s' where
  ledger := by rw [hcommitted]; simpa using hledger
  standing := by simpa using hstanding
  created := by rw [hcommitted]; exact fun h => h
  held h := absurd rfl h

/-- The connection is gone. -/
theorem Advanced.lost (h : Advanced inst ms start done pid s stage durable s')
    (hfails : stage' ≠ .closing none) :
    Advanced inst ms start done pid s stage' durable (s'.disconnect pid) where
  ledger := h.ledger
  standing := ⟨fun _ hsession => by simp at hsession, fun hsucc => absurd hsucc hfails⟩
  created := h.created
  held := h.held

/-- A statement that raises never leads to success. -/
theorem after_error_ne {stmt : Server.Statement Write} (hstmt : stage.statement inst = some stmt)
    (exc : RunError) : stage.after inst (.error exc) ≠ .closing none := by
  cases stage <;> first | cases hstmt; done | (intro h; cases h)

/-- Where a refused statement leaves the transaction. -/
theorem Fits.refused {stmt : Server.Statement Write} {created : Prop} {pending : List Write}
    (hstmt : stage.statement inst = some stmt)
    (h : Fits inst ms done created (s.lock = some pid) pending stage)
    (hsession : s.sessions pid = some pending) (exc : RunError) (pending' : List Write)
    (hsession' : (s.refuse pid stmt).sessions pid = some pending') :
    Fits inst ms done created ((s.refuse pid stmt).lock = some pid) pending'
      (stage.after inst (.error exc)) := by
  -- a refused statement changes neither the rows nor the lock
  cases stage with
  | idle => cases hstmt
  | loading applied => cases hstmt
  | closing exc => cases hstmt
  -- the lock was not taken, and the transaction is as it was
  | locking =>
    cases hstmt
    obtain rfl : pending = pending' := Option.some.inj (hsession.symm.trans hsession')
    exact h
  | creatingTable => cases hstmt; exact h.1
  | committingTable => cases hstmt; exact h.1
  | reading => cases hstmt; exact h.1
  | executing applied m rest => cases hstmt; exact h.1
  | recording applied m rest => cases hstmt; exact h.1
  | committing applied rest => cases hstmt; exact h.1
  -- a `ROLLBACK` that is refused has closed the connection
  | rollingBack exc =>
    cases hstmt
    cases (Server.sessions_disconnect pid s).symm.trans hsession'
  | unlocking exc =>
    cases hstmt
    obtain rfl : pending = pending' := Option.some.inj (hsession.symm.trans hsession')
    exact h.2.1
  | finalCommit exc =>
    cases hstmt
    exact (Option.some.inj ((Server.sessions_setSession pid (some []) s).symm.trans
      hsession')).symm

/-- A stage whose transaction has written `pending`. -/
private theorem standing_of_session {pending : List Write}
    (hsession : s.sessions pid = some pending)
    (hfits : Fits inst ms done (s.committed.rows.isSome = true) (s.lock = some pid) pending stage)
    (hcomplete : stage = .closing none → Complete ms done (s.committed.rows.isSome = true)) :
    Standing inst ms done s pid stage := by
  refine ⟨?_, hcomplete⟩
  intro pending' hsession'
  obtain rfl : pending = pending' := Option.some.inj (hsession.symm.trans hsession')
  exact hfits

/-- The stage after the loop has looked for the next migration. -/
private theorem standing_nextStage {todo known : List Migration}
    (hsession : s.sessions pid = some []) (hlock : s.lock = some pid)
    (hcreated : s.committed.rows.isSome = true) (hms : ms = done ++ todo)
    (hknown : known <+: done) :
    Standing inst ms done s pid (nextStage (known.map (·.row inst)) todo) := by
  cases todo with
  | nil =>
    rw [List.append_nil] at hms
    exact standing_of_session hsession ⟨hlock, rfl, fun _ => ⟨hms.symm, hcreated⟩⟩
      fun h => nomatch h
  | cons m rest =>
    exact standing_of_session hsession ⟨hlock, rfl, hcreated, hms, known, hknown, rfl⟩
      fun h => nomatch h

/-- The commit of a migration. -/
theorem view_migration {m : Migration} {checksum : String} {state : Database Schema}
    (hview : s.view (fun w db => w.apply inst db) [.script m, .record m.version checksum] =
      .ok state) :
    ∃ schema, inst.execute m.sql s.committed.schema = .ok schema ∧
      state = ⟨schema, some (s.committed.rows.getD [] ++ [(m.version, checksum)])⟩ := by
  obtain ⟨⟨schema, rows⟩, sessions, lock⟩ := s
  unfold Server.view at hview
  rw [List.foldlM_cons] at hview
  -- the script has to succeed for its `INSERT` to be tried
  cases hexec : inst.execute m.sql schema with
  | error exc =>
    simp only [Write.apply, hexec] at hview
    cases hview
  | ok schema' =>
    simp only [Write.apply, hexec, Except.map, List.foldlM_cons, List.foldlM_nil, bind,
      Except.bind] at hview
    -- and the table has to exist
    cases rows with
    | none => cases hview
    | some rows =>
      dsimp only at hview
      split at hview
      · cases hview
      -- the `INSERT` checks the primary key
      · rename_i heq
        split at heq
        · cases heq
        · cases heq
          cases hview
          exact ⟨schema', rfl, rfl⟩

/-- What a process has read is what it goes on with. -/
theorem after_reading {rows : List (String × String)} (h : db.rows = some rows) :
    MigrateStage.reading.after inst (.ok db) = .loading rows := by
  obtain ⟨schema, _⟩ := db
  cases h
  rfl

/-- The commit of `CREATE TABLE`. -/
private theorem advanced_of_createTable (hledger : Ledger inst ms start done s.committed)
    (hlock : s.lock = some pid) {state : Database Schema}
    (hexec : s.execute (fun w db => w.apply inst db) pid [.createTable] .commit =
      .done state durable s') :
    Advanced inst ms start done pid s .reading durable s' := by
  obtain ⟨rfl, rfl, hview⟩ := Server.execute_commit_done hexec
  obtain rfl := Except.ok.inj hview
  have hnone : [Write.createTable].filterMap Write.migration? = [] := rfl
  constructor
  case ledger =>
    rw [hnone, List.append_nil]
    exact hledger.createTable
  case standing =>
    refine standing_of_session (Server.sessions_setSession pid _ s) ?_ fun h => nomatch h
    exact ⟨hlock, rfl, rfl⟩
  case created => exact fun _ => rfl
  case held => exact fun h => absurd rfl h

/-- The commit of a migration, after which the loop takes the next one. -/
private theorem advanced_of_migration (hledger : Ledger inst ms start done s.committed)
    (hnodup : (ms.map (·.version)).Nodup) {known rest : List Migration} {m : Migration}
    (hlock : s.lock = some pid) (hms : ms = done ++ m :: rest) (hknown : known <+: done)
    {state : Database Schema}
    (hexec : s.execute (fun w db => w.apply inst db) pid
      [.script m, .record m.version (inst.sha256 m.sql)] .commit = .done state durable s') :
    Advanced inst ms start done pid s (nextMigration inst (known.map (·.row inst)) rest)
      durable s' := by
  obtain ⟨rfl, rfl, hview⟩ := Server.execute_commit_done hexec
  obtain ⟨schema, hscript, rfl⟩ := view_migration hview
  have hms' : ms = (done ++ [m]) ++ rest := by
    rw [hms, List.append_assoc]
    rfl
  have hknown' : known <+: done ++ [m] := hknown.trans (List.prefix_append done [m])
  -- nothing behind `m` was known when the loop started
  have hnext : nextMigration inst (known.map (·.row inst)) rest =
      nextStage (known.map (·.row inst)) rest := by
    rw [hms'] at hnodup
    exact nextMigration_fresh hnodup hknown'
  constructor
  case ledger => exact hledger.record hms hscript
  case standing =>
    show Standing inst ms (done ++ [m]) _ pid (nextMigration inst _ rest)
    rw [hnext]
    exact standing_nextStage (Server.sessions_setSession pid _ s) hlock rfl hms' hknown'
  case created => exact fun _ => rfl
  case held => exact fun _ => hlock

/-- A statement that is carried out. -/
private theorem advanced_of_done (hledger : Ledger inst ms start done s.committed)
    (hnodup : (ms.map (·.version)).Nodup) {pending : List Write}
    (hsession : s.sessions pid = some pending)
    (hfits : Fits inst ms done (s.committed.rows.isSome = true) (s.lock = some pid) pending stage)
    {stmt : Server.Statement Write} (hstmt : stage.statement inst = some stmt)
    {state : Database Schema}
    (hexec : s.execute (fun w db => w.apply inst db) pid pending stmt =
      .done state durable s') :
    Advanced inst ms start done pid s (stage.after inst (.ok state)) durable s' := by
  -- each stage sends one statement; what comes of it is read off the server
  cases stage with
  | idle => cases hstmt
  | loading applied => cases hstmt
  | closing exc => cases hstmt
  | locking =>
    cases hstmt
    obtain ⟨rfl, rfl⟩ := Server.execute_lock_done hexec
    exact .of_committed_eq hledger rfl
      (standing_of_session hsession ⟨rfl, hfits⟩ fun h => nomatch h)
  | creatingTable =>
    cases hstmt
    obtain ⟨hlock, rfl⟩ := hfits
    obtain ⟨rfl, rfl⟩ := Server.execute_write_done hexec
    exact .of_committed_eq hledger rfl
      (standing_of_session (Server.sessions_setSession _ _ s) ⟨hlock, rfl⟩ fun h => nomatch h)
  | committingTable =>
    cases hstmt
    obtain ⟨hlock, rfl⟩ := hfits
    exact advanced_of_createTable hledger hlock hexec
  -- what was read are the rows of the ledger, as long as the lock is held
  | reading =>
    cases hstmt
    obtain ⟨hlock, rfl, hcreated⟩ := hfits
    obtain ⟨rfl, rfl, hview⟩ := Server.execute_read_done hexec
    obtain rfl := Except.ok.inj hview
    obtain ⟨rows, hrows⟩ := Option.isSome_iff_exists.mp hcreated
    have happlied : rows = done.map (·.row inst) := by
      rw [← hledger.rows, hrows, Option.getD_some]
    rw [after_reading hrows]
    exact .of_committed_eq hledger rfl
      (standing_of_session hsession ⟨hlock, rfl, hcreated, happlied⟩ fun h => nomatch h)
  -- a write stays in the transaction
  | executing applied m rest =>
    cases hstmt
    obtain ⟨hlock, rfl, hcreated, hms⟩ := hfits
    obtain ⟨rfl, rfl⟩ := Server.execute_write_done hexec
    exact .of_committed_eq hledger rfl
      (standing_of_session (Server.sessions_setSession _ _ s) ⟨hlock, rfl, hcreated, hms⟩
        fun h => nomatch h)
  | recording applied m rest =>
    cases hstmt
    obtain ⟨hlock, rfl, hcreated, hms⟩ := hfits
    obtain ⟨rfl, rfl⟩ := Server.execute_write_done hexec
    exact .of_committed_eq hledger rfl
      (standing_of_session (Server.sessions_setSession _ _ s) ⟨hlock, hcreated, m, rfl, hms⟩
        fun h => nomatch h)
  -- the commit makes a migration durable
  | committing applied rest =>
    cases hstmt
    obtain ⟨hlock, hcreated, m, rfl, hms, known, hknown, rfl⟩ := hfits
    exact advanced_of_migration hledger hnodup hlock hms hknown hexec
  -- a `ROLLBACK` leaves what is committed as it was
  | rollingBack exc =>
    cases hstmt
    cases hexec
    exact .of_committed_eq hledger rfl
      (standing_of_session (Server.sessions_setSession _ _ s)
        ⟨hfits, rfl, fun h => nomatch h⟩ fun h => nomatch h)
  | unlocking exc =>
    cases hstmt
    cases hexec
    exact .of_committed_eq hledger rfl
      (standing_of_session hsession hfits.2 fun h => nomatch h)
  -- nothing is left to commit at the end
  | finalCommit exc =>
    cases hstmt
    obtain ⟨rfl, hcomplete⟩ := hfits
    obtain ⟨rfl, rfl, hview⟩ := Server.execute_commit_done hexec
    obtain rfl := Except.ok.inj hview
    exact .of_committed_eq hledger rfl
      (standing_of_session (Server.sessions_setSession _ _ s) rfl fun h =>
        hcomplete (MigrateStage.closing.inj h))

/-- A statement of a process keeps the ledger. -/
theorem advanced_of_call (hledger : Ledger inst ms start done s.committed)
    (hnodup : (ms.map (·.version)).Nodup) (hstanding : Standing inst ms done s pid stage)
    {stmt : Server.Statement Write} (hstmt : stage.statement inst = some stmt)
    {fate : Fate RunError} {closed : RunError} {reply : Except RunError (Database Schema)}
    (hcall : s.call (fun w db => w.apply inst db) pid stmt fate closed =
      some (reply, durable, s')) :
    Advanced inst ms start done pid s (stage.after inst reply) durable s' := by
  -- a refused call never ends the process as one that has succeeded
  have hfails := after_error_ne hstmt
  refine Server.call_rule
    (R := fun reply durable s' =>
      Advanced inst ms start done pid s (stage.after inst reply) durable s') hcall ?_ ?_ ?_ ?_
  -- there was no session, so there is none now
  · intro hnone exc
    refine .of_committed_eq hledger rfl ⟨fun pending hsession => ?_, fun h => absurd h (hfails exc)⟩
    rw [hnone] at hsession
    cases hsession
  -- the statement was refused, inside a session or by ending it
  · intro pending hsession exc
    have hcommitted : (s.refuse pid stmt).committed = s.committed := by cases stmt <;> rfl
    refine .of_committed_eq hledger hcommitted ⟨?_, fun h => absurd h (hfails exc)⟩
    rw [hcommitted]
    exact (hstanding.session pending hsession).refused hstmt hsession exc
  -- the connection was lost before the statement
  · intro exc
    refine .of_committed_eq hledger rfl ⟨fun pending hsession => ?_, fun h => absurd h (hfails exc)⟩
    cases (Server.sessions_disconnect pid s).symm.trans hsession
  -- the statement was executed, and its answer may have been lost
  · intro pending state durable s₁ hsession hexec
    have hdone := advanced_of_done hledger hnodup hsession (hstanding.session pending hsession)
      hstmt hexec
    exact ⟨hdone, fun exc => hdone.lost (hfails exc)⟩

/-! ## Runs -/

/-- What holds of the ledger and the processes. -/
structure Applied (inst : Installation Schema) (ms : List Migration) (start : Schema)
    (c : Config (Migrator Schema) MigrateEvent MigrateResponse) : Prop where
  ledger : Ledger inst ms start (committed c.log) c.state.server.committed
  standing : ∀ pid, Standing inst ms (committed c.log) c.state.server pid (c.state.stages pid)
  ended : ∀ x ∈ c.log, ∀ pid, x.2.ended = some (pid, none) →
    Complete ms (committed c.log) (c.state.server.committed.rows.isSome = true)

/-- At boot the rows are those of no migration, and no process runs. -/
private theorem applied_boot {db : Database Schema} (hempty : db.rows.getD [] = []) :
    Applied inst ms db.schema ⟨[], .boot db⟩ where
  ledger := ⟨List.nil_prefix, hempty, rfl⟩
  standing := fun _ => ⟨(fun _ h => nomatch h), (fun h => nomatch h)⟩
  ended := fun _ h => nomatch h

/-- A process that does not take part in a step. -/
theorem Standing.spared {p : Nat} {new : List Migration}
    (h : Standing inst ms done s p stage) (hspares : Server.Spares p s s')
    (hheld : s.lock = some p → new = []) (hinOrder : done ++ new <+: ms)
    (hcreated : s.committed.rows.isSome = true → s'.committed.rows.isSome = true) :
    Standing inst ms (done ++ new) s' p stage := by
  have hdone : done = ms → done ++ new = ms := by
    rintro rfl
    have hnil : new = [] := by
      have := hinOrder.length_le
      rw [List.length_append] at this
      exact List.length_eq_zero_iff.mp (by omega)
    rw [hnil, List.append_nil]
  refine ⟨?_, fun hstage => ?_⟩
  · intro pending hsession
    rw [hspares.session] at hsession
    refine (h.session pending hsession).mono (fun hlock => ?_) hcreated hdone
    exact ⟨hspares.lock hlock, by rw [hheld hlock, List.append_nil]⟩
  · have hcomplete := h.complete hstage
    exact ⟨hdone hcomplete.done, hcreated hcomplete.created⟩

variable {c : Config (Migrator Schema) MigrateEvent MigrateResponse}

/-- A step of process `pid`. -/
theorem Applied.acted (h : Applied inst ms start c)
    (hadv : Advanced inst ms start (committed c.log) pid c.state.server stage durable s')
    (hspares : ∀ p, p ≠ pid → Server.Spares p c.state.server s') (e : MigrateEvent)
    (ended : Option (Nat × Option RunError))
    (hended : ∀ p, ended = some (p, none) →
      Complete ms (committed c.log) (c.state.server.committed.rows.isSome = true)) :
    Applied inst ms start
      ⟨(e, ⟨durable, ended⟩) :: c.log, { c.state.setStage pid stage with server := s' }⟩ := by
  -- another process with the lock means that this one has made nothing durable
  have hspared (p : Nat) (hp : p ≠ pid) : Standing inst ms
      (committed c.log ++ durable.filterMap Write.migration?) s' p (c.state.stages p) := by
    refine (h.standing p).spared (hspares p hp) (fun hlock => ?_) hadv.ledger.inOrder hadv.created
    by_contra hnew
    exact hp (Option.some.inj (hlock.symm.trans (hadv.held hnew)))
  -- a complete list cannot grow
  have hcomplete (hc : Complete ms (committed c.log)
      (c.state.server.committed.rows.isSome = true)) :
      Complete ms (committed c.log ++ durable.filterMap Write.migration?)
        (s'.committed.rows.isSome = true) := by
    have hlen := hadv.ledger.inOrder.length_le
    rw [List.length_append, hc.done] at hlen
    refine ⟨?_, hadv.created hc.created⟩
    rw [List.length_eq_zero_iff.mp (by omega : (durable.filterMap Write.migration?).length = 0),
      List.append_nil, hc.done]
  refine ⟨?_, ?_, ?_⟩
  · rw [committed_cons]
    exact hadv.ledger
  · intro p
    rw [committed_cons]
    by_cases hp : p = pid
    -- the process itself stands anew, the others as before
    · subst hp
      simpa only [Migrator.setStage, if_true] using hadv.standing
    · simpa only [Migrator.setStage, if_neg hp] using hspared p hp
  · intro x hx p hx_ended
    rw [committed_cons]
    -- an entry is the new one or an old one
    rcases List.mem_cons.mp hx with rfl | hx
    · exact hcomplete (hended p hx_ended)
    · exact hcomplete (h.ended x hx p hx_ended)

/-- Nothing happens. -/
theorem Applied.idle (h : Applied inst ms start c) (e : MigrateEvent)
    (ended : Option (Nat × Option RunError)) (hended : ∀ p, ended ≠ some (p, none)) :
    Applied inst ms start ⟨(e, ⟨[], ended⟩) :: c.log, c.state⟩ := by
  have hcommitted : committed ((e, ⟨[], ended⟩) :: c.log) = committed c.log := by
    rw [committed_cons]
    exact List.append_nil _
  refine ⟨?_, ?_, ?_⟩
  · rw [hcommitted]
    exact h.ledger
  · rw [hcommitted]
    exact h.standing
  · intro x hx p hx_ended
    rw [hcommitted]
    rcases List.mem_cons.mp hx with rfl | hx
    · exact absurd hx_ended (hended p)
    · exact h.ended x hx p hx_ended

/-- A process that stays where it is changes nothing. -/
theorem Migrator.setStage_self (pid : Nat) (s : Migrator Schema) :
    s.setStage pid (s.stages pid) = s := by
  obtain ⟨server, stages⟩ := s
  simp only [setStage, Migrator.mk.injEq, true_and]
  funext p
  split
  · rename_i hp
    rw [hp]
  · rfl

/-- A process loses its session. -/
theorem Applied.disconnected (h : Applied inst ms start c) (pid : Nat)
    (hstage : stage = .closing none →
      Complete ms (committed c.log) (c.state.server.committed.rows.isSome = true)) :
    Advanced inst ms start (committed c.log) pid c.state.server stage []
      (c.state.server.disconnect pid) := by
  refine .of_committed_eq h.ledger rfl ⟨fun pending hsession => ?_, hstage⟩
  cases (Server.sessions_disconnect pid c.state.server).symm.trans hsession

/-- Every process reads the same files. -/
def ReadsFiles (files : Resources) :
    Config (Migrator Schema) MigrateEvent MigrateResponse → MigrateEvent → Prop :=
  fun _ e => ∀ pid files', e = .load pid (.ok files') → files.Same files'

/-- The loop over the loaded list. -/
private theorem standing_afterLoad {files : Resources} {applied : List (String × String)}
    (hload : loadMigrations inst files = .ok ms) (hdistinct : DistinctVersions inst ms)
    (hledger : Ledger inst ms start done s.committed)
    (h : Standing inst ms done s pid (.loading applied)) {outcome : Except RunError Resources}
    (hfiles : ∀ files', outcome = .ok files' → files.Same files') :
    Standing inst ms done s pid (afterLoad inst applied outcome) := by
  -- without a session nothing is promised of the process
  cases hsession : s.sessions pid with
  | none =>
    refine ⟨fun pending hpending => ?_, fun hstage => ?_⟩
    · cases hsession.symm.trans hpending
    · exact absurd hstage (afterLoad_ne_closing applied outcome none)
  | some pending =>
    obtain ⟨hlock, rfl, hcreated, rfl⟩ := h.session pending hsession
    cases outcome with
    | error exc => exact standing_of_session hsession hlock fun h => nomatch h
    -- the listing is sorted to the same migrations, whatever order it came in
    | ok files' =>
      have hload' := loadMigrations_of_same (hfiles files' rfl) hload hdistinct
      obtain ⟨todo, htodo⟩ := hledger.inOrder
      -- what is left to do is behind what is recorded
      have hnext : afterLoad inst (done.map (·.row inst)) (.ok files') =
          nextStage (done.map (·.row inst)) todo := by
        have hnodup := hdistinct.versions
        rw [← htodo] at hnodup
        simp only [afterLoad, hload']
        rw [← htodo]
        exact nextMigration_of_known hnodup
      rw [hnext]
      exact standing_nextStage hsession hlock hcreated htodo.symm (List.prefix_refl done)

/-- A step of process `pid` that commits nothing. -/
private theorem Applied.moved (h : Applied inst ms start c) (e : MigrateEvent)
    (hstanding : Standing inst ms (committed c.log) c.state.server pid stage) :
    Applied inst ms start
      ⟨(e, Migrator.quiet) :: c.log, c.state.setStage pid stage⟩ :=
  h.acted (.of_committed_eq h.ledger rfl hstanding) (fun _ _ => ⟨rfl, fun hlock => hlock⟩) e none
    fun _ hended => nomatch hended

/-- Every event keeps the ledger. -/
theorem Applied.answer {files : Resources} (h : Applied inst ms start c)
    (hload : loadMigrations inst files = .ok ms) (hdistinct : DistinctVersions inst ms)
    {e : MigrateEvent} (hfiles : ReadsFiles files c e) :
    Applied inst ms start ((migrateMachine inst).answer c e) := by
  obtain ⟨log, s⟩ := c
  have hquiet : Applied inst ms start ⟨(e, Migrator.quiet) :: log, s⟩ :=
    h.idle e none fun _ hended => nomatch hended
  have hgone (pid : Nat) : Advanced inst ms start (committed log) pid s.server .idle []
      (s.server.disconnect pid) := h.disconnected pid fun hidle => nomatch hidle
  show Applied inst ms start ⟨(e, (s.step inst e).1) :: log, (s.step inst e).2⟩
  -- one case for each event; the processes differ in their stages only
  cases e with
  | start pid outcome =>
    unfold Migrator.step
    dsimp only
    split
    · -- a new session has an empty transaction
      refine h.acted ?_ (fun p hp => Server.spares_setSession hp _ s.server) _ none
        fun _ hended => nomatch hended
      exact .of_committed_eq h.ledger rfl
        (standing_of_session (Server.sessions_setSession pid _ s.server) rfl
          fun hstage => nomatch hstage)
    · exact h.idle _ _ fun _ hended => nomatch hended
    · exact hquiet
  | statement pid fate =>
    unfold Migrator.step
    dsimp only
    split
    · exact hquiet
    -- the statement is answered by the server, or not at all
    · rename_i stmt hstmt
      split
      · exact hquiet
      · rename_i reply durable server hcall
        exact h.acted
          (advanced_of_call h.ledger hdistinct.versions (h.standing pid) hstmt hcall)
          (fun p hp => Server.spares_call hp hcall) _ none fun _ hended => nomatch hended
  | load pid outcome =>
    unfold Migrator.step
    dsimp only
    split
    · rename_i applied hstage
      have hstanding := h.standing pid
      dsimp only at hstanding
      rw [hstage] at hstanding
      -- the listing is one of the same files
      refine h.moved _ (standing_afterLoad hload hdistinct h.ledger hstanding ?_)
      rintro files' rfl
      exact hfiles pid files' rfl
    · exact hquiet
  | close pid =>
    unfold Migrator.step
    dsimp only
    split
    · rename_i exc hstage
      refine h.acted (hgone pid) (fun p hp => Server.spares_disconnect hp s.server) _ _
        fun p hended => ?_
      -- a process that ends has seen all migrations applied
      obtain ⟨-, rfl⟩ := Prod.mk.inj (Option.some.inj hended)
      exact (h.standing pid).complete hstage
    · exact hquiet
  | drop pid =>
    unfold Migrator.step
    dsimp only
    -- the server drops the connection and the process does not notice
    have hdropped := h.acted (h.disconnected pid (h.standing pid).complete)
      (fun p hp => Server.spares_disconnect hp s.server) (.drop pid) none
      fun _ hended => nomatch hended
    simpa only [Migrator.setStage_self, Migrator.quiet] using hdropped
  | crash pid =>
    unfold Migrator.step
    dsimp only
    -- the process is gone, and with it its session and its lock
    exact h.acted (hgone pid) (fun p hp => Server.spares_disconnect hp s.server) _ none
      fun _ hended => nomatch hended

/-- Once all migrations are applied the database is determined. -/
private theorem Ledger.eq_of_complete {done' : List Migration} {db' : Database Schema}
    (h : Ledger inst ms start done db) (h' : Ledger inst ms start done' db')
    (hcomplete : Complete ms done (db.rows.isSome = true))
    (hcomplete' : Complete ms done' (db'.rows.isSome = true)) : db' = db := by
  obtain ⟨schema, rows⟩ := db
  obtain ⟨schema', rows'⟩ := db'
  obtain ⟨rfl, hcreated⟩ := hcomplete
  obtain ⟨rfl, hcreated'⟩ := hcomplete'
  obtain ⟨rows, rfl⟩ := Option.isSome_iff_exists.mp hcreated
  obtain ⟨rows', rfl⟩ := Option.isSome_iff_exists.mp hcreated'
  have hschema : schema' = schema := Except.ok.inj (h'.schema.symm.trans h.schema)
  have hrows : rows' = rows := h'.rows.trans h.rows.symm
  rw [hschema, hrows]

/-- What holds of the migrations in a state: their scripts, and the rows that record them. -/
structure AppliedOnce (inst : Installation Schema) (files : Resources) (ms : List Migration)
    (start : Schema) (c : Config (Migrator Schema) MigrateEvent MigrateResponse) : Prop where
  /-- The schema is what the committed scripts make of the first one. -/
  schema : replayScripts inst (committed c.log) start = .ok c.state.server.committed.schema
  /-- Each has its row, with the checksum of its text, and nothing else has one. -/
  recorded : c.state.server.committed.rows.getD [] =
    (committed c.log).map fun m => (m.version, inst.sha256 m.sql)
  iff : ∀ m ∈ ms, m ∈ committed c.log ↔
    m.version ∈ (c.state.server.committed.rows.getD []).map (·.1)
  once : (committed c.log).Nodup
  inOrder : committed c.log <+: ms
  /-- A process that has returned finds all of its list recorded. -/
  returned : ∀ x ∈ c.log, ∀ pid, x.2.ended = some (pid, none) → ∀ m ∈ ms,
    (m.version, inst.sha256 m.sql) ∈ c.state.server.committed.rows.getD []
  /-- After a run that returns, nothing changes any more. -/
  stable : ∀ x ∈ c.log, ∀ pid, x.2.ended = some (pid, none) → ∀ c',
    (migrateMachine inst).Run (ReadsFiles files) c c' →
      c'.state.server.committed = c.state.server.committed

/-- The migrations in every state of every run, whichever statements fail and whichever
    processes crash. -/
theorem appliedOnce_of_run (inst : Installation Schema) (files : Resources)
    (ms : List Migration) (db : Database Schema)
    (hload : loadMigrations inst files = .ok ms) (hdistinct : DistinctVersions inst ms)
    (hempty : db.rows.getD [] = [])
    {c : Config (Migrator Schema) MigrateEvent MigrateResponse}
    (hrun : (migrateMachine inst).Run (ReadsFiles files) ⟨[], .boot db⟩ c) :
    (ms.Pairwise fun a b => versionNumber inst a.version < versionNumber inst b.version) ∧
      AppliedOnce inst files ms db.schema c := by
  -- the invariant holds at boot and is kept by every event
  have happlied : Applied inst ms db.schema c :=
    hrun.invariant (applied_boot hempty) fun c e h hfiles => h.answer hload hdistinct hfiles
  have hledger := happlied.ledger
  refine ⟨ordered_of_load hload hdistinct, hledger.schema, hledger.rows, ?_, ?_,
    hledger.inOrder, ?_, ?_⟩
  -- a row belongs to the one migration of its version
  · intro m hm
    rw [hledger.rows, List.map_map]
    refine ⟨fun hmem => List.mem_map_of_mem hmem, fun hmem => ?_⟩
    obtain ⟨m', hm', hversion⟩ := List.mem_map.mp hmem
    have heq : m' = m :=
      List.inj_on_of_nodup_map hdistinct.versions (hledger.inOrder.subset hm') hm hversion
    exact heq ▸ hm'
  · exact hdistinct.nodup.sublist hledger.inOrder.sublist
  -- a process that returned has found every migration in the ledger
  · intro x hx pid hended m hm
    rw [hledger.rows, (happlied.ended x hx pid hended).done]
    exact List.mem_map_of_mem hm
  -- behind it no process finds anything left to do
  · intro x hx pid hended c' hrun'
    have hlater : Applied inst ms db.schema c' ∧ x ∈ c'.log := by
      refine hrun'.invariant (I := fun c => Applied inst ms db.schema c ∧ x ∈ c.log)
        ⟨happlied, hx⟩ ?_
      rintro c e ⟨h, hmem⟩ hfiles
      exact ⟨h.answer hload hdistinct hfiles, List.mem_cons_of_mem _ hmem⟩
    exact hledger.eq_of_complete hlater.1.ledger (happlied.ended x hx pid hended)
      (hlater.1.ended x hlater.2 pid hended)

/-- Two migrations over a schema that is the list of the executed texts. -/
def listInstallation : Installation (List String) where
  decimal c := if '0' ≤ c ∧ c ≤ '9' then some (c.toNat - '0'.toNat) else none
  sha256 text := text
  execute sql schema := .ok (schema ++ [sql])

/-- A directory with two migrations and another file. -/
def twoFiles : Resources :=
  ⟨some [⟨"010_b.sql", true, "b"⟩, ⟨"README.md", true, ""⟩, ⟨"9_a.sql", true, "a"⟩], none⟩

/-- Process 0 crashes after the first migration, with the second one executed but not
    committed; process 1, which waited for the lock, applies it. -/
def crashRun : List MigrateEvent :=
  let call (pid : Nat) : MigrateEvent := .statement pid .served
  [.start 0 (.ok ()), .start 1 (.ok ()), call 0, call 1, call 0, call 0, call 0,
    .load 0 (.ok twoFiles), call 0, call 0, call 0, call 0, .crash 0,
    call 1, call 1, call 1, call 1, .load 1 (.ok twoFiles), call 1, call 1, call 1, call 1,
    call 1, .close 1]

/-- Process 1 returns, with both migrations applied. -/
theorem appliedOnce_of_crashRun :
    let c := (migrateMachine listInstallation).replay ⟨[], .boot ⟨[], none⟩⟩ crashRun
    ([⟨"9", "a"⟩, ⟨"010", "b"⟩].Pairwise fun a b : Migration =>
        versionNumber listInstallation a.version < versionNumber listInstallation b.version) ∧
      AppliedOnce listInstallation twoFiles [⟨"9", "a"⟩, ⟨"010", "b"⟩] [] c ∧
      c.state.server.committed = ⟨["a", "b"], some [("9", "a"), ("010", "b")]⟩ ∧
      c.log.head?.map (·.2.ended) = some (some (1, none)) := by
  have hsame : twoFiles.Same twoFiles := ⟨List.Perm.refl _, rfl⟩
  have hadmits : (migrateMachine listInstallation).Admits (ReadsFiles twoFiles)
      ⟨[], .boot ⟨[], none⟩⟩ crashRun := by
    simp [Machine.Admits, crashRun, ReadsFiles, hsame]
  obtain ⟨hordered, honce⟩ := appliedOnce_of_run listInstallation twoFiles
    [⟨"9", "a"⟩, ⟨"010", "b"⟩] ⟨[], none⟩ (by decide) (by unfold DistinctVersions; decide) rfl
    (Machine.run_of_admits hadmits)
  exact ⟨hordered, honce, rfl, rfl⟩

end Grimnir
