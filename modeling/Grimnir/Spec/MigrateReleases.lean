import Grimnir.Spec.MigrateOnce

/-!
# Migrations across releases

While a deployment is upgraded, processes of different releases run `run_migrations` on one
database, each with the files that came with it, and the database may have a history of its own.
Nothing relates the releases: a file may be missing from one, or have another text in it.  The
checksums are what keeps them apart.

## Key results

- `perm_of_lists`: the files of a process have one set of migrations
- `extends_of_call`: what one statement of a process comes to
- `guarded_of_run`: the ledger in every state of every run, whichever releases take part
- `upgraded_of_run`: releases that extend one another apply one list in order
-/

namespace Grimnir

variable {Schema : Type} {inst : Installation Schema}

/-! ## The files of a process -/

/-- The rows of `schema_migrations`. -/
def Database.recorded (db : Database Schema) : List (String × String) := db.rows.getD []

variable (inst) in
/-- What `_load_migrations` returns for the files, in some order of the directory. -/
def Lists (files : Resources) (ms : List Migration) : Prop :=
  ∃ files', files.Same files' ∧ loadMigrations inst files' = .ok ms

/-- The list that is loaded is a sorted one. -/
private theorem perm_of_load {files : Resources} {ms : List Migration}
    (hload : loadMigrations inst files = .ok ms) :
    ms.Perm (bundledMigrations inst (files.entries.getD [])) ∧
        bundledMigrations inst (files.entries.getD []) ≠ [] ∨
      bundledMigrations inst (files.entries.getD []) = [] ∧
        ∃ version text, filenameVersion inst "001_schema.sql" = some version ∧
          files.source = some text ∧ ms.Perm [⟨version, text⟩] := by
  unfold loadMigrations at hload
  dsimp only at hload
  split at hload
  · rename_i hsome
    cases hload
    exact .inl ⟨sortMigrations_perm _, hsome⟩
  · rename_i hnone
    refine .inr ⟨not_not.mp hnone, ?_⟩
    split at hload
    · cases hload
    · rename_i version text hversion hsource
      cases hload
      exact ⟨version, text, hversion, hsource, sortMigrations_perm _⟩
    · cases hload

/-- The order of the directory changes the order of the list at most. -/
theorem perm_of_lists {files : Resources} {ms ms' : List Migration} (h : Lists inst files ms)
    (h' : Lists inst files ms') : ms.Perm ms' := by
  obtain ⟨left, hleft, hload⟩ := h
  obtain ⟨right, hright, hload'⟩ := h'
  have hbundled : (bundledMigrations inst (left.entries.getD [])).Perm
      (bundledMigrations inst (right.entries.getD [])) :=
    (hleft.entries.symm.trans hright.entries).filterMap _
  have hsource : left.source = right.source := hleft.source.symm.trans hright.source
  -- each listing is either the sorted bundle or, when that is empty, the single file
  rcases perm_of_load hload with ⟨hperm, hsome⟩ | ⟨hnone, version, text, hversion, htext, hperm⟩
  · rcases perm_of_load hload' with ⟨hperm', -⟩ | ⟨hnone', -⟩
    · exact hperm.trans (hbundled.trans hperm'.symm)
    -- a bundle and no bundle cannot come of the same files
    · rw [hnone'] at hbundled
      exact absurd (List.perm_nil.mp hbundled) hsome
  · rcases perm_of_load hload' with
      ⟨-, hsome'⟩ | ⟨-, version', text', hversion', htext', hperm'⟩
    · rw [hnone] at hbundled
      exact absurd (List.nil_perm.mp hbundled) hsome'
    -- both read the same single file, with the same version and text
    · rw [hversion] at hversion'
      rw [← hsource, htext] at htext'
      cases hversion'
      cases htext'
      exact hperm.trans hperm'.symm

/-- With distinct versions there is one list. -/
private theorem eq_of_lists {files : Resources} {ms ms' : List Migration}
    (hload : loadMigrations inst files = .ok ms) (hdistinct : DistinctVersions inst ms)
    (h : Lists inst files ms') : ms' = ms := by
  obtain ⟨files', hsame, hload'⟩ := h
  rw [loadMigrations_of_same hsame hload hdistinct] at hload'
  exact (Except.ok.inj hload').symm

variable (inst) in
/-- Every migration of the files has its row, with the checksum of its text. -/
def Recorded (files : Resources) (rows : List (String × String)) : Prop :=
  ∃ ms, Lists inst files ms ∧ ∀ m ∈ ms, m.row inst ∈ rows

variable (inst) in
/-- Where the loop stands: what it read before it, and what is behind it. -/
structure Trail (files : Resources) (rows applied : List (String × String))
    (todo : List Migration) : Prop where
  applied : applied ⊆ rows
  passed : ∃ done, Lists inst files (done ++ todo) ∧ ∀ m ∈ done, m.row inst ∈ rows

variable {files : Resources} {rows rows' applied : List (String × String)}
variable {todo rest : List Migration} {m : Migration}

/-- More rows leave the trail of a process as it is. -/
theorem Trail.mono (h : Trail inst files rows applied todo) (hrows : rows ⊆ rows') :
    Trail inst files rows' applied todo := by
  obtain ⟨done, hlists, hdone⟩ := h.passed
  exact ⟨fun _ hrow => hrows (h.applied hrow), done, hlists, fun m hm => hrows (hdone m hm)⟩

/-- A migration is left behind when it is recorded. -/
theorem Trail.pass (h : Trail inst files rows applied (m :: rest)) (hm : m.row inst ∈ rows) :
    Trail inst files rows applied rest := by
  obtain ⟨done, hlists, hdone⟩ := h.passed
  refine ⟨h.applied, done ++ [m], ?_, ?_⟩
  · rw [List.append_assoc]
    exact hlists
  · intro x hx
    rcases List.mem_append.mp hx with hx | hx
    · exact hdone x hx
    · rw [List.mem_singleton.mp hx]
      exact hm

/-- At the end of the loop every migration of its files is recorded. -/
theorem Trail.recorded (h : Trail inst files rows applied []) : Recorded inst files rows := by
  obtain ⟨done, hlists, hdone⟩ := h.passed
  rw [List.append_nil] at hlists
  exact ⟨done, hlists, hdone⟩

/-- What a look-up finds is in the list. -/
private theorem mem_of_lookup {version checksum : String}
    (h : applied.lookup version = some checksum) : (version, checksum) ∈ applied := by
  induction applied with
  | nil => cases h
  | cons p applied ih =>
    obtain ⟨version', checksum'⟩ := p
    rw [List.lookup_cons] at h
    split at h
    · rename_i heq
      cases h
      rw [beq_iff_eq.mp heq]
      exact List.mem_cons_self
    · exact List.mem_cons_of_mem _ (ih h)

/-! ## Where a process stands -/

variable (inst) in
/-- What the transaction of a process has written, and what it knows of the rows. -/
def Sits (files : Resources) (rows : List (String × String)) (created held : Prop)
    (pending : List Write) : MigrateStage → Prop
  | .idle => False
  | .locking => pending = []
  | .creatingTable => held ∧ pending = []
  | .committingTable => held ∧ pending = [.createTable]
  | .reading => held ∧ pending = [] ∧ created
  | .loading applied => held ∧ pending = [] ∧ created ∧ applied ⊆ rows
  | .executing applied m rest =>
    held ∧ pending = [] ∧ created ∧ Trail inst files rows applied (m :: rest)
  | .recording applied m rest =>
    held ∧ pending = [.script m] ∧ created ∧ Trail inst files rows applied (m :: rest)
  | .committing applied rest => held ∧ created ∧ ∃ m,
      pending = [.script m, .record m.version (inst.sha256 m.sql)] ∧
        Trail inst files rows applied (m :: rest)
  | .rollingBack _ => held
  | .unlocking exc => held ∧ pending = [] ∧ (exc = none → Recorded inst files rows)
  | .finalCommit exc => pending = [] ∧ (exc = none → Recorded inst files rows)
  | .closing _ => pending = []

/-- Rows that were recorded stay recorded. -/
theorem Recorded.mono (h : Recorded inst files rows) (hrows : rows ⊆ rows') :
    Recorded inst files rows' := by
  obtain ⟨ms, hlists, hms⟩ := h
  exact ⟨ms, hlists, fun m hm => hrows (hms m hm)⟩

/-- More rows do not unsettle a process. -/
theorem Sits.mono {created created' held held' : Prop} {pending : List Write}
    {stage : MigrateStage} (h : Sits inst files rows created held pending stage)
    (hrows : rows ⊆ rows') (hcreated : created → created') (hheld : held → held') :
    Sits inst files rows' created' held' pending stage := by
  cases stage with
  | idle => exact h
  | locking => exact h
  | creatingTable => exact ⟨hheld h.1, h.2⟩
  | committingTable => exact ⟨hheld h.1, h.2⟩
  | reading => exact ⟨hheld h.1, h.2.1, hcreated h.2.2⟩
  | loading applied =>
    exact ⟨hheld h.1, h.2.1, hcreated h.2.2.1, fun _ hrow => hrows (h.2.2.2 hrow)⟩
  | executing applied m rest => exact ⟨hheld h.1, h.2.1, hcreated h.2.2.1, h.2.2.2.mono hrows⟩
  | recording applied m rest => exact ⟨hheld h.1, h.2.1, hcreated h.2.2.1, h.2.2.2.mono hrows⟩
  | committing applied rest =>
    obtain ⟨hlock, htable, m, hpending, htrail⟩ := h
    exact ⟨hheld hlock, hcreated htable, m, hpending, htrail.mono hrows⟩
  | rollingBack exc => exact hheld h
  | unlocking exc => exact ⟨hheld h.1, h.2.1, fun hnone => (h.2.2 hnone).mono hrows⟩
  | finalCommit exc => exact ⟨h.1, fun hnone => (h.2 hnone).mono hrows⟩
  | closing exc => exact h

/-- The loop comes to the next migration that is not recorded, to the end, or to a row with
    another checksum. -/
private theorem sits_nextMigration {created held : Prop} (hheld : held) (hcreated : created)
    (h : Trail inst files rows applied todo) :
    Sits inst files rows created held [] (nextMigration inst applied todo) := by
  induction todo with
  | nil => exact ⟨hheld, rfl, fun _ => h.recorded⟩
  | cons m rest ih =>
    rw [nextMigration]
    split
    · rename_i checksum hlookup
      split
      · exact hheld
      · rename_i hsame
        have hrow : m.row inst ∈ rows := by
          rw [Migration.row, ← not_not.mp hsame]
          exact h.applied (mem_of_lookup hlookup)
        exact ih (h.pass hrow)
    · exact ⟨hheld, rfl, hcreated, h⟩

/-- A process in a state of the database. -/
structure Placed (inst : Installation Schema) (files : Resources)
    (server : Server (Database Schema) Write) (pid : Nat) (stage : MigrateStage) : Prop where
  session : ∀ pending, server.sessions pid = some pending →
    Sits inst files server.committed.recorded (server.committed.rows.isSome = true)
      (server.lock = some pid) pending stage
  recorded : stage = .closing none → Recorded inst files server.committed.recorded

/-! ## One statement -/

/-- The scripts among the writes. -/
def scripts (durable : List Write) : List Migration := durable.filterMap Write.migration?

/-- What a statement of process `pid` comes to. -/
structure Extends (inst : Installation Schema) (files : Resources) (pid : Nat)
    (server : Server (Database Schema) Write) (stage : MigrateStage) (durable : List Write)
    (server' : Server (Database Schema) Write) : Prop where
  rows : server'.committed.recorded =
    server.committed.recorded ++ (scripts durable).map (·.row inst)
  schema : replayScripts inst (scripts durable) server.committed.schema =
    .ok server'.committed.schema
  created : server.committed.rows.isSome = true → server'.committed.rows.isSome = true
  unique : (server.committed.recorded.map Prod.fst).Nodup →
    (server'.committed.recorded.map Prod.fst).Nodup
  /-- One script at most, behind recorded ones. -/
  guarded : scripts durable = [] ∨ ∃ m, scripts durable = [m] ∧ ∃ before rest,
    Lists inst files (before ++ m :: rest) ∧
      ∀ x ∈ before, x.row inst ∈ server.committed.recorded
  placed : Placed inst files server' pid stage

variable {s s' : Server (Database Schema) Write} {pid : Nat} {stage stage' : MigrateStage}
variable {pending durable : List Write}

/-- A statement that commits nothing. -/
theorem Extends.of_committed_eq (hcommitted : s'.committed = s.committed)
    (hplaced : Placed inst files s' pid stage) : Extends inst files pid s stage [] s' where
  rows := by
    rw [hcommitted]
    exact (List.append_nil _).symm
  schema := by
    rw [hcommitted]
    rfl
  created := by
    rw [hcommitted]
    exact id
  unique := by
    rw [hcommitted]
    exact id
  guarded := .inl rfl
  placed := hplaced

/-- The connection is gone. -/
theorem Extends.lost (h : Extends inst files pid s stage durable s')
    (hfails : stage' ≠ .closing none) :
    Extends inst files pid s stage' durable (s'.disconnect pid) where
  rows := h.rows
  schema := h.schema
  created := h.created
  unique := h.unique
  guarded := h.guarded
  placed := ⟨fun _ hsession => by simp at hsession, fun hsucc => absurd hsucc hfails⟩

/-- A process with a session is placed by what its transaction has written. -/
private theorem placed_of_session (hsession : s.sessions pid = some pending)
    (hsits : Sits inst files s.committed.recorded (s.committed.rows.isSome = true)
      (s.lock = some pid) pending stage)
    (hrecorded : stage = .closing none → Recorded inst files s.committed.recorded) :
    Placed inst files s pid stage := by
  refine ⟨fun pending' hsession' => ?_, hrecorded⟩
  cases Option.some.inj (hsession.symm.trans hsession')
  exact hsits

/-- Where a refused statement leaves the transaction. -/
theorem Sits.refused {stmt : Server.Statement Write} {created : Prop}
    (hstmt : stage.statement inst = some stmt)
    (h : Sits inst files rows created (s.lock = some pid) pending stage)
    (hsession : s.sessions pid = some pending) (exc : RunError) (pending' : List Write)
    (hsession' : (s.refuse pid stmt).sessions pid = some pending') :
    Sits inst files rows created ((s.refuse pid stmt).lock = some pid) pending'
      (stage.after inst (.error exc)) := by
  -- a refused statement changes neither the rows nor the lock
  cases stage with
  | idle => cases hstmt
  | loading applied => cases hstmt
  | closing exc => cases hstmt
  -- the lock was not taken, and the transaction is as it was
  | locking =>
    cases hstmt
    cases Option.some.inj (hsession.symm.trans hsession')
    exact h
  | creatingTable => cases hstmt; exact h.1
  | committingTable => cases hstmt; exact h.1
  | reading => cases hstmt; exact h.1
  | executing applied m rest => cases hstmt; exact h.1
  | recording applied m rest => cases hstmt; exact h.1
  | committing applied rest => cases hstmt; exact h.1
  -- a `ROLLBACK` that is refused has closed the connection
  | rollingBack exc =>
    cases hstmt
    cases (Server.sessions_disconnect pid s).symm.trans hsession'
  | unlocking exc =>
    cases hstmt
    cases Option.some.inj (hsession.symm.trans hsession')
    exact h.2.1
  | finalCommit exc =>
    cases hstmt
    exact (Option.some.inj ((Server.sessions_setSession pid (some []) s).symm.trans
      hsession')).symm

/-- The version that a migration records is new. -/
private theorem fresh_of_view {checksum : String} {state : Database Schema}
    (hview : s.view (fun w db => w.apply inst db) [.script m, .record m.version checksum] =
      .ok state) : m.version ∉ s.committed.recorded.map Prod.fst := by
  obtain ⟨⟨schema, rows⟩, sessions, lock⟩ := s
  unfold Server.view at hview
  rw [List.foldlM_cons] at hview
  -- the script has to succeed for its `INSERT` to be tried
  cases hexec : inst.execute m.sql schema with
  | error exc =>
    simp only [Write.apply, hexec] at hview
    cases hview
  | ok schema' =>
    simp only [Write.apply, hexec, Except.map, List.foldlM_cons, List.foldlM_nil, bind,
      Except.bind] at hview
    -- and the table has to exist
    cases rows with
    | none => cases hview
    | some rows =>
      dsimp only at hview
      split at hview
      · cases hview
      · rename_i heq
        -- the `INSERT` checks the primary key
        split at heq
        · cases heq
        · rename_i hfresh
          exact hfresh

/-- The commit of `CREATE TABLE`. -/
private theorem extends_of_createTable (hlock : s.lock = some pid) {state : Database Schema}
    (hexec : s.execute (fun w db => w.apply inst db) pid [.createTable] .commit =
      .done state durable s') : Extends inst files pid s .reading durable s' := by
  obtain ⟨rfl, rfl, hview⟩ := Server.execute_commit_done hexec
  obtain rfl := Except.ok.inj hview
  constructor
  case rows => exact (List.append_nil _).symm
  case schema => rfl
  case created => exact fun _ => rfl
  case unique => exact id
  case guarded => exact .inl rfl
  case placed =>
    exact placed_of_session (Server.sessions_setSession pid _ s) ⟨hlock, rfl, rfl⟩ nofun

/-- The commit of a migration, after which the loop goes on. -/
private theorem extends_of_migration (hlock : s.lock = some pid)
    (htrail : Trail inst files s.committed.recorded applied (m :: rest))
    {state : Database Schema}
    (hexec : s.execute (fun w db => w.apply inst db) pid
      [.script m, .record m.version (inst.sha256 m.sql)] .commit = .done state durable s') :
    Extends inst files pid s (nextMigration inst applied rest) durable s' := by
  -- the transaction holds the script and its row
  obtain ⟨rfl, rfl, hview⟩ := Server.execute_commit_done hexec
  have hfresh := fresh_of_view hview
  obtain ⟨schema, hscript, rfl⟩ := view_migration hview
  have hafter : (Database.mk schema
      (some (s.committed.rows.getD [] ++ [(m.version, inst.sha256 m.sql)]))).recorded =
      s.committed.recorded ++ [m.row inst] := rfl
  constructor
  case rows => exact hafter
  case schema =>
    -- one more script is replayed
    show [m].foldlM (fun schema m => inst.execute m.sql schema) s.committed.schema = _
    rw [List.foldlM_cons, hscript]
    rfl
  case created => exact fun _ => rfl
  case unique =>
    -- the primary key kept the version from being recorded twice
    intro hunique
    dsimp only
    rw [hafter, List.map_append]
    refine List.Nodup.append hunique (List.nodup_singleton _) ?_
    intro version hversion hnew
    have hsame : version = m.version := List.mem_singleton.mp hnew
    exact hfresh (hsame ▸ hversion)
  case guarded => exact .inr ⟨m, rfl, htrail.passed.imp fun before h => ⟨rest, h⟩⟩
  case placed =>
    -- the row that the migration now has is one the trail passes
    have hgrown : s.committed.recorded ⊆ s.committed.recorded ++ [m.row inst] :=
      List.subset_append_left _ _
    have hpassed : Trail inst files (s.committed.recorded ++ [m.row inst]) applied rest :=
      (htrail.mono hgrown).pass (List.mem_append_right _ (List.mem_singleton_self _))
    refine placed_of_session (Server.sessions_setSession pid _ s) ?_
      fun hstage => absurd hstage (nextMigration_ne_closing applied rest none)
    dsimp only
    rw [hafter]
    exact sits_nextMigration hlock rfl hpassed

/-- A statement that is carried out. -/
private theorem extends_of_done (hsession : s.sessions pid = some pending)
    (hsits : Sits inst files s.committed.recorded (s.committed.rows.isSome = true)
      (s.lock = some pid) pending stage)
    {stmt : Server.Statement Write} (hstmt : stage.statement inst = some stmt)
    {state : Database Schema}
    (hexec : s.execute (fun w db => w.apply inst db) pid pending stmt =
      .done state durable s') :
    Extends inst files pid s (stage.after inst (.ok state)) durable s' := by
  -- each stage sends one statement; what comes of it is read off the server
  cases stage with
  | idle => cases hstmt
  | loading applied => cases hstmt
  | closing exc => cases hstmt
  | locking =>
    cases hstmt
    obtain ⟨rfl, rfl⟩ := Server.execute_lock_done hexec
    exact .of_committed_eq rfl (placed_of_session hsession ⟨rfl, hsits⟩ nofun)
  | creatingTable =>
    cases hstmt
    obtain ⟨hlock, rfl⟩ := hsits
    obtain ⟨rfl, rfl⟩ := Server.execute_write_done hexec
    exact .of_committed_eq rfl
      (placed_of_session (Server.sessions_setSession _ _ s) ⟨hlock, rfl⟩ nofun)
  | committingTable =>
    cases hstmt
    obtain ⟨hlock, rfl⟩ := hsits
    exact extends_of_createTable hlock hexec
  -- what was read is part of the table as long as the lock is held
  | reading =>
    cases hstmt
    obtain ⟨hlock, rfl, hcreated⟩ := hsits
    obtain ⟨rfl, rfl, hview⟩ := Server.execute_read_done hexec
    obtain rfl := Except.ok.inj hview
    obtain ⟨rows, hrows⟩ := Option.isSome_iff_exists.mp hcreated
    have hread : rows ⊆ s'.committed.recorded := by
      rw [Database.recorded, hrows]
      exact List.Subset.refl rows
    rw [after_reading hrows]
    exact .of_committed_eq rfl
      (placed_of_session hsession ⟨hlock, rfl, hcreated, hread⟩ nofun)
  -- a write stays in the transaction
  | executing applied m rest =>
    cases hstmt
    obtain ⟨hlock, rfl, hcreated, htrail⟩ := hsits
    obtain ⟨rfl, rfl⟩ := Server.execute_write_done hexec
    exact .of_committed_eq rfl (placed_of_session (Server.sessions_setSession _ _ s)
      ⟨hlock, rfl, hcreated, htrail⟩ nofun)
  | recording applied m rest =>
    cases hstmt
    obtain ⟨hlock, rfl, hcreated, htrail⟩ := hsits
    obtain ⟨rfl, rfl⟩ := Server.execute_write_done hexec
    exact .of_committed_eq rfl (placed_of_session (Server.sessions_setSession _ _ s)
      ⟨hlock, hcreated, m, rfl, htrail⟩ nofun)
  -- the commit makes a migration durable
  | committing applied rest =>
    cases hstmt
    obtain ⟨hlock, hcreated, m, rfl, htrail⟩ := hsits
    exact extends_of_migration hlock htrail hexec
  -- a `ROLLBACK` leaves what is committed as it was
  | rollingBack exc =>
    cases hstmt
    cases hexec
    exact .of_committed_eq rfl
      (placed_of_session (Server.sessions_setSession _ _ s) ⟨hsits, rfl, nofun⟩ nofun)
  | unlocking exc =>
    cases hstmt
    cases hexec
    exact .of_committed_eq rfl (placed_of_session hsession hsits.2 nofun)
  -- nothing is left to commit at the end
  | finalCommit exc =>
    cases hstmt
    obtain ⟨rfl, hrecorded⟩ := hsits
    obtain ⟨rfl, rfl, hview⟩ := Server.execute_commit_done hexec
    obtain rfl := Except.ok.inj hview
    exact .of_committed_eq rfl (placed_of_session (Server.sessions_setSession _ _ s) rfl
      fun hstage => hrecorded (MigrateStage.closing.inj hstage))

/-- A statement of a process. -/
theorem extends_of_call (hplaced : Placed inst files s pid stage)
    {stmt : Server.Statement Write} (hstmt : stage.statement inst = some stmt)
    {fate : Fate RunError} {closed : RunError} {reply : Except RunError (Database Schema)}
    (hcall : s.call (fun w db => w.apply inst db) pid stmt fate closed =
      some (reply, durable, s')) :
    Extends inst files pid s (stage.after inst reply) durable s' := by
  -- a refused call never ends the process as one that has succeeded
  have hfails := after_error_ne hstmt
  refine Server.call_rule
    (R := fun reply durable s' =>
      Extends inst files pid s (stage.after inst reply) durable s') hcall ?_ ?_ ?_ ?_
  -- there was no session, so there is none now
  · intro hnone exc
    refine .of_committed_eq rfl ⟨fun pending hsession => ?_, fun h => absurd h (hfails exc)⟩
    rw [hnone] at hsession
    cases hsession
  -- the statement was refused, inside a session or by ending it
  · intro pending hsession exc
    have hcommitted : (s.refuse pid stmt).committed = s.committed := by cases stmt <;> rfl
    refine .of_committed_eq hcommitted ⟨?_, fun h => absurd h (hfails exc)⟩
    rw [hcommitted]
    exact (hplaced.session pending hsession).refused hstmt hsession exc
  -- the connection was lost before the statement
  · intro exc
    refine .of_committed_eq rfl ⟨fun pending hsession => ?_, fun h => absurd h (hfails exc)⟩
    cases (Server.sessions_disconnect pid s).symm.trans hsession
  -- the statement was executed, and its answer may have been lost
  · intro pending state durable s₁ hsession hexec
    have hdone := extends_of_done hsession (hplaced.session pending hsession) hstmt hexec
    exact ⟨hdone, fun exc => hdone.lost (hfails exc)⟩

/-! ## Runs -/

/-- Every process reads the files of its release, in any order of the directory. -/
def ReadsOwn (files : Nat → Resources) :
    Config (Migrator Schema) MigrateEvent MigrateResponse → MigrateEvent → Prop :=
  fun _ e => ∀ pid files', e = .load pid (.ok files') → (files pid).Same files'

/-- An entry commits one script at most, by a statement of a process whose earlier migrations are
    all among the rows, with the checksums of that process. -/
def CommitsBehind (inst : Installation Schema) (files : Nat → Resources)
    (rows : List (String × String)) (x : MigrateEvent × MigrateResponse) : Prop :=
  scripts x.2.durable = [] ∨ ∃ pid fate m before rest, x.1 = .statement pid fate ∧
    scripts x.2.durable = [m] ∧ Lists inst (files pid) (before ++ m :: rest) ∧
    ∀ y ∈ before, y.row inst ∈ rows

/-- Each entry of the log found the rows of the scripts before it. -/
def Guarded (inst : Installation Schema) (files : Nat → Resources)
    (rows : List (String × String)) (log : MigrateLog) : Prop :=
  ∀ later x earlier, log = later ++ x :: earlier →
    CommitsBehind inst files (rows ++ (committed earlier).map (·.row inst)) x

/-- An empty log commits nothing. -/
private theorem guarded_nil {files : Nat → Resources} : Guarded inst files rows [] := by
  intro later x earlier hnil
  cases later <;> cases hnil

/-- One more entry that finds the rows behind it. -/
theorem Guarded.cons {files : Nat → Resources} {log : MigrateLog}
    (h : Guarded inst files rows log) {x : MigrateEvent × MigrateResponse}
    (hx : CommitsBehind inst files (rows ++ (committed log).map (·.row inst)) x) :
    Guarded inst files rows (x :: log) := by
  intro later y earlier hsplit
  cases later with
  | nil =>
    cases hsplit
    exact hx
  | cons z later => exact h later y earlier (List.cons.inj hsplit).2

/-- The earlier entries are guarded too. -/
private theorem Guarded.of_cons {files : Nat → Resources} {log : MigrateLog}
    {x : MigrateEvent × MigrateResponse} (h : Guarded inst files rows (x :: log)) :
    Guarded inst files rows log :=
  fun later y earlier hsplit => h (x :: later) y earlier (congrArg (x :: ·) hsplit)

/-- What holds of the ledger and the processes of all releases. -/
structure Released (inst : Installation Schema) (files : Nat → Resources)
    (start : Database Schema) (c : Config (Migrator Schema) MigrateEvent MigrateResponse) :
    Prop where
  rows : c.state.server.committed.recorded =
    start.recorded ++ (committed c.log).map (·.row inst)
  schema : replayScripts inst (committed c.log) start.schema =
    .ok c.state.server.committed.schema
  unique : (c.state.server.committed.recorded.map Prod.fst).Nodup
  guarded : Guarded inst files start.recorded c.log
  placed : ∀ pid, Placed inst (files pid) c.state.server pid (c.state.stages pid)
  returned : ∀ x ∈ c.log, ∀ pid, x.2.ended = some (pid, none) →
    Recorded inst (files pid) c.state.server.committed.recorded

variable {start : Database Schema} {releases : Nat → Resources}
variable {c : Config (Migrator Schema) MigrateEvent MigrateResponse}

/-- At boot the table has the rows it started with, and no process runs. -/
private theorem released_boot (hunique : (start.recorded.map Prod.fst).Nodup) :
    Released inst releases start ⟨[], .boot start⟩ where
  rows := (List.append_nil _).symm
  schema := rfl
  unique := hunique
  guarded := guarded_nil
  placed := fun _ => ⟨(fun _ h => nomatch h), (fun h => nomatch h)⟩
  returned := fun _ h => nomatch h

/-- A process that does not take part in a step. -/
theorem Placed.spared {p : Nat} (h : Placed inst files s p stage)
    (hspares : Server.Spares p s s') (hrows : s.committed.recorded ⊆ s'.committed.recorded)
    (hcreated : s.committed.rows.isSome = true → s'.committed.rows.isSome = true) :
    Placed inst files s' p stage := by
  refine ⟨?_, fun hstage => (h.recorded hstage).mono hrows⟩
  intro pending hsession
  rw [hspares.session] at hsession
  exact (h.session pending hsession).mono hrows hcreated hspares.lock

/-- Two lists of scripts are replayed one after the other. -/
private theorem replayScripts_append {done new : List Migration} {schema schema' schema'' : Schema}
    (h : replayScripts inst done schema = .ok schema')
    (hnew : replayScripts inst new schema' = .ok schema'') :
    replayScripts inst (done ++ new) schema = .ok schema'' := by
  unfold replayScripts at h hnew ⊢
  rw [List.foldlM_append, h]
  exact hnew

/-- A step of process `pid`. -/
theorem Released.acted (h : Released inst releases start c)
    (hext : Extends inst (releases pid) pid c.state.server stage durable s')
    (hspares : ∀ p, p ≠ pid → Server.Spares p c.state.server s') {e : MigrateEvent}
    (hevent : durable = [] ∨ ∃ fate, e = .statement pid fate)
    (ended : Option (Nat × Option RunError))
    (hended : ∀ p, ended = some (p, none) →
      Recorded inst (releases p) c.state.server.committed.recorded) :
    Released inst releases start
      ⟨(e, ⟨durable, ended⟩) :: c.log, { c.state.setStage pid stage with server := s' }⟩ := by
  -- the ledger grows by what the entry made durable
  have hcommitted : committed ((e, ⟨durable, ended⟩) :: c.log) =
      committed c.log ++ scripts durable := committed_cons _ _
  have hgrown : c.state.server.committed.recorded ⊆ s'.committed.recorded := by
    rw [hext.rows]
    exact List.subset_append_left _ _
  constructor
  case rows =>
    rw [hcommitted, List.map_append, ← List.append_assoc, ← h.rows]
    exact hext.rows
  case schema =>
    rw [hcommitted]
    exact replayScripts_append h.schema hext.schema
  case unique => exact hext.unique h.unique
  case guarded =>
    -- the entry committed nothing, or one migration behind those of its process
    refine h.guarded.cons ?_
    rcases hext.guarded with hnone | ⟨m, hone, before, rest, hlists, hbefore⟩
    · exact .inl hnone
    -- only a statement commits a migration
    · rcases hevent with rfl | ⟨fate, rfl⟩
      · cases hone
      · rw [h.rows] at hbefore
        exact .inr ⟨pid, fate, m, before, rest, rfl, hone, hlists, hbefore⟩
  case placed =>
    -- the process itself is placed anew, the others see the longer table
    intro p
    by_cases hp : p = pid
    · subst hp
      simpa only [Migrator.setStage, if_true] using hext.placed
    · simpa only [Migrator.setStage, if_neg hp] using
        (h.placed p).spared (hspares p hp) hgrown hext.created
  case returned =>
    intro x hx p hxended
    -- an entry is the new one or an old one
    rcases List.mem_cons.mp hx with rfl | hx
    · exact (hended p hxended).mono hgrown
    · exact (h.returned x hx p hxended).mono hgrown

/-- Nothing happens. -/
theorem Released.idle (h : Released inst releases start c) (e : MigrateEvent)
    (ended : Option (Nat × Option RunError)) (hended : ∀ p, ended ≠ some (p, none)) :
    Released inst releases start ⟨(e, ⟨[], ended⟩) :: c.log, c.state⟩ := by
  have hcommitted : committed ((e, ⟨[], ended⟩) :: c.log) = committed c.log := by
    rw [committed_cons]
    exact List.append_nil _
  constructor
  case rows =>
    rw [hcommitted]
    exact h.rows
  case schema =>
    rw [hcommitted]
    exact h.schema
  case unique => exact h.unique
  case guarded => exact h.guarded.cons (.inl rfl)
  case placed => exact h.placed
  case returned =>
    intro x hx p hxended
    rcases List.mem_cons.mp hx with rfl | hx
    · exact absurd hxended (hended p)
    · exact h.returned x hx p hxended

/-- A process loses its session. -/
private theorem extends_disconnect (pid : Nat)
    (hstage : stage = .closing none → Recorded inst files s.committed.recorded) :
    Extends inst files pid s stage [] (s.disconnect pid) := by
  refine .of_committed_eq rfl ⟨fun pending hsession => ?_, hstage⟩
  cases (Server.sessions_disconnect pid s).symm.trans hsession

/-- The loop over the list of the process's own files. -/
private theorem placed_afterLoad (h : Placed inst files s pid (.loading applied))
    {outcome : Except RunError Resources}
    (hfiles : ∀ files', outcome = .ok files' → files.Same files') :
    Placed inst files s pid (afterLoad inst applied outcome) := by
  refine ⟨fun pending hsession => ?_,
    fun hstage => absurd hstage (afterLoad_ne_closing applied outcome none)⟩
  obtain ⟨hlock, rfl, hcreated, happlied⟩ := h.session pending hsession
  unfold afterLoad
  split
  · exact hlock
  · rename_i files'
    split
    · exact hlock
    · rename_i ms hload
      exact sits_nextMigration hlock hcreated
        ⟨happlied, [], ⟨files', hfiles files' rfl, hload⟩, fun _ hm => absurd hm List.not_mem_nil⟩

/-- Every event keeps the ledger. -/
theorem Released.answer (h : Released inst releases start c) {e : MigrateEvent}
    (hfiles : ReadsOwn releases c e) :
    Released inst releases start ((migrateMachine inst).answer c e) := by
  -- what follows is one case for each event; the processes differ in their stages only
  obtain ⟨log, s⟩ := c
  have hquiet : Released inst releases start ⟨(e, Migrator.quiet) :: log, s⟩ :=
    h.idle e none fun _ hended => nomatch hended
  have hgone (pid : Nat) : Extends inst (releases pid) pid s.server .idle []
      (s.server.disconnect pid) := extends_disconnect pid fun hidle => nomatch hidle
  show Released inst releases start ⟨(e, (s.step inst e).1) :: log, (s.step inst e).2⟩
  cases e with
  | start pid outcome =>
    unfold Migrator.step
    dsimp only
    split
    · -- a new session has an empty transaction
      refine h.acted ?_ (fun p hp => Server.spares_setSession hp _ s.server) (.inl rfl) none
        fun _ hended => nomatch hended
      exact .of_committed_eq rfl
        (placed_of_session (Server.sessions_setSession pid _ s.server) rfl
          fun hstage => nomatch hstage)
    · exact h.idle _ _ fun _ hended => nomatch hended
    · exact hquiet
  | statement pid fate =>
    unfold Migrator.step
    dsimp only
    split
    · exact hquiet
    -- the statement is answered by the server, or not at all
    · rename_i stmt hstmt
      split
      · exact hquiet
      · rename_i reply durable server hcall
        exact h.acted (extends_of_call (h.placed pid) hstmt hcall)
          (fun p hp => Server.spares_call hp hcall) (.inr ⟨fate, rfl⟩) none
          fun _ hended => nomatch hended
  | load pid outcome =>
    unfold Migrator.step
    dsimp only
    split
    · rename_i applied hstage
      have hplaced := h.placed pid
      dsimp only at hplaced
      -- the listing is that of the process's own release
      rw [hstage] at hplaced
      refine h.acted (.of_committed_eq rfl (placed_afterLoad hplaced ?_))
        (fun _ _ => ⟨rfl, fun hlock => hlock⟩) (.inl rfl) none fun _ hended => nomatch hended
      rintro files' rfl
      exact hfiles pid files' rfl
    · exact hquiet
  | close pid =>
    unfold Migrator.step
    dsimp only
    split
    · rename_i exc hstage
      refine h.acted (hgone pid) (fun p hp => Server.spares_disconnect hp s.server) (.inl rfl) _
        fun p hended => ?_
      obtain ⟨rfl, rfl⟩ := Prod.mk.inj (Option.some.inj hended)
      -- a process that ends has seen all of its migrations recorded
      exact (h.placed pid).recorded hstage
    · exact hquiet
  | drop pid =>
    unfold Migrator.step
    dsimp only
    -- the server drops the connection and the process does not notice
    have hdropped := h.acted (e := .drop pid) (extends_disconnect pid (h.placed pid).recorded)
      (fun p hp => Server.spares_disconnect hp s.server) (.inl rfl) none
      fun _ hended => nomatch hended
    simpa only [Migrator.setStage_self, Migrator.quiet] using hdropped
  | crash pid =>
    unfold Migrator.step
    dsimp only
    -- the process is gone, and with it its session and its lock
    exact h.acted (hgone pid) (fun p hp => Server.spares_disconnect hp s.server) (.inl rfl) none
      fun _ hended => nomatch hended

/-- In every run of processes that read their own releases, the ledger is the releases'. -/
private theorem released_of_run (hunique : (start.recorded.map Prod.fst).Nodup)
    (hrun : (migrateMachine inst).Run (ReadsOwn releases) ⟨[], .boot start⟩ c) :
    Released inst releases start c :=
  hrun.invariant (released_boot hunique) fun _ _ h hfiles => h.answer hfiles

/-- What holds of the ledger. -/
structure LedgerGuarded (inst : Installation Schema) (releases : Nat → Resources)
    (start : Database Schema) (c : Config (Migrator Schema) MigrateEvent MigrateResponse) :
    Prop where
  /-- The schema is what the committed scripts make of the first one. -/
  schema : replayScripts inst (committed c.log) start.schema =
    .ok c.state.server.committed.schema
  /-- Rows are only added, one for each script, with the checksum of its text. -/
  rows : c.state.server.committed.recorded =
    start.recorded ++ (committed c.log).map (·.row inst)
  unique : (c.state.server.committed.recorded.map Prod.fst).Nodup
  /-- Each script was committed by a process that found its earlier migrations recorded. -/
  guarded : Guarded inst releases start.recorded c.log
  /-- From when a process returns, all its migrations are recorded as it has them. -/
  returned : ∀ x ∈ c.log, ∀ pid, x.2.ended = some (pid, none) → ∀ ms,
    Lists inst (releases pid) ms → ∀ m ∈ ms,
      m.row inst ∈ c.state.server.committed.recorded
  /-- A process with another text for a recorded version has never returned. -/
  refused : ∀ pid ms, Lists inst (releases pid) ms → ∀ m ∈ ms, ∀ checksum,
    (m.version, checksum) ∈ c.state.server.committed.recorded →
      checksum ≠ inst.sha256 m.sql → ∀ x ∈ c.log, x.2.ended ≠ some (pid, none)

/-- The ledger in every state of every run, whichever releases take part, whichever statements
    fail and whichever processes crash. -/
theorem guarded_of_run (hunique : (start.recorded.map Prod.fst).Nodup)
    (hrun : (migrateMachine inst).Run (ReadsOwn releases) ⟨[], .boot start⟩ c) :
    LedgerGuarded inst releases start c := by
  have h : Released inst releases start c := released_of_run hunique hrun
  have hreturned : ∀ x ∈ c.log, ∀ pid, x.2.ended = some (pid, none) → ∀ ms,
      Lists inst (releases pid) ms → ∀ m ∈ ms,
        m.row inst ∈ c.state.server.committed.recorded := by
    intro x hx pid hended ms hlists m hm
    obtain ⟨ms', hlists', hms'⟩ := h.returned x hx pid hended
    exact hms' m ((perm_of_lists hlists hlists').mem_iff.mp hm)
  refine ⟨h.schema, h.rows, h.unique, h.guarded, hreturned, ?_⟩
  intro pid ms hlists m hm checksum hrow hother x hx hended
  have hown := hreturned x hx pid hended ms hlists m hm
  have hsame := List.inj_on_of_nodup_map h.unique hrow hown rfl
  exact hother (congrArg Prod.snd hsame)

/-- The first release, with one migration. -/
def oneFile : Resources := ⟨some [⟨"9_a.sql", true, "a"⟩], none⟩

/-- A release in which a migration was edited. -/
def editedFiles : Resources :=
  ⟨some [⟨"9_a.sql", true, "a, edited"⟩, ⟨"010_b.sql", true, "b"⟩], none⟩

def mixedReleases : Nat → Resources
  | 0 => oneFile
  | 1 => twoFiles
  | _ => editedFiles

/-- The releases 0, 2 and 1 in turn; the edited one finds another checksum. -/
def mixedRun : List MigrateEvent :=
  let reads (pid : Nat) : List MigrateEvent := .start pid (.ok ()) ::
    .replicate 4 (.statement pid .served) ++ [.load pid (.ok (mixedReleases pid))]
  reads 0 ++ .replicate 5 (.statement 0 .served) ++ [.close 0] ++
    reads 2 ++ .replicate 3 (.statement 2 .served) ++ [.close 2] ++
    reads 1 ++ .replicate 5 (.statement 1 .served) ++ [.close 1]

/-- Three releases in turn, and what each has committed behind it. -/
theorem guarded_of_mixedRun :
    let c := (migrateMachine listInstallation).replay ⟨[], .boot ⟨[], none⟩⟩ mixedRun
    LedgerGuarded listInstallation mixedReleases ⟨[], none⟩ c ∧
      committed c.log = [⟨"9", "a"⟩, ⟨"010", "b"⟩] ∧
      c.log.filterMap (·.2.ended) =
        [(1, none), (2, some (checksumMismatch "9")), (0, none)] := by
  have hsame (files : Resources) : files.Same files := ⟨List.Perm.refl _, rfl⟩
  have hadmits : (migrateMachine listInstallation).Admits (ReadsOwn mixedReleases)
      ⟨[], .boot ⟨[], none⟩⟩ mixedRun := by
    simp [Machine.Admits, mixedRun, ReadsOwn, hsame]
  exact ⟨guarded_of_run List.nodup_nil (Machine.run_of_admits hadmits), by decide +kernel,
    by decide +kernel⟩

/-! ## Upgrades -/

/-- Behind a list of which every migration is recorded comes the next one of the whole list. -/
private theorem prefix_snoc {full before rest done : List Migration} {m : Migration}
    (hnodup : full.Nodup) (hlist : before ++ m :: rest <+: full) (hdone : done <+: full)
    (hfresh : m ∉ done) (hsubset : before ⊆ done) : done ++ [m] <+: full := by
  have hnext : before ++ [m] <+: full := by
    refine List.IsPrefix.trans ?_ hlist
    exact ⟨rest, by rw [List.append_assoc]; rfl⟩
  have hbefore : done <+: before := by
    rcases List.prefix_or_prefix_of_prefix hdone hnext with hle | hge
    · rcases List.prefix_concat_iff.mp hle with heq | hle
      · rw [heq] at hfresh
        exact absurd (List.mem_append_right _ (List.mem_singleton_self m)) hfresh
      · exact hle
    · exact absurd (hge.subset (List.mem_append_right _ (List.mem_singleton_self m))) hfresh
  have hlength : before.length ≤ done.length := by
    have hdistinct : before.Nodup :=
      hnodup.sublist ((List.prefix_append before [m]).trans hnext).sublist
    exact (List.subperm_of_subset hdistinct hsubset).length_le
  rw [hbefore.eq_of_length_le hlength]
  exact hnext

/-- Releases that extend one another, and a database at one of them. -/
structure Line (inst : Installation Schema) (releases : Nat → Resources) (full : List Migration)
    (start : Database Schema) (known : List Migration) : Prop where
  distinct : (full.map (·.version)).Nodup
  extend : ∀ pid ms, Lists inst (releases pid) ms → ms <+: full
  started : known <+: full
  recorded : start.recorded = known.map (·.row inst)

/-- With distinct versions, a migration whose row is there was applied. -/
private theorem mem_of_row {full done : List Migration} (hdistinct : (full.map (·.version)).Nodup)
    (hdone : done <+: full) {x : Migration} (hx : x ∈ full)
    (hrow : x.row inst ∈ done.map (·.row inst)) : x ∈ done := by
  obtain ⟨y, hy, heq⟩ := List.mem_map.mp hrow
  have hversion : y.version = x.version := congrArg Prod.fst heq
  exact List.inj_on_of_nodup_map hdistinct (hdone.subset hy) hx hversion ▸ hy

/-- The scripts are the next ones of the whole list. -/
theorem Line.inOrder {full known : List Migration} {log : MigrateLog}
    (h : Line inst releases full start known)
    (hguarded : Guarded inst releases start.recorded log)
    (hunique : ((start.recorded ++ (committed log).map (·.row inst)).map Prod.fst).Nodup) :
    known ++ committed log <+: full := by
  -- by induction on the log: each entry commits one migration at most, behind its own list
  induction log with
  | nil =>
    change known ++ [] <+: full
    rw [List.append_nil]
    exact h.started
  | cons x log ih =>
    have hcommitted : committed (x :: log) = committed log ++ scripts x.2.durable :=
      committed_cons x log
    have hrows : start.recorded ++ (committed (x :: log)).map (·.row inst) =
        (known ++ committed log).map (·.row inst) ++ (scripts x.2.durable).map (·.row inst) := by
      rw [hcommitted, h.recorded, List.map_append, List.map_append, List.append_assoc]
    rw [hrows, List.map_append] at hunique
    have hold : known ++ committed log <+: full := by
      refine ih hguarded.of_cons ?_
      rw [h.recorded, ← List.map_append]
      exact (List.nodup_append.mp hunique).1
    rw [hcommitted]
    -- the entry committed nothing, or `m` behind `before`
    rcases hguarded [] x log rfl with hnone | ⟨pid, fate, m, before, rest, -, hone, hlists, hbefore⟩
    · rw [hnone, List.append_nil]
      exact hold
    -- both lists are the beginnings of `full`, so `m` comes next
    · have hlist : before ++ m :: rest <+: full := h.extend pid _ hlists
      rw [hone] at hunique ⊢
      rw [← List.append_assoc]
      refine prefix_snoc (h.distinct.of_map _) hlist hold ?_ ?_
      · -- the version is recorded only once
        intro hmem
        have hrow : (m.row inst).1 ∈ ((known ++ committed log).map (·.row inst)).map Prod.fst :=
          List.mem_map_of_mem (List.mem_map_of_mem hmem)
        exact (List.nodup_append.mp hunique).2.2 _ hrow _ (List.mem_singleton_self _) rfl
      · intro y hy
        have hyfull : y ∈ full := hlist.subset (List.mem_append_left _ hy)
        -- what comes before `m` in its process's list has a row, so it was committed
        have hrow := hbefore y hy
        rw [h.recorded, ← List.map_append] at hrow
        exact mem_of_row h.distinct hold hyfull hrow

/-- What holds of an upgrade. -/
structure Upgraded (inst : Installation Schema) (releases : Nat → Resources)
    (full known : List Migration)
    (c : Config (Migrator Schema) MigrateEvent MigrateResponse) : Prop where
  /-- The database is at some point of the whole list. -/
  inOrder : known ++ committed c.log <+: full
  recorded : c.state.server.committed.recorded =
    (known ++ committed c.log).map (·.row inst)
  /-- It is never behind a process that returned. -/
  returned : ∀ x ∈ c.log, ∀ pid, x.2.ended = some (pid, none) → ∀ ms,
    Lists inst (releases pid) ms → ms <+: known ++ committed c.log

/-- An upgrade in every state of every run: old and new processes start, fail and crash in any
    order, and the database only ever moves along the whole list. -/
theorem upgraded_of_run {full known : List Migration}
    (hline : Line inst releases full start known)
    (hrun : (migrateMachine inst).Run (ReadsOwn releases) ⟨[], .boot start⟩ c) :
    Upgraded inst releases full known c := by
  -- the rows of the start have distinct versions, and so have those of the end
  have hunique : (start.recorded.map Prod.fst).Nodup := by
    rw [hline.recorded, List.map_map]
    exact hline.distinct.sublist (hline.started.sublist.map _)
  have h : Released inst releases start c := released_of_run hunique hrun
  have hdistinct := h.unique
  rw [h.rows] at hdistinct
  have hinOrder : known ++ committed c.log <+: full := hline.inOrder h.guarded hdistinct
  have hrecorded : c.state.server.committed.recorded =
      (known ++ committed c.log).map (·.row inst) := by
    rw [h.rows, hline.recorded, List.map_append]
  refine ⟨hinOrder, hrecorded, ?_⟩
  -- a process that returned has found a row for every migration of its list
  intro x hx pid hended ms hlists
  obtain ⟨ms', hlists', hms'⟩ := h.returned x hx pid hended
  have hms : ms <+: full := hline.extend pid ms hlists
  have hsubset : ms ⊆ known ++ committed c.log := by
    intro m hm
    have hrow := hms' m ((perm_of_lists hlists hlists').mem_iff.mp hm)
    rw [hrecorded] at hrow
    exact mem_of_row hline.distinct hinOrder (hms.subset hm) hrow
  -- both are beginnings of `full`, so it is enough to compare their lengths
  have hnodup : ms.Nodup := (hline.distinct.of_map _).sublist hms.sublist
  exact List.prefix_of_prefix_length_le hms hinOrder
    (List.subperm_of_subset hnodup hsubset).length_le

/-- A process of the first release, and processes of the second one. -/
def pairedReleases : Nat → Resources
  | 0 => oneFile
  | _ => twoFiles

/-- A new process crashes between the two migrations, an old one returns, and then a new one. -/
def upgradeRun : List MigrateEvent :=
  let reads (pid : Nat) : List MigrateEvent := .start pid (.ok ()) ::
    .replicate 4 (.statement pid .served) ++ [.load pid (.ok (pairedReleases pid))]
  reads 1 ++ .replicate 4 (.statement 1 .served) ++ [.crash 1] ++
    reads 0 ++ .replicate 2 (.statement 0 .served) ++ [.close 0] ++
    reads 2 ++ .replicate 5 (.statement 2 .served) ++ [.close 2]

example :
    let c := (migrateMachine listInstallation).replay ⟨[], .boot ⟨[], none⟩⟩ upgradeRun
    c.log.filterMap (·.2.ended) = [(2, none), (0, none)] ∧
      committed c.log = [⟨"9", "a"⟩, ⟨"010", "b"⟩] := by
  decide +kernel

/-- The example's releases extend one another. -/
private theorem line_pairedReleases : Line listInstallation pairedReleases
    [⟨"9", "a"⟩, ⟨"010", "b"⟩] ⟨[], none⟩ [] where
  distinct := by decide
  extend pid ms h := by
    have hone : loadMigrations listInstallation oneFile = .ok [⟨"9", "a"⟩] := by decide
    have htwo : loadMigrations listInstallation twoFiles = .ok [⟨"9", "a"⟩, ⟨"010", "b"⟩] := by
      decide
    cases pid with
    | zero =>
      rw [eq_of_lists hone (by unfold DistinctVersions; decide) h]
      exact ⟨[⟨"010", "b"⟩], rfl⟩
    | succ pid =>
      rw [eq_of_lists htwo (by unfold DistinctVersions; decide) h]
  started := List.nil_prefix
  recorded := rfl

/-- An upgrade through a crash and the return of an old process. -/
theorem upgraded_of_upgradeRun :
    Upgraded listInstallation pairedReleases [⟨"9", "a"⟩, ⟨"010", "b"⟩] []
      ((migrateMachine listInstallation).replay ⟨[], .boot ⟨[], none⟩⟩ upgradeRun) := by
  refine upgraded_of_run line_pairedReleases (Machine.run_of_admits ?_)
  have hsame (files : Resources) : files.Same files := ⟨List.Perm.refl _, rfl⟩
  simp [Machine.Admits, upgradeRun, ReadsOwn, hsame]

end Grimnir
