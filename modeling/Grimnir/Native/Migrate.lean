import Grimnir.ForStd.Machine
import Grimnir.ForStd.Sessions
import Mathlib.Data.List.Sort

/-!
# `csi_models/migrate.py`

`run_migrations` from one statement to the next, in any number of processes over one
database.  What the SQL of a migration does to the schema is a parameter, and so are
SHA-256 and the table of decimal digits.
-/

namespace Grimnir

/-- What ends a run of `run_migrations` with an exception. -/
inductive RunError where
  | runtimeError (message : String)
  /-- A statement or a file raises. -/
  | raised (text : String)
  deriving DecidableEq, Repr

/-- A numbered migration. -/
structure Migration where
  version : String
  sql : String
  deriving DecidableEq, Repr

/-- An entry of the directory `sql`. -/
structure SqlEntry where
  name : String
  isFile : Bool
  text : String

/-- The files that come with the package. -/
structure Resources where
  /-- `resource_dir.iterdir()`, when the directory exists. -/
  entries : Option (List SqlEntry)
  /-- `001_schema.sql` beside the sources, when it exists. -/
  source : Option String

/-- What the processes have in common. -/
structure Installation (Schema : Type) where
  /-- `unicodedata.decimal`. -/
  decimal : Char → Option Nat
  /-- `hashlib.sha256(sql_text.encode("utf-8")).hexdigest()`. -/
  sha256 : String → String
  /-- What SQL does to the schema, or what it raises. -/
  execute : String → Schema → Except RunError Schema

variable {Schema : Type} (inst : Installation Schema)

/-! ## `_load_migrations` -/

/-- `MIGRATION_FILENAME_RE.match(name).group("version")`. -/
def filenameVersion (name : String) : Option String :=
  let isDigit := fun c => (inst.decimal c).isSome
  let digits := name.toList.takeWhile isDigit
  match name.toList.dropWhile isDigit with
  | '_' :: rest =>
    -- `$` also matches before a newline at the very end, `.` matches no newline
    let rest := if rest.getLast? = some '\n' then rest.dropLast else rest
    if digits ≠ [] ∧ ".sql".toList.isSuffixOf rest ∧ !rest.contains '\n' then
      some (String.ofList digits)
    else none
  | _ => none

/-- `int(version)`. -/
def versionNumber (version : String) : Nat :=
  version.toList.foldl (fun n c => 10 * n + (inst.decimal c).getD 0) 0

/-- `migrations.sort(key=lambda item: int(item[0]))`. -/
def sortMigrations (migrations : List Migration) : List Migration :=
  migrations.insertionSort fun a b =>
    versionNumber inst a.version ≤ versionNumber inst b.version

/-- The migrations among the entries. -/
def bundledMigrations (entries : List SqlEntry) : List Migration :=
  entries.filterMap fun entry =>
    if entry.isFile then (filenameVersion inst entry.name).map (⟨·, entry.text⟩) else none

/-- `_load_migrations`. -/
def loadMigrations (files : Resources) : Except RunError (List Migration) :=
  let migrations := bundledMigrations inst (files.entries.getD [])
  if migrations ≠ [] then .ok (sortMigrations inst migrations)
  else
    match filenameVersion inst "001_schema.sql", files.source with
    | none, _ => .error (.runtimeError "Could not resolve bundled migrations")
    | some version, some text => .ok (sortMigrations inst [⟨version, text⟩])
    | some _, none => .error (.raised "No such file or directory: 001_schema.sql")

/-! ## The database -/

/-- The schema and the rows of `schema_migrations`, when the table exists. -/
structure Database (Schema : Type) where
  schema : Schema
  rows : Option (List (String × String))

/-- The writes of `run_migrations`. -/
inductive Write where
  /-- `MIGRATION_TABLE_SQL`. -/
  | createTable
  /-- The SQL of a migration; its version is not part of the statement. -/
  | script (m : Migration)
  | record (version checksum : String)
  deriving DecidableEq, Repr

/-- A write on what its transaction sees. -/
def Write.apply (db : Database Schema) : Write → Except RunError (Database Schema)
  | .createTable => .ok { db with rows := some (db.rows.getD []) }
  | .script m => (inst.execute m.sql db.schema).map fun schema => { db with schema := schema }
  | .record version checksum =>
    match db.rows with
    | none => .error (.raised "relation schema_migrations does not exist")
    | some rows =>
      if version ∈ rows.map (·.1) then
        .error (.raised "duplicate key value violates unique constraint")
      else .ok { db with rows := some (rows ++ [(version, checksum)]) }

/-! ## `run_migrations` -/

/-- Where a process stands in `run_migrations`. -/
inductive MigrateStage where
  /-- Not in it. -/
  | idle
  | locking
  | creatingTable
  | committingTable
  | reading
  | loading (applied : List (String × String))
  | executing (applied : List (String × String)) (m : Migration) (rest : List Migration)
  | recording (applied : List (String × String)) (m : Migration) (rest : List Migration)
  | committing (applied : List (String × String)) (rest : List Migration)
  | rollingBack (exc : RunError)
  /-- The `finally`, with the exception on its way out. -/
  | unlocking (exc : Option RunError)
  | finalCommit (exc : Option RunError)
  | closing (exc : Option RunError)

/-- The message of a `RuntimeError`. -/
def checksumMismatch (version : String) : RunError :=
  .runtimeError s!"Migration {version} checksum mismatch; manual intervention required"

/-- The `for` loop, up to the next migration that is not applied. -/
def nextMigration (applied : List (String × String)) : List Migration → MigrateStage
  | [] => .unlocking none
  | m :: rest =>
    match applied.lookup m.version with
    | some checksum =>
      if checksum ≠ inst.sha256 m.sql then .rollingBack (checksumMismatch m.version)
      else nextMigration applied rest
    | none => .executing applied m rest

/-- The statement that a process sends next. -/
def MigrateStage.statement : MigrateStage → Option (Server.Statement Write)
  | .idle | .loading _ | .closing _ => none
  | .locking => some .lock
  | .creatingTable => some (.write .createTable)
  | .committingTable => some .commit
  | .reading => some .read
  | .executing _ m _ => some (.write (.script m))
  | .recording _ m _ => some (.write (.record m.version (inst.sha256 m.sql)))
  | .committing _ _ => some .commit
  | .rollingBack _ => some .rollback
  | .unlocking _ => some .unlock
  | .finalCommit _ => some .commit

/-- Where a process stands after its statement. -/
def MigrateStage.after (reply : Except RunError (Database Schema)) :
    MigrateStage → MigrateStage
  | .locking =>
    match reply with
    | .ok _ => .creatingTable
    | .error exc => .closing (some exc)
  | .creatingTable =>
    match reply with
    | .ok _ => .committingTable
    | .error exc => .rollingBack exc
  | .committingTable =>
    match reply with
    | .ok _ => .reading
    | .error exc => .rollingBack exc
  | .reading =>
    match reply with
    | .ok ⟨_, some rows⟩ => .loading rows
    | .ok ⟨_, none⟩ => .rollingBack (.raised "relation schema_migrations does not exist")
    | .error exc => .rollingBack exc
  | .executing applied m rest =>
    match reply with
    | .ok _ => .recording applied m rest
    | .error exc => .rollingBack exc
  | .recording applied _ rest =>
    match reply with
    | .ok _ => .committing applied rest
    | .error exc => .rollingBack exc
  | .committing applied rest =>
    match reply with
    | .ok _ => nextMigration inst applied rest
    | .error exc => .rollingBack exc
  | .rollingBack exc =>
    match reply with
    | .ok _ => .unlocking (some exc)
    | .error exc => .unlocking (some exc)
  | .unlocking exc =>
    match reply with
    | .ok _ => .finalCommit exc
    | .error exc => .closing (some exc)
  | .finalCommit exc =>
    match reply with
    | .ok _ => .closing exc
    | .error exc => .closing (some exc)
  | stage => stage

/-- `_load_migrations`, and the loop after it. -/
def afterLoad (applied : List (String × String)) : Except RunError Resources → MigrateStage
  | .error exc => .rollingBack exc
  | .ok files =>
    match loadMigrations inst files with
    | .error exc => .rollingBack exc
    | .ok migrations => nextMigration inst applied migrations

/-! ## Processes -/

/-- The database and the processes. -/
structure Migrator (Schema : Type) where
  server : Server (Database Schema) Write
  stages : Nat → MigrateStage

inductive MigrateEvent where
  /-- A process calls `run_migrations` and connects. -/
  | start (pid : Nat) (outcome : Except RunError Unit)
  /-- The next statement of a process. -/
  | statement (pid : Nat) (fate : Fate RunError)
  /-- A process reads the files. -/
  | load (pid : Nat) (outcome : Except RunError Resources)
  /-- `raw_connection.close()` and `engine.dispose()`. -/
  | close (pid : Nat)
  /-- The server ends the session of a process. -/
  | drop (pid : Nat)
  | crash (pid : Nat)

/-- What an event makes visible. -/
structure MigrateResponse where
  /-- The writes that it commits. -/
  durable : List Write
  /-- The process whose `run_migrations` ends, with its exception. -/
  ended : Option (Nat × Option RunError)

namespace Migrator

def quiet : MigrateResponse := ⟨[], none⟩

def setStage (pid : Nat) (stage : MigrateStage) (s : Migrator Schema) : Migrator Schema :=
  { s with stages := fun p => if p = pid then stage else s.stages p }

/-- One event. -/
def step (s : Migrator Schema) : MigrateEvent → MigrateResponse × Migrator Schema
  | .start pid outcome =>
    match s.stages pid, outcome with
    | .idle, .ok _ => (quiet, { s.setStage pid .locking with server := s.server.connect pid })
    | .idle, .error exc => (⟨[], some (pid, some exc)⟩, s)
    | _, _ => (quiet, s)
  | .statement pid fate =>
    match (s.stages pid).statement inst with
    | none => (quiet, s)
    | some stmt =>
      match s.server.call (fun w db => w.apply inst db) pid stmt fate
          (.raised "connection already closed") with
      | none => (quiet, s)
      | some (reply, durable, server) =>
        (⟨durable, none⟩,
          { s.setStage pid ((s.stages pid).after inst reply) with server := server })
  | .load pid outcome =>
    match s.stages pid with
    | .loading applied => (quiet, s.setStage pid (afterLoad inst applied outcome))
    | _ => (quiet, s)
  | .close pid =>
    match s.stages pid with
    | .closing exc =>
      (⟨[], some (pid, exc)⟩,
        { s.setStage pid .idle with server := s.server.disconnect pid })
    | _ => (quiet, s)
  | .drop pid => (quiet, { s with server := s.server.disconnect pid })
  | .crash pid => (quiet, { s.setStage pid .idle with server := s.server.disconnect pid })

/-- Nobody is connected to the database `db`. -/
def boot (db : Database Schema) : Migrator Schema := ⟨⟨db, fun _ => none, none⟩, fun _ => .idle⟩

end Migrator

/-- The processes with their database. -/
def migrateMachine : Machine (Migrator Schema) MigrateEvent MigrateResponse where
  step s e := s.step inst e

end Grimnir
