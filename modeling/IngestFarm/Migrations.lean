/-
# Migrations

`init_db` of `ingest_farm/db.py` with the revisions under `alembic/versions`.  API, worker and
postprocess call it when they start, at once and each on its own: it looks at the tables, reads
the revision, stamps a database that the old `create_all` has made, and upgrades to head in one
transaction.  Between two steps the others go on, and any process may fail or be started anew.

* `Database`, `Revision.upgrade`: the tables with their rows, and the scripts;
* `Stage`, `stage`: what a database can look like;
* `step`: one step of one process.

Who returns from `init_db` finds the schema of the models (`init_db_reaches_head`), and no
process is ever stuck (`init_db_recovers`).  The stamp is the exception: it is decided on what
was read before, and a process that stamps after another one has upgraded leaves a database that
nobody can open again (`stale_stamp_is_final`).
-/
import IngestFarm.Dict
import IngestFarm.Runs

namespace Migrations

open Runs

/-! ## Tables -/

/-- The tables of the models. -/
inductive TableName where
  | channels
  | workers
  | recordings
  | assets
  deriving DecidableEq

/-- The types of columns that the scripts use. -/
inductive SqlType where
  | string (length : ℕ)
  | text
  | json
  | boolean
  | integer
  | bigInteger
  | dateTime
  deriving DecidableEq

/-- `sa.Column`, with the table that a foreign key refers to and the default that the server fills
in. -/
structure Column where
  name : String
  type : SqlType
  nullable : Bool
  unique : Bool
  references : Option TableName
  serverDefault : Option String
  deriving DecidableEq

/-- A row: the texts of its cells that are not null. -/
abbrev Row := Dict String String

/-- A table with its rows. -/
structure Table where
  columns : List Column
  rows : List Row

/-- The column has the type from now on; its cells are converted. -/
def Table.setType (column : String) (type : SqlType) (t : Table) : Table :=
  { t with
    columns := t.columns.map fun c => if c.name = column then { c with type := type } else c }

/-- The new column in a row that is there. -/
def Column.fill (column : Column) (row : Row) : Row :=
  match column.serverDefault with
  | none => row
  | some text => Dict.set column.name text row

/-- The scripts, in their order. -/
inductive Revision where
  | initial
  | byteSizeBigint
  | recordingMetadata
  deriving DecidableEq

/-- The tables, and the row of `alembic_version`. -/
@[ext]
structure Database where
  tables : TableName → Option Table
  revision : Option Revision

namespace Database

/-- `op.create_table`: it fails on a table that exists, and on a reference to one that does not. -/
def createTable (name : TableName) (columns : List Column) (db : Database) : Option Database :=
  if (db.tables name).isSome ∨
      columns.any (fun c => c.references.any fun t => (db.tables t).isNone) = true then none
  else some { db with tables := Function.update db.tables name (some ⟨columns, []⟩) }

/-- `op.alter_column` to a wider type. -/
def alterColumn (name : TableName) (column : String) (type : SqlType) (db : Database) :
    Option Database :=
  match db.tables name with
  | none => none
  | some t =>
    if t.columns.all (fun c => c.name ≠ column) = true then none
    else
      some { db with tables := Function.update db.tables name (some (t.setType column type)) }

/-- `op.add_column`: it fails on a column that exists; the rows that are there get the default. -/
def addColumn (name : TableName) (column : Column) (db : Database) : Option Database :=
  match db.tables name with
  | none => none
  | some t =>
    if t.columns.any (fun c => c.name = column.name) = true then none
    else
      let t := ⟨t.columns ++ [column], t.rows.map column.fill⟩
      some { db with tables := Function.update db.tables name (some t) }

end Database

/-! ## Revisions -/

/-- The columns of `0001_initial`; a primary key is unique and not null. -/
def initialColumns : TableName → List Column
  | .channels => [
    ⟨"id", .string 36, false, true, none, none⟩,
    ⟨"name", .string 255, false, true, none, none⟩,
    ⟨"protocol", .string 32, false, false, none, none⟩,
    ⟨"source_uri", .text, false, false, none, none⟩,
    ⟨"source_config", .json, true, false, none, none⟩,
    ⟨"pipeline_profile", .json, true, false, none, none⟩,
    ⟨"output_config", .json, true, false, none, none⟩,
    ⟨"enabled", .boolean, false, false, none, some "true"⟩,
    ⟨"status", .string 32, false, false, none, some "idle"⟩,
    ⟨"created_at", .dateTime, true, false, none, some "now()"⟩]
  | .workers => [
    ⟨"id", .string 36, false, true, none, none⟩,
    ⟨"hostname", .string 255, false, true, none, none⟩,
    ⟨"last_heartbeat", .dateTime, true, false, none, none⟩,
    ⟨"active_channels", .json, true, false, none, none⟩,
    ⟨"capacity", .integer, false, false, none, some "4"⟩]
  | .recordings => [
    ⟨"id", .string 36, false, true, none, none⟩,
    ⟨"channel_id", .string 36, false, false, some .channels, none⟩,
    ⟨"started_at", .dateTime, true, false, none, some "now()"⟩,
    ⟨"ended_at", .dateTime, true, false, none, none⟩,
    ⟨"status", .string 32, false, false, none, some "recording"⟩,
    ⟨"storage_path", .text, false, false, none, none⟩,
    ⟨"segment_count", .integer, false, false, none, some "0"⟩,
    ⟨"byte_size", .integer, false, false, none, some "0"⟩]
  | .assets => [
    ⟨"id", .string 36, false, true, none, none⟩,
    ⟨"recording_id", .string 36, false, true, some .recordings, none⟩,
    ⟨"title", .string 512, false, false, none, none⟩,
    ⟨"duration_ms", .integer, true, false, none, none⟩,
    ⟨"width", .integer, true, false, none, none⟩,
    ⟨"height", .integer, true, false, none, none⟩,
    ⟨"video_codec", .string 64, true, false, none, none⟩,
    ⟨"audio_codec", .string 64, true, false, none, none⟩,
    ⟨"master_path", .text, false, false, none, none⟩,
    ⟨"proxy_path", .text, true, false, none, none⟩,
    ⟨"thumbnail_path", .text, true, false, none, none⟩,
    ⟨"metadata", .json, true, false, none, none⟩,
    ⟨"created_at", .dateTime, true, false, none, some "now()"⟩]

/-- The column of `0003_recording_metadata`. -/
def metadataColumn : Column := ⟨"metadata", .json, false, false, none, some "\x7b\x7d"⟩

namespace Revision

/-- `down_revision`: the revision that a script takes for granted. -/
def down : Revision → Option Revision
  | initial => none
  | byteSizeBigint => some initial
  | recordingMetadata => some byteSizeBigint

/-- `upgrade` of a script. -/
def upgrade : Revision → Database → Option Database
  | initial, db => do
    let db ← db.createTable .channels (initialColumns .channels)
    let db ← db.createTable .workers (initialColumns .workers)
    let db ← db.createTable .recordings (initialColumns .recordings)
    db.createTable .assets (initialColumns .assets)
  | byteSizeBigint, db => db.alterColumn .recordings "byte_size" .bigInteger
  | recordingMetadata, db => db.addColumn .recordings metadataColumn

/-- One script with its change of `alembic_version`, which must find the revision before it. -/
def apply (r : Revision) (db : Database) : Option Database := do
  let db ← r.upgrade db
  if db.revision = r.down then some { db with revision := some r } else none

/-- The head. -/
def head : Revision := recordingMetadata

/-- The scripts in their order. -/
def history : List Revision := [initial, byteSizeBigint, recordingMetadata]

/-- The scripts from a revision to head. -/
def pending (current : Option Revision) : List Revision := history.dropWhile (·.down ≠ current)

end Revision

namespace Database

/-- `upgrade head` in one transaction; `current` is the revision that it has read at its begin. -/
def upgradeHead (current : Option Revision) (db : Database) : Option Database :=
  (Revision.pending current).foldlM (fun db r => r.apply db) db

/-- `command.stamp` at `0001_initial`. -/
def stamp (db : Database) : Database := { db with revision := some .initial }

end Database

/-! ## Processes -/

/-- How far the `init_db` of a process has come. -/
inductive Phase where
  /-- It was not started. -/
  | off
  /-- `init_db` begins. -/
  | starting
  /-- It has seen whether there is a table `channels`. -/
  | looked (hasChannels : Bool)
  /-- There is, and no revision: it will stamp the first one. -/
  | stamping
  /-- It will upgrade. -/
  | upgrading
  /-- The transaction of the upgrade has begun. -/
  | migrating (current : Option Revision)
  /-- `init_db` has returned. -/
  | done
  /-- It has raised, or the process was killed. -/
  | failed
  deriving DecidableEq

/-- The moves of a process in `init_db`, and a failure or a kill at any of them. -/
inductive Move where
  /-- The process is started, or started anew. -/
  | start
  /-- It looks for the table `channels`. -/
  | getTableNames
  /-- It looks for a revision. -/
  | getCurrentRevision
  /-- It stamps the database. -/
  | stamp
  /-- It begins the transaction of the upgrade, and reads the revision. -/
  | beginUpgrade
  /-- The transaction commits. -/
  | runMigrations
  /-- It fails or is killed. -/
  | fail
  deriving DecidableEq

/-- A step of `init_db`; a process may fail and be started anew at any time. -/
def next (db : Database) : Phase → Move → Option (Database × Phase)
  | _, .start => some (db, .starting)
  | _, .fail => some (db, .failed)
  | .starting, .getTableNames => some (db, .looked (db.tables .channels).isSome)
  | .looked hasChannels, .getCurrentRevision =>
    some (db, if db.revision = none ∧ hasChannels = true then .stamping else .upgrading)
  | .stamping, .stamp => some (db.stamp, .upgrading)
  | .upgrading, .beginUpgrade => some (db, .migrating db.revision)
  | .migrating current, .runMigrations =>
    match db.upgradeHead current with
    | none => some (db, .failed)
    | some db => some (db, .done)
  | _, _ => none

/-- The database and the processes. -/
structure System where
  db : Database
  procs : ℕ → Phase

/-- One step of the process `a.1`. -/
def step (s : System) (a : ℕ × Move) : Option System :=
  (next s.db (s.procs a.1) a.2).map fun r => ⟨r.1, Function.update s.procs a.1 r.2⟩

/-- No process has started. -/
def System.start (db : Database) : System := ⟨db, fun _ => .off⟩

/-! ## What a database can look like -/

/-- The stages: empty, made by `create_all`, or at a revision. -/
inductive Stage where
  /-- There is no table. -/
  | empty
  /-- `create_all` has made the tables, and there is no revision. -/
  | legacy
  /-- The database is at a revision. -/
  | at (r : Revision)
  deriving DecidableEq

section Stages

variable (rows : TableName → List Row)

/-- The recordings at a revision. -/
def recordingsAt : Revision → Table
  | .initial => ⟨initialColumns .recordings, rows .recordings⟩
  | .byteSizeBigint =>
    Table.setType "byte_size" .bigInteger ⟨initialColumns .recordings, rows .recordings⟩
  | .recordingMetadata =>
    let t := Table.setType "byte_size" .bigInteger
      ⟨initialColumns .recordings, rows .recordings⟩
    ⟨t.columns ++ [metadataColumn], t.rows.map metadataColumn.fill⟩

/-- The tables at a revision: only the recordings change. -/
def tablesAt (r : Revision) : TableName → Option Table
  | .recordings => some (recordingsAt rows r)
  | n => some ⟨initialColumns n, rows n⟩

/-- **The database of a stage** over the rows that it was started with. -/
def stage : Stage → Database
  | .empty => ⟨fun _ => none, none⟩
  | .legacy => ⟨tablesAt rows .initial, none⟩
  | .at r => ⟨tablesAt rows r, some r⟩

end Stages

/-- The columns of the models with their types. -/
def models : List (TableName × List (String × SqlType)) := [
  (.channels, [("id", .string 36), ("name", .string 255), ("protocol", .string 32),
    ("source_uri", .text), ("source_config", .json), ("pipeline_profile", .json),
    ("output_config", .json), ("enabled", .boolean), ("status", .string 32),
    ("created_at", .dateTime)]),
  (.recordings, [("id", .string 36), ("channel_id", .string 36), ("started_at", .dateTime),
    ("ended_at", .dateTime), ("status", .string 32), ("storage_path", .text),
    ("segment_count", .integer), ("byte_size", .bigInteger), ("metadata", .json)]),
  (.assets, [("id", .string 36), ("recording_id", .string 36), ("title", .string 512),
    ("duration_ms", .integer), ("width", .integer), ("height", .integer),
    ("video_codec", .string 64), ("audio_codec", .string 64), ("master_path", .text),
    ("proxy_path", .text), ("thumbnail_path", .text), ("metadata", .json),
    ("created_at", .dateTime)]),
  (.workers, [("id", .string 36), ("hostname", .string 255), ("last_heartbeat", .dateTime),
    ("active_channels", .json), ("capacity", .integer)])]

/-- The database has every column of the models, with its type. -/
def Database.Serves (db : Database) : Prop :=
  ∀ m ∈ models, ∃ t, db.tables m.1 = some t ∧
    ∀ c ∈ m.2, ∃ column ∈ t.columns, column.name = c.1 ∧ column.type = c.2

/-! ## Upgrades -/

section Upgrades

variable {rows : TableName → List Row} {st : Stage}

/-- The database at head. -/
abbrev headDb (rows : TableName → List Row) : Database := stage rows (.at Revision.head)

/-- The tables of head are those of the models. -/
theorem serves_head (rows : TableName → List Row) : (headDb rows).Serves := by
  have hall : ∀ m ∈ models, ∀ c ∈ m.2, ∃ column ∈ (match m.1 with
      | .recordings => (recordingsAt (fun _ => []) .recordingMetadata).columns
      | n => initialColumns n), column.name = c.1 ∧ column.type = c.2 := by
    decide
  intro m hm
  obtain ⟨n, columns⟩ := m
  cases n <;> exact ⟨_, rfl, hall _ hm⟩

/-- An upgrade that goes through. -/
theorem upgradeHead_of_eq {db db' : Database} {current : Option Revision}
    (h : ∃ u, db.upgradeHead current = some u ∧ u.revision = db'.revision ∧
      ∀ n, u.tables n = db'.tables n) : db.upgradeHead current = some db' := by
  obtain ⟨u, hu, hrevision, htables⟩ := h
  rw [hu, Database.ext (funext htables) hrevision]

/-- An empty database is upgraded from the first script on. -/
theorem upgradeHead_empty (hrows : ∀ n, rows n = []) :
    (stage rows .empty).upgradeHead none = some (headDb rows) := by
  obtain rfl : rows = fun _ => [] := funext hrows
  apply upgradeHead_of_eq
  refine ⟨_, rfl, rfl, fun n => ?_⟩
  cases n <;> rfl

/-- And one at a revision from the next script on. -/
theorem upgradeHead_at (rows : TableName → List Row) (r : Revision) :
    (stage rows (.at r)).upgradeHead (some r) = some (headDb rows) := by
  apply upgradeHead_of_eq
  cases r <;> refine ⟨_, rfl, rfl, fun n => ?_⟩ <;> cases n <;> rfl

/-- An upgrade that read nothing fails on tables that are there. -/
theorem upgradeHead_none (rows : TableName → List Row) (hst : st ≠ .empty) :
    (stage rows st).upgradeHead none = none := by
  rcases st with _ | _ | r
  · exact absurd rfl hst
  · rfl
  · cases r <;> rfl

/-- An upgrade that is late fails: its scripts find another revision, or their columns. -/
theorem upgradeHead_late (rows : TableName → List Row) {r : Revision} (hr : r ≠ .head)
    (hst : st ≠ .at r) : (stage rows st).upgradeHead (some r) = none := by
  cases r with
  | recordingMetadata => exact absurd rfl hr
  | initial =>
    rcases st with _ | _ | q
    · rfl
    · rfl
    · cases q with
      | initial => exact absurd rfl hst
      | byteSizeBigint | recordingMetadata => rfl
  | byteSizeBigint =>
    rcases st with _ | _ | q
    · rfl
    · rfl
    · cases q with
      | byteSizeBigint => exact absurd rfl hst
      | initial | recordingMetadata => rfl

/-- **An upgrade is all or nothing**, whatever it has read: it fails or ends at head. -/
theorem upgradeHead_cases (hempty : st = .empty → ∀ n, rows n = []) {current : Option Revision}
    (hhead : current = some .head → st = .at .head) :
    (stage rows st).upgradeHead current = none ∨
      (stage rows st).upgradeHead current = some (headDb rows) := by
  cases current with
  | none =>
    by_cases hst : st = .empty
    · subst hst
      exact Or.inr (upgradeHead_empty (hempty rfl))
    · exact Or.inl (upgradeHead_none rows hst)
  | some r =>
    by_cases hst : st = .at r
    · subst hst
      exact Or.inr (upgradeHead_at rows r)
    · have hr : r ≠ .head := by
        rintro rfl
        exact hst (hhead rfl)
      exact Or.inl (upgradeHead_late rows hr hst)

end Upgrades

/-! ## Runs -/

/-- No process stamps a database that has been stamped or upgraded meanwhile. -/
def FreshStamp (s : System) (a : ℕ × Move) : Prop :=
  a.2 = .stamp → s.procs a.1 = .stamping → s.db.revision = none

/-- What a process may believe at a stage, in a run that began at `st₀`. -/
def Phase.Ok (st₀ st : Stage) : Phase → Prop
  | .looked hasChannels => hasChannels = true → st ≠ .empty
  | .stamping => st₀ = .legacy ∧ st ≠ .empty
  | .migrating current => current = some .head → st = .at .head
  | .done => st = .at .head
  | _ => True

/-- A later stage: what is not empty stays so, and the head is the last one. -/
structure Stage.Later (st st' : Stage) : Prop where
  /-- Tables stay. -/
  nonempty : st ≠ .empty → st' ≠ .empty
  /-- The head is the last stage. -/
  head : st = .at .head → st' = .at .head
  /-- No database becomes one of `create_all`. -/
  legacy : st' = .legacy → st = .legacy
  /-- Nor does one become empty. -/
  empty : st' = .empty → st = .empty

/-- **The invariant**: the database is at a stage, and each process believes what is so. -/
structure Inv (rows : TableName → List Row) (st₀ st : Stage) (s : System) : Prop where
  /-- The database is at the stage, with the rows that there were. -/
  db : s.db = stage rows st
  /-- An empty database has no rows. -/
  empty : st = .empty → ∀ n, rows n = []
  /-- One of `create_all` was so from the beginning. -/
  legacy : st = .legacy → st₀ = .legacy
  /-- Each process believes what is so. -/
  procs : ∀ pid, (s.procs pid).Ok st₀ st

section Invariants

variable {rows : TableName → List Row} {st₀ st st' : Stage} {s s' : System}

theorem Stage.Later.refl (st : Stage) : st.Later st := ⟨id, id, id, id⟩

theorem Stage.later_head (hst : st' = .at .head) : st.Later st' := by
  subst hst
  exact ⟨fun _ => by simp, fun _ => rfl, nofun, nofun⟩

theorem Phase.Ok.later {ph : Phase} (h : ph.Ok st₀ st) (hlater : st.Later st') :
    ph.Ok st₀ st' := by
  cases ph with
  | looked hasChannels => exact fun hc => hlater.nonempty (h hc)
  | stamping =>
    -- Another process may have upgraded meanwhile; that it has not is `FreshStamp`.
    exact ⟨h.1, hlater.nonempty h.2⟩
  | migrating current => exact fun hc => hlater.head (h hc)
  | done => exact hlater.head h
  | off | starting | upgrading | failed => trivial

/-- Where the tables are. -/
theorem isSome_channels (rows : TableName → List Row) (st : Stage) :
    ((stage rows st).tables .channels).isSome = true ↔ st ≠ .empty := by
  rcases st with _ | _ | r <;> simp [stage, tablesAt]

/-- A database without a revision. -/
theorem revision_eq_none (rows : TableName → List Row) (st : Stage) :
    (stage rows st).revision = none ↔ st = .empty ∨ st = .legacy := by
  rcases st with _ | _ | r <;> simp [stage]

/-- **What a process does** at a stage: the database goes to a later one. -/
theorem next_ok (hempty : st = .empty → ∀ n, rows n = []) (hlegacy : st = .legacy → st₀ = .legacy)
    {ph : Phase} (hph : ph.Ok st₀ st) {m : Move}
    (hok : m = .stamp → ph = .stamping → (stage rows st).revision = none) {db' : Database}
    {ph' : Phase} (h : next (stage rows st) ph m = some (db', ph')) :
    ∃ st', st.Later st' ∧ db' = stage rows st' ∧ ph'.Ok st₀ st' := by
  unfold next at h
  split at h
  · cases h
    exact ⟨st, .refl st, rfl, trivial⟩
  · cases h
    exact ⟨st, .refl st, rfl, trivial⟩
  · cases h
    exact ⟨st, .refl st, rfl, (isSome_channels rows st).mp⟩
  · rename_i hasChannels
    cases h
    refine ⟨st, .refl st, rfl, ?_⟩
    split_ifs with hcond
    · rcases (revision_eq_none rows st).mp hcond.1 with hst | hst
      · exact absurd hst (hph hcond.2)
      · exact ⟨hlegacy hst, hph hcond.2⟩
    · trivial
  · -- The stamp finds the database that the process has looked at.
    cases h
    rcases (revision_eq_none rows st).mp (hok rfl rfl) with hst | hst
    · exact absurd hst hph.2
    · -- The tables that `create_all` made are those of the first revision.
      subst hst
      exact ⟨.at .initial, ⟨fun _ => by simp, nofun, nofun, nofun⟩, rfl, trivial⟩
  · cases h
    refine ⟨st, .refl st, rfl, fun hhead => ?_⟩
    rcases st with _ | _ | r
    · cases hhead
    · cases hhead
    · rw [Option.some.inj hhead]
  · rename_i current
    split at h
    · -- The transaction is rolled back, and the process exits.
      cases h
      exact ⟨st, .refl st, rfl, trivial⟩
    · rename_i db hdb
      cases h
      rcases upgradeHead_cases hempty hph with hnone | hhead
      · rw [hnone] at hdb
        cases hdb
      · rw [hhead] at hdb
        cases hdb
        exact ⟨.at .head, Stage.later_head rfl, rfl, rfl⟩
  · cases h

/-- **Every step** keeps the invariant. -/
theorem step_inv (h : Inv rows st₀ st s) {a : ℕ × Move} (hok : st₀ = .legacy → FreshStamp s a)
    (hstep : step s a = some s') : ∃ st', Inv rows st₀ st' s' := by
  obtain ⟨⟨db', ph'⟩, hnext, rfl⟩ := Option.map_eq_some_iff.mp hstep
  rw [h.db] at hnext
  have hfresh : a.2 = .stamp → s.procs a.1 = .stamping → (stage rows st).revision = none := by
    intro hm hph
    have hbelief := h.procs a.1
    rw [hph] at hbelief
    rw [← h.db]
    exact hok hbelief.1 hm hph
  obtain ⟨st', hlater, hdb, hph⟩ := next_ok h.empty h.legacy (h.procs a.1) hfresh hnext
  refine ⟨st', hdb, fun he => h.empty (hlater.empty he), fun hl => h.legacy (hlater.legacy hl),
    fun pid => ?_⟩
  show (Function.update s.procs a.1 ph' pid).Ok st₀ st'
  rw [Function.update_apply]
  split_ifs
  · exact hph
  · exact (h.procs pid).later hlater

/-- The first state of a run. -/
theorem inv_start (hempty : st = .empty → ∀ n, rows n = []) :
    Inv rows st st (System.start (stage rows st)) :=
  ⟨rfl, hempty, id, fun _ => trivial⟩

/-- Every run keeps the invariant. -/
theorem inv_of_run (hempty : st₀ = .empty → ∀ n, rows n = []) {as : List (ℕ × Move)}
    (hfresh : st₀ = .legacy → Along FreshStamp step (System.start (stage rows st₀)) as)
    (hrun : run step (System.start (stage rows st₀)) as = some s) : ∃ st, Inv rows st₀ st s := by
  have hall : Along (fun s a => st₀ = .legacy → FreshStamp s a) step
      (System.start (stage rows st₀)) as := by
    by_cases hl : st₀ = .legacy
    · exact along_iff.mpr fun pre a post t hsplit ht _ => along_iff.mp (hfresh hl) pre a post t
        hsplit ht
    · exact along_of_forall (fun _ _ _ hlegacy => absurd hlegacy hl) _
  refine run_invariant (I := fun t => ∃ st, Inv rows st₀ st t) ?_ as _ s
    ⟨st₀, inv_start hempty⟩ hall hrun
  rintro t a t' ⟨st, hI⟩ hok hstep
  exact step_inv hI hok hstep

/-- **Who returns from `init_db` finds the schema of the models**, at head and over the rows that
were there, for any interleaving of any processes with failures and restarts: from an empty
database, from any revision, and from one made by `create_all` unless a process stamps late. -/
theorem init_db_reaches_head (hempty : st₀ = .empty → ∀ n, rows n = []) {as : List (ℕ × Move)}
    (hfresh : st₀ = .legacy → Along FreshStamp step (System.start (stage rows st₀)) as)
    (hrun : run step (System.start (stage rows st₀)) as = some s) :
    (∃ st, s.db = stage rows st) ∧
      ∀ pid, s.procs pid = .done → s.db = headDb rows ∧ s.db.Serves := by
  obtain ⟨st, hI⟩ := inv_of_run hempty hfresh hrun
  refine ⟨⟨st, hI.db⟩, fun pid hdone => ?_⟩
  have hhead := hI.procs pid
  rw [hdone] at hhead
  rw [hI.db, show st = .at .head from hhead]
  exact ⟨rfl, serves_head rows⟩

/-- Two processes that start on a database made by `create_all`, one after the other. -/
def inTurn : List (ℕ × Move) := [
  (0, .start), (0, .getTableNames), (0, .getCurrentRevision), (0, .stamp), (1, .start),
  (0, .beginUpgrade), (1, .getTableNames), (0, .runMigrations), (1, .getCurrentRevision),
  (1, .beginUpgrade)]

theorem init_db_reaches_head_in_turn :
    Along FreshStamp step (System.start (stage (fun _ => []) .legacy)) inTurn ∧
    ∃ s, run step (System.start (stage (fun _ => []) .legacy)) inTurn = some s ∧
      s.procs 0 = .done ∧ s.db.Serves := by
  have hfresh : Along FreshStamp step (System.start (stage (fun _ => []) .legacy)) inTurn := by
    refine along_cons nofun rfl (along_cons nofun rfl (along_cons nofun rfl ?_))
    refine along_cons (fun _ _ => rfl) rfl (along_cons nofun rfl (along_cons nofun rfl ?_))
    refine along_cons nofun rfl (along_cons nofun rfl (along_cons nofun rfl ?_))
    exact along_cons nofun rfl trivial
  have hend : (run step (System.start (stage (fun _ => []) .legacy)) inTurn).map
      (fun s => s.procs 0) = some .done := rfl
  obtain ⟨s, hs, hdone⟩ := Option.map_eq_some_iff.mp hend
  have hempty : Stage.legacy = .empty → ∀ n, (fun _ => [] : TableName → List Row) n = [] :=
    fun h => absurd h (by simp)
  exact ⟨hfresh, s, hs, hdone, ((init_db_reaches_head hempty (fun _ => hfresh) hs).2 0 hdone).2⟩

/-! ## A process alone -/

/-- The moves of `init_db` when nobody else moves: it stamps where it finds tables and no
revision. -/
def undisturbed (db : Database) : List Move :=
  [.start, .getTableNames, .getCurrentRevision] ++
    (if db.revision = none ∧ (db.tables .channels).isSome = true then [.stamp] else []) ++
      [.beginUpgrade, .runMigrations]

/-- The moves of one process. -/
def alone (moves : List Move) (c : Database × Phase) : Option (Database × Phase) :=
  moves.foldlM (fun c m => next c.1 c.2 m) c

/-- The moves of one process are a run of the system. -/
theorem run_alone {pid : ℕ} {moves : List Move} {db : Database} {ph : Phase}
    (h : alone moves (s.db, s.procs pid) = some (db, ph)) :
    ∃ s', run step s (moves.map fun m => (pid, m)) = some s' ∧ s'.db = db ∧
      s'.procs pid = ph := by
  induction moves generalizing s with
  | nil =>
    cases h
    exact ⟨s, rfl, rfl, rfl⟩
  | cons m moves ih =>
    obtain ⟨⟨db', ph'⟩, hnext, hrest⟩ := Option.bind_eq_some_iff.mp h
    have hnext : next s.db (s.procs pid) m = some (db', ph') := hnext
    have hstep : step s (pid, m) = some ⟨db', Function.update s.procs pid ph'⟩ := by
      show (next s.db (s.procs pid) m).map _ = _
      rw [hnext]
      rfl
    have hself : (db', Function.update s.procs pid ph' pid) = (db', ph') := by
      rw [Function.update_self]
    rw [← hself] at hrest
    obtain ⟨s', hrun, hs'⟩ := ih (s := ⟨db', Function.update s.procs pid ph'⟩) hrest
    refine ⟨s', ?_, hs'⟩
    rw [List.map_cons, run_cons, hstep]
    exact hrun

/-- An upgrade that nobody disturbs. -/
theorem alone_upgrading (hempty : st = .empty → ∀ n, rows n = []) (hst : st ≠ .legacy) :
    alone [.beginUpgrade, .runMigrations] (stage rows st, .upgrading) =
      some (headDb rows, .done) := by
  have hupgrade : (stage rows st).upgradeHead (stage rows st).revision = some (headDb rows) := by
    rcases st with _ | _ | r
    · exact upgradeHead_empty (hempty rfl)
    · exact absurd rfl hst
    · exact upgradeHead_at rows r
  have hnext : next (stage rows st) (.migrating (stage rows st).revision) .runMigrations =
      some (headDb rows, .done) := by
    simp only [next, hupgrade]
  show (next (stage rows st) (.migrating (stage rows st).revision) .runMigrations).bind _ = _
  rw [hnext]
  rfl

/-- A process that is started and not disturbed returns. -/
theorem alone_recovers (hempty : st = .empty → ∀ n, rows n = []) (ph : Phase) :
    alone (undisturbed (stage rows st)) (stage rows st, ph) = some (headDb rows, .done) := by
  have hstart : next (stage rows st) ph .start = some (stage rows st, .starting) := by
    cases ph <;> rfl
  rcases st with _ | _ | r
  · show alone [.start, .getTableNames, .getCurrentRevision, .beginUpgrade, .runMigrations] _ = _
    unfold alone
    rw [List.foldlM_cons, hstart]
    exact alone_upgrading hempty (by simp)
  · -- Only here there are tables and no revision.
    show alone [.start, .getTableNames, .getCurrentRevision, .stamp, .beginUpgrade,
      .runMigrations] _ = _
    unfold alone
    rw [List.foldlM_cons, hstart]
    have hstamped : alone [.beginUpgrade, .runMigrations] (stage rows (.at .initial), .upgrading) =
        some (headDb rows, .done) := alone_upgrading (fun h => absurd h (by simp)) (by simp)
    exact hstamped
  · show alone [.start, .getTableNames, .getCurrentRevision, .beginUpgrade, .runMigrations] _ = _
    unfold alone
    rw [List.foldlM_cons, hstart]
    exact alone_upgrading hempty (by simp)

/-- **No process is ever stuck**: whatever the others have done or left, and wherever the process
itself was or had failed, it returns from `init_db` when it is started and not disturbed. -/
theorem init_db_recovers (hempty : st₀ = .empty → ∀ n, rows n = []) {as : List (ℕ × Move)}
    (hfresh : st₀ = .legacy → Along FreshStamp step (System.start (stage rows st₀)) as)
    (hrun : run step (System.start (stage rows st₀)) as = some s) (pid : ℕ) :
    ∃ s' : System, run step s ((undisturbed s.db).map fun m => (pid, m)) = some s' ∧
      s'.procs pid = .done ∧ s'.db = headDb rows := by
  obtain ⟨st, hI⟩ := inv_of_run hempty hfresh hrun
  have hmoves := alone_recovers hI.empty (s.procs pid)
  rw [← hI.db] at hmoves
  obtain ⟨s', hrun', hdb, hdone⟩ := run_alone hmoves
  exact ⟨s', hrun', hdone, hdb⟩

/-- Another process returns after one that has failed. -/
theorem init_db_recovers_failed :
    ∃ s, run step (System.start (stage (fun _ => []) (.at .initial)))
        [(0, .start), (0, .getTableNames), (0, .fail)] = some s ∧
      ∃ s' : System, run step s ((undisturbed s.db).map fun m => (1, m)) = some s' ∧
        s'.procs 1 = .done ∧ s'.db = headDb fun _ => [] := by
  have hrun : run step (System.start (stage (fun _ => []) (.at .initial)))
      [(0, .start), (0, .getTableNames), (0, .fail)] = some _ := rfl
  exact ⟨_, hrun,
    init_db_recovers (fun h => absurd h (by simp)) (fun h => absurd h (by simp)) hrun 1⟩

/-! ## The late stamp -/

/-- Nothing goes through on the tables of head with the first revision. -/
theorem upgradeHead_stamped (rows : TableName → List Row) {current : Option Revision}
    (hhead : current ≠ some .head) : (headDb rows).stamp.upgradeHead current = none := by
  cases current with
  | none => rfl
  | some r =>
    cases r with
    | recordingMetadata => exact absurd rfl hhead
    | initial | byteSizeBigint => rfl

/-- A process that returns had done so before the late stamp, or had read the head before. -/
structure Dead (rows : TableName → List Row) (s₁ s : System) : Prop where
  db : s.db = (headDb rows).stamp
  done : ∀ pid, s.procs pid = .done →
    s₁.procs pid = .done ∨ s₁.procs pid = .migrating (some .head)
  migrating : ∀ pid, s.procs pid = .migrating (some .head) →
    s₁.procs pid = .migrating (some .head)

/-- No move of a process gets out of the late stamp. -/
theorem next_dead {ph ph' : Phase} {m : Move} {db' : Database}
    (h : next (headDb rows).stamp ph m = some (db', ph')) :
    db' = (headDb rows).stamp ∧ (ph' = .done → ph = .migrating (some .head)) ∧
      ph' ≠ .migrating (some .head) := by
  unfold next at h
  split at h
  · cases h
    exact ⟨rfl, nofun, nofun⟩
  · cases h
    exact ⟨rfl, nofun, nofun⟩
  · cases h
    exact ⟨rfl, nofun, nofun⟩
  · cases h
    refine ⟨rfl, ?_, ?_⟩ <;> split_ifs <;> nofun
  · cases h
    exact ⟨rfl, nofun, nofun⟩
  · cases h
    exact ⟨rfl, nofun, by simp [Database.stamp, Revision.head]⟩
  · rename_i current
    by_cases hhead : current = some .head
    · subst hhead
      cases h
      exact ⟨rfl, fun _ => rfl, nofun⟩
    · rw [upgradeHead_stamped rows hhead] at h
      cases h
      exact ⟨rfl, nofun, nofun⟩
  · cases h

/-- A stamp writes the first revision. -/
theorem next_stamp {db db' : Database} {ph ph' : Phase}
    (h : next db ph .stamp = some (db', ph')) : db' = db.stamp := by
  cases ph with
  | stamping =>
    cases h
    rfl
  | off | starting | looked | upgrading | migrating | done | failed => simp [next] at h

/-- **The late stamp is final in every step.** -/
theorem dead_step {s₁ : System} (h : Dead rows s₁ s) {a : ℕ × Move} (hstep : step s a = some s') :
    Dead rows s₁ s' := by
  obtain ⟨⟨db', ph'⟩, hnext, rfl⟩ := Option.map_eq_some_iff.mp hstep
  rw [h.db] at hnext
  obtain ⟨hdb, hdone, hmigrating⟩ := next_dead hnext
  refine ⟨hdb, fun pid hpid => ?_, fun pid hpid => ?_⟩
  · have hpid : Function.update s.procs a.1 ph' pid = .done := hpid
    rw [Function.update_apply] at hpid
    split_ifs at hpid with hself
    · rw [hself]
      exact Or.inr (h.migrating a.1 (hdone hpid))
    · exact h.done pid hpid
  · have hpid : Function.update s.procs a.1 ph' pid = .migrating (some .head) := hpid
    rw [Function.update_apply] at hpid
    split_ifs at hpid with hself
    · exact absurd hpid hmigrating
    · exact h.migrating pid hpid

/-- **A late stamp is final**: once a process stamps a database at head, no `init_db` ever returns
again, but those that had read the head before, and the database stays as it is. -/
theorem stale_stamp_is_final (hhead : s.db = headDb rows) {pid : ℕ} {s₁ : System}
    (hstamp : step s (pid, .stamp) = some s₁) {as : List (ℕ × Move)}
    (hrun : run step s₁ as = some s') :
    s'.db = (headDb rows).stamp ∧ ∀ p, s'.procs p = .done →
      s₁.procs p = .done ∨ s₁.procs p = .migrating (some .head) := by
  have hdead : Dead rows s₁ s₁ := by
    refine ⟨?_, fun _ => Or.inl, fun _ => id⟩
    obtain ⟨⟨db', ph'⟩, hnext, rfl⟩ := Option.map_eq_some_iff.mp hstamp
    rw [hhead] at hnext
    exact next_stamp hnext
  have hany : Along (fun _ _ => True) step s₁ as := along_of_forall (fun _ _ _ => trivial) _
  have h := run_invariant (fun _ _ _ hI _ hstep => dead_step hI hstep) as s₁ s' hdead hany hrun
  exact ⟨h.db, h.done⟩

/-- Both processes have looked before the first one stamps. -/
def atOnce : List (ℕ × Move) := [
  (0, .start), (1, .start), (0, .getTableNames), (1, .getTableNames), (0, .getCurrentRevision),
  (1, .getCurrentRevision), (0, .stamp), (0, .beginUpgrade), (0, .runMigrations)]

/-- Both processes look, one upgrades, and the other one stamps. -/
theorem stale_stamp_is_final_at_once :
    ∃ s s₁ s', run step (System.start (stage (fun _ => []) .legacy)) atOnce = some s ∧
      s.db = (headDb fun _ => []) ∧ step s (1, .stamp) = some s₁ ∧
      run step s₁ [(1, .beginUpgrade)] = some s' ∧ s'.db = (headDb fun _ => []).stamp := by
  have hfresh : Along FreshStamp step (System.start (stage (fun _ => []) .legacy)) atOnce := by
    refine along_cons nofun rfl (along_cons nofun rfl (along_cons nofun rfl ?_))
    refine along_cons nofun rfl (along_cons nofun rfl (along_cons nofun rfl ?_))
    refine along_cons (fun _ _ => rfl) rfl (along_cons nofun rfl (along_cons nofun rfl ?_))
    trivial
  have hend : (run step (System.start (stage (fun _ => []) .legacy)) atOnce).map
      (fun s => (s.procs 0, s.procs 1)) = some (.done, .stamping) := rfl
  obtain ⟨s, hs, hprocs⟩ := Option.map_eq_some_iff.mp hend
  obtain ⟨hdone, hstamping⟩ := Prod.mk.inj hprocs
  obtain ⟨st, hI⟩ := inv_of_run (fun h => absurd h (by simp)) (fun _ => hfresh) hs
  have hhead : st = .at .head := by
    have hbelief := hI.procs 0
    rw [hdone] at hbelief
    exact hbelief
  have hdb : s.db = headDb fun _ => [] := by rw [hI.db, hhead]
  have hstamp : step s (1, .stamp) =
      some ⟨s.db.stamp, Function.update s.procs 1 .upgrading⟩ := by
    show (next s.db (s.procs 1) .stamp).map _ = _
    rw [hstamping]
    rfl
  have hrun : run step ⟨s.db.stamp, Function.update s.procs 1 .upgrading⟩ [(1, .beginUpgrade)] =
      some _ := rfl
  exact ⟨s, _, _, hs, hdb, hstamp, hrun, (stale_stamp_is_final hdb hstamp hrun).1⟩

end Invariants

end Migrations
