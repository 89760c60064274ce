import Dbmaster.Drift.Diff
import Dbmaster.Lib.Table
import Dbmaster.Lib.Text
import Dbmaster.Lib.Transition
/-!
# Drift runs

`run_task_inner`: the collection of a snapshot in the scope of the task, the comparison
with the prior snapshot of the connection, the new row of `schema_snapshots` and the
webhook.  What databases and network answer is the run's `Env`.
-/

namespace Dbmaster.Drift.Runner

open Dbmaster.Lib Dbmaster.Lib.Table
open Dbmaster.Drift.Snapshot Dbmaster.Drift.Diff

variable {T : Type}

/-! ## The source database -/

/-- The tables of a source database with all that the queries of the collector return of
them. -/
structure Catalog where
  tables : NameMap TableSchema
  keyed : ∀ (key : String) (t : TableSchema), tables[key]? = some t → t.qualifiedName = key

def Catalog.empty : Catalog := ⟨∅, fun _ _ h => by cases h⟩

/-- With one more table, or another one in its place. -/
def Catalog.add (catalog : Catalog) (t : TableSchema) : Catalog where
  tables := catalog.tables.insert t.qualifiedName t
  keyed key t' h := by
    rw [Std.TreeMap.getElem?_insert] at h
    split at h
    case isTrue heq =>
      obtain rfl := Option.some.inj h
      exact Std.LawfulEqCmp.eq_of_compare heq
    case isFalse => exact catalog.keyed key t' h

def DbType.fromDbTypeStr (s : String) : Option DbType :=
  let word := String.ofList (Text.asciiLower s.toList)
  if word = "mysql" then some .mySql
  else if word ∈ ["postgres", "postgresql", "pg"] then some .postgres
  else none

def DbType.asWireStr : DbType → String
  | .mySql => "mysql"
  | .postgres => "postgres"

/-- `collect_mysql` and `collect_postgres`: the tables of the schemas. -/
def collect (catalog : Catalog) (database : String) (dbType : DbType) (schemas : List String) :
    SchemaSnapshot :=
  ⟨database, dbType, catalog.tables.filter fun _ t => decide (t.schema ∈ schemas)⟩

/-! ## The canonical text -/

def entriesJson {α : Type} (f : α → Json) (entries : NameMap α) : Json :=
  .obj (entries.toList.map fun e => (e.1, f e.2))

def columnJson (c : ColumnSchema) : Json :=
  .obj [("name", .str c.name), ("ordinal", .int c.ordinal), ("data_type", .str c.dataType),
    ("is_nullable", .bool c.isNullable), ("column_default", .ofOption .str c.columnDefault),
    ("char_max_length", .ofOption .int c.charMaxLength),
    ("numeric_precision", .ofOption .int c.numericPrecision),
    ("numeric_scale", .ofOption .int c.numericScale)]

def indexJson (ix : IndexSchema) : Json :=
  .obj [("name", .str ix.name), ("columns", strings ix.columns), ("is_unique", .bool ix.isUnique)]

def fkJson (fk : ForeignKey) : Json :=
  .obj [("name", .str fk.name), ("columns", strings fk.columns),
    ("ref_schema", .ofOption .str fk.refSchema), ("ref_table", .str fk.refTable),
    ("ref_columns", strings fk.refColumns)]

def tableJson (t : TableSchema) : Json :=
  .obj [("schema", .str t.schema), ("name", .str t.name),
    ("columns", entriesJson columnJson t.columns),
    ("primary_key", .ofOption pkSummary t.primaryKey),
    ("indexes", entriesJson indexJson t.indexes),
    ("foreign_keys", entriesJson fkJson t.foreignKeys)]

def canonicalJson (s : SchemaSnapshot) : Json :=
  .obj [("database", .str s.database), ("db_type", .str (DbType.asWireStr s.dbType)),
    ("tables", entriesJson tableJson s.tables)]

/-- `digest` is SHA-256 in hexadecimal of a document's text. -/
def canonicalHash (digest : Json → String) (s : SchemaSnapshot) : String :=
  digest (canonicalJson s)

/-! ## Rows -/

/-- `config` and `notifyChannels` as `serde_json` parses them. -/
structure TaskRow where
  id : String
  name : String
  config : Option Json
  sourceDbId : String
  notifyChannels : Option Json

structure ConnectionRow where
  id : String
  name : String
  dbType : String
  defaultDatabase : Option String
  kind : String

/-- `schemaJson` is what its canonical text reads back as. -/
structure SnapshotRow (T : Type) where
  id : String
  connectionId : String
  capturedAt : T
  schemaHash : String
  schemaJson : SchemaSnapshot
  priorHash : Option String
  taskId : String
  changeCount : UInt32

def firstWebhookUrl (notifyChannels : Option Json) : Option String :=
  (notifyChannels.bind Json.asArray).bind fun items => items.head?.bind Json.asStr

def pgSchemasFromTaskConfig (config : Option Json) : List String :=
  match (config.bind (Json.get "pg_schemas")).bind Json.asArray with
  | none => ["public"]
  | some items =>
      let out := (items.filterMap Json.asStr).filter fun s => decide (s ≠ "")
      if out = [] then ["public"] else out

/-- The schemas of the run's snapshot. -/
def scopeOf (dbType : DbType) (task : TaskRow) (conn : ConnectionRow) : List String :=
  match dbType with
  | .mySql => [conn.defaultDatabase.getD ""]
  | .postgres => pgSchemasFromTaskConfig task.config

/-! ## One run -/

inductive CanaryOutcome
  | readOnly
  | writable
  | unreachable (message : String)

/-- The three flags are whether the control database executes a statement, and `pick`
decides between snapshots of one time; `delivered` is what becomes of a webhook. -/
structure Env (T : Type) where
  decrypted : Except String Unit
  audited : Bool
  opened : Except String Unit
  canary : CanaryOutcome
  collected : Except String Unit
  fetched : Bool
  pick : Nat
  snapId : String
  now : T
  inserted : Bool
  delivered : Bool

structure DriftSummary (T : Type) where
  priorSnapshotAt : Option T
  newSnapshotAt : T
  changeCount : UInt32
  kinds : DriftKindCounts

structure WebhookPayload (T : Type) where
  task : String × String
  connection : String × String
  dbType : String
  database : String
  driftSummary : DriftSummary T
  drifts : List Drift

def buildPayload (snapshot : SchemaSnapshot) (drifts : List Drift) (priorSnapshotAt : Option T)
    (newSnapshotAt : T) (task : TaskRow) (conn : ConnectionRow) (dbType : DbType) :
    WebhookPayload T where
  task := (task.id, task.name)
  connection := (conn.id, conn.name)
  dbType := DbType.asWireStr dbType
  database := snapshot.database
  driftSummary := ⟨priorSnapshotAt, newSnapshotAt, (summarize drifts).total, summarize drifts⟩
  drifts := drifts

structure RunOutcome where
  driftCount : UInt32
  webhookStatus : String
  snapshotId : String
  baselineSnapshotId : Option String

/-- A run that succeeded: what it worked on, the row it inserted and what it reports. -/
structure Report (T : Type) where
  task : TaskRow
  conn : ConnectionRow
  dbType : DbType
  catalog : Catalog
  row : SnapshotRow T
  drifts : List Drift
  payload : Option (String × WebhookPayload T)
  outcome : RunOutcome

def Report.scope (r : Report T) : List String := scopeOf r.dbType r.task r.conn

/-- What the run saw of the source. -/
def Report.seen (r : Report T) : SchemaSnapshot :=
  collect r.catalog (r.conn.defaultDatabase.getD "") r.dbType r.scope

/-- `anyhow!("… failed: {e}")` -/
def failed (what : String) : Except String Unit → Except String Unit :=
  Except.mapError (what ++ " failed: " ++ ·)

/-- `.context(…)`, which hides the cause. -/
def withContext (context : String) (ok : Bool) : Except String Unit :=
  if ok then .ok () else .error context

def runCanary (conn : ConnectionRow) (outcome : CanaryOutcome) : Except String Unit :=
  if conn.kind ≠ "source_drift" then .ok ()
  else match outcome with
    | .readOnly => .ok ()
    | .writable => .error "source account is writable; refusing to run"
    | .unreachable _ => .error "source DB unreachable during canary"

/-- Steps 3 to 6, as far as they can fail. -/
def openSource (conn : ConnectionRow) (env : Env T) : Except String DbType := do
  failed "credential decrypt" env.decrypted
  withContext "audit schema_snapshot start" env.audited
  match DbType.fromDbTypeStr conn.dbType with
  | none => .error ("unsupported db_type: " ++ conn.dbType)
  | some dbType =>
      failed (DbType.asWireStr dbType ++ " connect") env.opened
      runCanary conn env.canary
      env.collected
      return dbType

/-- The drifts, the time of the prior snapshot and the change count. -/
def compareWith (prior : Option (SnapshotRow T)) (newHash : String) (snapshot : SchemaSnapshot) :
    List Drift × Option T × UInt32 :=
  match prior with
  | none => ([], none, 0)
  | some p =>
      if p.schemaHash ≠ newHash then
        let d := computeDrifts p.schemaJson snapshot
        (d, some p.capturedAt, UInt32.ofNat d.length)
      else ([], some p.capturedAt, 0)

/-- The URL and the payload handed to `deliver`, if any, and the status of the webhook. -/
def webhook (drifts : List Drift) (url : Option String) (payload : WebhookPayload T)
    (delivered : Bool) : Option (String × WebhookPayload T) × String :=
  if drifts = [] then (none, "skipped")
  else match url with
    | none => (none, "skipped")
    | some url => (some (url, payload), if delivered then "ok" else "failed")

section Run

variable [LinearOrder T] (digest : Json → String)

def priorSnapshot (conn : ConnectionRow) (snapshots : List (SnapshotRow T)) (pick : Nat) :
    Option (SnapshotRow T) :=
  fetchLatest SnapshotRow.capturedAt (fun row => decide (row.connectionId = conn.id)) snapshots pick

def reportOf (task : TaskRow) (conn : ConnectionRow) (dbType : DbType) (catalog : Catalog)
    (prior : Option (SnapshotRow T)) (env : Env T) : Report T :=
  let snapshot :=
    collect catalog (conn.defaultDatabase.getD "") dbType (scopeOf dbType task conn)
  let newHash := canonicalHash digest snapshot
  let compared := compareWith prior newHash snapshot
  let payload := buildPayload snapshot compared.1 compared.2.1 env.now task conn dbType
  let sent := webhook compared.1 (firstWebhookUrl task.notifyChannels) payload env.delivered
  { task := task
    conn := conn
    dbType := dbType
    catalog := catalog
    row :=
      { id := env.snapId
        connectionId := conn.id
        capturedAt := env.now
        schemaHash := newHash
        schemaJson := snapshot
        priorHash := prior.map SnapshotRow.schemaHash
        taskId := task.id
        changeCount := compared.2.2 }
    drifts := compared.1
    payload := sent.1
    outcome := ⟨compared.2.2, sent.2, env.snapId, prior.map SnapshotRow.id⟩ }

def runTaskInner (tasks : List TaskRow) (connections : List ConnectionRow)
    (source : String → Catalog) (snapshots : List (SnapshotRow T)) (taskId : String)
    (env : Env T) : Except String (Report T) :=
  match tasks.find? fun task => decide (task.id = taskId) with
  | none => .error ("task " ++ taskId ++ " not found")
  | some task =>
      match connections.find? fun conn => decide (conn.id = task.sourceDbId) with
      | none => .error ("source connection " ++ task.sourceDbId ++ " not found")
      | some conn => do
          let dbType ← openSource conn env
          withContext "fetch prior snapshot" env.fetched
          let prior := priorSnapshot conn snapshots env.pick
          withContext "insert schema_snapshots row" env.inserted
          return reportOf digest task conn dbType (source conn.id) prior env

/-! ## Many runs -/

/-- The rows that the handlers keep, the source databases by connection, and the runs that
succeeded: each has inserted its row, and nothing else writes `schema_snapshots`. -/
structure State (T : Type) where
  tasks : List TaskRow
  connections : List ConnectionRow
  source : String → Catalog
  reports : List (Report T)

def State.snapshots (s : State T) : List (SnapshotRow T) := s.reports.map Report.row

inductive Action (T : Type)
  | configure (tasks : List TaskRow) (connections : List ConnectionRow)
  | alter (connectionId : String) (catalog : Catalog)
  | run (taskId : String) (env : Env T)

def step (s : State T) : Action T → Option (State T)
  | .configure tasks connections => some { s with tasks := tasks, connections := connections }
  | .alter connectionId catalog =>
      some { s with
        source := fun id => if id = connectionId then catalog else s.source id }
  | .run taskId env =>
      match runTaskInner digest s.tasks s.connections s.source s.snapshots taskId env with
      | .error _ => some s
      | .ok report => some { s with reports := s.reports ++ [report] }

end Run

def State.initial : State T := ⟨[], [], fun _ => .empty, []⟩

end Dbmaster.Drift.Runner
