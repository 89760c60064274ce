import Dbmaster.HealthCheck.Alert
import Mathlib.Data.List.Infix
/-!
# One health_check run

`run_task` and what it calls: the configuration, the collection of the metrics,
the canary of a `source_drift` connection, the evaluation of the alerts and the
webhooks.  What the databases and the network answer is the run's `Env`.
-/

namespace Dbmaster.HealthCheck.Runner

open Dbmaster.Lib Dbmaster.HealthCheck.Alert

/-! ## Configuration -/

structure MetricFlags where
  connectivity : Bool
  rowCount : Bool
  missingPk : Bool
  connectionCount : Bool

def defaultMetrics : MetricFlags := ⟨true, true, true, true⟩

structure HealthCheckTaskConfig where
  metrics : MetricFlags
  failThreshold : UInt32
  largeTableThreshold : Nat
  connectionCountThreshold : Nat
  retentionDays : UInt32

def defaultConfig : HealthCheckTaskConfig where
  metrics := defaultMetrics
  failThreshold := 3
  largeTableThreshold := 10000000
  connectionCountThreshold := 100
  retentionDays := 30

/-- `{field} must be between {min} and {max} (got {value})`. -/
structure OutOfRange where
  field : String
  min : UInt32
  max : UInt32
  value : UInt32

def checkRange (field : String) (min max value : UInt32) : Except OutOfRange Unit :=
  if min ≤ value ∧ value ≤ max then .ok () else .error ⟨field, min, max, value⟩

def HealthCheckTaskConfig.validate (config : HealthCheckTaskConfig) :
    Except OutOfRange Unit :=
  match checkRange "fail_threshold" 1 10 config.failThreshold with
  | .error e => .error e
  | .ok () => checkRange "retention_days" 1 365 config.retentionDays

theorem defaultConfig_validate : defaultConfig.validate = .ok () := rfl

/-- `parsed` is what `serde_json` makes of the `config` column. -/
def fromJsonOrDefault (parsed : Option HealthCheckTaskConfig) : HealthCheckTaskConfig :=
  parsed.getD defaultConfig

/-! ## What the outside answers -/

inductive DbType
  | mysql | postgres
  | other (text : String)
  deriving DecidableEq, Repr

def DbType.text : DbType → String
  | .mysql => "mysql"
  | .postgres => "postgres"
  | .other text => text

structure TaskRow where
  config : Option HealthCheckTaskConfig
  webhookUrl : Option String

structure ConnectionRow where
  dbType : DbType
  kind : String

/-- The answers one run gets: from its own store, from the source database and
from the webhook receiver.  `canaryCreate` is the `CREATE TEMPORARY TABLE`
probe, its error in lower case. -/
structure Env where
  openHistory : Except String Unit
  task : Except String TaskRow
  conn : Except String ConnectionRow
  decrypt : Except String Unit
  openPool : Except String Unit
  canaryCreate : Except String Unit
  selectOne : Except String Nat
  topTables : Except String (List (String × Option Int))
  missingPk : Except String (List String)
  connectionCount : Except String Nat
  loads : Metric → Bool
  persists : Metric → Bool
  delivers : AlertChange → Bool
  insertResult : Except String Unit

/-! ## Texts -/

/-- `lines().next()`: up to the first line feed, without the carriage return
in front of it. -/
def firstLine (text : List Char) : Option (List Char) :=
  if text = [] then none
  else
    let line := text.takeWhile fun c => c ≠ '\n'
    if line.length < text.length ∧ line.getLast? = some '\r' then some line.dropLast
    else some line

def redact (fallback : String) (cap : Nat) (text : String) : String :=
  match firstLine text.toList with
  | none => String.ofList (fallback.toList.take cap)
  | some line => String.ofList (line.take cap)

def redactError : String → String := redact "collection error" 200

def redactSqlxErr : String → String := redact "driver error" 200

/-- `s.contains(pattern)`. -/
def textContains (s pattern : String) : Bool := pattern.toList <:+: s.toList

/-! ## Collection -/

structure UnsupportedMetric where
  metric : Metric
  reason : String

structure MetricsSnapshot where
  connectivity : ConnectivityResult
  rowCount : Option TableRowStats
  missingPk : Option MissingPkStats
  connectionCount : Option Nat
  dbType : String
  unsupportedMetrics : List UnsupportedMetric

def measureConnectivity (selectOne : Except String Nat) : ConnectivityResult :=
  match selectOne with
  | .ok latency => ⟨true, latency, none⟩
  | .error e => ⟨false, 0, some (redactError e)⟩

/-- One optional metric: its value when it was collected, else why not. -/
def collectMetric {α : Type} (metric : Metric) (flag : Bool) (answer : Except String α) :
    Option α × List UnsupportedMetric :=
  if flag then
    match answer with
    | .ok value => (some value, [])
    | .error e => (none, [⟨metric, redactError e⟩])
  else (none, [])

def tableRowStats (rows : List (String × Option Int)) : TableRowStats :=
  ⟨rows.map fun r => (r.1, ((r.2.getD 0).toNat))⟩

/-- `collect_mysql` and `collect_postgres` differ in their queries only. -/
def collect (dbType : DbType) (flags : MetricFlags) (env : Env) : MetricsSnapshot :=
  let rowCount := collectMetric .rowCount flags.rowCount (env.topTables.map tableRowStats)
  let missingPk := collectMetric .missingPk flags.missingPk
    (env.missingPk.map MissingPkStats.mk)
  let connectionCount :=
    collectMetric .connectionCount flags.connectionCount env.connectionCount
  { connectivity := measureConnectivity env.selectOne
    rowCount := rowCount.1
    missingPk := missingPk.1
    connectionCount := connectionCount.1
    dbType := dbType.text
    unsupportedMetrics := rowCount.2 ++ missingPk.2 ++ connectionCount.2 }

def unsupportedIf (flag : Bool) (metric : Metric) : List UnsupportedMetric :=
  if flag then [⟨metric, "unsupported_db_type"⟩] else []

def connectivityOnlySnapshot (dbType : String) (connectivity : ConnectivityResult)
    (flags : MetricFlags) : MetricsSnapshot where
  connectivity := connectivity
  rowCount := none
  missingPk := none
  connectionCount := none
  dbType := dbType
  unsupportedMetrics := unsupportedIf flags.rowCount .rowCount ++
    unsupportedIf flags.missingPk .missingPk ++
    unsupportedIf flags.connectionCount .connectionCount

def countCollected (snapshot : MetricsSnapshot) : Nat :=
  1 + snapshot.rowCount.isSome.toNat + snapshot.missingPk.isSome.toNat +
    snapshot.connectionCount.isSome.toNat

/-! ## The canary -/

/-- The words by which the two canaries recognise a refused `CREATE`. -/
def refusalWords : DbType → List String
  | .mysql => ["access denied", "permission", "create", "privilege"]
  | _ => ["permission", "privilege"]

/-- `run_canary_mysql` and `run_canary_pg`. -/
def runCanary (dbType : DbType) (create : Except String Unit) : Except String Unit :=
  match create with
  | .ok () => .error "source account is writable; refusing to run health_check"
  | .error s =>
      if (refusalWords dbType).any (textContains s) then .ok ()
      else .error ("canary probe failed: " ++ redactSqlxErr s)

/-! ## Evaluation -/

/-- The prior row of a metric; a load that fails counts as no row. -/
def priorState (env : Env) (store : AlertStore) (metric : Metric) : Option MetricStateRow :=
  if env.loads metric then
    match loadMetricState store metric with
    | .ok row => row
    | .error _ => none
  else none

def persisted (env : Env) (store : AlertStore) (metric : Metric) (state : AlertState)
    (detail : Option Json) : AlertStore :=
  if env.persists metric then persistMetricState store metric state detail else store

/-- One threshold metric of `evaluate_all`: load, evaluate, persist. -/
def evaluateMetric (env : Env) (metric : Metric)
    (evaluate : Option AlertState → AlertState × Option AlertChange) (store : AlertStore) :
    AlertStore × List AlertChange :=
  let (newState, change) := evaluate ((priorState env store metric).map (·.state))
  (persisted env store metric newState none, change.toList)

def evaluateMissingPkMetric (env : Env) (stats : MissingPkStats) (store : AlertStore) :
    AlertStore × List AlertChange :=
  let priorTables := (priorState env store .missingPk).bind fun r => detailLastMissing r.detail
  let (persistedSet, changes) := evaluateMissingPk priorTables stats
  (persisted env store .missingPk .ok (some (detailForMissingPk persistedSet)), changes)

/-- A metric that was not collected leaves the store alone. -/
def ifCollected {α : Type} (value : Option α)
    (evaluate : α → AlertStore → AlertStore × List AlertChange) (store : AlertStore) :
    AlertStore × List AlertChange :=
  match value with
  | none => (store, [])
  | some a => evaluate a store

def evaluateAll (env : Env) (snapshot : MetricsSnapshot) (config : HealthCheckTaskConfig)
    (store : AlertStore) : AlertStore × List AlertChange :=
  let (store, connectivity) := evaluateMetric env .connectivity
    (fun prior => evaluateConnectivity prior snapshot.connectivity config.failThreshold) store
  let (store, rowCount) := ifCollected snapshot.rowCount (fun stats =>
    evaluateMetric env .rowCount fun prior =>
      evaluateRowCount prior stats config.largeTableThreshold config.failThreshold) store
  let (store, connectionCount) := ifCollected snapshot.connectionCount (fun count =>
    evaluateMetric env .connectionCount fun prior =>
      evaluateConnectionCount prior (some count) config.connectionCountThreshold
        config.failThreshold) store
  let (store, missingPk) :=
    ifCollected snapshot.missingPk (evaluateMissingPkMetric env) store
  (store, connectivity ++ rowCount ++ connectionCount ++ missingPk)

/-! ## The run -/

structure RunOutcome where
  status : String
  metricsCollected : Nat
  alertChanges : Nat
  webhookStatus : String

/-- What a run leaves behind: the store, the changes handed to the webhooks,
and its answer. -/
structure RunRecord where
  store : AlertStore
  emitted : List AlertChange
  outcome : Except String RunOutcome

def webhookStatus (env : Env) (url : Option String) (changes : List AlertChange) : String :=
  if changes.isEmpty then "skipped"
  else match url with
    | none => "skipped"
    | some _ => if changes.all env.delivers then "ok" else "failed"

/-- Steps 7 to 10: webhooks, results row, outcome. -/
def finish (env : Env) (task : TaskRow) (snapshot : MetricsSnapshot)
    (changes : List AlertChange) (store : AlertStore) : RunRecord where
  store := store
  emitted := changes
  outcome := env.insertResult.map fun () =>
    { status := if snapshot.unsupportedMetrics.isEmpty then "success" else "partial"
      metricsCollected := countCollected snapshot
      alertChanges := changes.length
      webhookStatus := webhookStatus env task.webhookUrl changes }

/-- Steps 4 and 5 for a source with a driver, up to the snapshot. -/
def openAndProbe (env : Env) (conn : ConnectionRow) (config : HealthCheckTaskConfig) :
    Except String MetricsSnapshot := do
  env.openPool.mapError fun e => conn.dbType.text ++ " connect failed: " ++ e
  if conn.kind = "source_drift" then
    runCanary conn.dbType env.canaryCreate
  return collect conn.dbType config.metrics env

theorem openAndProbe_ok {env : Env} {conn : ConnectionRow} (config : HealthCheckTaskConfig)
    (hpool : env.openPool.isOk)
    (hcanary : conn.kind = "source_drift" → (runCanary conn.dbType env.canaryCreate).isOk) :
    openAndProbe env conn config = .ok (collect conn.dbType config.metrics env) := by
  unfold openAndProbe
  cases hp : env.openPool with
  | error e => simp [hp, Except.isOk, Except.toBool] at hpool
  | ok _ =>
      by_cases hkind : conn.kind = "source_drift"
      · cases hrun : runCanary conn.dbType env.canaryCreate with
        | error e => simp [hrun, Except.isOk, Except.toBool] at hcanary; exact absurd hkind hcanary
        | ok _ => simp only [hkind, if_true]; rfl
      · simp only [hkind, if_false]; rfl

theorem openAndProbe_error {env : Env} {conn : ConnectionRow} (config : HealthCheckTaskConfig)
    (h : env.openPool.isOk → conn.kind = "source_drift" ∧
      (runCanary conn.dbType env.canaryCreate).isOk = false) :
    ∃ e, openAndProbe env conn config = .error e := by
  unfold openAndProbe
  cases hp : env.openPool with
  | error e => exact ⟨_, rfl⟩
  | ok _ =>
      obtain ⟨hkind, hcanary⟩ := h (by rw [hp]; rfl)
      cases hrun : runCanary conn.dbType env.canaryCreate with
      | ok _ => simp [hrun, Except.isOk, Except.toBool] at hcanary
      | error e =>
          refine ⟨e, ?_⟩
          simp only [hkind, if_true]
          rfl

def runTaskInner (env : Env) (store : AlertStore) : RunRecord :=
  match env.task with
  | .error e => ⟨store, [], .error e⟩
  | .ok task =>
  match env.conn with
  | .error e => ⟨store, [], .error e⟩
  | .ok conn =>
  let config := fromJsonOrDefault task.config
  match env.decrypt with
  | .error e => ⟨store, [], .error ("credential decrypt failed: " ++ e)⟩
  | .ok () =>
  match conn.dbType with
  | .other text =>
      let snapshot := connectivityOnlySnapshot text
        ⟨false, 0, some ("unsupported db_type: " ++ text)⟩ config.metrics
      finish env task snapshot [] store
  | _ =>
      match openAndProbe env conn config with
      | .error e => ⟨store, [], .error e⟩
      | .ok snapshot =>
          let (store, changes) := evaluateAll env snapshot config store
          finish env task snapshot changes store

/-- The `task_run_history` row a run closes, and whether it leaves a failed
`health_check_results` row as well. -/
structure RunHistory where
  status : String
  error : Option String
  failedResult : Bool

def runTask (env : Env) (store : AlertStore) : RunRecord × Option RunHistory :=
  match env.openHistory with
  | .error e => (⟨store, [], .error ("insert task_run_history running row: " ++ e)⟩, none)
  | .ok () =>
      let record := runTaskInner env store
      match record.outcome with
      | .ok _ => (record, some ⟨"succeeded", none, false⟩)
      | .error e => (record, some ⟨"failed", some (redact "health_check run error" 300 e), true⟩)

/-- The records of the runs of one task, one after the other. -/
def runs : AlertStore → List Env → List RunRecord
  | _, [] => []
  | store, env :: envs =>
      let record := (runTask env store).1
      record :: runs record.store envs

/-- The store those runs leave. -/
def storeAfter (store : AlertStore) (envs : List Env) : AlertStore :=
  envs.foldl (fun store env => (runTask env store).1.store) store

@[simp] theorem runTask_record (env : Env) (store : AlertStore)
    (h : env.openHistory = .ok ()) : (runTask env store).1 = runTaskInner env store := by
  unfold runTask
  rw [h]
  dsimp only
  split <;> rfl

end Dbmaster.HealthCheck.Runner
