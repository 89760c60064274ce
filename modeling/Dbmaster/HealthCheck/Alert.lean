import Dbmaster.Lib.Json
/-!
# The alert state machine

The consecutive-failure machine of the threshold metrics, the set difference of
`missing_pk`, and the row of `health_alert_state` that carries both from one
run to the next.
-/

namespace Dbmaster.HealthCheck.Alert

open Dbmaster.Lib

inductive Metric
  | connectivity | rowCount | missingPk | connectionCount
  deriving DecidableEq, Repr

def Metric.name : Metric → String
  | .connectivity => "connectivity"
  | .rowCount => "row_count"
  | .missingPk => "missing_pk"
  | .connectionCount => "connection_count"

/-! ## Samples -/

structure ConnectivityResult where
  ok : Bool
  latencyMs : Nat
  error : Option String

/-- `(table_name, estimated_rows)`, largest first. -/
structure TableRowStats where
  topTables : List (String × Nat)

structure MissingPkStats where
  tables : List String

/-! ## The state machine -/

inductive AlertState
  | ok
  | failing (count : UInt32)
  | alerting
  deriving DecidableEq, Repr

def AlertState.asDbStr : AlertState → String
  | .ok => "ok"
  | .failing _ => "failing"
  | .alerting => "alerting"

def AlertState.failCount : AlertState → UInt32
  | .failing count => count
  | _ => 0

inductive Severity
  | critical | warning | info
  deriving DecidableEq, Repr

inductive Trigger
  | alert | resolved
  deriving DecidableEq, Repr

structure AlertChange where
  metric : Metric
  severity : Severity
  trigger : Trigger
  detail : Json

/-- `count + 1` wraps as in a release build. -/
def evaluateThresholdMetric (current : Option AlertState) (failing : Bool)
    (threshold : UInt32) (metric : Metric) (severity : Severity) :
    AlertState × Option AlertChange :=
  match current.getD .ok, failing with
  | .alerting, false => (.ok, some ⟨metric, severity, .resolved, .obj []⟩)
  | .failing _, false => (.ok, none)
  | .ok, false => (.ok, none)
  | .ok, true => (.failing 1, none)
  | .failing count, true =>
      let next := count + 1
      if threshold ≤ next then
        (.alerting, some ⟨metric, severity, .alert,
          .obj [("consecutive_failures", .int next.toNat)]⟩)
      else (.failing next, none)
  | .alerting, true => (.alerting, none)

/-- A counter that the machine writes can be counted up without wrapping. -/
theorem evaluateThresholdMetric_bounded {current : Option AlertState} {failing : Bool}
    {threshold count : UInt32} {metric : Metric} {severity : Severity}
    (h : (evaluateThresholdMetric current failing threshold metric severity).1 =
      .failing count) : count.toNat + 1 < UInt32.size := by
  unfold evaluateThresholdMetric at h
  split at h
  case h_4 =>
      cases h
      decide
  case h_5 =>
      simp only [] at h
      split at h
      case isTrue => cases h
      case isFalse hle =>
        cases h
        have hlt := UInt32.lt_iff_toNat_lt.mp (UInt32.not_le.mp hle)
        have hthreshold := threshold.toNat_lt_size
        omega
  all_goals cases h

theorem evaluateThresholdMetric_metric {current : Option AlertState} {failing : Bool}
    {threshold : UInt32} {metric : Metric} {severity : Severity} {change : AlertChange}
    (h : (evaluateThresholdMetric current failing threshold metric severity).2 = some change) :
    change.metric = metric := by
  unfold evaluateThresholdMetric at h
  split at h
  case h_1 =>
      cases h
      rfl
  case h_5 =>
      simp only [] at h
      split at h
      case isTrue =>
        cases h
        rfl
      case isFalse => cases h
  all_goals cases h

def AlertChange.withDetail (detail : Json) (change : AlertChange) : AlertChange :=
  { change with detail := detail }

@[simp] theorem withDetail_metric (detail : Json) (change : AlertChange) :
    (change.withDetail detail).metric = change.metric := rfl

def evaluateConnectivity (current : Option AlertState) (probe : ConnectivityResult)
    (threshold : UInt32) : AlertState × Option AlertChange :=
  let (newState, change) :=
    evaluateThresholdMetric current (!probe.ok) threshold .connectivity .critical
  (newState, change.map (AlertChange.withDetail (.obj
    [("latency_ms", .int probe.latencyMs), ("error", Json.ofOption .str probe.error)])))

def evaluateRowCount (current : Option AlertState) (stats : TableRowStats)
    (largeTableThreshold : Nat) (failThreshold : UInt32) :
    AlertState × Option AlertChange :=
  let overLimit := stats.topTables.filter fun t => largeTableThreshold ≤ t.2
  let (newState, change) :=
    evaluateThresholdMetric current (!overLimit.isEmpty) failThreshold .rowCount .warning
  (newState, change.map (AlertChange.withDetail (.obj
    [("large_tables", .arr (overLimit.map fun t =>
      .obj [("table", .str t.1), ("estimated_rows", .int t.2)]))])))

def evaluateConnectionCount (current : Option AlertState) (count : Option Nat)
    (connectionCountThreshold : Nat) (failThreshold : UInt32) :
    AlertState × Option AlertChange :=
  let failing := count.any fun c => connectionCountThreshold ≤ c
  let (newState, change) :=
    evaluateThresholdMetric current failing failThreshold .connectionCount .warning
  (newState, change.map (AlertChange.withDetail (.obj
    [("current", Json.ofOption (fun c : Nat => .int c) count),
      ("threshold", .int connectionCountThreshold)])))

/-- The set differences; a `HashSet` lists them in no particular order, here in
that of the lists. -/
def evaluateMissingPk (priorTables : Option (List String)) (currentStats : MissingPkStats) :
    List String × List AlertChange :=
  match priorTables with
  | none => (currentStats.tables, [])
  | some prior =>
      let newlyMissing := currentStats.tables.eraseDups.filter fun t => t ∉ prior
      let restored := prior.eraseDups.filter fun t => t ∉ currentStats.tables
      (currentStats.tables,
        (newlyMissing.map fun t => ⟨.missingPk, .warning, .alert, .obj [("table", .str t)]⟩) ++
        restored.map fun t => ⟨.missingPk, .info, .resolved, .obj [("table", .str t)]⟩)

/-! ## The stored row -/

/-- One row of `health_alert_state`.  `detail` is the document its text
denotes, if any. -/
structure StateRow where
  state : String
  failCount : Int
  detail : Option Json

/-- The rows of one task. -/
abbrev AlertStore := Metric → Option StateRow

structure MetricStateRow where
  state : AlertState
  detail : Option Json

def decodeState (row : StateRow) : Except String AlertState :=
  if row.state = "ok" then .ok .ok
  else if row.state = "alerting" then .ok .alerting
  else if row.state = "failing" then .ok (.failing (UInt32.ofNat row.failCount.toNat))
  else .error ("invalid health_alert_state.state '" ++ row.state ++ "'")

def loadMetricState (store : AlertStore) (metric : Metric) :
    Except String (Option MetricStateRow) :=
  match store metric with
  | none => .ok none
  | some row => (decodeState row).map fun state => some ⟨state, row.detail⟩

def encodeState (state : AlertState) (detail : Option Json) : StateRow where
  state := state.asDbStr
  failCount := state.failCount.toNat
  detail := detail

def persistMetricState (store : AlertStore) (metric : Metric) (state : AlertState)
    (detail : Option Json) : AlertStore :=
  fun m => if m = metric then some (encodeState state detail) else store m

def detailLastMissing (detail : Option Json) : Option (List String) :=
  detail.bind fun v => (v.get "last_missing").bind fun tables =>
    tables.asArray.map fun items => items.filterMap Json.asStr

def detailForMissingPk (tables : List String) : Json :=
  .obj [("last_missing", .arr (tables.map .str))]

@[simp] theorem decodeState_encodeState (state : AlertState) (detail : Option Json) :
    decodeState (encodeState state detail) = .ok state := by
  cases state with
  | ok => simp [decodeState, encodeState, AlertState.asDbStr]
  | failing count =>
      simp [decodeState, encodeState, AlertState.asDbStr, AlertState.failCount]
  | alerting => simp [decodeState, encodeState, AlertState.asDbStr]

@[simp] theorem loadMetricState_persist_self (store : AlertStore) (metric : Metric)
    (state : AlertState) (detail : Option Json) :
    loadMetricState (persistMetricState store metric state detail) metric =
      .ok (some ⟨state, detail⟩) := by
  simp only [loadMetricState, persistMetricState, if_pos, decodeState_encodeState]
  rfl

theorem loadMetricState_persist_of_ne (store : AlertStore) {metric m : Metric}
    (state : AlertState) (detail : Option Json) (h : m ≠ metric) :
    loadMetricState (persistMetricState store metric state detail) m =
      loadMetricState store m := by
  simp only [loadMetricState, persistMetricState, if_neg h]

theorem detailLastMissing_detailForMissingPk (tables : List String) :
    detailLastMissing (some (detailForMissingPk tables)) = some tables := by
  have hget : (detailForMissingPk tables).get "last_missing" =
      some (.arr (tables.map .str)) := rfl
  simp only [detailLastMissing, Option.bind_some, hget, Json.asArray, Option.map_some,
    Json.filterMap_asStr_map_str]

end Dbmaster.HealthCheck.Alert
