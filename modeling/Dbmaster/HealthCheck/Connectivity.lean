import Dbmaster.HealthCheck.Runner
import Mathlib.Tactic.ByContra
/-!
# The connectivity alert over a sequence of runs

Only a run that opens the pool and passes the canary feeds the connectivity
machine.  A run that fails before that ends with an error, an entry in the
history, and the stored counter as it was.
-/

namespace Dbmaster.HealthCheck.Connectivity

open Dbmaster.HealthCheck.Alert Dbmaster.HealthCheck.Runner

/-! ## One sample -/

/-- The stored connectivity state; no row, or an unreadable one, counts as `ok`. -/
def connState (store : AlertStore) : AlertState :=
  match loadMetricState store .connectivity with
  | .ok (some row) => row.state
  | _ => .ok

def emptyStore : AlertStore := fun _ => none

@[simp] theorem connState_empty : connState emptyStore = .ok := rfl

@[simp] theorem connState_persist (store : AlertStore) (state : AlertState)
    (detail : Option Lib.Json) :
    connState (persistMetricState store .connectivity state detail) = state := by
  unfold connState
  rw [loadMetricState_persist_self]

theorem connState_persist_of_ne (store : AlertStore) {metric : Metric} (state : AlertState)
    (detail : Option Lib.Json) (h : metric ≠ .connectivity) :
    connState (persistMetricState store metric state detail) = connState store := by
  unfold connState
  rw [loadMetricState_persist_of_ne store state detail (Ne.symm h)]

/-! ## What the other metrics leave alone -/

/-- A stage that neither touches the connectivity row nor reports on it. -/
def LeavesConnectivity (stage : AlertStore → AlertStore × List AlertChange) : Prop :=
  ∀ store, connState (stage store).1 = connState store ∧
    ∀ change ∈ (stage store).2, change.metric ≠ .connectivity

theorem connState_persisted_of_ne (env : Env) (store : AlertStore) {metric : Metric}
    (state : AlertState) (detail : Option Lib.Json) (h : metric ≠ .connectivity) :
    connState (persisted env store metric state detail) = connState store := by
  unfold persisted
  split
  · exact connState_persist_of_ne store state detail h
  · rfl

theorem leavesConnectivity_evaluateMetric (env : Env) {metric : Metric}
    {evaluate : Option AlertState → AlertState × Option AlertChange}
    (hmetric : metric ≠ .connectivity)
    (hchange : ∀ prior change, (evaluate prior).2 = some change → change.metric = metric) :
    LeavesConnectivity (evaluateMetric env metric evaluate) := by
  intro store
  refine ⟨connState_persisted_of_ne env store _ _ hmetric, ?_⟩
  intro change hmem
  have hsome := Option.mem_toList.mp hmem
  rw [hchange _ change hsome]
  exact hmetric

theorem leavesConnectivity_missingPk (env : Env) (stats : MissingPkStats) :
    LeavesConnectivity (evaluateMissingPkMetric env stats) := by
  intro store
  refine ⟨connState_persisted_of_ne env store _ _ (by decide), ?_⟩
  intro change hmem
  simp only [evaluateMissingPkMetric, evaluateMissingPk] at hmem
  split at hmem
  · simp at hmem
  · simp only [List.mem_append, List.mem_map] at hmem
    rcases hmem with ⟨_, _, rfl⟩ | ⟨_, _, rfl⟩ <;> simp

theorem leavesConnectivity_ifCollected {α : Type} (value : Option α)
    {evaluate : α → AlertStore → AlertStore × List AlertChange}
    (h : ∀ a, LeavesConnectivity (evaluate a)) :
    LeavesConnectivity (ifCollected value evaluate) := by
  cases value with
  | none => exact fun store => ⟨rfl, by simp [ifCollected]⟩
  | some a => exact h a

/-! ## What a run does to the connectivity metric -/

def Reports (changes : List AlertChange) (trigger : Trigger) : Prop :=
  ∃ change ∈ changes, change.metric = .connectivity ∧ change.trigger = trigger

theorem reports_append_of_leaves {xs ys : List AlertChange} {trigger : Trigger}
    (h : ∀ change ∈ ys, change.metric ≠ .connectivity) :
    Reports (xs ++ ys) trigger ↔ Reports xs trigger := by
  constructor
  · rintro ⟨change, hmem, hmetric, htrigger⟩
    rcases List.mem_append.mp hmem with hx | hy
    · exact ⟨change, hx, hmetric, htrigger⟩
    · exact absurd hmetric (h change hy)
  · rintro ⟨change, hmem, hrest⟩
    exact ⟨change, List.mem_append_left _ hmem, hrest⟩

def connectivityStage (env : Env) (snapshot : MetricsSnapshot)
    (config : HealthCheckTaskConfig) : AlertStore → AlertStore × List AlertChange :=
  evaluateMetric env .connectivity fun prior =>
    evaluateConnectivity prior snapshot.connectivity config.failThreshold

/-- After the connectivity stage nothing of `evaluate_all` concerns connectivity. -/
theorem evaluateAll_connectivity (env : Env) (snapshot : MetricsSnapshot)
    (config : HealthCheckTaskConfig) (store : AlertStore) :
    connState (evaluateAll env snapshot config store).1 =
        connState (connectivityStage env snapshot config store).1 ∧
      ∀ trigger, Reports (evaluateAll env snapshot config store).2 trigger ↔
        Reports (connectivityStage env snapshot config store).2 trigger := by
  have hrow : LeavesConnectivity (ifCollected snapshot.rowCount fun stats =>
      evaluateMetric env .rowCount fun prior =>
        evaluateRowCount prior stats config.largeTableThreshold config.failThreshold) := by
    refine leavesConnectivity_ifCollected _ fun stats =>
      leavesConnectivity_evaluateMetric env (by decide) fun prior change h => ?_
    simp only [evaluateRowCount, Option.map_eq_some_iff] at h
    obtain ⟨before, hbefore, rfl⟩ := h
    rw [withDetail_metric]
    exact evaluateThresholdMetric_metric hbefore
  have hcount : LeavesConnectivity (ifCollected snapshot.connectionCount fun count =>
      evaluateMetric env .connectionCount fun prior =>
        evaluateConnectionCount prior (some count) config.connectionCountThreshold
          config.failThreshold) := by
    refine leavesConnectivity_ifCollected _ fun count =>
      leavesConnectivity_evaluateMetric env (by decide) fun prior change h => ?_
    simp only [evaluateConnectionCount, Option.map_eq_some_iff] at h
    obtain ⟨before, hbefore, rfl⟩ := h
    rw [withDetail_metric]
    exact evaluateThresholdMetric_metric hbefore
  have hpk : LeavesConnectivity
      (ifCollected snapshot.missingPk (evaluateMissingPkMetric env)) :=
    leavesConnectivity_ifCollected _ (leavesConnectivity_missingPk env)
  obtain ⟨hstate1, hchanges1⟩ := hrow (connectivityStage env snapshot config store).1
  obtain ⟨hstate2, hchanges2⟩ := hcount _
  obtain ⟨hstate3, hchanges3⟩ := hpk _
  refine ⟨hstate3.trans (hstate2.trans hstate1), fun trigger => ?_⟩
  exact (reports_append_of_leaves hchanges3).trans
    ((reports_append_of_leaves hchanges2).trans (reports_append_of_leaves hchanges1))

/-- The state a sample leads to, and what it reports. -/
def sampled (current : AlertState) (ok : Bool) (threshold : UInt32) :
    AlertState × Option AlertChange :=
  evaluateThresholdMetric (some current) (!ok) threshold .connectivity .critical

theorem connectivityStage_sampled {env : Env} (snapshot : MetricsSnapshot)
    (config : HealthCheckTaskConfig) (store : AlertStore) (hloads : env.loads .connectivity)
    (hpersists : env.persists .connectivity) :
    connState (connectivityStage env snapshot config store).1 =
        (sampled (connState store) snapshot.connectivity.ok config.failThreshold).1 ∧
      ∀ trigger, Reports (connectivityStage env snapshot config store).2 trigger ↔
        ∃ change, (sampled (connState store) snapshot.connectivity.ok
          config.failThreshold).2 = some change ∧ change.trigger = trigger := by
  have hprior : evaluateThresholdMetric ((priorState env store .connectivity).map (·.state))
      (!snapshot.connectivity.ok) config.failThreshold .connectivity .critical =
      sampled (connState store) snapshot.connectivity.ok config.failThreshold := by
    unfold priorState connState
    rw [if_pos hloads]
    rcases loadMetricState store .connectivity with e | _ | row <;> rfl
  constructor
  · simp only [connectivityStage, evaluateMetric, evaluateConnectivity, persisted, hpersists,
      if_true, connState_persist, hprior]
  · intro trigger
    simp only [Reports, connectivityStage, evaluateMetric, evaluateConnectivity, hprior,
      Option.mem_toList, Option.map_eq_some_iff]
    constructor
    · rintro ⟨_, ⟨change, hchange, rfl⟩, _, htrigger⟩
      exact ⟨change, hchange, htrigger⟩
    · rintro ⟨change, hchange, htrigger⟩
      refine ⟨_, ⟨change, hchange, rfl⟩, ?_, htrigger⟩
      rw [withDetail_metric]
      exact evaluateThresholdMetric_metric hchange

/-- Whether the run gets as far as the evaluation: the credential is readable,
the pool opens, and the canary of a `source_drift` connection is satisfied. -/
def reachesEvaluator (env : Env) : Bool :=
  match env.conn with
  | .error _ => false
  | .ok conn => env.decrypt.isOk && env.openPool.isOk &&
      (!(conn.kind = "source_drift") || (runCanary conn.dbType env.canaryCreate).isOk)

/-- A run of a task with threshold `threshold` on a source that has a driver,
whose store works. -/
structure Scheduled (threshold : UInt32) (env : Env) : Prop where
  openHistory : env.openHistory = .ok ()
  rows : ∃ task conn, env.task = .ok task ∧ env.conn = .ok conn ∧
    (fromJsonOrDefault task.config).failThreshold = threshold ∧
    (conn.dbType = .mysql ∨ conn.dbType = .postgres)
  loads : env.loads .connectivity
  persists : env.persists .connectivity

theorem run_of_not_reaches {threshold : UInt32} {env : Env} (store : AlertStore)
    (hs : Scheduled threshold env) (hreach : reachesEvaluator env = false) :
    (runTask env store).1.store = store ∧ (runTask env store).1.emitted = [] := by
  obtain ⟨task, conn, htask, hconn, -, hdriver⟩ := hs.rows
  rw [runTask_record env store hs.openHistory]
  unfold runTaskInner
  simp only [reachesEvaluator, hconn] at hreach
  simp only [htask, hconn]
  cases hdecrypt : env.decrypt with
  | error e => exact ⟨rfl, rfl⟩
  | ok _ =>
      have hfails : env.openPool.isOk → conn.kind = "source_drift" ∧
          (runCanary conn.dbType env.canaryCreate).isOk = false := by
        intro hpool
        have hreadable : env.decrypt.isOk = true := by rw [hdecrypt]; rfl
        simpa [hreadable, hpool] using hreach
      obtain ⟨e, he⟩ := openAndProbe_error (fromJsonOrDefault task.config) hfails
      rcases hdriver with hdb | hdb <;> simp only [hdb, he, and_self]

theorem run_of_reaches {threshold : UInt32} {env : Env} (store : AlertStore)
    (hs : Scheduled threshold env) (hreach : reachesEvaluator env = true) :
    connState (runTask env store).1.store =
        (sampled (connState store) env.selectOne.isOk threshold).1 ∧
      ∀ trigger, Reports (runTask env store).1.emitted trigger ↔
        ∃ change, (sampled (connState store) env.selectOne.isOk threshold).2 = some change ∧
          change.trigger = trigger := by
  obtain ⟨task, conn, htask, hconn, hthreshold, hdriver⟩ := hs.rows
  rw [runTask_record env store hs.openHistory]
  simp only [reachesEvaluator, hconn, Bool.and_eq_true, Bool.or_eq_true,
    Bool.not_eq_true', decide_eq_false_iff_not] at hreach
  obtain ⟨⟨hdecrypt, hpool⟩, hcanary⟩ := hreach
  let snapshot := collect conn.dbType (fromJsonOrDefault task.config).metrics env
  have hsnapshot : openAndProbe env conn (fromJsonOrDefault task.config) = .ok snapshot := by
    refine openAndProbe_ok _ hpool fun hkind => ?_
    exact hcanary.resolve_left (not_not_intro hkind)
  have hrecord : runTaskInner env store = finish env task snapshot
      (evaluateAll env snapshot (fromJsonOrDefault task.config) store).2
      (evaluateAll env snapshot (fromJsonOrDefault task.config) store).1 := by
    unfold runTaskInner
    simp only [htask, hconn]
    cases hd : env.decrypt with
    | error e => simp [hd, Except.isOk, Except.toBool] at hdecrypt
    | ok _ => rcases hdriver with hdb | hdb <;> simp only [hdb, hsnapshot]
  have hok : snapshot.connectivity.ok = env.selectOne.isOk := by
    show (measureConnectivity env.selectOne).ok = _
    cases env.selectOne <;> rfl
  obtain ⟨hstate, hreports⟩ := evaluateAll_connectivity env snapshot
    (fromJsonOrDefault task.config) store
  obtain ⟨hsampled, hchange⟩ := connectivityStage_sampled snapshot
    (fromJsonOrDefault task.config) store hs.loads hs.persists
  rw [hthreshold, hok] at hsampled hchange
  rw [hrecord]
  exact ⟨hstate.trans hsampled, fun trigger => (hreports trigger).trans (hchange trigger)⟩

/-! ## States a store can hold -/

theorem runTaskInner_store (env : Env) (store : AlertStore) :
    (runTaskInner env store).store = store ∨ ∃ snapshot config,
      (runTaskInner env store).store = (evaluateAll env snapshot config store).1 := by
  unfold runTaskInner
  split
  · exact .inl rfl
  · split
    · exact .inl rfl
    · dsimp only
      split
      · exact .inl rfl
      · split
        · exact .inl rfl
        · split
          · exact .inl rfl
          · exact .inr ⟨_, _, rfl⟩

theorem runTask_store (env : Env) (store : AlertStore) :
    (runTask env store).1.store = store ∨
      (runTask env store).1.store = (runTaskInner env store).store := by
  unfold runTask
  split
  · exact .inl rfl
  · dsimp only
    split <;> exact .inr rfl

theorem run_connState (env : Env) (store : AlertStore) :
    connState (runTask env store).1.store = connState store ∨
      ∃ prior failing threshold, connState (runTask env store).1.store =
        (evaluateThresholdMetric prior failing threshold .connectivity .critical).1 := by
  have hstage : ∀ snapshot config,
      connState (connectivityStage env snapshot config store).1 = connState store ∨
        ∃ prior failing threshold,
          connState (connectivityStage env snapshot config store).1 =
            (evaluateThresholdMetric prior failing threshold .connectivity .critical).1 := by
    intro snapshot config
    simp only [connectivityStage, evaluateMetric, persisted]
    split
    · exact .inr ⟨_, _, _, by rw [connState_persist]; rfl⟩
    · exact .inl rfl
  have hinner : (runTask env store).1.store = store ∨ ∃ snapshot config,
      (runTask env store).1.store = (evaluateAll env snapshot config store).1 := by
    rcases runTask_store env store with hsame | hinner
    · exact .inl hsame
    · rw [hinner]
      exact runTaskInner_store env store
  rcases hinner with hsame | ⟨snapshot, config, heval⟩
  · exact .inl (by rw [hsame])
  · rw [heval, (evaluateAll_connectivity env snapshot config store).1]
    exact hstage snapshot config

/-- No reachable counter is about to wrap. -/
def Bounded (store : AlertStore) : Prop :=
  ∀ count, connState store = .failing count → count.toNat + 1 < UInt32.size

theorem bounded_run {env : Env} {store : AlertStore} (h : Bounded store) :
    Bounded (runTask env store).1.store := by
  intro count hcount
  rcases run_connState env store with hsame | ⟨prior, failing, threshold, heval⟩
  · exact h count (hsame ▸ hcount)
  · exact evaluateThresholdMetric_bounded (heval ▸ hcount)

theorem bounded_storeAfter {store : AlertStore} (envs : List Env) (h : Bounded store) :
    Bounded (storeAfter store envs) := by
  induction envs generalizing store with
  | nil => exact h
  | cons env envs ih => exact ih (bounded_run h)

/-! ## Outages -/

/-- The source cannot be opened or probed: the pool does not open, the canary
meets an error other than a refusal, or `SELECT 1` fails. -/
def Unreachable (env : Env) : Prop :=
  env.openPool.isOk = false ∨ env.selectOne.isOk = false ∨
    ∃ conn e, env.conn = .ok conn ∧ conn.kind = "source_drift" ∧ env.canaryCreate = .error e ∧
      (refusalWords conn.dbType).any (textContains e) = false

def Emits (record : RunRecord) (trigger : Trigger) : Prop := Reports record.emitted trigger

/-- The run emits the connectivity alert and persists `alerting`. -/
def Alerts (record : RunRecord) : Prop :=
  Emits record .alert ∧ connState record.store = .alerting

/-- The failing samples the stored counter already holds. -/
def priorFailures (store : AlertStore) : Nat :=
  (connState store).failCount.toNat

theorem selectOne_of_unreachable {env : Env} (hdown : Unreachable env)
    (hreach : reachesEvaluator env = true) : env.selectOne.isOk = false := by
  unfold reachesEvaluator at hreach
  split at hreach
  · cases hreach
  case h_2 conn hconn =>
      simp only [Bool.and_eq_true, Bool.or_eq_true, Bool.not_eq_true',
        decide_eq_false_iff_not] at hreach
      rcases hdown with hpool | hselect | ⟨conn', e, hconn', hkind, hcreate, hwords⟩
      · rw [hpool] at hreach
        simp at hreach
      · exact hselect
      · rw [hconn] at hconn'
        cases hconn'
        have hcanary := hreach.2.resolve_left (not_not_intro hkind)
        simp [runCanary, hcreate, hwords, Except.isOk, Except.toBool] at hcanary

theorem run_outage {threshold : UInt32} {env : Env} (store : AlertStore)
    (hs : Scheduled threshold env) (hdown : Unreachable env) :
    if reachesEvaluator env then
      connState (runTask env store).1.store = (sampled (connState store) false threshold).1 ∧
        (Emits (runTask env store).1 .alert ↔
          ∃ change, (sampled (connState store) false threshold).2 = some change ∧
            change.trigger = .alert)
    else
      (runTask env store).1.store = store ∧ (runTask env store).1.emitted = [] := by
  split
  case isTrue hreach =>
      obtain ⟨hstate, hreports⟩ := run_of_reaches store hs hreach
      rw [selectOne_of_unreachable hdown hreach] at hstate hreports
      exact ⟨hstate, hreports .alert⟩
  case isFalse hreach =>
      exact run_of_not_reaches store hs (Bool.not_eq_true _ ▸ hreach)

theorem sampled_reaches_threshold {state : AlertState} {threshold : UInt32}
    (htwo : 2 ≤ threshold.toNat) (hstate : state ≠ .alerting)
    (hbound : state.failCount.toNat + 1 < UInt32.size)
    (hle : threshold.toNat ≤ state.failCount.toNat + 1) :
    (sampled state false threshold).1 = .alerting ∧
      ∃ change, (sampled state false threshold).2 = some change ∧ change.trigger = .alert := by
  cases state with
  | ok =>
      simp only [AlertState.failCount, UInt32.toNat_zero] at hle
      omega
  | alerting => exact absurd rfl hstate
  | failing count =>
      simp only [AlertState.failCount] at hle hbound
      have hnext : (count + 1).toNat = count.toNat + 1 :=
        (UInt32.toNat_add count 1).trans (Nat.mod_eq_of_lt hbound)
      have hreached : threshold ≤ count + 1 := by
        rw [UInt32.le_iff_toNat_le, hnext]
        exact hle
      simp [sampled, evaluateThresholdMetric, hreached]

theorem sampled_below_threshold {state : AlertState} {threshold : UInt32}
    (hstate : state ≠ .alerting) (hbound : state.failCount.toNat + 1 < UInt32.size)
    (hlt : state.failCount.toNat + 1 < threshold.toNat) :
    ∃ count, sampled state false threshold = (.failing count, none) ∧
      count.toNat = state.failCount.toNat + 1 := by
  cases state with
  | ok => exact ⟨1, rfl, rfl⟩
  | alerting => exact absurd rfl hstate
  | failing count =>
      simp only [AlertState.failCount] at hlt hbound ⊢
      have hnext : (count + 1).toNat = count.toNat + 1 :=
        (UInt32.toNat_add count 1).trans (Nat.mod_eq_of_lt hbound)
      have hbelow : ¬ threshold ≤ count + 1 := by
        rw [UInt32.le_iff_toNat_le, hnext]
        omega
      exact ⟨count + 1, by simp [sampled, evaluateThresholdMetric, hbelow], hnext⟩

theorem bounded_failCount {store : AlertStore} (h : Bounded store) :
    (connState store).failCount.toNat + 1 < UInt32.size := by
  cases hs : connState store with
  | failing count => exact h count hs
  | ok => decide
  | alerting => decide

theorem not_emits_of_nil {record : RunRecord} {trigger : Trigger}
    (h : record.emitted = []) : ¬ Emits record trigger := by
  rintro ⟨change, hmem, -⟩
  rw [h] at hmem
  cases hmem

/-- In an outage the alert is raised exactly when the failing samples, those
already counted and those of the runs that reach the evaluation, fill the
threshold and at least one of them is new. -/
theorem alerts_in_outage_iff {threshold : UInt32} (htwo : 2 ≤ threshold.toNat)
    {down : List Env} {store : AlertStore}
    (hs : ∀ env ∈ down, Scheduled threshold env) (hdown : ∀ env ∈ down, Unreachable env)
    (hprior : connState store ≠ .alerting) (hbound : Bounded store) :
    (∃ record ∈ runs store down, Alerts record) ↔
      0 < down.countP reachesEvaluator ∧
        threshold.toNat ≤ priorFailures store + down.countP reachesEvaluator := by
  induction down generalizing store with
  | nil => simp [runs]
  | cons env down ih =>
      have hrun := run_outage store (hs env List.mem_cons_self)
        (hdown env List.mem_cons_self)
      have hs' : ∀ env ∈ down, Scheduled threshold env :=
        fun e he => hs e (List.mem_cons_of_mem _ he)
      have hdown' : ∀ env ∈ down, Unreachable env :=
        fun e he => hdown e (List.mem_cons_of_mem _ he)
      simp only [runs, List.exists_mem_cons_iff]
      cases hreach : reachesEvaluator env with
      | false =>
          rw [hreach] at hrun
          obtain ⟨hstore, hemitted⟩ := hrun
          have hsilent : ¬ Alerts (runTask env store).1 := fun h =>
            not_emits_of_nil hemitted h.1
          rw [List.countP_cons_of_neg (by simp [hreach]), hstore, ← ih hs' hdown' hprior hbound]
          exact or_iff_right hsilent
      | true =>
          rw [hreach] at hrun
          obtain ⟨hstate, hemits⟩ := hrun
          rw [List.countP_cons_of_pos hreach]
          by_cases hle : threshold.toNat ≤ priorFailures store + 1
          · obtain ⟨halerting, halert⟩ := sampled_reaches_threshold htwo hprior
              (bounded_failCount hbound) hle
            have halerts : Alerts (runTask env store).1 :=
              ⟨hemits.mpr halert, hstate.trans halerting⟩
            have hright : 0 < down.countP reachesEvaluator + 1 ∧
                threshold.toNat ≤ priorFailures store + (down.countP reachesEvaluator + 1) := by
              omega
            exact iff_of_true (.inl halerts) hright
          · obtain ⟨count, hsampled, hcount⟩ := sampled_below_threshold hprior
              (bounded_failCount hbound) (not_le.mp hle)
            rw [hsampled] at hstate
            have hsilent : ¬ Alerts (runTask env store).1 := by
              rintro ⟨-, halerting⟩
              rw [hstate] at halerting
              cases halerting
            have hnext : connState (runTask env store).1.store ≠ .alerting := by
              rw [hstate]
              simp
            have hlevel : priorFailures (runTask env store).1.store =
                priorFailures store + 1 := by
              unfold priorFailures
              rw [hstate]
              exact hcount
            rw [or_iff_right hsilent, ih hs' hdown' hnext (bounded_run hbound), hlevel]
            omega

theorem alerting_in_outage {threshold : UInt32} {down : List Env} {store : AlertStore}
    (hs : ∀ env ∈ down, Scheduled threshold env) (hdown : ∀ env ∈ down, Unreachable env)
    (halerting : connState store = .alerting) : connState (storeAfter store down) = .alerting := by
  induction down generalizing store with
  | nil => exact halerting
  | cons env down ih =>
      have hrun := run_outage store (hs env List.mem_cons_self)
        (hdown env List.mem_cons_self)
      refine ih (fun e he => hs e (List.mem_cons_of_mem _ he))
        (fun e he => hdown e (List.mem_cons_of_mem _ he)) ?_
      show connState (runTask env store).1.store = .alerting
      split at hrun
      · rw [hrun.1, halerting]
        rfl
      · rw [hrun.1]
        exact halerting

theorem alerting_of_alerted {threshold : UInt32} {down : List Env} {store : AlertStore}
    (hs : ∀ env ∈ down, Scheduled threshold env) (hdown : ∀ env ∈ down, Unreachable env)
    (halerted : ∃ record ∈ runs store down, Alerts record) :
    connState (storeAfter store down) = .alerting := by
  induction down generalizing store with
  | nil => simp [runs] at halerted
  | cons env down ih =>
      have hs' : ∀ env ∈ down, Scheduled threshold env :=
        fun e he => hs e (List.mem_cons_of_mem _ he)
      have hdown' : ∀ env ∈ down, Unreachable env :=
        fun e he => hdown e (List.mem_cons_of_mem _ he)
      simp only [runs, List.exists_mem_cons_iff] at halerted
      rcases halerted with hnow | hlater
      · show connState (storeAfter (runTask env store).1.store down) = .alerting
        exact alerting_in_outage hs' hdown' hnow.2
      · exact ih hs' hdown' hlater

theorem storeAfter_append (store : AlertStore) (envs more : List Env) :
    storeAfter store (envs ++ more) = storeAfter (storeAfter store envs) more :=
  List.foldl_append

/-- From `alerting`, a run on a reachable source emits `resolved` exactly when
it reaches the evaluation. -/
theorem resolves_iff {threshold : UInt32} {up : Env} {store : AlertStore}
    (hs : Scheduled threshold up) (hup : ¬ Unreachable up)
    (halerting : connState store = .alerting) :
    Emits (runTask up store).1 .resolved ↔ reachesEvaluator up = true := by
  cases hreach : reachesEvaluator up with
  | false =>
      obtain ⟨-, hemitted⟩ := run_of_not_reaches store hs hreach
      exact iff_of_false (not_emits_of_nil hemitted) (by simp)
  | true =>
      obtain ⟨-, hreports⟩ := run_of_reaches store hs hreach
      have hok : up.selectOne.isOk = true := by
        by_contra hfails
        exact hup (.inr (.inl (Bool.not_eq_true _ ▸ hfails)))
      refine iff_of_true ((hreports .resolved).mpr ?_) rfl
      rw [halerting, hok]
      exact ⟨_, rfl, rfl⟩

/-! ## The connectivity alert of an outage -/

/-- `threshold` consecutive scheduled runs `down` in which the source cannot be
opened or probed, possibly more of them `stillDown`, then a run `up` in which
it can; before them, any history of runs that did not end in `alerting`. -/
structure Outage (threshold : UInt32) (store : AlertStore) (down stillDown : List Env)
    (up : Env) : Prop where
  flapSuppressed : 2 ≤ threshold.toNat
  history : ∃ earlier, store = storeAfter emptyStore earlier
  prior : connState store ≠ .alerting
  length : down.length = threshold.toNat
  scheduled : ∀ env ∈ down ++ stillDown ++ [up], Scheduled threshold env
  unreachable : ∀ env ∈ down ++ stillDown, Unreachable env
  reachable : ¬ Unreachable up

/-- One of the first `threshold` runs raises the alert, and the run that finds
the source reachable again resolves it. -/
def AlertedAndResolved (store : AlertStore) (down stillDown : List Env) (up : Env) : Prop :=
  (∃ record ∈ runs store down, Alerts record) ∧
    Emits (runTask up (storeAfter store (down ++ stillDown))).1 .resolved

/-- An outage raises and resolves its alert exactly when enough of its runs,
and the recovering one, reach the evaluation. -/
theorem outage_alerted_iff {threshold : UInt32} {store : AlertStore}
    {down stillDown : List Env} {up : Env} (h : Outage threshold store down stillDown up) :
    AlertedAndResolved store down stillDown up ↔
      (0 < down.countP reachesEvaluator ∧
        threshold.toNat ≤ priorFailures store + down.countP reachesEvaluator) ∧
      reachesEvaluator up = true := by
  have hs : ∀ env ∈ down, Scheduled threshold env := fun env he =>
    h.scheduled env (by simp [he])
  have hstill : ∀ env ∈ stillDown, Scheduled threshold env := fun env he =>
    h.scheduled env (by simp [he])
  have hdown : ∀ env ∈ down, Unreachable env := fun env he =>
    h.unreachable env (by simp [he])
  have hbound : Bounded store := by
    obtain ⟨earlier, rfl⟩ := h.history
    exact bounded_storeAfter earlier (by simp [Bounded])
  rw [← alerts_in_outage_iff h.flapSuppressed hs hdown h.prior hbound]
  refine and_congr_right fun halerted => ?_
  refine resolves_iff (h.scheduled up (by simp)) h.reachable ?_
  rw [storeAfter_append]
  exact alerting_in_outage hstill (fun env he => h.unreachable env (by simp [he]))
    (alerting_of_alerted hs hdown halerted)

/-- A MySQL source with the default configuration and no rights to lose. -/
def healthyEnv : Env where
  openHistory := .ok ()
  task := .ok ⟨some defaultConfig, none⟩
  conn := .ok ⟨.mysql, "normal"⟩
  decrypt := .ok ()
  openPool := .ok ()
  canaryCreate := .error "access denied"
  selectOne := .ok 1
  topTables := .ok []
  missingPk := .ok []
  connectionCount := .ok 1
  loads := fun _ => true
  persists := fun _ => true
  delivers := fun _ => true
  insertResult := .ok ()

/-- The server is gone: the pool does not open. -/
def refusedEnv : Env := { healthyEnv with openPool := .error "connection refused" }

/-- The pool opens, then `SELECT 1` fails. -/
def brokenEnv : Env := { healthyEnv with selectOne := .error "broken pipe" }

theorem scheduled_of_healthy {env : Env} (hhistory : env.openHistory = healthyEnv.openHistory)
    (htask : env.task = healthyEnv.task) (hconn : env.conn = healthyEnv.conn)
    (hloads : env.loads = healthyEnv.loads) (hpersists : env.persists = healthyEnv.persists) :
    Scheduled 3 env where
  openHistory := hhistory
  rows := ⟨_, _, htask, hconn, rfl, .inl rfl⟩
  loads := by rw [hloads]; rfl
  persists := by rw [hpersists]; rfl

theorem healthyEnv_reachable : ¬ Unreachable healthyEnv := by
  rintro (h | h | ⟨conn, e, hconn, hkind, -⟩)
  · cases h
  · cases h
  · cases hconn
    exact absurd hkind (by decide)

theorem outage_of_down {env : Env} (hscheduled : Scheduled 3 env) (hdown : Unreachable env) :
    Outage 3 emptyStore [env, env, env] [] healthyEnv where
  flapSuppressed := by decide
  history := ⟨[], rfl⟩
  prior := by simp
  length := rfl
  scheduled := by
    have hup : Scheduled 3 healthyEnv := scheduled_of_healthy rfl rfl rfl rfl rfl
    simp [hscheduled, hup]
  unreachable := by simp [hdown]
  reachable := healthyEnv_reachable

/-- Three refused connections in a row raise no alert. -/
theorem refused_connections_silent :
    Outage 3 emptyStore [refusedEnv, refusedEnv, refusedEnv] [] healthyEnv ∧
      ¬ AlertedAndResolved emptyStore [refusedEnv, refusedEnv, refusedEnv] [] healthyEnv := by
  have hscheduled : Scheduled 3 refusedEnv := scheduled_of_healthy rfl rfl rfl rfl rfl
  refine ⟨outage_of_down hscheduled (.inl rfl), ?_⟩
  rintro ⟨⟨record, hmem, hemits, -⟩, -⟩
  simp only [runs, List.mem_cons, List.not_mem_nil, or_false] at hmem
  rcases hmem with rfl | rfl | rfl <;> exact not_emits_of_nil rfl hemits

/-- Three failing probes do. -/
theorem broken_probes_alerted :
    AlertedAndResolved emptyStore [brokenEnv, brokenEnv, brokenEnv] [] healthyEnv := by
  have hscheduled : Scheduled 3 brokenEnv := scheduled_of_healthy rfl rfl rfl rfl rfl
  have hout := outage_of_down hscheduled (.inr (.inl rfl))
  exact (outage_alerted_iff hout).mpr (by decide)

end Dbmaster.HealthCheck.Connectivity
