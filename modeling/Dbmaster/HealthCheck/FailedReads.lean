import Dbmaster.HealthCheck.Runner
/-!
# Runs that cannot read the stored state

`evaluate_all` metric by metric: what each is evaluated from, what replaces its row
and what it emits.  A read that fails counts as a first run, and the row is then
replaced by one that knows nothing of the state before.
-/

namespace Dbmaster.HealthCheck.FailedReads

open Dbmaster.Lib Dbmaster.HealthCheck.Alert Dbmaster.HealthCheck.Runner

/-! ## One metric -/

/-- From the prior row, the row to persist and the changes to emit. -/
abbrev Evaluation := Option MetricStateRow → StateRow × List AlertChange

def thresholdEvaluation (evaluate : Option AlertState → AlertState × Option AlertChange) :
    Evaluation := fun prior =>
  let (newState, change) := evaluate (prior.map (·.state))
  (encodeState newState none, change.toList)

def missingPkEvaluation (stats : MissingPkStats) : Evaluation := fun prior =>
  let (persistedSet, changes) :=
    evaluateMissingPk (prior.bind fun r => detailLastMissing r.detail) stats
  (encodeState .ok (some (detailForMissingPk persistedSet)), changes)

/-- How the run evaluates the metric, when it was collected. -/
def evaluation (snapshot : MetricsSnapshot) (config : HealthCheckTaskConfig) :
    Metric → Option Evaluation
  | .connectivity => some (thresholdEvaluation fun prior =>
      evaluateConnectivity prior snapshot.connectivity config.failThreshold)
  | .rowCount => snapshot.rowCount.map fun stats => thresholdEvaluation fun prior =>
      evaluateRowCount prior stats config.largeTableThreshold config.failThreshold
  | .connectionCount => snapshot.connectionCount.map fun count => thresholdEvaluation fun prior =>
      evaluateConnectionCount prior (some count) config.connectionCountThreshold
        config.failThreshold
  | .missingPk => snapshot.missingPk.map missingPkEvaluation

/-- One metric of the run: load, evaluate, persist. -/
def applyEvaluation (env : Env) (metric : Metric) (evaluation : Option Evaluation)
    (store : AlertStore) : AlertStore × List AlertChange :=
  match evaluation with
  | none => (store, [])
  | some evaluate =>
      let (row, changes) := evaluate (priorState env store metric)
      (if env.persists metric then fun m => if m = metric then some row else store m else store,
        changes)

section Apply

variable {env : Env} {metric m : Metric} {e : Option Evaluation} {store store' : AlertStore}

theorem applyEvaluation_of_ne (h : m ≠ metric) :
    (applyEvaluation env metric e store).1 m = store m := by
  cases e with
  | none => rfl
  | some evaluate =>
      simp only [applyEvaluation]
      split
      case isTrue => exact if_neg h
      case isFalse => rfl

theorem applyEvaluation_self (evaluate : Evaluation) :
    (applyEvaluation env metric (some evaluate) store).1 metric =
      if env.persists metric then some (evaluate (priorState env store metric)).1
      else store metric := by
  simp only [applyEvaluation]
  split
  case isTrue => exact if_pos rfl
  case isFalse => rfl

theorem priorState_congr (h : store metric = store' metric) :
    priorState env store metric = priorState env store' metric := by
  simp only [priorState, loadMetricState, h]

theorem applyEvaluation_congr (h : store metric = store' metric) :
    (applyEvaluation env metric e store).1 metric =
        (applyEvaluation env metric e store').1 metric ∧
      (applyEvaluation env metric e store).2 = (applyEvaluation env metric e store').2 := by
  cases e with
  | none => exact ⟨h, rfl⟩
  | some evaluate =>
      constructor
      · rw [applyEvaluation_self, applyEvaluation_self, priorState_congr h, h]
      · simp only [applyEvaluation, priorState_congr h]

end Apply

/-- Whether the sample of a threshold metric is a failing one. -/
def sampleFails (snapshot : MetricsSnapshot) (config : HealthCheckTaskConfig) : Metric → Bool
  | .connectivity => !snapshot.connectivity.ok
  | .rowCount => snapshot.rowCount.any fun stats =>
      !(stats.topTables.filter fun t => config.largeTableThreshold ≤ t.2).isEmpty
  | .connectionCount => snapshot.connectionCount.any fun count =>
      config.connectionCountThreshold ≤ count
  | .missingPk => false

def machineEvaluation (failing : Bool) (threshold : UInt32) (metric : Metric)
    (severity : Severity) (detail : Json) : Evaluation :=
  thresholdEvaluation fun current =>
    let r := evaluateThresholdMetric current failing threshold metric severity
    (r.1, r.2.map (AlertChange.withDetail detail))

/-- The metric is evaluated by the threshold machine, or it is `missing_pk`. -/
theorem evaluation_cases {snapshot : MetricsSnapshot} {config : HealthCheckTaskConfig}
    {metric : Metric} {evaluate : Evaluation}
    (h : evaluation snapshot config metric = some evaluate) :
    (metric ≠ .missingPk ∧ ∃ severity detail, evaluate = machineEvaluation
        (sampleFails snapshot config metric) config.failThreshold metric severity detail) ∨
      ∃ stats, metric = .missingPk ∧ snapshot.missingPk = some stats ∧
        evaluate = missingPkEvaluation stats := by
  cases metric with
  | connectivity =>
      obtain rfl := Option.some.inj h
      exact .inl ⟨by decide, _, _, rfl⟩
  | rowCount =>
      obtain ⟨stats, hstats, rfl⟩ := Option.map_eq_some_iff.mp h
      simp only [sampleFails, hstats, Option.any_some]
      exact .inl ⟨by decide, _, _, rfl⟩
  | connectionCount =>
      obtain ⟨count, hcount, rfl⟩ := Option.map_eq_some_iff.mp h
      simp only [sampleFails, hcount, Option.any_some]
      exact .inl ⟨by decide, _, _, rfl⟩
  | missingPk =>
      obtain ⟨stats, hstats, rfl⟩ := Option.map_eq_some_iff.mp h
      exact .inr ⟨stats, rfl, hstats, rfl⟩

theorem evaluation_metric {snapshot : MetricsSnapshot} {config : HealthCheckTaskConfig}
    {metric : Metric} {evaluate : Evaluation}
    (h : evaluation snapshot config metric = some evaluate) (prior : Option MetricStateRow) :
    ∀ c ∈ (evaluate prior).2, c.metric = metric := by
  intro c hc
  rcases evaluation_cases h with ⟨-, severity, detail, rfl⟩ | ⟨stats, rfl, -, rfl⟩
  · obtain ⟨change, hchange, rfl⟩ := Option.map_eq_some_iff.mp (Option.mem_toList.mp hc)
    rw [withDetail_metric]
    exact evaluateThresholdMetric_metric hchange
  · simp only [missingPkEvaluation, evaluateMissingPk] at hc
    split at hc
    case h_1 => cases hc
    case h_2 =>
      simp only [List.mem_append, List.mem_map] at hc
      rcases hc with ⟨t, -, rfl⟩ | ⟨t, -, rfl⟩ <;> rfl

/-! ## The run, metric by metric -/

def applyAll (env : Env) (evaluations : Metric → Option Evaluation) :
    List Metric → AlertStore → AlertStore × List AlertChange
  | [], store => (store, [])
  | metric :: metrics, store =>
      let (next, changes) := applyEvaluation env metric (evaluations metric) store
      let (last, later) := applyAll env evaluations metrics next
      (last, changes ++ later)

/-- The metrics in the order in which they are evaluated. -/
def evaluationOrder : List Metric := [.connectivity, .rowCount, .connectionCount, .missingPk]

theorem evaluateAll_eq (env : Env) (snapshot : MetricsSnapshot) (config : HealthCheckTaskConfig)
    (store : AlertStore) :
    evaluateAll env snapshot config store =
      applyAll env (evaluation snapshot config) evaluationOrder store := by
  simp only [evaluationOrder, applyAll, List.append_nil, ← List.append_assoc]
  unfold evaluateAll evaluation
  cases snapshot.rowCount <;> cases snapshot.connectionCount <;> cases snapshot.missingPk <;> rfl

section Run

variable (env : Env) (snapshot : MetricsSnapshot) (config : HealthCheckTaskConfig)

theorem filter_applyEvaluation (metric m : Metric) (store : AlertStore) :
    (applyEvaluation env metric (evaluation snapshot config metric) store).2.filter
        (fun c => c.metric = m) =
      if metric = m then (applyEvaluation env metric (evaluation snapshot config metric) store).2
      else [] := by
  have hall : ∀ c ∈ (applyEvaluation env metric (evaluation snapshot config metric) store).2,
      c.metric = metric := by
    cases he : evaluation snapshot config metric with
    | none =>
        intro c hc
        cases hc
    | some evaluate => exact evaluation_metric he _
  by_cases hm : metric = m
  · rw [if_pos hm, List.filter_eq_self]
    intro c hc
    exact decide_eq_true ((hall c hc).trans hm)
  · rw [if_neg hm, List.filter_eq_nil_iff]
    intro c hc heq
    exact hm ((hall c hc).symm.trans (of_decide_eq_true heq))

theorem applyAll_metric {metrics : List Metric} (hnodup : metrics.Nodup) (m : Metric)
    (store : AlertStore) :
    let own := applyEvaluation env m (evaluation snapshot config m) store
    (applyAll env (evaluation snapshot config) metrics store).1 m =
        (if m ∈ metrics then own.1 m else store m) ∧
      (applyAll env (evaluation snapshot config) metrics store).2.filter (fun c => c.metric = m) =
        if m ∈ metrics then own.2 else [] := by
  induction metrics generalizing store with
  | nil => exact ⟨rfl, rfl⟩
  | cons metric metrics ih =>
      obtain ⟨hnew, hrest⟩ := List.nodup_cons.mp hnodup
      have hfilter := filter_applyEvaluation env snapshot config metric m store
      obtain ⟨hstore, hchanges⟩ := ih hrest
        (applyEvaluation env metric (evaluation snapshot config metric) store).1
      simp only [applyAll, List.filter_append]
      rw [hstore, hchanges, hfilter]
      by_cases hm : m = metric
      · subst hm
        simp [hnew]
      · have hframe := @applyEvaluation_of_ne env metric m
          (evaluation snapshot config metric) store hm
        obtain ⟨hrow, hown⟩ := @applyEvaluation_congr env m (evaluation snapshot config m) _ _ hframe
        rw [hrow, hown, hframe, if_neg (Ne.symm hm)]
        simp [hm]

theorem evaluateAll_metric (m : Metric) (store : AlertStore) :
    let own := applyEvaluation env m (evaluation snapshot config m) store
    (evaluateAll env snapshot config store).1 m = own.1 m ∧
      (evaluateAll env snapshot config store).2.filter (fun c => c.metric = m) = own.2 := by
  have hall : m ∈ evaluationOrder := by cases m <;> decide
  have hnodup : evaluationOrder.Nodup := by decide
  have h := applyAll_metric env snapshot config hnodup m store
  simp only [if_pos hall] at h
  rw [evaluateAll_eq]
  exact h

end Run

/-! ## The prior state -/

/-- A metric whose row the run replaces: the new row and the changes emitted are those that
the prior state leads to. -/
def FollowsPrior (env : Env) (snapshot : MetricsSnapshot) (config : HealthCheckTaskConfig)
    (store : AlertStore) (metric : Metric) : Prop :=
  ∀ row evaluate, store metric = some row → evaluation snapshot config metric = some evaluate →
    env.persists metric = true →
    ∃ prior, loadMetricState store metric = .ok (some prior) ∧
      (evaluateAll env snapshot config store).1 metric = some (evaluate (some prior)).1 ∧
      (evaluateAll env snapshot config store).2.filter (fun c => c.metric = metric) =
        (evaluate (some prior)).2

/-- From the prior state the sample leads where it leads in a first run. -/
def Indifferent (snapshot : MetricsSnapshot) (config : HealthCheckTaskConfig)
    (prior : MetricStateRow) : Metric → Prop
  | .missingPk => ∀ tables stats, detailLastMissing prior.detail = some tables →
      snapshot.missingPk = some stats → ∀ t, t ∈ tables ↔ t ∈ stats.tables
  | metric =>
      if sampleFails snapshot config metric then
        prior.state = .ok ∨ prior.state = .failing 0 ∧ 1 < config.failThreshold
      else prior.state ≠ .alerting

theorem machineEvaluation_eq_iff (failing : Bool) (threshold : UInt32) (metric : Metric)
    (severity : Severity) (detail : Json) (prior : MetricStateRow) :
    machineEvaluation failing threshold metric severity detail (some prior) =
        machineEvaluation failing threshold metric severity detail none ↔
      if failing then prior.state = .ok ∨ prior.state = .failing 0 ∧ 1 < threshold
      else prior.state ≠ .alerting := by
  obtain ⟨state, stored⟩ := prior
  unfold machineEvaluation thresholdEvaluation
  cases failing with
  | false => cases state <;> simp [evaluateThresholdMetric]
  | true =>
      cases state with
      | ok => simp [evaluateThresholdMetric]
      | alerting => simp [evaluateThresholdMetric, encodeState, AlertState.asDbStr]
      | failing count =>
          by_cases hreached : threshold ≤ count + 1
          · simp [evaluateThresholdMetric, encodeState, AlertState.asDbStr, hreached]
            rintro rfl
            exact hreached
          · simp [evaluateThresholdMetric, encodeState, AlertState.asDbStr, hreached,
              AlertState.failCount]
            have hlt := count.toNat_lt_size
            have hsize : UInt32.size = 4294967296 := rfl
            constructor
            · intro hone
              -- only a count of zero goes on to one
              have hzero : count.toNat = 0 := by omega
              obtain rfl : count = 0 := UInt32.toNat_inj.mp hzero
              exact ⟨rfl, UInt32.not_le.mp hreached⟩
            · rintro ⟨rfl, -⟩
              rfl

theorem missingPkEvaluation_eq_iff (stats : MissingPkStats) (prior : MetricStateRow) :
    missingPkEvaluation stats (some prior) = missingPkEvaluation stats none ↔
      ∀ tables, detailLastMissing prior.detail = some tables →
        ∀ t, t ∈ tables ↔ t ∈ stats.tables := by
  simp only [missingPkEvaluation, Option.bind_some, Option.bind_none]
  cases htables : detailLastMissing prior.detail with
  | none => simp [evaluateMissingPk]
  | some tables =>
      simp only [evaluateMissingPk, Prod.mk.injEq, true_and, List.append_eq_nil_iff,
        List.map_eq_nil_iff, List.filter_eq_nil_iff, decide_not, Option.some.injEq]
      constructor
      · rintro ⟨hnew, hrestored⟩ tables' rfl t
        constructor
        · intro ht
          simpa using hrestored t (List.mem_eraseDups.mpr ht)
        · intro ht
          simpa using hnew t (List.mem_eraseDups.mpr ht)
      · intro h
        have hsame := h tables rfl
        constructor
        · intro t ht
          simpa using (hsame t).mpr (List.mem_eraseDups.mp ht)
        · intro t ht
          simpa using (hsame t).mp (List.mem_eraseDups.mp ht)

theorem indifferent_iff {snapshot : MetricsSnapshot} {config : HealthCheckTaskConfig}
    {metric : Metric} {evaluate : Evaluation}
    (h : evaluation snapshot config metric = some evaluate) (prior : MetricStateRow) :
    evaluate (some prior) = evaluate none ↔ Indifferent snapshot config prior metric := by
  rcases evaluation_cases h with ⟨hne, severity, detail, rfl⟩ | ⟨stats, rfl, hstats, rfl⟩
  · rw [machineEvaluation_eq_iff]
    cases metric with
    | missingPk => exact absurd rfl hne
    | _ => rfl
  · rw [missingPkEvaluation_eq_iff, Indifferent, hstats]
    constructor
    · rintro hsame tables stats' htables ⟨⟩
      exact hsame tables htables
    · intro hsame tables htables
      exact hsame tables stats htables rfl

/-- The rows that the run replaces are read, or nothing hangs on them. -/
def ReadsWhatItReplaces (env : Env) (snapshot : MetricsSnapshot) (config : HealthCheckTaskConfig)
    (store : AlertStore) (metric : Metric) : Prop :=
  ∀ row evaluate, store metric = some row → evaluation snapshot config metric = some evaluate →
    env.persists metric = true →
    ∃ prior, loadMetricState store metric = .ok (some prior) ∧
      (env.loads metric = true ∨ Indifferent snapshot config prior metric)

/-- Whatever the prior rows and whichever reads and writes fail, no row is replaced by one
that takes the run for a first one exactly when the rows that are replaced are read, or
nothing hangs on them. -/
theorem followsPrior_iff (env : Env) (snapshot : MetricsSnapshot) (config : HealthCheckTaskConfig)
    (store : AlertStore) (metric : Metric) :
    FollowsPrior env snapshot config store metric ↔
      ReadsWhatItReplaces env snapshot config store metric := by
  unfold FollowsPrior ReadsWhatItReplaces
  apply forall_congr'
  intro row
  apply forall_congr'
  intro evaluate
  apply imp_congr_right
  intro hrow
  apply imp_congr_right
  intro heval
  apply imp_congr_right
  intro hpersists
  apply exists_congr
  intro prior
  apply and_congr_right
  intro hload
  obtain ⟨hstore, hchanges⟩ := evaluateAll_metric env snapshot config metric store
  rw [heval] at hstore hchanges
  rw [hstore, hchanges, applyEvaluation_self, if_pos hpersists, Option.some.injEq]
  show (evaluate (priorState env store metric)).1 = _ ∧
    (evaluate (priorState env store metric)).2 = _ ↔ _
  rw [← Prod.ext_iff]
  cases hreads : env.loads metric with
  | true => simp [priorState, hreads, hload]
  | false =>
      rw [← indifferent_iff heval prior]
      simp [priorState, hreads, eq_comm]

/-- A run on a source that is down, in which the stored state can be written and not read. -/
def unreadable : Env where
  openHistory := .ok ()
  task := .ok ⟨none, none⟩
  conn := .ok ⟨.mysql, "workspace"⟩
  decrypt := .ok ()
  openPool := .ok ()
  canaryCreate := .ok ()
  selectOne := .error "connection refused"
  topTables := .error "connection refused"
  missingPk := .error "connection refused"
  connectionCount := .error "connection refused"
  loads _ := false
  persists _ := true
  delivers _ := true
  insertResult := .ok ()

/-- The alert that has been raised is forgotten, and the source is in its first failure. -/
theorem alerting_forgotten :
    let alerting := persistMetricState (fun _ => none) .connectivity .alerting none
    let snapshot := collect .mysql defaultConfig.metrics unreadable
    ¬ FollowsPrior unreadable snapshot defaultConfig alerting .connectivity ∧
      loadMetricState (evaluateAll unreadable snapshot defaultConfig alerting).1 .connectivity =
        .ok (some ⟨.failing 1, none⟩) ∧
      (evaluateAll unreadable snapshot defaultConfig alerting).2.length = 0 := by
  refine ⟨?_, rfl, rfl⟩
  intro h
  obtain ⟨prior, hload, hrow, -⟩ := h _ _ rfl rfl rfl
  cases hload
  exact absurd (congrArg (Option.map StateRow.state) hrow) (by decide)

/-! ## What the prior state is worth -/

section Kept

variable {env : Env} {snapshot : MetricsSnapshot} {config : HealthCheckTaskConfig}
  {store : AlertStore} {metric : Metric}

theorem loadMetricState_of_encoded {state : AlertState} {detail : Option Json}
    (h : store metric = some (encodeState state detail)) :
    loadMetricState store metric = .ok (some ⟨state, detail⟩) := by
  simp only [loadMetricState, h, decodeState_encodeState]
  rfl

theorem FollowsPrior.kept_or (h : FollowsPrior env snapshot config store metric)
    {prior : MetricStateRow} (hprior : loadMetricState store metric = .ok (some prior)) :
    (evaluateAll env snapshot config store).1 metric = store metric ∨
      ∃ evaluate, evaluation snapshot config metric = some evaluate ∧
        (evaluateAll env snapshot config store).1 metric = some (evaluate (some prior)).1 ∧
        (evaluateAll env snapshot config store).2.filter (fun c => c.metric = metric) =
          (evaluate (some prior)).2 := by
  have hstore := (evaluateAll_metric env snapshot config metric store).1
  cases heval : evaluation snapshot config metric with
  | none =>
      rw [heval] at hstore
      exact .inl hstore
  | some evaluate =>
      rw [heval, applyEvaluation_self] at hstore
      by_cases hpersists : env.persists metric = true
      · cases hrow : store metric with
        | none => simp [loadMetricState, hrow] at hprior
        | some row =>
            obtain ⟨prior', hload, hfollows⟩ := h row evaluate hrow heval hpersists
            rw [hprior] at hload
            cases hload
            exact .inr ⟨evaluate, rfl, hfollows⟩
      · rw [if_neg hpersists] at hstore
        exact .inl hstore

theorem FollowsPrior.alerting (h : FollowsPrior env snapshot config store metric)
    (hmetric : metric ≠ .missingPk) {detail : Option Json}
    (hprior : loadMetricState store metric = .ok (some ⟨.alerting, detail⟩)) :
    (∃ detail', loadMetricState (evaluateAll env snapshot config store).1 metric =
        .ok (some ⟨.alerting, detail'⟩)) ∨
      sampleFails snapshot config metric = false ∧
        ∃ c ∈ (evaluateAll env snapshot config store).2,
          c.metric = metric ∧ c.trigger = .resolved := by
  rcases h.kept_or hprior with hkept | ⟨evaluate, heval, hrow, hchanges⟩
  · refine .inl ⟨detail, ?_⟩
    rw [← hprior]
    simp only [loadMetricState, hkept]
  · rcases evaluation_cases heval with ⟨-, severity, d, rfl⟩ | ⟨stats, hmissing, -⟩
    · cases hsample : sampleFails snapshot config metric with
      | true =>
          rw [hsample] at hrow
          exact .inl ⟨none, loadMetricState_of_encoded hrow⟩
      | false =>
          rw [hsample] at hchanges
          refine .inr ⟨rfl, ⟨metric, severity, .resolved, d⟩, ?_, rfl, rfl⟩
          apply List.mem_of_mem_filter
          rw [hchanges]
          exact List.mem_singleton_self _
    · exact absurd hmissing hmetric

theorem FollowsPrior.streak (h : FollowsPrior env snapshot config store metric)
    (hmetric : metric ≠ .missingPk) {count : UInt32} {detail : Option Json}
    (hprior : loadMetricState store metric = .ok (some ⟨.failing count, detail⟩)) :
    ∃ state detail', loadMetricState (evaluateAll env snapshot config store).1 metric =
        .ok (some ⟨state, detail'⟩) ∧
      (state = .failing count ∨ state = .failing (count + 1) ∨ state = .alerting ∨
        sampleFails snapshot config metric = false) := by
  rcases h.kept_or hprior with hkept | ⟨evaluate, heval, hrow, -⟩
  · refine ⟨.failing count, detail, ?_, .inl rfl⟩
    rw [← hprior]
    simp only [loadMetricState, hkept]
  · rcases evaluation_cases heval with ⟨-, severity, d, rfl⟩ | ⟨stats, hmissing, -⟩
    · refine ⟨(evaluateThresholdMetric (some (.failing count))
        (sampleFails snapshot config metric) config.failThreshold metric severity).1, none,
        loadMetricState_of_encoded hrow, ?_⟩
      cases hsample : sampleFails snapshot config metric with
      | false => exact .inr (.inr (.inr rfl))
      | true =>
          simp only [evaluateThresholdMetric, Option.getD_some]
          split
          case isTrue => exact .inr (.inr (.inl rfl))
          case isFalse => exact .inr (.inl rfl)
    · exact absurd hmissing hmetric

theorem FollowsPrior.baseline (h : FollowsPrior env snapshot config store .missingPk)
    {prior : MetricStateRow} {tables : List String}
    (hprior : loadMetricState store .missingPk = .ok (some prior))
    (htables : detailLastMissing prior.detail = some tables) :
    (evaluateAll env snapshot config store).1 .missingPk = store .missingPk ∨
      ∃ stats, snapshot.missingPk = some stats ∧ ∀ t, ¬ (t ∈ tables ↔ t ∈ stats.tables) →
        ∃ c ∈ (evaluateAll env snapshot config store).2,
          c.metric = .missingPk ∧ c.detail = .obj [("table", .str t)] := by
  rcases h.kept_or hprior with hkept | ⟨evaluate, heval, -, hchanges⟩
  · exact .inl hkept
  · obtain ⟨stats, hstats, rfl⟩ := Option.map_eq_some_iff.mp heval
    refine .inr ⟨stats, hstats, fun t hdiffers => ?_⟩
    have hreported : ∃ c ∈ (missingPkEvaluation stats (some prior)).2,
        c.detail = .obj [("table", .str t)] := by
      simp only [missingPkEvaluation, evaluateMissingPk, Option.bind_some, htables]
      by_cases ht : t ∈ tables
      · have hgone : t ∉ stats.tables := fun hin => hdiffers ⟨fun _ => hin, fun _ => ht⟩
        refine ⟨_, List.mem_append_right _ (List.mem_map_of_mem
          (List.mem_filter.mpr ⟨List.mem_eraseDups.mpr ht, decide_eq_true hgone⟩)), rfl⟩
      · have hnew : t ∈ stats.tables := by
          by_contra hout
          exact hdiffers ⟨fun hin => absurd hin ht, fun hin => absurd hin hout⟩
        refine ⟨_, List.mem_append_left _ (List.mem_map_of_mem
          (List.mem_filter.mpr ⟨List.mem_eraseDups.mpr hnew, decide_eq_true ht⟩)), rfl⟩
    obtain ⟨c, hc, hdetail⟩ := hreported
    rw [← hchanges] at hc
    obtain ⟨hin, hmetric⟩ := List.mem_filter.mp hc
    exact ⟨c, hin, of_decide_eq_true hmetric, hdetail⟩

end Kept

end Dbmaster.HealthCheck.FailedReads
