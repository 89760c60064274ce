import Dbmaster.HealthCheck.FailedReads
import Dbmaster.Lib.Delta
import Dbmaster.Lib.Distinct
/-!
# The changes of `missing_pk`, replayed

Whoever adds the tables of the alerts to the baseline and takes out those of the
recoveries has the tables of the latest run.
-/

namespace Dbmaster.HealthCheck.Replay

open Dbmaster.Lib Dbmaster.Lib.Delta Dbmaster.Lib.Distinct
open Dbmaster.HealthCheck.Alert Dbmaster.HealthCheck.Runner Dbmaster.HealthCheck.FailedReads

/-! ## The runs -/

/-- One evaluation of the metric, from the stored detail to the next one. -/
def missingPkRun (detail : Option Json) (stats : MissingPkStats) : Json × List AlertChange :=
  let (persistedSet, changes) := evaluateMissingPk (detailLastMissing detail) stats
  (detailForMissingPk persistedSet, changes)

/-- What the evaluations emit, one after the other. -/
def missingPkRuns : Option Json → List MissingPkStats → List (List AlertChange)
  | _, [] => []
  | detail, stats :: later =>
      let (next, changes) := missingPkRun detail stats
      changes :: missingPkRuns (some next) later

/-! ## What a change says -/

def tableOf (change : AlertChange) : Option String :=
  (change.detail.get "table").bind Json.asStr

/-- The table that an alert adds or a recovery takes out. -/
def tableChange (change : AlertChange) : Option (Change String) :=
  (tableOf change).map fun t =>
    match change.trigger with
    | .alert => .added t
    | .resolved => .removed t

def tableSet (stats : MissingPkStats) : Set String := {t | t ∈ stats.tables}

theorem missingPkRun_detail (detail : Option Json) (stats : MissingPkStats) :
    (missingPkRun detail stats).1 = detailForMissingPk stats.tables := by
  unfold missingPkRun
  cases detailLastMissing detail <;> rfl

theorem missingPkRuns_cons (detail : Option Json) (stats : MissingPkStats)
    (later : List MissingPkStats) :
    missingPkRuns detail (stats :: later) =
      (missingPkRun detail stats).2 :: missingPkRuns (some (detailForMissingPk stats.tables)) later := by
  rw [← missingPkRun_detail detail stats]
  rfl

theorem map_tableChange_missingPkRun (tables : List String) (stats : MissingPkStats) :
    (missingPkRun (some (detailForMissingPk tables)) stats).2.map tableChange =
      ((stats.tables.eraseDups.filter fun t => t ∉ tables).map Change.added ++
        (tables.eraseDups.filter fun t => t ∉ stats.tables).map Change.removed).map some := by
  simp only [missingPkRun, detailLastMissing_detailForMissingPk, evaluateMissingPk,
    List.map_append, List.map_map]
  rfl

/-- Each event of the run names a table, and they are the difference of the two sets. -/
structure Reported (s t : Set String) (events : List AlertChange) : Prop where
  named : ∀ c ∈ events, (tableChange c).isSome
  leads : Leads s t (events.filterMap tableChange)

theorem Reported.of_perm {s t : Set String} {events events' : List AlertChange}
    (h : Reported s t events) (hperm : events'.Perm events) : Reported s t events' where
  named c hc := h.named c (hperm.mem_iff.mp hc)
  leads := h.leads.of_perm (hperm.filterMap tableChange)

theorem missingPkRun_reported (tables : List String) (stats : MissingPkStats) :
    Reported {t | t ∈ tables} (tableSet stats)
      (missingPkRun (some (detailForMissingPk tables)) stats).2 := by
  have hread := map_tableChange_missingPkRun tables stats
  constructor
  · intro c hc
    have hin : tableChange c ∈ (missingPkRun (some (detailForMissingPk tables)) stats).2.map
        tableChange := List.mem_map_of_mem hc
    rw [hread] at hin
    obtain ⟨change, -, heq⟩ := List.mem_map.mp hin
    rw [← heq]
    rfl
  · have hfilter : (missingPkRun (some (detailForMissingPk tables)) stats).2.filterMap tableChange =
        (stats.tables.eraseDups.filter fun t => t ∉ tables).map Change.added ++
          (tables.eraseDups.filter fun t => t ∉ stats.tables).map Change.removed := by
      have hid : (id ∘ tableChange : AlertChange → Option (Change String)) = tableChange := rfl
      rw [← hid, ← List.filterMap_map, hread, List.filterMap_map]
      exact List.filterMap_some
    rw [hfilter]
    refine ⟨?_, ?_, ?_⟩
    · rw [List.map_append, List.map_map, List.map_map]
      have hsubject : (Change.subject ∘ Change.added : String → String) = id := rfl
      have hsubject' : (Change.subject ∘ Change.removed : String → String) = id := rfl
      rw [hsubject, hsubject', List.map_id, List.map_id]
      apply List.Nodup.append ((nodup_eraseDups _).filter _) ((nodup_eraseDups _).filter _)
      intro t hnew hrestored
      have hgone := of_decide_eq_true (mem_filter_eraseDups.mp hrestored).2
      exact hgone (mem_filter_eraseDups.mp hnew).1
    · intro t
      simp [tableSet]
    · intro t
      simp [tableSet]

/-! ## Every sequence of runs -/

theorem reports_missingPkRuns (tables : List String) (later : List MissingPkStats)
    (reported : List (List AlertChange))
    (hreported : List.Forall₂ List.Perm reported
      (missingPkRuns (some (detailForMissingPk tables)) later)) :
    (∀ events ∈ reported, ∀ c ∈ events, (tableChange c).isSome) ∧
      Reports {t | t ∈ tables} (later.map tableSet) (reported.map (List.filterMap tableChange)) := by
  induction later generalizing tables reported with
  | nil =>
      cases hreported
      exact ⟨by simp, .nil _⟩
  | cons stats later ih =>
      rw [missingPkRuns_cons, List.forall₂_cons_right_iff] at hreported
      obtain ⟨events, rest, hrun, hrest, rfl⟩ := hreported
      obtain ⟨hnamed, hlater⟩ := ih stats.tables rest hrest
      have hown := (missingPkRun_reported tables stats).of_perm hrun
      refine ⟨?_, .cons hown.leads hlater⟩
      intro events' hin
      rcases List.mem_cons.mp hin with rfl | hin
      · exact hown.named
      · exact hnamed events' hin

theorem map_tableOf {events : List AlertChange} (h : ∀ c ∈ events, (tableChange c).isSome) :
    events.map tableOf = ((events.filterMap tableChange).map Change.subject).map some := by
  induction events with
  | nil => rfl
  | cons c events ih =>
      obtain ⟨change, hchange⟩ := Option.isSome_iff_exists.mp (h c List.mem_cons_self)
      obtain ⟨t, ht, hsubject⟩ := Option.map_eq_some_iff.mp hchange
      have hname : change.subject = t := by
        rw [← hsubject]
        cases c.trigger <;> rfl
      rw [List.map_cons, List.filterMap_cons_some hchange, List.map_cons, List.map_cons, hname, ht,
        ih fun d hd => h d (List.mem_cons_of_mem c hd)]

/-! ## The runs of the task -/

/-- A run that has collected the metric and can read and write its state. -/
structure Sees (env : Env) (snapshot : MetricsSnapshot) (stats : MissingPkStats) : Prop where
  collected : snapshot.missingPk = some stats
  loads : env.loads .missingPk = true
  persists : env.persists .missingPk = true

theorem evaluateAll_missingPk {env : Env} {snapshot : MetricsSnapshot} {stats : MissingPkStats}
    (h : Sees env snapshot stats) (config : HealthCheckTaskConfig) {store : AlertStore}
    {prior : Option MetricStateRow} (hload : loadMetricState store .missingPk = .ok prior) :
    let run := missingPkRun (prior.bind (·.detail)) stats
    loadMetricState (evaluateAll env snapshot config store).1 .missingPk =
        .ok (some ⟨.ok, some run.1⟩) ∧
      (evaluateAll env snapshot config store).2.filter (fun c => c.metric = .missingPk) = run.2 := by
  obtain ⟨hstore, hchanges⟩ := evaluateAll_metric env snapshot config .missingPk store
  have hprior : priorState env store .missingPk = prior := by
    simp only [priorState, h.loads, hload, if_true]
  have hdetail : (prior.bind fun r => detailLastMissing r.detail) =
      detailLastMissing (prior.bind (·.detail)) := by cases prior <;> rfl
  simp only [evaluation, h.collected, Option.map_some] at hstore hchanges
  rw [applyEvaluation_self, if_pos h.persists, hprior] at hstore
  rw [applyEvaluation, hprior] at hchanges
  constructor
  · simp only [missingPkEvaluation, hdetail] at hstore
    exact loadMetricState_of_encoded hstore
  · simp only [missingPkEvaluation, hdetail] at hchanges
    exact hchanges

def emitted : AlertStore → List (Env × MetricsSnapshot × HealthCheckTaskConfig) →
    List (List AlertChange)
  | _, [] => []
  | store, (env, snapshot, config) :: runs =>
      let (next, changes) := evaluateAll env snapshot config store
      changes.filter (fun c => c.metric = .missingPk) :: emitted next runs

theorem emitted_eq (runs : List (Env × MetricsSnapshot × HealthCheckTaskConfig))
    (seen : List MissingPkStats) (hsees : List.Forall₂ (fun run stats => Sees run.1 run.2.1 stats) runs seen)
    {store : AlertStore} {prior : Option MetricStateRow}
    (hload : loadMetricState store .missingPk = .ok prior) :
    emitted store runs = missingPkRuns (prior.bind (·.detail)) seen := by
  induction hsees generalizing store prior with
  | nil => rfl
  | @cons run stats runs seen hrun _ ih =>
      obtain ⟨env, snapshot, config⟩ := run
      obtain ⟨hnext, hchanges⟩ := evaluateAll_missingPk hrun config hload
      rw [missingPkRuns, emitted]
      simp only [hchanges, ih hnext]
      rfl

/-! ## All together -/

/-- Whatever the lists of tables and the order in which each run reports its changes, those
of the runs after the baseline, replayed on its tables, give the tables of the latest run,
and no run reports a table twice.  The changes are those that a task emits from its first run on
when every run has the metric and its state. -/
theorem events_replay (baseline : MissingPkStats) (later : List MissingPkStats)
    (reported : List (List AlertChange))
    (hreported : List.Forall₂ List.Perm reported (missingPkRuns none (baseline :: later))) :
    replay (tableSet baseline) (reported.flatten.filterMap tableChange) =
        tableSet (later.getLast?.getD baseline) ∧
      (∀ events ∈ reported, (∀ c ∈ events, (tableOf c).isSome) ∧ (events.map tableOf).Nodup) ∧
      ∀ (store : AlertStore) (runs : List (Env × MetricsSnapshot × HealthCheckTaskConfig)),
        loadMetricState store .missingPk = .ok none →
        List.Forall₂ (fun run stats => Sees run.1 run.2.1 stats) runs (baseline :: later) →
        emitted store runs = missingPkRuns none (baseline :: later) := by
  rw [missingPkRuns_cons, List.forall₂_cons_right_iff] at hreported
  obtain ⟨first, rest, hfirst, hrest, rfl⟩ := hreported
  obtain rfl : first = [] := List.perm_nil.mp hfirst
  obtain ⟨hnamed, hreports⟩ := reports_missingPkRuns baseline.tables later rest hrest
  refine ⟨?_, ?_, fun store runs hload hsees => emitted_eq runs _ hsees hload⟩
  · have hreplay := hreports.replay_eq
    rw [← List.filterMap_flatten, List.getLast?_map] at hreplay
    show replay (tableSet baseline) (rest.flatten.filterMap tableChange) = _
    rw [← Option.getD_map tableSet]
    exact hreplay
  · intro events hin
    rcases List.mem_cons.mp hin with rfl | hin
    · exact ⟨by simp, List.nodup_nil⟩
    · refine ⟨fun c hc => ?_, ?_⟩
      · rw [← Option.isSome_map]
        exact hnamed events hin c hc
      · rw [map_tableOf (hnamed events hin)]
        have honce := hreports.once _ (List.mem_map_of_mem hin)
        exact honce.map fun _ _ => Option.some.inj

def fiveLists : List MissingPkStats := [⟨["b", "c", "c"]⟩, ⟨["a", "c"]⟩, ⟨[]⟩, ⟨["c", "a", "c"]⟩]

theorem events_replay_fiveLists :
    ∃ reported, List.Forall₂ List.Perm reported (missingPkRuns none (⟨["a", "b"]⟩ :: fiveLists)) ∧
      replay {t | t ∈ ["a", "b"]} (reported.flatten.filterMap tableChange) = {t | t ∈ ["c", "a", "c"]} :=
  ⟨_, List.forall₂_same.mpr fun _ _ => List.Perm.refl _,
    (events_replay ⟨["a", "b"]⟩ fiveLists _
      (List.forall₂_same.mpr fun _ _ => List.Perm.refl _)).1⟩

end Dbmaster.HealthCheck.Replay
