import Dbmaster.HealthCheck.FailedReads
import Dbmaster.Lib.ReadWrite
/-!
# Runs that overlap

The statements of two runs of one task, one of the scheduler and one of `run_task_now`, in any
order.  Each metric is read in one statement and written in another; nothing keeps the other
run from writing in between.
-/

namespace Dbmaster.HealthCheck.Overlap

open Dbmaster.Lib Dbmaster.Lib.Transition Dbmaster.Lib.ReadWrite
open Dbmaster.HealthCheck.Alert Dbmaster.HealthCheck.Runner Dbmaster.HealthCheck.FailedReads

/-! ## The statements of a run -/

/-- What `evaluate_all` is called with, and the answers of the store to its statements. -/
structure Evaluated where
  env : Env
  snapshot : MetricsSnapshot
  config : HealthCheckTaskConfig

/-- One metric of a run: the row that is loaded, what is emitted, and the row to persist.  A
metric that was not collected is passed over. -/
def metricJob (label : Evaluated × Metric) : Job AlertStore (Option StateRow) AlertChange where
  view store := store label.2
  run row :=
    match evaluation label.1.snapshot label.1.config label.2 with
    | none => ([], none)
    | some evaluate =>
        let (newRow, changes) := evaluate (priorState label.1.env (fun _ => row) label.2)
        (changes,
          if label.1.env.persists label.2 then
            some fun store m => if m = label.2 then some newRow else store m
          else none)

def program (run : Evaluated) : List (Evaluated × Metric) :=
  evaluationOrder.map fun metric => (run, metric)

def evaluateRun (run : Evaluated) (store : AlertStore) : AlertStore × List AlertChange :=
  evaluateAll run.env run.snapshot run.config store

abbrev Overlapping := World AlertStore (Option StateRow) AlertChange (Evaluated × Metric)

/-! ## What should hold -/

def changesOf (metric : Metric) (changes : List AlertChange) : List AlertChange :=
  changes.filter fun c => c.metric = metric

/-- What two runs leave behind: the store and what each has emitted. -/
structure Outcome where
  store : AlertStore
  first : List AlertChange
  second : List AlertChange

def oneThenOther (first second : Evaluated) (store : AlertStore) : Outcome :=
  let (store, changes) := evaluateRun first store
  let (store, later) := evaluateRun second store
  ⟨store, changes, later⟩

def otherThenOne (first second : Evaluated) (store : AlertStore) : Outcome :=
  let outcome := oneThenOther second first store
  ⟨outcome.store, outcome.second, outcome.first⟩

/-- The outcomes agree on a metric: on its row and on what was emitted for it. -/
structure AgreeOn (metric : Metric) (a b : Outcome) : Prop where
  row : a.store metric = b.store metric
  first : changesOf metric a.first = changesOf metric b.first
  second : changesOf metric a.second = changesOf metric b.second

/-- Both runs have ended, with this outcome. -/
structure Ended (w : Overlapping) (outcome : Outcome) : Prop where
  store : w.state = outcome.store
  first : w.threads[0]? = some ⟨outcome.first, none, []⟩
  second : w.threads[1]? = some ⟨outcome.second, none, []⟩

/-! ## One run alone -/

theorem apply_metricJob (run : Evaluated) (metric : Metric) (store : AlertStore) :
    (metricJob (run, metric)).apply store =
        (applyEvaluation run.env metric (evaluation run.snapshot run.config metric) store).1 ∧
      (metricJob (run, metric)).output store =
        (applyEvaluation run.env metric (evaluation run.snapshot run.config metric) store).2 := by
  have hprior : priorState run.env (fun _ => store metric) metric =
      priorState run.env store metric := priorState_congr rfl
  unfold Job.apply Job.output metricJob applyEvaluation
  cases evaluation run.snapshot run.config metric with
  | none => exact ⟨rfl, rfl⟩
  | some evaluate =>
      by_cases hpersists : run.env.persists metric = true
      · simp only [hprior, hpersists, if_true, and_self]
      · simp only [hprior, hpersists, if_false, and_self, Bool.false_eq_true]

/-- The jobs of a run, as those of thread `k`. -/
def whole (k : Nat) (run : Evaluated) : List (Nat × Evaluated × Metric) :=
  (program run).map fun label => (k, label)

/-- A run that no other comes between is `evaluate_all` as a whole. -/
theorem after_whole (k : Nat) (run : Evaluated) (store : AlertStore) :
    after metricJob (whole k run) store = (evaluateRun run store).1 ∧
      ∀ i, outputs metricJob i (whole k run) store =
        if k = i then (evaluateRun run store).2 else [] := by
  unfold whole evaluateRun program
  rw [evaluateAll_eq]
  generalize evaluationOrder = metrics
  induction metrics generalizing store with
  | nil => exact ⟨rfl, fun i => (ite_self []).symm⟩
  | cons metric metrics ih =>
      obtain ⟨hstore, hchanges⟩ := apply_metricJob run metric store
      obtain ⟨hlast, hlater⟩ := ih ((metricJob (run, metric)).apply store)
      simp only [List.map_cons, after, outputs, applyAll]
      rw [hlast, hstore]
      refine ⟨rfl, fun i => ?_⟩
      rw [← hstore, hlater, hstore, hchanges]
      by_cases hk : k = i
      · rw [if_pos hk, if_pos hk, if_pos hk]
      · rw [if_neg hk, if_neg hk, if_neg hk]
        rfl

theorem after_oneThenOther (i k : Nat) (hne : k ≠ i) (first second : Evaluated)
    (store : AlertStore) :
    let order := whole i first ++ whole k second
    let outcome := oneThenOther first second store
    after metricJob order store = outcome.store ∧
      outputs metricJob i order store = outcome.first ∧
      outputs metricJob k order store = outcome.second := by
  obtain ⟨hfirst, hchanges⟩ := after_whole i first store
  obtain ⟨hsecond, hlater⟩ := after_whole k second (evaluateRun first store).1
  simp only [after_append, outputs_append, hfirst, hsecond, hchanges, hlater, if_true,
    if_neg hne, if_neg (Ne.symm hne), List.append_nil, List.nil_append]
  exact ⟨rfl, rfl, rfl⟩

/-! ## One metric -/

theorem after_metric (metric : Metric) (order : List (Nat × Evaluated × Metric))
    (store store' : AlertStore) (h : store metric = store' metric) :
    let own := order.filter fun entry => entry.2.2 = metric
    after metricJob order store metric = after metricJob own store' metric ∧
      ∀ i, changesOf metric (outputs metricJob i order store) = outputs metricJob i own store' := by
  induction order generalizing store store' with
  | nil => exact ⟨h, fun _ => rfl⟩
  | cons entry order ih =>
      obtain ⟨k, run, m⟩ := entry
      obtain ⟨hstore, hchanges⟩ := apply_metricJob run m store
      have hown : ∀ i, changesOf metric (if k = i then (metricJob (run, m)).output store else []) =
          if m = metric then (if k = i then (metricJob (run, m)).output store else []) else [] := by
        intro i
        by_cases hk : k = i
        · rw [if_pos hk, hchanges]
          exact filter_applyEvaluation run.env run.snapshot run.config m metric store
        · rw [if_neg hk, ite_self]
          rfl
      simp only [after, outputs, changesOf, List.filter_append, List.filter_cons] at hown ⊢
      by_cases hm : m = metric
      · subst hm
        obtain ⟨hstore', hchanges'⟩ := apply_metricJob run m store'
        obtain ⟨hrow, hemitted⟩ := @applyEvaluation_congr run.env m
          (evaluation run.snapshot run.config m) _ _ h
        rw [← hstore, ← hstore'] at hrow
        rw [← hchanges, ← hchanges'] at hemitted
        obtain ⟨hlast, hlater⟩ := ih _ _ hrow
        simp only [decide_true, if_true, after, outputs]
        refine ⟨hlast, fun i => ?_⟩
        rw [hown, if_pos rfl, hemitted, ← hlater]
        rfl
      · have hrow : (metricJob (run, m)).apply store metric = store' metric := by
          rw [hstore, applyEvaluation_of_ne (Ne.symm hm)]
          exact h
        obtain ⟨hlast, hlater⟩ := ih _ _ hrow
        simp only [hm, decide_false, Bool.false_eq_true, if_false]
        refine ⟨hlast, fun i => ?_⟩
        rw [hown, if_neg hm, List.nil_append, ← hlater]
        rfl

/-! ## Both runs -/

theorem agreeOn_of_filter {metric : Metric} (order order' : List (Nat × Evaluated × Metric))
    (h : order.filter (fun entry => entry.2.2 = metric) =
      order'.filter fun entry => entry.2.2 = metric) (store : AlertStore) :
    AgreeOn metric
      ⟨after metricJob order store, outputs metricJob 0 order store, outputs metricJob 1 order store⟩
      ⟨after metricJob order' store, outputs metricJob 0 order' store,
        outputs metricJob 1 order' store⟩ := by
  obtain ⟨hrow, hchanges⟩ := after_metric metric order store store rfl
  obtain ⟨hrow', hchanges'⟩ := after_metric metric order' store store rfl
  rw [h] at hrow hchanges
  exact ⟨hrow.trans hrow'.symm, (hchanges 0).trans (hchanges' 0).symm,
    (hchanges 1).trans (hchanges' 1).symm⟩

theorem filter_whole (k : Nat) (run : Evaluated) (metric : Metric) :
    (whole k run).filter (fun entry => entry.2.2 = metric) = [(k, run, metric)] := by
  cases metric <;> rfl

theorem labels_of_ended {first second : Evaluated} {store : AlertStore} {w : Overlapping}
    {order : List (Nat × Evaluated × Metric)} {outcome : Outcome}
    (hserial : Serial metricJob [program first, program second] store order w)
    (hended : Ended w outcome) : labels 0 order = program first ∧ labels 1 order = program second := by
  have hfirst := hserial.labels 0 _ hended.first
  have hsecond := hserial.labels 1 _ hended.second
  simp only [List.append_nil] at hfirst hsecond
  exact ⟨(Option.some.inj hfirst).symm, (Option.some.inj hsecond).symm⟩

/-- Where each persist still meets the row that its run has loaded, a metric is as after one
run and then the other. -/
theorem serial_on_each_metric (first second : Evaluated) (store : AlertStore)
    (acts : List ReadWrite.Action) (w : Overlapping) (outcome : Outcome)
    (hrun : Run (ReadWrite.step metricJob) (Fresh metricJob)
      (.initial store [program first, program second]) acts w)
    (hended : Ended w outcome) (metric : Metric) :
    AgreeOn metric outcome (oneThenOther first second store) ∨
      AgreeOn metric outcome (otherThenOne first second store) := by
  obtain ⟨order, hserial⟩ := serial_of_fresh hrun
  obtain ⟨hfirst, hsecond⟩ := labels_of_ended hserial hended
  have houtcome : outcome = ⟨after metricJob order store, outputs metricJob 0 order store,
      outputs metricJob 1 order store⟩ := by
    rw [← hserial.state, ← hserial.output 0 _ hended.first, ← hserial.output 1 _ hended.second,
      hended.store]
  have howns : ∀ run : Evaluated, (program run).filter (fun label => label.2 = metric) =
      [(run, metric)] := by
    intro run
    cases metric <;> rfl
  -- each run has one job on the metric, so there are two orders
  have htwo := two_orders (x := (first, metric)) (y := (second, metric))
    (order.filter fun entry => entry.2.2 = metric)
    (fun entry hentry => hserial.bound entry (List.mem_of_mem_filter hentry))
    ((labels_filter 0 (fun label => label.2 = metric) order).trans (hfirst ▸ howns first))
    ((labels_filter 1 (fun label => label.2 = metric) order).trans (hsecond ▸ howns second))
  rw [houtcome]
  rcases htwo with horder | horder
  · left
    obtain ⟨hstore, hone, hother⟩ := after_oneThenOther 0 1 (by decide) first second store
    have hagree := agreeOn_of_filter order (whole 0 first ++ whole 1 second)
      (horder.trans (by rw [List.filter_append, filter_whole, filter_whole]; rfl)) store
    rw [hstore, hone, hother] at hagree
    exact hagree
  · right
    obtain ⟨hstore, hone, hother⟩ := after_oneThenOther 1 0 (by decide) second first store
    have hagree := agreeOn_of_filter order (whole 1 second ++ whole 0 first)
      (horder.trans (by rw [List.filter_append, filter_whole, filter_whole]; rfl)) store
    rw [hstore, hone, hother] at hagree
    exact hagree

/-! ## Two runs of one task -/

def Serialisable (first second : Evaluated) (store : AlertStore) (outcome : Outcome) : Prop :=
  (∀ metric, AgreeOn metric outcome (oneThenOther first second store)) ∨
    ∀ metric, AgreeOn metric outcome (otherThenOne first second store)

def outcomeOf (order : List (Nat × Evaluated × Metric)) (store : AlertStore) : Outcome :=
  ⟨after metricJob order store, outputs metricJob 0 order store, outputs metricJob 1 order store⟩

theorem exists_ended (first second : Evaluated) (order : List (Nat × Evaluated × Metric))
    (hbound : ∀ entry ∈ order, entry.1 < 2) (hfirst : labels 0 order = program first)
    (hsecond : labels 1 order = program second) (store : AlertStore) :
    ∃ acts w, Run (ReadWrite.step metricJob) (Fresh metricJob)
      (.initial store [program first, program second]) acts w ∧ Ended w (outcomeOf order store) := by
  have hlabels : ∀ i label, [program first, program second][i]? = some label →
      labels i order = label := by
    intro i label hi
    match i with
    | 0 => exact hfirst.trans (Option.some.inj hi)
    | 1 => exact hsecond.trans (Option.some.inj hi)
    | i + 2 => cases hi
  obtain ⟨acts, hrun⟩ := exists_run metricJob store hbound hlabels
  exact ⟨acts, _, hrun, rfl, rfl, rfl⟩

/-- The store answers every statement. -/
def answering : Env := { unreadable with loads := fun _ => true }

def busy (rows connections : Nat) : Evaluated where
  env := answering
  snapshot :=
    { connectivity := ⟨true, 3, none⟩
      rowCount := some ⟨[("orders", rows)]⟩
      missingPk := none
      connectionCount := some connections
      dbType := "mysql"
      unsupportedMetrics := [] }
  config := { defaultConfig with failThreshold := 1 }

def down : Evaluated where
  env := answering
  snapshot :=
    { connectivity := ⟨false, 0, some "connection refused"⟩
      rowCount := none
      missingPk := none
      connectionCount := none
      dbType := "mysql"
      unsupportedMetrics := [] }
  config := defaultConfig

theorem serial_on_each_metric_busy :
    ∃ acts w outcome, Run (ReadWrite.step metricJob) (Fresh metricJob)
        (.initial (fun _ => none) [program (busy 20000000 5), program (busy 10 5)]) acts w ∧
      Ended w outcome ∧
      (AgreeOn .rowCount outcome (oneThenOther (busy 20000000 5) (busy 10 5) fun _ => none) ∨
        AgreeOn .rowCount outcome (otherThenOne (busy 20000000 5) (busy 10 5) fun _ => none)) := by
  obtain ⟨acts, w, hrun, hended⟩ := exists_ended (busy 20000000 5) (busy 10 5)
    (whole 0 (busy 20000000 5) ++ whole 1 (busy 10 5)) (by decide) rfl rfl fun _ => none
  exact ⟨acts, w, _, hrun, hended, serial_on_each_metric _ _ _ acts w _ hrun hended .rowCount⟩

def downTwice : AlertStore := persistMetricState (fun _ => none) .connectivity (.failing 2) none

/-- Both runs load the row before either persists its own. -/
def bothLoaded : List ReadWrite.Action :=
  [.read 0, .read 1, .write 0, .write 1, .read 0, .read 0, .read 0, .read 1, .read 1, .read 1]

theorem alerted_twice :
    ∃ w outcome, exec (ReadWrite.step metricJob)
        (.initial downTwice [program down, program down]) bothLoaded = some w ∧
      Ended w outcome ∧ (changesOf .connectivity outcome.first).map (·.trigger) = [.alert] ∧
      (changesOf .connectivity outcome.second).map (·.trigger) = [.alert] :=
  ⟨_, ⟨_, _, _⟩, rfl, ⟨rfl, rfl, rfl⟩, rfl, rfl⟩

def crossed : List (Nat × Evaluated × Metric) :=
  let one := busy 20000000 200
  let other := busy 10 5
  [(0, one, .connectivity), (1, other, .connectivity), (0, one, .rowCount), (1, other, .rowCount),
    (1, other, .connectionCount), (0, one, .connectionCount), (0, one, .missingPk),
    (1, other, .missingPk)]

/-- Runs that overlap need not be serial, and where no persist meets another row the orders of
two metrics can differ. -/
theorem overlapping_not_serial :
    (¬ ∀ first second store acts w outcome,
      Run (ReadWrite.step metricJob) anyStep (.initial store [program first, program second]) acts w →
      Ended w outcome → Serialisable first second store outcome) ∧
    ¬ ∀ first second store acts w outcome,
      Run (ReadWrite.step metricJob) (Fresh metricJob)
        (.initial store [program first, program second]) acts w →
      Ended w outcome → Serialisable first second store outcome := by
  constructor
  · intro hall
    obtain ⟨w, outcome, hw, hended, hfirst, hsecond⟩ := alerted_twice
    -- the run that comes second alerts no more
    rcases hall down down downTwice _ w outcome (run_of_exec hw) hended with hserial | hserial
    · have hnone := (hserial .connectivity).second
      have htrigger := congrArg (List.map (·.trigger)) hnone
      rw [hsecond] at htrigger
      exact absurd htrigger (by decide +kernel)
    · have hnone := (hserial .connectivity).first
      have htrigger := congrArg (List.map (·.trigger)) hnone
      rw [hfirst] at htrigger
      exact absurd htrigger (by decide +kernel)
  · intro hall
    obtain ⟨acts, w, hrun, hended⟩ := exists_ended (busy 20000000 200) (busy 10 5) crossed
      (by decide) rfl rfl fun _ => none
    rcases hall _ _ _ acts w _ hrun hended with hserial | hserial
    · have hrow := congrArg (Option.map StateRow.state) (hserial .connectionCount).row
      exact absurd hrow (by decide +kernel)
    · have hrow := congrArg (Option.map StateRow.state) (hserial .rowCount).row
      exact absurd hrow (by decide +kernel)

end Dbmaster.HealthCheck.Overlap
