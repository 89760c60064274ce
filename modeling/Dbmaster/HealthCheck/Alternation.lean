import Dbmaster.HealthCheck.Alert
/-!
# Alerts and recoveries alternate

One metric over a sequence of samples, its state stored and loaded between them.
-/

namespace Dbmaster.HealthCheck.Alternation

open Dbmaster.Lib Dbmaster.HealthCheck.Alert

/-- One observation of the metric, with the threshold in force when it is made and the
detail that is stored with the state. -/
structure Sample where
  failing : Bool
  threshold : UInt32
  detail : Option Json

/-- One sample: the state is loaded, evaluated and persisted. -/
def feedSample (metric : Metric) (severity : Severity) (store : AlertStore) (sample : Sample) :
    Except String (AlertStore × Option AlertChange) :=
  (loadMetricState store metric).map fun row =>
    let (newState, change) := evaluateThresholdMetric (row.map (·.state)) sample.failing
      sample.threshold metric severity
    (persistMetricState store metric newState sample.detail, change)

def feed (metric : Metric) (severity : Severity) :
    AlertStore → List Sample → Except String (AlertStore × List AlertChange)
  | store, [] => .ok (store, [])
  | store, sample :: samples => do
      let (next, change) ← feedSample metric severity store sample
      let (last, changes) ← feed metric severity next samples
      return (last, change.toList ++ changes)

def stateOf (metric : Metric) (store : AlertStore) : Except String AlertState :=
  (loadMetricState store metric).map fun row => (row.map (·.state)).getD .ok

/-! ## One sample -/

def opposite : Trigger → Trigger
  | .alert => .resolved
  | .resolved => .alert

def nextTrigger : AlertState → Trigger
  | .alerting => .resolved
  | _ => .alert

theorem nextTrigger_eq_resolved {state : AlertState} :
    nextTrigger state = .resolved ↔ state = .alerting := by
  cases state <;> simp [nextTrigger]

theorem nextTrigger_of_silent {state newState : AlertState} {failing : Bool}
    {threshold : UInt32} {metric : Metric} {severity : Severity}
    (h : evaluateThresholdMetric (some state) failing threshold metric severity =
      (newState, none)) : nextTrigger newState = nextTrigger state := by
  unfold evaluateThresholdMetric at h
  split at h
  case h_1 => cases h
  case h_5 count hstate =>
    simp only [] at h
    split at h
    case isTrue => cases h
    case isFalse =>
      cases h
      rw [show state = .failing count from hstate]
      rfl
  all_goals
    cases h
    rename_i hstate
    rw [Option.getD_some] at hstate
    subst hstate
    rfl

theorem nextTrigger_of_emitted {state newState : AlertState} {failing : Bool}
    {threshold : UInt32} {metric : Metric} {severity : Severity} {change : AlertChange}
    (h : evaluateThresholdMetric (some state) failing threshold metric severity =
      (newState, some change)) :
    change.trigger = nextTrigger state ∧ nextTrigger newState = opposite change.trigger := by
  unfold evaluateThresholdMetric at h
  split at h
  case h_1 hstate =>
    cases h
    rw [show state = .alerting from hstate]
    exact ⟨rfl, rfl⟩
  case h_5 count hstate =>
    simp only [] at h
    split at h
    case isTrue =>
      cases h
      rw [show state = .failing count from hstate]
      exact ⟨rfl, rfl⟩
    case isFalse => cases h
  all_goals cases h

/-- The length of the failing streak after one more sample. -/
def streakStep (streak : Nat) (sample : Sample) : Nat :=
  if sample.failing then streak + 1 else 0

/-- The length of the failing streak that the samples end in. -/
def failingStreak (samples : List Sample) : Nat := samples.foldl streakStep 0

/-- A counter is the length of the streak, and in `ok` there is none. -/
def Counts (state : AlertState) (streak : Nat) : Prop :=
  (∀ count, state = .failing count → count.toNat = streak ∧ count.toNat + 1 < UInt32.size) ∧
    (state = .ok → streak = 0)

theorem counts_evaluate {state : AlertState} {streak : Nat} (hcounts : Counts state streak)
    (sample : Sample) (metric : Metric) (severity : Severity) :
    Counts (evaluateThresholdMetric (some state) sample.failing sample.threshold metric
      severity).1 (streakStep streak sample) := by
  cases hfailing : sample.failing with
  | false =>
      have hok : (evaluateThresholdMetric (some state) false sample.threshold metric
          severity).1 = .ok := by cases state <;> rfl
      rw [hok, streakStep, hfailing, if_neg Bool.false_ne_true]
      exact ⟨fun _ h => (nomatch h), fun _ => rfl⟩
  | true =>
      rw [streakStep, hfailing, if_pos rfl]
      constructor
      · intro count hcount
        refine ⟨?_, evaluateThresholdMetric_bounded hcount⟩
        cases state with
        | alerting => cases hcount
        | ok =>
            cases hcount
            rw [hcounts.2 rfl]
            rfl
        | failing prior =>
            have ⟨hprior, hroom⟩ := hcounts.1 prior rfl
            simp only [evaluateThresholdMetric, Option.getD_some] at hcount
            split at hcount
            case isTrue => cases hcount
            case isFalse =>
              cases hcount
              rw [UInt32.toNat_add, UInt32.toNat_one, hprior]
              apply Nat.mod_eq_of_lt
              rw [← hprior]
              exact hroom
      · intro hok
        cases state with
        | alerting => cases hok
        | ok => cases hok
        | failing prior =>
            simp only [evaluateThresholdMetric, Option.getD_some] at hok
            split at hok
            case isTrue => cases hok
            case isFalse => cases hok

/-! ## Every sequence of samples -/

/-- The triggers alternate, and the first of them is the given one. -/
def Alternates : Trigger → List Trigger → Prop
  | _, [] => True
  | next, trigger :: triggers => trigger = next ∧ Alternates (opposite next) triggers

variable {metric : Metric} {severity : Severity}

theorem feedSample_of_state (severity : Severity) {store : AlertStore} {state : AlertState}
    (h : stateOf metric store = .ok state) (sample : Sample) :
    ∃ next, feedSample metric severity store sample =
        .ok (next, (evaluateThresholdMetric (some state) sample.failing sample.threshold metric
          severity).2) ∧
      stateOf metric next = .ok (evaluateThresholdMetric (some state) sample.failing
        sample.threshold metric severity).1 := by
  unfold stateOf at h
  cases hload : loadMetricState store metric with
  | error e =>
      rw [hload] at h
      cases h
  | ok row =>
      rw [hload] at h
      have hsame : ∀ failing threshold,
          evaluateThresholdMetric (row.map (·.state)) failing threshold metric severity =
            evaluateThresholdMetric (some state) failing threshold metric severity := by
        intro failing threshold
        unfold evaluateThresholdMetric
        rw [show (row.map (·.state)).getD .ok = state from Except.ok.inj h, Option.getD_some]
      refine ⟨persistMetricState store metric (evaluateThresholdMetric (some state)
        sample.failing sample.threshold metric severity).1 sample.detail, ?_, ?_⟩
      · unfold feedSample
        rw [hload, ← hsame]
        rfl
      · unfold stateOf
        rw [loadMetricState_persist_self]
        rfl

def nextAfter (next : Trigger) (changes : List AlertChange) : Trigger :=
  (changes.getLast?.map fun change => opposite change.trigger).getD next

theorem nextAfter_cons (next : Trigger) (change : AlertChange) (changes : List AlertChange) :
    nextAfter next (change :: changes) = nextAfter (opposite change.trigger) changes := by
  unfold nextAfter
  rw [List.getLast?_cons]
  cases changes.getLast? <;> rfl

/-- What the samples do from a state that can be read: they alternate from the change that
comes next in it, and they keep the count. -/
structure Fed (metric : Metric) (state : AlertState) (samples : List Sample)
    (last : AlertStore) (changes : List AlertChange) (final : AlertState) : Prop where
  reached : stateOf metric last = .ok final
  alternates : Alternates (nextTrigger state) (changes.map (·.trigger))
  next : nextTrigger final = nextAfter (nextTrigger state) changes
  counts : ∀ streak, Counts state streak → Counts final (samples.foldl streakStep streak)

theorem feed_fed (severity : Severity) (samples : List Sample) {store : AlertStore} {state : AlertState}
    (h : stateOf metric store = .ok state) :
    ∃ last changes final, feed metric severity store samples = .ok (last, changes) ∧
      Fed metric state samples last changes final := by
  induction samples generalizing store state with
  | nil => exact ⟨store, [], state, rfl, h, trivial, rfl, fun _ hcounts => hcounts⟩
  | cons sample samples ih =>
      obtain ⟨next, hsample, hnext⟩ := feedSample_of_state severity h sample
      obtain ⟨last, changes, final, hfeed, hfed⟩ := ih hnext
      have hcounts : ∀ streak, Counts state streak →
          Counts final ((sample :: samples).foldl streakStep streak) := by
        intro streak hstreak
        exact hfed.counts _ (counts_evaluate hstreak sample metric severity)
      cases heval : evaluateThresholdMetric (some state) sample.failing sample.threshold metric
          severity with
      | mk newState change =>
        rw [heval] at hsample hfed
        cases change with
        | none =>
            have hsilent := nextTrigger_of_silent heval
            refine ⟨last, changes, final, ?_, hfed.reached, ?_, ?_, hcounts⟩
            · rw [feed, hsample]
              show (feed metric severity next samples).bind _ = _
              rw [hfeed]
              rfl
            · rw [← hsilent]
              exact hfed.alternates
            · rw [← hsilent]
              exact hfed.next
        | some change =>
            obtain ⟨htrigger, hturn⟩ := nextTrigger_of_emitted heval
            refine ⟨last, change :: changes, final, ?_, hfed.reached, ⟨htrigger, ?_⟩, ?_,
              hcounts⟩
            · rw [feed, hsample]
              show (feed metric severity next samples).bind _ = _
              rw [hfeed]
              rfl
            · rw [← htrigger, ← hturn]
              exact hfed.alternates
            · rw [nextAfter_cons, ← hturn]
              exact hfed.next

theorem feed_append (before samples : List Sample) {store middle : AlertStore}
    {emitted : List AlertChange}
    (h : feed metric severity store before = .ok (middle, emitted)) :
    feed metric severity store (before ++ samples) =
      (feed metric severity middle samples).map fun r => (r.1, emitted ++ r.2) := by
  induction before generalizing store emitted with
  | nil =>
      cases h
      rw [List.nil_append]
      cases feed metric severity middle samples <;> rfl
  | cons sample before ih =>
      rw [List.cons_append, feed]
      rw [feed] at h
      cases hsample : feedSample metric severity store sample with
      | error e =>
          rw [hsample] at h
          cases h
      | ok fed =>
          rw [hsample] at h
          cases hrest : feed metric severity fed.1 before with
          | error e =>
              replace h : (feed metric severity fed.1 before).bind _ = _ := h
              rw [hrest] at h
              cases h
          | ok rest =>
              replace h : (feed metric severity fed.1 before).bind _ = _ := h
              rw [hrest] at h
              cases h
              show (feed metric severity fed.1 (before ++ samples)).bind _ = _
              rw [ih hrest]
              cases feed metric severity rest.1 samples with
              | error e => rfl
              | ok later =>
                  show Except.ok (later.1, fed.2.toList ++ (rest.2 ++ later.2)) =
                    Except.ok (later.1, fed.2.toList ++ rest.2 ++ later.2)
                  rw [List.append_assoc]

def noState (metric : Metric) (others : AlertStore) : AlertStore :=
  fun m => if m = metric then none else others m

theorem stateOf_noState (others : AlertStore) :
    stateOf metric (noState metric others) = .ok .ok := by
  simp only [stateOf, loadMetricState, noState, if_true]
  rfl

/-- `before` leads to the initial state and `samples` follow.  The changes of the whole
history alternate from an alert, and those that `samples` emit from a recovery if the
initial state is `alerting`.  The state is `alerting` exactly when the last change of the
history is an alert, and a counter is the length of the failing streak. -/
theorem changes_alternate (metric : Metric) (severity : Severity) (others : AlertStore)
    (before samples : List Sample) :
    ∃ store emitted initial last changes final,
      feed metric severity (noState metric others) before = .ok (store, emitted) ∧
      stateOf metric store = .ok initial ∧
      feed metric severity store samples = .ok (last, changes) ∧
      stateOf metric last = .ok final ∧
      Alternates .alert ((emitted ++ changes).map (·.trigger)) ∧
      Alternates (if initial = .alerting then .resolved else .alert)
        (changes.map (·.trigger)) ∧
      (final = .alerting ↔ (emitted ++ changes).getLast?.map (·.trigger) = some .alert) ∧
      ∀ count, final = .failing count → count.toNat = failingStreak (before ++ samples) := by
  have hnone : stateOf metric (noState metric others) = .ok .ok := stateOf_noState others
  obtain ⟨store, emitted, initial, hbefore, hfed⟩ := feed_fed severity before hnone
  obtain ⟨last, changes, final, hsamples, hlater⟩ :=
    feed_fed severity samples hfed.reached
  obtain ⟨last', all, final', hall, hwhole⟩ :=
    feed_fed severity (before ++ samples) hnone
  -- the whole history is the two parts one after the other
  rw [feed_append before samples hbefore, hsamples] at hall
  have heq : (last, emitted ++ changes) = (last', all) := Except.ok.inj hall
  rw [Prod.mk.injEq] at heq
  rw [← heq.1, ← heq.2] at hwhole
  have hfinal : final' = final := Except.ok.inj (hwhole.reached.symm.trans hlater.reached)
  rw [hfinal] at hwhole
  refine ⟨store, emitted, initial, last, changes, final, hbefore, hfed.reached, hsamples,
    hlater.reached, hwhole.alternates, ?_, ?_, ?_⟩
  · by_cases halerting : initial = .alerting
    · rw [if_pos halerting, ← nextTrigger_eq_resolved.mpr halerting]
      exact hlater.alternates
    · have hnext : nextTrigger initial = .alert := by
        cases initial <;> first | rfl | exact absurd rfl halerting
      rw [if_neg halerting, ← hnext]
      exact hlater.alternates
  · rw [← nextTrigger_eq_resolved, hwhole.next, nextAfter]
    cases (emitted ++ changes).getLast? with
    | none => simp [nextTrigger]
    | some change => cases htrigger : change.trigger <;> simp [opposite, htrigger]
  · intro count hcount
    have hstart : Counts .ok 0 := ⟨fun _ h => (nomatch h), fun _ => rfl⟩
    exact ((hwhole.counts 0 hstart).1 count hcount).1

/-- From `alerting`, which two failing samples lead to, a passing sample emits a recovery
first. -/
theorem alerting_resolved_first :
    ∃ store emitted, feed .connectivity .critical (noState .connectivity fun _ => none)
        [⟨true, 1, none⟩, ⟨true, 1, none⟩] = .ok (store, emitted) ∧
      ∃ last changes, feed .connectivity .critical store [⟨false, 1, none⟩] =
          .ok (last, changes) ∧
        ¬ Alternates .alert (changes.map (·.trigger)) := by
  refine ⟨_, _, rfl, _, _, rfl, ?_⟩
  intro halternates
  exact absurd halternates.1 (by decide)

end Dbmaster.HealthCheck.Alternation
