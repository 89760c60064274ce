import Dbmaster.HealthCheck.Alert
import Mathlib.Data.List.Induction
import Mathlib.Data.List.TakeWhile
/-!
# When the machine alerts

The machine counts consecutive failures over two of its states.  Fed from no state
with samples of one metric, what it emits at a sample is compared with the length
of the run of failing samples that ends there.
-/

namespace Dbmaster.HealthCheck.Threshold

open Dbmaster.HealthCheck.Alert

/-! ## The trace of the machine -/

section Trace

variable (threshold : UInt32) (metric : Metric) (severity : Severity)

def nextState (state : Option AlertState) (failing : Bool) : Option AlertState :=
  some (evaluateThresholdMetric state failing threshold metric severity).1

/-- The state after the samples; before the first there is none. -/
def stateAfter (samples : List Bool) : Option AlertState :=
  samples.foldl (nextState threshold metric severity) none

/-- What the `n`-th sample emits. -/
def emittedAt (samples : List Bool) (n : Nat) : Option Trigger :=
  samples[n]?.bind fun failing =>
    (evaluateThresholdMetric (stateAfter threshold metric severity (samples.take n)) failing
      threshold metric severity).2.map (·.trigger)

end Trace

/-- The length of the run of failing samples that the samples end in. -/
def streak (samples : List Bool) : Nat := (samples.reverse.takeWhile id).length

/-- Alerts stand where the run of failing samples reaches the threshold, recoveries at
the first passing sample after an alert. -/
structure AlertsAtThreshold (threshold : UInt32) (samples : List Bool)
    (emitted : Nat → Option Trigger) : Prop where
  alert : ∀ n < samples.length,
    emitted n = some .alert ↔ streak (samples.take (n + 1)) = threshold.toNat
  resolved : ∀ n, emitted n = some .resolved ↔
    samples[n]? = some false ∧
      ∃ m < n, emitted m = some .alert ∧ ∀ k, m < k → k < n → samples[k]? = some true

/-! ## Runs of failing samples -/

@[simp] theorem streak_nil : streak [] = 0 := rfl

@[simp] theorem streak_concat (samples : List Bool) (failing : Bool) :
    streak (samples ++ [failing]) = if failing then streak samples + 1 else 0 := by
  cases failing <;> simp [streak]

theorem streak_take_succ {samples : List Bool} {n : Nat} {failing : Bool}
    (h : samples[n]? = some failing) :
    streak (samples.take (n + 1)) = if failing then streak (samples.take n) + 1 else 0 := by
  rw [List.take_add_one, h, Option.toList_some, streak_concat]

theorem le_streak_iff {samples : List Bool} {length : Nat} (hlength : 1 ≤ length) (n : Nat)
    (hn : n ≤ samples.length) :
    length ≤ streak (samples.take n) ↔
      ∃ m < n, streak (samples.take (m + 1)) = length ∧
        ∀ k, m < k → k < n → samples[k]? = some true := by
  induction n with
  | zero =>
      rw [List.take_zero, streak_nil]
      constructor
      · intro hzero
        omega
      · rintro ⟨m, hm, -⟩
        omega
  | succ n ih =>
      have hget : samples[n]? = some samples[n] := List.getElem?_eq_getElem hn
      have hstreak := streak_take_succ hget
      have hbefore := ih (Nat.le_of_succ_le hn)
      cases hfailing : samples[n] with
      | false =>
          rw [hfailing] at hget hstreak
          rw [hstreak, if_neg Bool.false_ne_true]
          constructor
          · intro hzero
            omega
          · rintro ⟨m, hm, hreached, hsince⟩
            rcases Nat.lt_succ_iff_lt_or_eq.mp hm with hlt | rfl
            · have htrue := hsince n hlt (Nat.lt_succ_self n)
              rw [hget] at htrue
              cases htrue
            · rw [hstreak, if_neg Bool.false_ne_true] at hreached
              omega
      | true =>
          rw [hfailing] at hget hstreak
          rw [if_pos rfl] at hstreak
          constructor
          · intro hle
            by_cases hnow : streak (samples.take (n + 1)) = length
            · exact ⟨n, Nat.lt_succ_self n, hnow, fun k hlow hhigh => by omega⟩
            · have hle' : length ≤ streak (samples.take n) := by omega
              obtain ⟨m, hm, hreached, hsince⟩ := hbefore.mp hle'
              refine ⟨m, Nat.lt_succ_of_lt hm, hreached, fun k hlow hhigh => ?_⟩
              rcases Nat.lt_succ_iff_lt_or_eq.mp hhigh with hlt | rfl
              · exact hsince k hlow hlt
              · exact hget
          · rintro ⟨m, hm, hreached, hsince⟩
            rcases Nat.lt_succ_iff_lt_or_eq.mp hm with hlt | rfl
            · have hle := hbefore.mpr ⟨m, hlt, hreached, fun k hlow hhigh =>
                hsince k hlow (Nat.lt_succ_of_lt hhigh)⟩
              omega
            · exact hreached.ge

/-! ## What the state knows of the run -/

/-- The state goes with a run of that length. -/
def Tracks (threshold : UInt32) (length : Nat) : Option AlertState → Prop
  | none | some .ok => length = 0
  | some (.failing count) =>
      count.toNat = length ∧ 1 ≤ length ∧ length < threshold.toNat
  | some .alerting => threshold.toNat ≤ length

section Step

variable {threshold : UInt32} {metric : Metric} {severity : Severity} {length : Nat}
  {state : Option AlertState}

theorem toNat_add_one {count : UInt32} (h : count.toNat < threshold.toNat) :
    (count + 1).toNat = count.toNat + 1 := by
  have hlt := threshold.toNat_lt_size
  rw [UInt32.toNat_add, UInt32.toNat_one]
  apply Nat.mod_eq_of_lt
  show count.toNat + 1 < UInt32.size
  omega

theorem tracks_next (hthreshold : 2 ≤ threshold.toNat) (htracks : Tracks threshold length state)
    (failing : Bool) :
    Tracks threshold (if failing then length + 1 else 0)
      (nextState threshold metric severity state failing) := by
  cases failing with
  | false =>
      have hok : (evaluateThresholdMetric state false threshold metric severity).1 = .ok := by
        rcases state with - | - | count | - <;> rfl
      rw [nextState, hok]
      rfl
  | true =>
      rw [if_pos rfl]
      match state with
      | none | some .ok =>
          have hzero : length = 0 := htracks
          show (1 : UInt32).toNat = length + 1 ∧ 1 ≤ length + 1 ∧ length + 1 < threshold.toNat
          rw [UInt32.toNat_one]
          omega
      | some (.failing count) =>
          obtain ⟨hcount, hone, hlt⟩ := htracks
          have hnext : (count + 1).toNat = length + 1 := by
            rw [toNat_add_one (hcount ▸ hlt), hcount]
          simp only [nextState, evaluateThresholdMetric, Option.getD_some]
          by_cases hreached : threshold ≤ count + 1
          · rw [if_pos hreached]
            have hle := UInt32.le_iff_toNat_le.mp hreached
            show threshold.toNat ≤ length + 1
            omega
          · rw [if_neg hreached]
            have hgt := UInt32.lt_iff_toNat_lt.mp (UInt32.not_le.mp hreached)
            show (count + 1).toNat = length + 1 ∧ 1 ≤ length + 1 ∧ length + 1 < threshold.toNat
            omega
      | some .alerting =>
          have hle : threshold.toNat ≤ length := htracks
          show threshold.toNat ≤ length + 1
          omega

theorem tracks_stateAfter (hthreshold : 2 ≤ threshold.toNat) (samples : List Bool) :
    Tracks threshold (streak samples) (stateAfter threshold metric severity samples) := by
  induction samples using List.reverseRecOn with
  | nil => rfl
  | append_singleton samples failing ih =>
      rw [streak_concat, stateAfter, List.foldl_append]
      exact tracks_next hthreshold ih failing

theorem trigger_of_tracks (hthreshold : 2 ≤ threshold.toNat)
    (htracks : Tracks threshold length state) (failing : Bool) :
    (evaluateThresholdMetric state failing threshold metric severity).2.map (·.trigger) =
      if failing then (if length + 1 = threshold.toNat then some .alert else none)
      else if threshold.toNat ≤ length then some .resolved else none := by
  match state with
  | none | some .ok =>
      have hzero : length = 0 := htracks
      have hone : length + 1 ≠ threshold.toNat := by omega
      have hle : ¬ threshold.toNat ≤ length := by omega
      rw [if_neg hone, if_neg hle]
      cases failing <;> rfl
  | some (.failing count) =>
      obtain ⟨hcount, hone, hlt⟩ := htracks
      have hle : ¬ threshold.toNat ≤ length := by omega
      rw [if_neg hle]
      cases failing with
      | false => rfl
      | true =>
          have hnext : (count + 1).toNat = length + 1 := by
            rw [toNat_add_one (hcount ▸ hlt), hcount]
          have hreached : threshold ≤ count + 1 ↔ length + 1 = threshold.toNat := by
            rw [UInt32.le_iff_toNat_le, hnext]
            omega
          simp only [evaluateThresholdMetric, Option.getD_some, hreached]
          split_ifs <;> rfl
  | some .alerting =>
      have hle : threshold.toNat ≤ length := htracks
      have hne : length + 1 ≠ threshold.toNat := by omega
      rw [if_neg hne, if_pos hle]
      cases failing <;> rfl

end Step

/-! ## Every sequence of samples -/

variable {threshold : UInt32} {metric : Metric} {severity : Severity} {samples : List Bool}

theorem emittedAt_of_get {n : Nat} {failing : Bool} (h : samples[n]? = some failing) :
    emittedAt threshold metric severity samples n =
      (evaluateThresholdMetric (stateAfter threshold metric severity (samples.take n)) failing
        threshold metric severity).2.map (·.trigger) := by
  rw [emittedAt, h, Option.bind_some]

theorem alertsAtThreshold_of_two_le (hthreshold : 2 ≤ threshold.toNat) :
    AlertsAtThreshold threshold samples (emittedAt threshold metric severity samples) := by
  have hat : ∀ n failing, samples[n]? = some failing →
      emittedAt threshold metric severity samples n =
        if failing then
          (if streak (samples.take n) + 1 = threshold.toNat then some .alert else none)
        else if threshold.toNat ≤ streak (samples.take n) then some .resolved else none := by
    intro n failing hget
    rw [emittedAt_of_get hget]
    exact trigger_of_tracks hthreshold (tracks_stateAfter hthreshold _) failing
  have halert : ∀ n < samples.length,
      (emittedAt threshold metric severity samples n = some .alert ↔
        streak (samples.take (n + 1)) = threshold.toNat) := by
    intro n hn
    have hget : samples[n]? = some samples[n] := List.getElem?_eq_getElem hn
    rw [hat n _ hget, streak_take_succ hget]
    cases samples[n] with
    | false =>
        simp only [Bool.false_eq_true, if_false]
        constructor
        · split_ifs <;> simp
        · intro hzero
          omega
    | true => simp
  refine ⟨halert, fun n => ?_⟩
  cases hget : samples[n]? with
  | none => simp [emittedAt, hget]
  | some failing =>
      obtain ⟨hn, -⟩ := List.getElem?_eq_some_iff.mp hget
      have hrun := le_streak_iff (by omega : 1 ≤ threshold.toNat) n hn.le
      have hreached : (∃ m < n, emittedAt threshold metric severity samples m = some .alert ∧
          ∀ k, m < k → k < n → samples[k]? = some true) ↔
          threshold.toNat ≤ streak (samples.take n) := by
        rw [hrun]
        constructor
        · rintro ⟨m, hm, hemitted, hsince⟩
          exact ⟨m, hm, (halert m (hm.trans hn)).mp hemitted, hsince⟩
        · rintro ⟨m, hm, hstreak, hsince⟩
          exact ⟨m, hm, (halert m (hm.trans hn)).mpr hstreak, hsince⟩
      rw [hreached, hat n failing hget]
      cases failing with
      | false => simp
      | true =>
          simp only [if_true, Option.some.injEq, Bool.true_eq_false, false_and, iff_false]
          split_ifs <;> simp

/-- While every sample passes the machine stays in `ok`. -/
theorem stateAfter_of_passing (h : true ∉ samples) :
    (stateAfter threshold metric severity samples).getD .ok = .ok := by
  induction samples using List.reverseRecOn with
  | nil => rfl
  | append_singleton samples failing ih =>
      rw [List.mem_append, not_or, List.mem_singleton] at h
      obtain rfl : failing = false := by simpa using Ne.symm h.2
      have hok := ih h.1
      rw [stateAfter, List.foldl_append]
      show (evaluateThresholdMetric (stateAfter threshold metric severity samples) false threshold
        metric severity).1 = .ok
      unfold evaluateThresholdMetric
      rw [hok]

theorem streak_of_passing (h : true ∉ samples) : streak samples = 0 := by
  induction samples using List.reverseRecOn with
  | nil => rfl
  | append_singleton samples failing ih =>
      rw [List.mem_append, not_or, List.mem_singleton] at h
      obtain rfl : failing = false := by simpa using Ne.symm h.2
      rw [streak_concat, if_neg Bool.false_ne_true]

/-- From `ok` no sample emits anything. -/
theorem silent_of_ok {state : Option AlertState} (h : state.getD .ok = .ok) (failing : Bool) :
    (evaluateThresholdMetric state failing threshold metric severity).2 = none := by
  unfold evaluateThresholdMetric
  rw [h]
  cases failing <;> rfl

theorem emittedAt_of_passing_before {n : Nat} (h : true ∉ samples.take n) :
    emittedAt threshold metric severity samples n = none := by
  cases hget : samples[n]? with
  | none => simp [emittedAt, hget]
  | some failing =>
      rw [emittedAt_of_get hget, silent_of_ok (stateAfter_of_passing h)]
      rfl

theorem alertsAtThreshold_of_passing (hthreshold : 1 ≤ threshold.toNat) (h : true ∉ samples) :
    AlertsAtThreshold threshold samples (emittedAt threshold metric severity samples) := by
  have hpart : ∀ n, true ∉ samples.take n := fun n hmem => h (List.mem_of_mem_take hmem)
  have hnone : ∀ n, emittedAt threshold metric severity samples n = none := fun n =>
    emittedAt_of_passing_before (hpart n)
  refine ⟨fun n hn => ?_, fun n => ?_⟩
  · rw [hnone n, streak_of_passing (hpart (n + 1))]
    constructor
    · simp
    · intro hzero
      omega
  · simp [hnone]

theorem not_alertsAtThreshold_one (hthreshold : threshold.toNat = 1) (h : true ∈ samples) :
    ¬ AlertsAtThreshold threshold samples (emittedAt threshold metric severity samples) := by
  intro halerts
  obtain ⟨before, after, rfl, hbefore⟩ := List.eq_append_cons_of_mem h
  have hget : (before ++ true :: after)[before.length]? = some true := by simp
  have hlt : before.length < (before ++ true :: after).length := by simp
  have htake : (before ++ true :: after).take before.length = before := List.take_left
  -- the first failing sample makes a run of one
  have hreached := streak_take_succ hget
  rw [htake, if_pos rfl, streak_of_passing hbefore] at hreached
  have halert := (halerts.alert before.length hlt).mpr (hreached.trans hthreshold.symm)
  have hnone : emittedAt threshold metric severity (before ++ true :: after) before.length =
      none := by
    apply emittedAt_of_passing_before
    rw [htake]
    exact hbefore
  rw [hnone] at halert
  cases halert

/-- The alerts stand where they should exactly when a threshold of 2 or more is set, or
no sample fails. -/
theorem alertsAtThreshold_iff (metric : Metric) (severity : Severity) (samples : List Bool)
    (hthreshold : 1 ≤ threshold) :
    AlertsAtThreshold threshold samples (emittedAt threshold metric severity samples) ↔
      2 ≤ threshold ∨ true ∉ samples := by
  have hone : 1 ≤ threshold.toNat := UInt32.le_iff_toNat_le.mp hthreshold
  have htwo : 2 ≤ threshold ↔ 2 ≤ threshold.toNat := UInt32.le_iff_toNat_le
  rw [htwo]
  constructor
  · intro halerts
    by_contra hnot
    rw [not_or, not_not] at hnot
    exact not_alertsAtThreshold_one (by omega) hnot.2 halerts
  · rintro (hle | hpassing)
    · exact alertsAtThreshold_of_two_le hle
    · exact alertsAtThreshold_of_passing hone hpassing

theorem alertsAtThreshold_iff_three :
    (1 : UInt32) ≤ 3 ∧
      (AlertsAtThreshold 3 [true, true, true, false]
          (emittedAt 3 .connectivity .critical [true, true, true, false]) ↔
        (2 : UInt32) ≤ 3 ∨ true ∉ [true, true, true, false]) :=
  ⟨by decide, alertsAtThreshold_iff .connectivity .critical _ (by decide)⟩

/-- Two failing samples under the threshold 1: only the second alerts. -/
theorem first_failure_silent :
    ¬ AlertsAtThreshold 1 [true, true] (emittedAt 1 .connectivity .critical [true, true]) := by
  intro halerts
  have halert := (halerts.alert 0 (by decide)).mpr rfl
  exact absurd halert (by decide)

end Dbmaster.HealthCheck.Threshold
