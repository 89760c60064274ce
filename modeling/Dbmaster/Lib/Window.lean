import Mathlib.Algebra.Order.Group.Defs
import Mathlib.Data.List.Count
/-!
# Admission by a sliding window

A log of times in which each was admitted because fewer than a maximal number of
times stood less than a width before it.  No window of that width, wherever it
starts, holds more.
-/

namespace Dbmaster.Lib.Window

variable {T : Type*} [AddCommGroup T] [LinearOrder T]

/-- The times of the log less than the width before `t`. -/
def recent (width t : T) (log : List T) : List T := log.filter fun u => t < u + width

/-- The times of the log in the half-open interval that starts at `a`. -/
def within (width a : T) (log : List T) : List T :=
  log.filter fun u => a ≤ u ∧ u < a + width

inductive Admitted (max : Nat) (width : T) : List T → Prop
  | nil : Admitted max width []
  | snoc {log : List T} {t : T} (hlog : Admitted max width log) (hle : ∀ u ∈ log, u ≤ t)
      (hroom : (recent width t log).length < max) : Admitted max width (log ++ [t])

variable {max : Nat} {width : T} {log : List T}

@[simp] theorem recent_append (t : T) (log more : List T) :
    recent width t (log ++ more) = recent width t log ++ recent width t more :=
  List.filter_append ..

/-- Times that have left the window by one time are not missed later. -/
theorem recent_recent {s t : T} (hst : s ≤ t) (log : List T) :
    recent width t (recent width s log) = recent width t log := by
  unfold recent
  rw [List.filter_filter]
  apply List.filter_congr
  intro u _
  by_cases h : t < u + width
  · have hs : s < u + width := hst.trans_lt h
    simp [h, hs]
  · simp [h]

theorem within_length_le [IsOrderedAddMonoid T] (h : Admitted max width log) (a : T) :
    (within width a log).length ≤ max := by
  induction h with
  | nil => exact Nat.zero_le max
  | @snoc log t hlog hle hroom ih =>
      unfold within at ih ⊢
      rw [List.filter_append, List.length_append]
      by_cases ht : a ≤ t ∧ t < a + width
      · -- every time of the log in this window is recent at `t`
        have hrecent : (log.filter fun u => a ≤ u ∧ u < a + width).length ≤
            (recent width t log).length := by
          unfold recent
          rw [← List.countP_eq_length_filter, ← List.countP_eq_length_filter]
          apply List.countP_mono_left
          intro u _ hu
          have hau : a ≤ u := (of_decide_eq_true hu).1
          have hlt : t < u + width := ht.2.trans_le (add_le_add_left hau width)
          exact decide_eq_true hlt
        have hone : ([t].filter fun u => a ≤ u ∧ u < a + width).length = 1 := by
          simp [ht]
        omega
      · have hzero : ([t].filter fun u => a ≤ u ∧ u < a + width).length = 0 := by
          simp [ht]
        omega

end Dbmaster.Lib.Window
