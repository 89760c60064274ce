import Mathlib.Logic.Function.Iterate
/-!
# Scanners

A scanner is a step function on states that hold the text still to be read: a
step on a non-empty rest reads something, and on an empty one does nothing.
Running it for as many steps as the text is long therefore reads all of it.
-/

namespace Dbmaster.Lib.Scan

structure Scanner (σ χ : Type*) where
  rest : σ → List χ
  step : σ → σ
  reads : ∀ s, rest s ≠ [] → (rest (step s)).length < (rest s).length
  stops : ∀ s, rest s = [] → step s = s

variable {σ τ χ : Type*}

/-- The state in which everything has been read. -/
def Scanner.finish (m : Scanner σ χ) (s : σ) : σ := m.step^[(m.rest s).length] s

namespace Scanner

variable (m : Scanner σ χ)

theorem iterate_of_rest_nil {s : σ} (h : m.rest s = []) (n : Nat) : m.step^[n] s = s := by
  induction n with
  | zero => rfl
  | succ n ih => rw [Function.iterate_succ_apply, m.stops s h, ih]

theorem rest_iterate_of_le (n : Nat) (s : σ) (h : (m.rest s).length ≤ n) :
    m.rest (m.step^[n] s) = [] := by
  induction n generalizing s with
  | zero => exact List.length_eq_zero_iff.mp (Nat.le_zero.mp h)
  | succ n ih =>
      rw [Function.iterate_succ_apply]
      apply ih
      by_cases hrest : m.rest s = []
      · rw [m.stops s hrest, hrest]
        exact Nat.zero_le n
      · have hlt := m.reads s hrest
        omega

theorem rest_finish (s : σ) : m.rest (m.finish s) = [] := m.rest_iterate_of_le _ s (Nat.le_refl _)

/-- However many steps lead to the end of the text, they lead to one state. -/
theorem iterate_eq_finish {s : σ} {n : Nat} (h : m.rest (m.step^[n] s) = []) :
    m.step^[n] s = m.finish s := by
  have hend := m.rest_finish s
  unfold finish at hend ⊢
  rcases Nat.le_total n (m.rest s).length with hle | hle
  · obtain ⟨k, hk⟩ := Nat.exists_eq_add_of_le' hle
    rw [hk, Function.iterate_add_apply, m.iterate_of_rest_nil h]
  · obtain ⟨k, rfl⟩ := Nat.exists_eq_add_of_le' hle
    rw [Function.iterate_add_apply, m.iterate_of_rest_nil hend]

/-- What a step preserves holds of the final state. -/
theorem finish_invariant {I : σ → Prop} (hstep : ∀ s, m.rest s ≠ [] → I s → I (m.step s))
    {s : σ} (hs : I s) : I (m.finish s) := by
  have hall : ∀ n s, I s → I (m.step^[n] s) := by
    intro n
    induction n with
    | zero => exact fun s h => h
    | succ n ih =>
        intro s h
        rw [Function.iterate_succ_apply]
        by_cases hrest : m.rest s = []
        · rw [m.stops s hrest]
          exact ih s h
        · exact ih _ (hstep s hrest h)
  exact hall _ s hs

/-- Whether the first `n` states from this one on are all good. -/
def avoids (bad : σ → Bool) : Nat → σ → Bool
  | 0, s => !bad s
  | n + 1, s => !bad s && avoids bad n (m.step s)

/-- No state from this one on is bad. -/
def Avoids (bad : σ → Bool) (s : σ) : Prop := m.avoids bad (m.rest s).length s = true

theorem avoids_iff {bad : σ → Bool} {s : σ} :
    m.Avoids bad s ↔ ∀ n, bad (m.step^[n] s) = false := by
  have hfirst : ∀ k s, m.avoids bad k s = true ↔ ∀ n ≤ k, bad (m.step^[n] s) = false := by
    intro k
    induction k with
    | zero =>
        intro s
        simp [avoids]
    | succ k ih =>
        intro s
        rw [avoids, Bool.and_eq_true, Bool.not_eq_true', ih]
        constructor
        · rintro ⟨hnow, hlater⟩ n hn
          cases n with
          | zero => exact hnow
          | succ n => exact hlater n (Nat.le_of_succ_le_succ hn)
        · intro h
          exact ⟨h 0 (Nat.zero_le _), fun n hn => h (n + 1) (Nat.succ_le_succ hn)⟩
  rw [Avoids, hfirst]
  constructor
  · intro h n
    rcases Nat.le_total n (m.rest s).length with hle | hle
    · exact h n hle
    · rw [m.iterate_eq_finish (m.rest_iterate_of_le n s hle)]
      exact h _ (Nat.le_refl _)
  · exact fun h n _ => h n

theorem finish_iterate (n : Nat) (s : σ) : m.finish (m.step^[n] s) = m.finish s := by
  have hend := m.rest_finish (m.step^[n] s)
  unfold finish at hend ⊢
  rw [← Function.iterate_add_apply] at hend ⊢
  exact m.iterate_eq_finish hend

/-- What a step from a state that is not bad preserves holds of the final state,
when no state is bad. -/
theorem finish_invariant_of_avoids {bad : σ → Bool} {I : σ → Prop}
    (hstep : ∀ s, m.rest s ≠ [] → bad s = false → I s → I (m.step s))
    {s : σ} (h : m.Avoids bad s) (hs : I s) : I (m.finish s) := by
  have hall : ∀ n, I (m.step^[n] s) := by
    intro n
    induction n with
    | zero => exact hs
    | succ n ih =>
        rw [Function.iterate_succ_apply']
        by_cases hrest : m.rest (m.step^[n] s) = []
        · rw [m.stops _ hrest]
          exact ih
        · exact hstep _ hrest (m.avoids_iff.mp h n) ih
  exact hall _

/-- A scanner simulates another that meets no bad state: to each step of the
other belong some of its own. -/
theorem finish_simulates (m : Scanner σ χ) (m' : Scanner τ χ) {R : σ → τ → Prop}
    {bad : τ → Bool} (hrest : ∀ s t, R s t → m'.rest t = [] → m.rest s = [])
    (hstep : ∀ s t, R s t → m'.rest t ≠ [] → bad t = false →
      ∃ k, R (m.step^[k] s) (m'.step t))
    {s : σ} {t : τ} (h : R s t) (hgood : m'.Avoids bad t) :
    R (m.finish s) (m'.finish t) := by
  have hall : ∀ n, ∃ k, R (m.step^[k] s) (m'.step^[n] t) := by
    intro n
    induction n with
    | zero => exact ⟨0, h⟩
    | succ n ih =>
        obtain ⟨k, hk⟩ := ih
        rw [Function.iterate_succ_apply']
        by_cases hrest' : m'.rest (m'.step^[n] t) = []
        · rw [m'.stops _ hrest']
          exact ⟨k, hk⟩
        · obtain ⟨j, hj⟩ := hstep _ _ hk hrest' (m'.avoids_iff.mp hgood n)
          refine ⟨j + k, ?_⟩
          rwa [Function.iterate_add_apply]
  obtain ⟨k, hk⟩ := hall (m'.rest t).length
  have hread : m.rest (m.step^[k] s) = [] := hrest _ _ hk (m'.rest_finish t)
  rw [← m.iterate_eq_finish hread]
  exact hk

end Scanner

end Dbmaster.Lib.Scan
