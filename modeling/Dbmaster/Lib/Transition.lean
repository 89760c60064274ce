import Mathlib.Data.List.Basic
import Mathlib.Order.WellFounded
/-!
# Labelled transition systems and their runs

A system is a partial step function on states, indexed by the action taken.
A run may be restricted to actions that an `allowed` relation admits in the
state where they are taken, so that "every run whose steps all satisfy a side
condition" is the same notion as "every run" with a different relation.
-/

namespace Dbmaster.Lib.Transition

variable {σ α : Type*}

/-- `Run step allowed s as t`: the actions `as`, each allowed where it is taken,
lead from `s` to `t`. -/
inductive Run (step : σ → α → Option σ) (allowed : σ → α → Prop) :
    σ → List α → σ → Prop
  | nil (s : σ) : Run step allowed s [] s
  | cons {s t u : σ} {a : α} {as : List α} (hallowed : allowed s a)
      (hstep : step s a = some t) (htail : Run step allowed t as u) :
      Run step allowed s (a :: as) u

/-- No side condition on the steps of a run. -/
def anyStep : σ → α → Prop := fun _ _ => True

namespace Run

variable {step : σ → α → Option σ} {allowed allowed' : σ → α → Prop}
variable {s t u : σ} {as bs : List α}

theorem append (hst : Run step allowed s as t) (htu : Run step allowed t bs u) :
    Run step allowed s (as ++ bs) u := by
  induction hst with
  | nil _ => exact htu
  | cons hallowed hstep _ ih => exact .cons hallowed hstep (ih htu)

theorem weaken (himp : ∀ s a, allowed s a → allowed' s a)
    (h : Run step allowed s as t) : Run step allowed' s as t := by
  induction h with
  | nil _ => exact .nil _
  | cons hallowed hstep _ ih => exact .cons (himp _ _ hallowed) hstep ih

theorem free (h : Run step allowed s as t) : Run step anyStep s as t :=
  h.weaken fun _ _ _ => trivial

/-- A condition on the actions alone, checked on the list of them. -/
theorem of_forall_mem {P : α → Prop} (h : Run step allowed s as t) (hall : ∀ a ∈ as, P a) :
    Run step (fun _ a => P a) s as t := by
  induction h with
  | nil _ => exact .nil _
  | cons _ hstep _ ih =>
      exact .cons (hall _ List.mem_cons_self) hstep
        (ih fun a ha => hall a (List.mem_cons_of_mem _ ha))

theorem restrict {P : α → Prop} (h : Run step allowed s as t) (hall : ∀ a ∈ as, P a) :
    Run step (fun s a => allowed s a ∧ P a) s as t := by
  induction h with
  | nil _ => exact .nil _
  | cons hallowed hstep _ ih =>
      exact .cons ⟨hallowed, hall _ List.mem_cons_self⟩ hstep
        (ih fun a ha => hall a (List.mem_cons_of_mem _ ha))

/-- What every allowed step preserves, every run preserves. -/
theorem invariant {I : σ → Prop}
    (hpres : ∀ s a t, allowed s a → step s a = some t → I s → I t)
    (h : Run step allowed s as t) (hs : I s) : I t := by
  induction h with
  | nil _ => exact hs
  | cons hallowed hstep _ ih => exact ih (hpres _ _ _ hallowed hstep hs)

end Run

/-- The state after the actions, when each of them is possible. -/
def exec (step : σ → α → Option σ) : σ → List α → Option σ
  | s, [] => some s
  | s, a :: as => (step s a).bind fun t => exec step t as

theorem run_of_exec {step : σ → α → Option σ} {s t : σ} {as : List α}
    (h : exec step s as = some t) : Run step anyStep s as t := by
  induction as generalizing s with
  | nil =>
      cases h
      exact .nil _
  | cons a as ih =>
      obtain ⟨u, hstep, htail⟩ := Option.bind_eq_some_iff.mp h
      exact .cons trivial hstep (ih htail)

/-- The state after the actions, when each of them is possible and passes a check. -/
def execChecked (step : σ → α → Option σ) (check : σ → α → Bool) : σ → List α → Option σ
  | s, [] => some s
  | s, a :: as => if check s a then (step s a).bind fun t => execChecked step check t as else none

theorem run_of_execChecked {step : σ → α → Option σ} {check : σ → α → Bool}
    {allowed : σ → α → Prop} (hcheck : ∀ s a, check s a = true → allowed s a) {s t : σ}
    {as : List α} (h : execChecked step check s as = some t) : Run step allowed s as t := by
  induction as generalizing s with
  | nil =>
      cases h
      exact .nil _
  | cons a as ih =>
      unfold execChecked at h
      split at h
      case isTrue hok =>
        obtain ⟨u, hstep, htail⟩ := Option.bind_eq_some_iff.mp h
        exact .cons (hcheck s a hok) hstep (ih htail)
      case isFalse => cases h

/-! ## Schedules -/

/-- The states of a schedule without end; an action that is not possible is passed over. -/
def trace (step : σ → α → Option σ) (s : σ) (schedule : Nat → α) : Nat → σ
  | 0 => s
  | k + 1 => (step (trace step s schedule k) (schedule k)).getD (trace step s schedule k)

theorem run_of_trace (step : σ → α → Option σ) (s : σ) (schedule : Nat → α) (k : Nat) :
    ∃ as, Run step (fun _ a => ∃ j, schedule j = a) s as (trace step s schedule k) := by
  induction k with
  | zero => exact ⟨[], .nil s⟩
  | succ k ih =>
      obtain ⟨as, hrun⟩ := ih
      rw [trace]
      cases hstep : step (trace step s schedule k) (schedule k) with
      | none => exact ⟨as, hrun⟩
      | some t => exact ⟨as ++ [schedule k], hrun.append (.cons ⟨k, rfl⟩ hstep (.nil t))⟩

/-- Where no state can be followed by a heavier one, and none but a goal is kept for
good, a goal is reached. -/
theorem exists_goal {states : Nat → σ} {goal : σ → Prop} (weight : σ → Nat)
    (hdown : ∀ k, states (k + 1) = states k ∨ weight (states (k + 1)) < weight (states k))
    (hmoves : ∀ k, ¬ goal (states k) → ∃ j ≥ k, states j = states k → states (j + 1) ≠ states k) :
    ∃ k, goal (states k) := by
  by_contra hnone
  rw [not_exists] at hnone
  -- a state that is not heavier than any other is kept for good
  obtain ⟨k, hleast⟩ : ∃ k, ∀ j, weight (states k) ≤ weight (states j) := by
    obtain ⟨k, -, hk⟩ := WellFounded.has_min (measure fun k => weight (states k)).wf
      Set.univ ⟨0, trivial⟩
    exact ⟨k, fun j => Nat.not_lt.mp (hk j trivial)⟩
  have hkept : ∀ d, states (k + d) = states k := by
    intro d
    induction d with
    | zero => rfl
    | succ d ih =>
        rcases hdown (k + d) with hsame | hless
        · exact hsame.trans ih
        · rw [ih] at hless
          exact absurd hless (Nat.not_lt.mpr (hleast _))
  obtain ⟨j, hj, hmove⟩ := hmoves k (hnone k)
  obtain ⟨d, rfl⟩ := Nat.exists_eq_add_of_le hj
  exact hmove (hkept d) (hkept (d + 1))

/-! ## Concurrent calls

The calls of a system are a list of phases: a step sets one of them or adds a call. -/

theorem of_getElem?_set {calls : List α} {i k : Nat} {new phase : α}
    (h : (calls.set i new)[k]? = some phase) :
    (k = i ∧ phase = new) ∨ (k ≠ i ∧ calls[k]? = some phase) := by
  by_cases hk : i = k
  · subst hk
    rw [List.getElem?_set_self'] at h
    obtain ⟨_, _, heq⟩ := Option.map_eq_some_iff.mp h
    exact Or.inl ⟨rfl, heq.symm⟩
  · rw [List.getElem?_set_ne hk] at h
    exact Or.inr ⟨Ne.symm hk, h⟩

/-- Setting a phase leaves the others; `P` is what is known of the one that is set. -/
theorem kept_or_of_set {P : Nat → α → Prop} {calls : List α} {i k : Nat} {new phase : α}
    (h : (calls.set i new)[k]? = some phase) (hnew : P i new) :
    calls[k]? = some phase ∨ P k phase := by
  rcases of_getElem?_set h with ⟨rfl, rfl⟩ | ⟨-, hkept⟩
  · exact Or.inr hnew
  · exact Or.inl hkept

theorem countP_set_of_getElem? {calls : List α} {i : Nat} {old : α} (new : α) (p : α → Bool)
    (hold : calls[i]? = some old) :
    (calls.set i new).countP p + (if p old then 1 else 0) =
      calls.countP p + (if p new then 1 else 0) := by
  obtain ⟨hi, rfl⟩ := List.getElem?_eq_some_iff.mp hold
  rw [List.countP_set hi]
  have hpos : (if p calls[i] then 1 else 0) ≤ calls.countP p := by
    split
    case isTrue hp => exact List.countP_pos_iff.mpr ⟨_, List.getElem_mem hi, hp⟩
    case isFalse => exact Nat.zero_le _
  omega

theorem of_getElem?_concat {calls : List α} {k : Nat} {new phase : α}
    (h : (calls ++ [new])[k]? = some phase) :
    (k = calls.length ∧ phase = new) ∨ calls[k]? = some phase := by
  by_cases hk : k < calls.length
  · rw [List.getElem?_append_left hk] at h
    exact Or.inr h
  · rw [List.getElem?_append_right (by omega), List.getElem?_singleton] at h
    split_ifs at h with hzero
    exact Or.inl ⟨by omega, (Option.some.inj h).symm⟩

end Dbmaster.Lib.Transition
