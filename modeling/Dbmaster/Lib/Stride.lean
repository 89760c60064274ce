import Mathlib.Logic.Basic
/-!
# Striding to an exit

A loop goes from value to value by a partial step and leaves at the first value
it steps to that meets its exit test.
-/

namespace Dbmaster.Lib.Stride

variable {α : Type*}

/-- The loop that starts at a value leaves after finitely many steps. -/
inductive Stops (step : α → Option α) (exit : α → Prop) : α → Prop
  | now {x y : α} (hstep : step x = some y) (hexit : exit y) : Stops step exit x
  | later {x y : α} (hstep : step x = some y) (hgo : ¬ exit y) (hrest : Stops step exit y) :
      Stops step exit x

variable {step : α → Option α} {exit : α → Prop} {x y : α}

theorem not_stops_of_none (h : step x = none) : ¬ Stops step exit x := by
  intro hstops
  cases hstops with
  | now hstep => exact absurd (h.symm.trans hstep) (by simp)
  | later hstep => exact absurd (h.symm.trans hstep) (by simp)

theorem stops_step (h : step x = some y) : Stops step exit x ↔ exit y ∨ Stops step exit y := by
  constructor
  · intro hstops
    cases hstops with
    | now hstep hexit =>
        rw [h, Option.some.injEq] at hstep
        exact .inl (hstep ▸ hexit)
    | later hstep _ hrest =>
        rw [h, Option.some.injEq] at hstep
        exact .inr (hstep ▸ hrest)
  · intro hor
    by_cases hexit : exit y
    · exact .now h hexit
    · exact .later h hexit (hor.resolve_left hexit)

theorem stops_fixed (h : step x = some x) : Stops step exit x ↔ exit x := by
  constructor
  · intro hstops
    induction hstops with
    | now hstep hexit =>
        rw [h, Option.some.injEq] at hstep
        exact hstep ▸ hexit
    | later hstep hgo _ ih =>
        rw [h, Option.some.injEq] at hstep
        subst hstep
        exact ih h
  · exact .now h

/-- A loop that steps to where it stands still leaves there or never. -/
theorem stops_into_fixed (h : step x = some y) (hfixed : step y = some y) :
    Stops step exit x ↔ exit y := by
  rw [stops_step h, stops_fixed hfixed, or_self]

/-- Along values whose exit test, once met, stays met, only the last one counts. -/
theorem stops_chain {f : Nat → α} {n : Nat} (hstep : ∀ k < n, step (f k) = some (f (k + 1)))
    (hmono : ∀ k < n, 0 < k → exit (f k) → exit (f (k + 1))) :
    Stops step exit (f 0) ↔ 0 < n ∧ exit (f n) ∨ Stops step exit (f n) := by
  induction n with
  | zero => simp
  | succ n ih =>
      rw [ih (fun k hk => hstep k (Nat.lt_succ_of_lt hk))
          (fun k hk => hmono k (Nat.lt_succ_of_lt hk)),
        stops_step (hstep n (Nat.lt_succ_self n))]
      constructor
      · rintro (⟨hpos, hexit⟩ | hexit | hrest)
        · exact .inl ⟨n.succ_pos, hmono n (Nat.lt_succ_self n) hpos hexit⟩
        · exact .inl ⟨n.succ_pos, hexit⟩
        · exact .inr hrest
      · rintro (⟨-, hexit⟩ | hrest)
        · exact .inr (.inl hexit)
        · exact .inr (.inr hrest)

end Dbmaster.Lib.Stride
