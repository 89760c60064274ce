import Mathlib.Algebra.BigOperators.Group.List.Basic
import Mathlib.Algebra.Ring.Int.Defs
import Mathlib.Data.List.Dedup
/-!
# Rows grouped by a key

The groups of some rows: one for each key, with its rows.  What is added up group by group
is what is added up over all rows.
-/

namespace Dbmaster.Lib.Fibers

variable {K ρ : Type*} [DecidableEq K]

def groups (key : ρ → K) (rows : List ρ) : List (K × List ρ) :=
  (rows.map key).dedup.map fun k => (k, rows.filter fun row => decide (key row = k))

theorem map_fst_groups (key : ρ → K) (rows : List ρ) :
    (groups key rows).map Prod.fst = (rows.map key).dedup := by
  rw [groups, List.map_map]
  exact List.map_id _

theorem nodup_groups (key : ρ → K) (rows : List ρ) : (groups key rows).Nodup := by
  apply List.Nodup.of_map Prod.fst
  rw [map_fst_groups]
  exact List.nodup_dedup _

/-- One more at a single key. -/
theorem sum_map_ite_add (n : Int) (g : K → Int) {k : K} {keys : List K} (hnodup : keys.Nodup)
    (hk : k ∈ keys) :
    (keys.map fun j => (if k = j then n else 0) + g j).sum = n + (keys.map g).sum := by
  induction keys with
  | nil => exact absurd hk List.not_mem_nil
  | cons j keys ih =>
      rw [List.nodup_cons] at hnodup
      rw [List.map_cons, List.sum_cons, List.map_cons, List.sum_cons]
      rcases List.mem_cons.mp hk with rfl | hmem
      · have hrest : (keys.map fun j => (if k = j then n else 0) + g j) = keys.map g := by
          apply List.map_congr_left
          intro j hj
          have hne : k ≠ j := fun heq => hnodup.1 (heq ▸ hj)
          rw [if_neg hne, zero_add]
        rw [hrest, if_pos rfl, add_assoc]
      · have hne : k ≠ j := fun heq => hnodup.1 (heq ▸ hmem)
        rw [ih hnodup.2 hmem, if_neg hne, zero_add, add_left_comm]

/-- The keys may be more than those of the rows. -/
theorem sum_filter_keys (key : ρ → K) (f : ρ → Int) {keys : List K} (hnodup : keys.Nodup)
    {rows : List ρ} (hkeys : ∀ row ∈ rows, key row ∈ keys) :
    (keys.map fun k => ((rows.filter fun row => decide (key row = k)).map f).sum).sum =
      (rows.map f).sum := by
  induction rows with
  | nil => simp
  | cons row rows ih =>
      have hsplit : (fun k => (((row :: rows).filter fun row => decide (key row = k)).map f).sum) =
          fun k => (if key row = k then f row else 0) +
            ((rows.filter fun row => decide (key row = k)).map f).sum := by
        funext k
        rw [List.filter_cons]
        by_cases hk : key row = k
        · rw [if_pos (decide_eq_true hk), if_pos hk, List.map_cons, List.sum_cons]
        · rw [if_neg (by simpa using hk), if_neg hk, zero_add]
      rw [hsplit, sum_map_ite_add _ _ hnodup (hkeys row List.mem_cons_self),
        ih fun row hrow => hkeys row (List.mem_cons_of_mem _ hrow), List.map_cons, List.sum_cons]

theorem sum_groups (key : ρ → K) (f : ρ → Int) (rows : List ρ) :
    ((groups key rows).map fun group => (group.2.map f).sum).sum = (rows.map f).sum := by
  rw [groups, List.map_map]
  exact sum_filter_keys key f (List.nodup_dedup _)
    fun row hrow => List.mem_dedup.mpr (List.mem_map_of_mem hrow)

end Dbmaster.Lib.Fibers
