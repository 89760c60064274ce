import Mathlib.Data.List.Basic
import Mathlib.Order.Lattice
import Mathlib.Order.Defs.LinearOrder
/-!
# Watermarks

A mark that is raised to the keys of the items that were taken.  Whatever was left is
beyond it where nothing was taken at or after what was left.
-/

namespace Dbmaster.Lib.Watermark

variable {α κ : Type*} [LinearOrder κ] (key : α → κ)

/-- The mark after the items that were taken. -/
def raised (mark : κ) (taken : List α) : κ := taken.foldl (fun m x => max m (key x)) mark

/-- No item is taken whose key is at or after that of one that is left. -/
def InOrder (takes : Nat → Bool) (items : List α) : Prop :=
  ∀ i j x y, items[i]? = some x → items[j]? = some y →
    takes i = false → takes j = true → key y < key x

instance (takes : Nat → Bool) (items : List α) : Decidable (InOrder key takes items) :=
  decidable_of_iff (∀ i < items.length, ∀ j < items.length, ∀ x ∈ items[i]?, ∀ y ∈ items[j]?,
    takes i = false → takes j = true → key y < key x)
    ⟨fun h i j x y hi hj => h i (List.getElem?_eq_some_iff.mp hi).1 j
      (List.getElem?_eq_some_iff.mp hj).1 x hi y hj, fun h i _ j _ x hi y hj => h i j x y hi hj⟩

variable {key}

theorem raised_lt {mark bound : κ} {taken : List α} (hmark : mark < bound)
    (htaken : ∀ x ∈ taken, key x < bound) : raised key mark taken < bound := by
  induction taken generalizing mark with
  | nil => exact hmark
  | cons x taken ih =>
      have hx : key x < bound := htaken x List.mem_cons_self
      apply ih (max_lt hmark hx)
      intro y hy
      exact htaken y (List.mem_cons_of_mem x hy)

/-- What was left of items beyond the mark is beyond the raised mark. -/
theorem raised_lt_of_left {mark : κ} {takes : Nat → Bool} {items taken : List α} {x : α}
    (htaken : ∀ y, y ∈ taken ↔ ∃ i, items[i]? = some y ∧ takes i = true)
    (horder : InOrder key takes items) (hx : x ∈ items) (hleft : x ∉ taken)
    (hmark : mark < key x) : raised key mark taken < key x := by
  apply raised_lt hmark
  intro y hy
  obtain ⟨i, hi⟩ := List.getElem?_of_mem hx
  obtain ⟨j, hj, htakes⟩ := (htaken y).mp hy
  apply horder i j x y hi hj ?_ htakes
  by_contra hne
  exact hleft ((htaken x).mpr ⟨i, hi, Bool.of_not_eq_false hne⟩)

end Dbmaster.Lib.Watermark
