import Mathlib.Algebra.BigOperators.Group.List.Basic
/-!
# Accumulators

A function that only ever adds to the accumulator it is handed multiplies it by what
it makes of an empty one.  Such functions compose, so a walk that threads an
accumulator through its calls is one as soon as its steps are.
-/

namespace Dbmaster.Lib.Accumulate

variable {M α : Type*} [Monoid M]

def Accumulates (f : M → M) : Prop := ∀ v, f v = v * f 1

theorem accumulates_id : Accumulates (fun v : M => v) := fun v => (mul_one v).symm

theorem accumulates_mul (a : M) : Accumulates (fun v => v * a) := by
  intro v
  show v * a = v * (1 * a)
  rw [one_mul]

namespace Accumulates

theorem comp {f g : M → M} (hg : Accumulates g) (hf : Accumulates f) :
    Accumulates fun v => g (f v) := by
  intro v
  calc g (f v) = f v * g 1 := hg (f v)
    _ = v * (f 1 * g 1) := by rw [hf v, mul_assoc]
    _ = v * g (f 1) := by rw [← hg (f 1)]

/-- A fold adds what its steps add to an empty accumulator, one after the other. -/
theorem foldl_eq_prod {f : α → M → M} (hf : ∀ x, Accumulates (f x)) (xs : List α) (v : M) :
    xs.foldl (fun v x => f x v) v = v * (xs.map fun x => f x 1).prod := by
  induction xs generalizing v with
  | nil => rw [List.foldl_nil, List.map_nil, List.prod_nil, mul_one]
  | cons x xs ih =>
      calc (x :: xs).foldl (fun v x => f x v) v
          = xs.foldl (fun v x => f x v) (f x v) := rfl
        _ = v * f x 1 * (xs.map fun x => f x 1).prod := by rw [ih, hf x v]
        _ = v * ((x :: xs).map fun x => f x 1).prod := by
            rw [List.map_cons, List.prod_cons, mul_assoc]

end Accumulates

end Dbmaster.Lib.Accumulate
