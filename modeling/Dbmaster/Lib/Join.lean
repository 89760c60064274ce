import Mathlib.Data.List.Basic
/-!
# Joins of lists of rows

The left outer join of two tables as lists, its rows without a partner, and when it keeps every
row of the left side once.
-/

namespace Dbmaster.Lib.Join

variable {α β γ : Type*}

/-- Every row of the left side with each of its partners, alone when it has none. -/
def leftJoin (on : α → β → Bool) (left : List α) (right : List β) : List (α × Option β) :=
  left.flatMap fun a =>
    match right.filter (on a) with
    | [] => [(a, none)]
    | found => found.map fun b => (a, some b)

theorem pairwise_leftJoin {r : α → α → Prop} (hrefl : ∀ a, r a a) {left : List α}
    (h : left.Pairwise r) (on : α → β → Bool) (right : List β) :
    (leftJoin on left right).Pairwise fun row row' => r row.1 row'.1 := by
  have hfst : ∀ a, ∀ row ∈ (match right.filter (on a) with
      | [] => [(a, none)]
      | found => found.map fun b => (a, some b)), row.1 = a := by
    intro a row hrow
    split at hrow
    · rw [List.mem_singleton.mp hrow]
    · obtain ⟨_, _, rfl⟩ := List.mem_map.mp hrow
      rfl
  refine List.pairwise_flatMap.mpr ⟨fun a _ => ?_, h.imp fun hr row hrow row' hrow' => ?_⟩
  · refine List.Pairwise.imp_of_mem ?_ (List.pairwise_of_forall fun _ _ => trivial)
    intro row row' hrow hrow' _
    rw [hfst a row hrow, hfst a row' hrow']
    exact hrefl a
  · rw [hfst _ row hrow, hfst _ row' hrow']
    exact hr

/-- Where only the presence of a partner counts, a row is repeated for each of them. -/
theorem map_leftJoin_isSome (f : α → Bool → γ) (on : α → β → Bool) (left : List α)
    (right : List β) :
    (leftJoin on left right).map (fun row => f row.1 row.2.isSome) =
      left.flatMap fun a =>
        List.replicate (max 1 (right.countP (on a))) (f a (decide (0 < right.countP (on a)))) := by
  rw [leftJoin, List.map_flatMap]
  refine List.flatMap_congr fun a _ => ?_
  rw [List.countP_eq_length_filter]
  cases right.filter (on a) with
  | nil => rfl
  | cons b found =>
      rw [List.map_map, List.length_cons, Nat.max_eq_right (Nat.succ_pos _)]
      refine List.eq_replicate_iff.mpr ⟨by simp, fun c hc => ?_⟩
      obtain ⟨_, _, rfl⟩ := List.mem_map.mp hc
      simp

theorem length_le_flatMap_replicate {k : α → Nat} {f : α → γ} {xs : List α}
    (hk : ∀ a ∈ xs, 0 < k a) :
    xs.length ≤ (xs.flatMap fun a => List.replicate (k a) (f a)).length := by
  induction xs with
  | nil => exact Nat.le_refl 0
  | cons a xs ih =>
      have hrest := ih fun b hb => hk b (List.mem_cons_of_mem a hb)
      have hone := hk a List.mem_cons_self
      rw [List.flatMap_cons, List.length_append, List.length_replicate, List.length_cons]
      omega

/-- Repeated rows are one row each just where each is there once. -/
theorem flatMap_replicate_eq_map_iff {k : α → Nat} {f g : α → γ} {xs : List α}
    (hk : ∀ a ∈ xs, 0 < k a) :
    (xs.flatMap fun a => List.replicate (k a) (f a)) = xs.map g ↔
      ∀ a ∈ xs, k a = 1 ∧ f a = g a := by
  induction xs with
  | nil => simp
  | cons a xs ih =>
      have hrest : ∀ b ∈ xs, 0 < k b := fun b hb => hk b (List.mem_cons_of_mem a hb)
      obtain ⟨n, hn⟩ := Nat.exists_eq_succ_of_ne_zero (Nat.ne_of_gt (hk a List.mem_cons_self))
      rw [List.flatMap_cons, List.map_cons, hn, List.replicate_succ, List.cons_append,
        List.cons.injEq, List.forall_mem_cons, ← ih hrest]
      constructor
      · rintro ⟨hhead, htail⟩
        have hlength := congrArg List.length htail
        have hle := @length_le_flatMap_replicate _ _ k f xs hrest
        rw [List.length_append, List.length_replicate, List.length_map] at hlength
        have hzero : n = 0 := by omega
        subst hzero
        exact ⟨⟨hn, hhead⟩, htail⟩
      · rintro ⟨⟨hone, hhead⟩, htail⟩
        have hzero : n = 0 := by omega
        subst hzero
        exact ⟨hhead, htail⟩

/-- The items of some owners, each listed with its owner and chosen by it. -/
theorem map_snd_filter_owned {γ : Type*} (p q : α → Bool) (items : α → List γ) (owners : List α) :
    ((((owners.filter p).flatMap fun a => (items a).map fun c => (a, c)).filter
      fun owned => q owned.1).map Prod.snd) =
      (owners.filter fun a => p a && q a).flatMap items := by
  have hchosen : ∀ a, ((((items a).map fun c => (a, c)).filter fun owned => q owned.1).map
      Prod.snd) = if q a then items a else [] := by
    intro a
    rw [List.filter_map, List.map_map]
    show ((items a).filter fun _ => q a).map id = _
    rw [List.map_id]
    cases q a with
    | true => exact List.filter_true _
    | false => exact List.filter_false _
  induction owners with
  | nil => rfl
  | cons a owners ih =>
      cases hp : p a with
      | false =>
          rw [List.filter_cons_of_neg (Bool.eq_false_iff.mp hp), ih, List.filter_cons_of_neg]
          rw [hp, Bool.false_and]
          exact Bool.false_ne_true
      | true =>
          rw [List.filter_cons_of_pos hp, List.flatMap_cons, List.filter_append, List.map_append,
            ih, hchosen, List.filter_cons, hp, Bool.true_and]
          cases q a with
          | true => rfl
          | false => rfl

end Dbmaster.Lib.Join
