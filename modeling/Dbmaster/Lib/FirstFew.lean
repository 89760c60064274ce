import Mathlib.Data.List.Nodup
/-!
# The first few rows that a filter lets through

When two filters give the same rows under a limit.
-/

namespace Dbmaster.Lib.FirstFew

variable {α : Type*} {p q : α → Bool}

/-- What holds of each place of a list holds of its head and of each place behind it. -/
theorem forall_split_cons {P : List α → α → List α → Prop} {a : α} {rows : List α} :
    (∀ before b after, a :: rows = before ++ b :: after → P before b after) ↔
      P [] a rows ∧ ∀ before b after, rows = before ++ b :: after → P (a :: before) b after := by
  constructor
  · intro h
    refine ⟨h [] a rows rfl, fun before b after heq => ?_⟩
    exact h (a :: before) b after (by rw [heq, List.cons_append])
  · rintro ⟨hhead, htail⟩ before b after heq
    cases before with
    | nil =>
        obtain ⟨rfl, rfl⟩ := List.cons.inj heq
        exact hhead
    | cons c before =>
        obtain ⟨rfl, hrows⟩ := List.cons.inj heq
        exact htail before b after hrows

theorem take_filter_ne {a : α} {rows : List α} (ha : a ∉ rows) (hp : p a = true)
    (hq : q a = false) (n : Nat) :
    (((a :: rows).filter p).take (n + 1) ≠ ((a :: rows).filter q).take (n + 1)) := by
  rw [List.filter_cons_of_pos hp, List.filter_cons_of_neg (by rw [hq]; exact Bool.false_ne_true),
    List.take_succ_cons]
  intro h
  have hin : a ∈ (rows.filter q).take (n + 1) := h ▸ List.mem_cons_self
  exact ha (List.mem_of_mem_filter (List.mem_of_mem_take hin))

/-- Two filters agree on the first few rows if and only if those already stand before each row on
which they differ. -/
theorem take_filter_eq_iff {rows : List α} (hrows : rows.Nodup) (n : Nat) :
    (rows.filter p).take n = (rows.filter q).take n ↔
      ∀ before a after, rows = before ++ a :: after → p a ≠ q a →
        n ≤ (before.filter q).length := by
  induction rows generalizing n with
  | nil => simp
  | cons a rows ih =>
      obtain ⟨ha, hrest⟩ := List.nodup_cons.mp hrows
      rw [forall_split_cons]
      cases n with
      | zero => simp
      | succ n =>
          by_cases hsame : p a = q a
          · rw [and_iff_right fun hne => absurd hsame hne]
            cases hq : q a with
            | true =>
                rw [List.filter_cons_of_pos (hsame.trans hq), List.filter_cons_of_pos hq,
                  List.take_succ_cons, List.take_succ_cons, List.cons.injEq,
                  and_iff_right rfl, ih hrest n]
                simp only [List.filter_cons_of_pos hq, List.length_cons, Nat.add_le_add_iff_right]
            | false =>
                have hneg : ¬ q a = true := by rw [hq]; exact Bool.false_ne_true
                rw [List.filter_cons_of_neg (by rw [hsame]; exact hneg),
                  List.filter_cons_of_neg hneg, ih hrest (n + 1)]
                simp only [List.filter_cons_of_neg hneg]
          · refine iff_of_false ?_ fun h => absurd (h.1 hsame) (Nat.not_succ_le_zero n)
            cases hp : p a with
            | true =>
                have hq : q a = false := by
                  rw [hp] at hsame
                  exact Bool.eq_false_iff.mpr fun h => hsame h.symm
                exact take_filter_ne ha hp hq n
            | false =>
                have hq : q a = true := by
                  rw [hp] at hsame
                  exact eq_true_of_ne_false fun h => hsame h.symm
                exact (take_filter_ne ha hq hp n).symm

theorem map_inj_on {β : Type*} {f : α → β} {rows few few' : List α} (hrows : (rows.map f).Nodup)
    (h : few ⊆ rows) (h' : few' ⊆ rows) : few.map f = few'.map f ↔ few = few' := by
  refine ⟨fun heq => ?_, fun heq => by rw [heq]⟩
  induction few generalizing few' with
  | nil => exact (List.map_eq_nil_iff.mp heq.symm).symm
  | cons a few ih =>
      cases few' with
      | nil => cases heq
      | cons b few' =>
          obtain ⟨hhead, htail⟩ := List.cons.inj heq
          rw [List.cons_subset] at h h'
          rw [List.inj_on_of_nodup_map hrows h.1 h'.1 hhead, ih h.2 h'.2 htail]

end Dbmaster.Lib.FirstFew
