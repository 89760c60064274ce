import Dbmaster.Lib.FirstFew
import Mathlib.Data.List.Sort
/-!
# The first few of a sorted list

Items are put in an order that may leave ties, in whichever way the ties fall, and only the
first few are taken.  When what is taken stands well to the rest, whatever the ties.
-/

namespace Dbmaster.Lib.TopList

open Dbmaster.Lib.FirstFew

variable {α : Type*}

/-- A list of the items that the order allows. -/
structure Sorts (above : α → α → Prop) (items sorted : List α) : Prop where
  perm : sorted.Perm items
  ordered : sorted.Pairwise above

/-- Each of the first items stands in the relation to all that come after it. -/
def Ranked (r : α → α → Prop) (n : Nat) (sorted : List α) : Prop :=
  (sorted.take n).Pairwise r ∧ ∀ g ∈ sorted.take n, ∀ h ∈ sorted.drop n, r g h

theorem ranked_iff_split {r : α → α → Prop} {n : Nat} {sorted : List α} :
    Ranked r n sorted ↔ ∀ before g after, sorted = before ++ g :: after → before.length < n →
      ∀ h ∈ after, r g h := by
  induction sorted generalizing n with
  | nil => simp [Ranked]
  | cons a rest ih =>
      cases n with
      | zero => simp [Ranked]
      | succ n =>
          have hhead : Ranked r (n + 1) (a :: rest) ↔ (∀ h ∈ rest, r a h) ∧ Ranked r n rest := by
            have hrest : (∀ h ∈ rest, r a h) ↔
                (∀ h ∈ rest.take n, r a h) ∧ ∀ h ∈ rest.drop n, r a h := by
              rw [← List.forall_mem_append, List.take_append_drop]
            rw [hrest, Ranked, Ranked, List.take_succ_cons, List.drop_succ_cons,
              List.pairwise_cons, List.forall_mem_cons]
            tauto
          rw [hhead, ih, forall_split_cons]
          apply and_congr
          · exact ⟨fun h _ => h, fun h => h (Nat.succ_pos n)⟩
          · simp only [List.length_cons, Nat.add_lt_add_iff_right]

theorem ranked_iff_leftOut {r : α → α → Prop} {n : Nat} {sorted : List α} (h : sorted.Nodup) :
    Ranked r n sorted ↔ (sorted.take n).Pairwise r ∧
      ∀ k ∈ sorted, k ∉ sorted.take n → ∀ g ∈ sorted.take n, r g k := by
  have hdrop : ∀ k, k ∈ sorted.drop n ↔ k ∈ sorted ∧ k ∉ sorted.take n := by
    intro k
    rw [← List.take_append_drop n sorted] at h
    have hdisjoint := List.disjoint_of_nodup_append h
    constructor
    · intro hk
      exact ⟨List.mem_of_mem_drop hk, fun htake => hdisjoint htake hk⟩
    · rintro ⟨hk, hnot⟩
      rw [← List.take_append_drop n sorted] at hk
      exact (List.mem_append.mp hk).resolve_left hnot
  rw [Ranked]
  apply and_congr_right
  intro _
  constructor
  · intro hleft k hk hnot g hg
    exact hleft g hg k ((hdrop k).mpr ⟨hk, hnot⟩)
  · intro hleft g hg k hk
    obtain ⟨hin, hnot⟩ := (hdrop k).mp hk
    exact hleft k hin hnot g hg

section Order

variable {above : α → α → Prop} [DecidableRel above]

/-- The items that no list allowed by the order has after `g`. -/
def strictly (above : α → α → Prop) [DecidableRel above] (items : List α) (g : α) : List α :=
  items.filter fun x => decide (¬ above g x)

theorem strictly_le_before [Std.Refl above] {items before after : List α} {g : α}
    (h : Sorts above items (before ++ g :: after)) :
    (strictly above items g).length ≤ before.length := by
  have hnone : strictly above (g :: after) g = [] := by
    apply List.filter_eq_nil_iff.mpr
    intro x hx
    have hbelow : above g x := by
      rcases List.mem_cons.mp hx with rfl | hafter
      · exact Std.Refl.refl x
      · exact List.rel_of_pairwise_cons (List.pairwise_append.mp h.ordered).2.1 hafter
    simp [hbelow]
  calc (strictly above items g).length
      = (strictly above (before ++ g :: after) g).length :=
        ((h.perm.filter _).length_eq).symm
    _ = (strictly above before g).length := by
        rw [strictly, List.filter_append]
        rw [strictly] at hnone
        rw [hnone, List.append_nil, strictly]
    _ ≤ before.length := List.length_filter_le _ _

variable [Std.Total above]

theorem above_of_mem_strictly {items : List α} {g x : α} (hx : x ∈ strictly above items g) :
    above x g := by
  have hnot : ¬ above g x := of_decide_eq_true (List.mem_filter.mp hx).2
  exact (Std.Total.total x g).resolve_right hnot

/-- What must come before `g`, then `g`, then what may come after it. -/
theorem perm_strictly [DecidableEq α] {items : List α} {g : α} (hg : g ∈ items) :
    items.Perm (strictly above items g ++
      g :: (items.filter fun x => decide (above g x)).erase g) := by
  have hrefl : above g g := (Std.Total.total g g).elim id id
  have hin : g ∈ items.filter fun x => decide (above g x) :=
    List.mem_filter.mpr ⟨hg, decide_eq_true hrefl⟩
  have hparts := List.filter_append_perm (fun x => decide (¬ above g x)) items
  refine hparts.symm.trans (List.Perm.append_left _ ?_)
  have hboth : (items.filter fun x => !decide (¬ above g x)) =
      items.filter fun x => decide (above g x) := by simp
  rw [hboth]
  exact List.perm_cons_erase hin

variable [IsTrans α above]

/-- An item can come right after those that must come before it. -/
theorem exists_sorts [DecidableEq α] {items : List α} {g : α} (hg : g ∈ items) :
    ∃ before after, Sorts above items (before ++ g :: after) ∧
      before.length = (strictly above items g).length ∧
      ∀ h ∈ items, above g h → g ≠ h → h ∈ after := by
  let rest := (items.filter fun x => decide (above g x)).erase g
  have hrest : ∀ x ∈ rest, above g x :=
    fun x hx => of_decide_eq_true (List.mem_filter.mp (List.mem_of_mem_erase hx)).2
  have hsplit : items.Perm (strictly above items g ++ g :: rest) := perm_strictly hg
  refine ⟨(strictly above items g).insertionSort above, rest.insertionSort above, ⟨?_, ?_⟩, ?_, ?_⟩
  · refine List.Perm.trans ?_ hsplit.symm
    exact (List.perm_insertionSort _ _).append ((List.perm_insertionSort _ _).cons g)
  · rw [List.pairwise_append]
    refine ⟨List.pairwise_insertionSort _ _, List.pairwise_cons.mpr ⟨?_, ?_⟩, ?_⟩
    · intro x hx
      exact hrest x ((List.mem_insertionSort _).mp hx)
    · exact List.pairwise_insertionSort _ _
    · intro x hx y hy
      have hxg : above x g := above_of_mem_strictly ((List.mem_insertionSort _).mp hx)
      rcases List.mem_cons.mp hy with rfl | hafter
      · exact hxg
      · exact Trans.trans hxg (hrest y ((List.mem_insertionSort _).mp hafter))
  · exact (List.perm_insertionSort _ _).length_eq
  · intro h hh habove hne
    apply (List.mem_insertionSort _).mpr
    apply (List.mem_erase_of_ne hne.symm).mpr
    exact List.mem_filter.mpr ⟨hh, decide_eq_true habove⟩

/-- The first few are ranked in every order of the ties if and only if each item that can be
among them stands well to all that can come after it. -/
theorem ranked_iff [DecidableEq α] {items : List α} (hnodup : items.Nodup)
    (r : α → α → Prop) (n : Nat) :
    (∀ sorted, Sorts above items sorted → Ranked r n sorted) ↔
      ∀ g ∈ items, ∀ h ∈ items, g ≠ h → above g h → (strictly above items g).length < n →
        r g h := by
  have : Std.Refl above := ⟨fun a => (Std.Total.total a a).elim id id⟩
  constructor
  · intro hall g hg h hh hne habove hlt
    obtain ⟨before, after, hsorts, hlength, hafter⟩ := @exists_sorts α above _ _ _ _ items g hg
    exact ranked_iff_split.mp (hall _ hsorts) before g after rfl (hlength ▸ hlt) h
      (hafter h hh habove hne)
  · intro hpairs sorted hsorts
    rw [ranked_iff_split]
    rintro before g after rfl hlt h hh
    have hg : g ∈ items := hsorts.perm.mem_iff.mp (List.mem_append_right _ List.mem_cons_self)
    have hin : h ∈ items :=
      hsorts.perm.mem_iff.mp (List.mem_append_right _ (List.mem_cons_of_mem _ hh))
    have htail := (List.pairwise_append.mp hsorts.ordered).2.1
    have hdistinct := hsorts.perm.nodup_iff.mpr hnodup
    have hne : g ≠ h := by
      rintro rfl
      exact (List.nodup_cons.mp (List.nodup_append.mp hdistinct).2.1).1 hh
    exact hpairs g hg h hin hne (List.rel_of_pairwise_cons htail hh)
      (Nat.lt_of_le_of_lt (strictly_le_before hsorts) hlt)

end Order

end Dbmaster.Lib.TopList
