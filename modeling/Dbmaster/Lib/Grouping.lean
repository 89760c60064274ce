import Mathlib.Data.List.Nodup
import Mathlib.Data.List.Sort
import Std.Data.TreeMap
/-!
# Rows folded into a map

A loop over rows that changes the entry of each row's key and makes it when it is missing.
What the loop leaves at a key depends on the rows of that key alone.
-/

namespace Dbmaster.Lib.Grouping

variable {K α β γ ρ : Type*} {cmp : K → K → Ordering}

/-- `entry(key).or_insert(new)`, and `f` on what is there then. -/
def upsert (entries : Std.TreeMap K α cmp) (key : K) (new : α) (f : α → α) :
    Std.TreeMap K α cmp :=
  entries.insert key (f (entries.getD key new))

/-- One `upsert` for each row. -/
def upsertAll (key : ρ → K) (new : ρ → α) (f : ρ → α → α) (rows : List ρ)
    (entries : Std.TreeMap K α cmp) : Std.TreeMap K α cmp :=
  rows.foldl (fun entries row => upsert entries (key row) (new row) (f row)) entries

/-- What the rows of one key make of its entry. -/
def settle (new : ρ → α) (f : ρ → α → α) (entry : Option α) (rows : List ρ) : Option α :=
  rows.foldl (fun entry row => some (f row (entry.getD (new row)))) entry

/-! ## One entry -/

section Entry

variable {new : ρ → α} {f : ρ → α → α} {entry : Option α}

theorem settle_cons (row : ρ) (rows : List ρ) :
    settle new f entry (row :: rows) = settle new f (some (f row (entry.getD (new row)))) rows :=
  rfl

theorem settle_some (a : α) (rows : List ρ) :
    settle new f (some a) rows = some (rows.foldl (fun a row => f row a) a) := by
  induction rows generalizing a with
  | nil => rfl
  | cons row rows ih =>
      rw [settle_cons]
      exact ih _

theorem settle_none_cons (row : ρ) (rows : List ρ) :
    settle new f none (row :: rows) =
      some ((row :: rows).foldl (fun a row => f row a) (new row)) := by
  rw [settle_cons, settle_some]
  rfl

theorem settle_eq_none_iff {rows : List ρ} :
    settle new f entry rows = none ↔ entry = none ∧ rows = [] := by
  cases rows with
  | nil => exact (and_iff_left rfl).symm
  | cons row rows =>
      rw [settle_cons, settle_some]
      simp

/-- What no row changes is that of the entry, or of the one the first row makes. -/
theorem map_settle {g : α → β} (hkept : ∀ row a, g (f row a) = g a) (rows : List ρ) :
    (settle new f entry rows).map g = (entry.map g).or (rows.head?.map fun row => g (new row)) := by
  have hsome : ∀ (rows : List ρ) a, (settle new f (some a) rows).map g = some (g a) := by
    intro rows
    induction rows with
    | nil => exact fun _ => rfl
    | cons row rows ih =>
        intro a
        rw [settle_cons, ih, hkept]
        rfl
  cases rows with
  | nil => exact (Option.or_none ..).symm
  | cons row rows =>
      rw [settle_cons, hsome, hkept]
      cases entry with
      | none => rfl
      | some a => rfl

theorem bind_settle_of_kept {g : α → Option β} (hkept : ∀ row a, g (f row a) = g a)
    (hnew : ∀ row, g (new row) = none) (rows : List ρ) :
    (settle new f entry rows).bind g = entry.bind g := by
  induction rows generalizing entry with
  | nil => rfl
  | cons row rows ih =>
      rw [settle_cons, ih]
      show g (f row (entry.getD (new row))) = _
      rw [hkept]
      cases entry with
      | none => exact hnew row
      | some a => rfl

theorem bind_settle_put {p : ρ → Bool} {value : ρ → β} {g : α → Option β}
    (hput : ∀ row a, g (f row a) = if p row then some (value row) else g a)
    (hnew : ∀ row, g (new row) = none) (rows : List ρ) :
    (settle new f entry rows).bind g =
      ((rows.filter p).getLast?.map value).or (entry.bind g) := by
  induction rows generalizing entry with
  | nil => rfl
  | cons row rows ih =>
      have hentry : g (entry.getD (new row)) = entry.bind g := by
        cases entry with
        | none => exact hnew row
        | some a => rfl
      rw [settle_cons, ih, List.filter_cons]
      rw [Option.bind_some, hput, hentry]
      cases hp : p row with
      | false => rfl
      | true =>
          cases hlast : (rows.filter p).getLast? with
          | none =>
              rw [List.getLast?_eq_none_iff] at hlast
              rw [hlast]
              rfl
          | some last =>
              rw [if_pos rfl, if_pos rfl, List.getLast?_cons, hlast]
              rfl

theorem settle_put (value : ρ → α) (rows : List ρ) :
    settle new (fun row _ => value row) entry rows = (rows.getLast?.map value).or entry := by
  induction rows generalizing entry with
  | nil => rfl
  | cons row rows ih =>
      rw [settle_cons, ih]
      cases rows with
      | nil => rfl
      | cons next rows =>
          rw [List.getLast?_cons_cons, List.getLast?_eq_some_getLast (List.cons_ne_nil next rows)]
          rfl

theorem settle_append (item : ρ → β) (rows : List ρ) (h : rows ≠ []) :
    settle (fun _ => []) (fun row items => items ++ [item row]) none rows =
      some (rows.map item) := by
  have hfold : ∀ (rows : List ρ) (items : List β),
      rows.foldl (fun items row => items ++ [item row]) items = items ++ rows.map item := by
    intro rows
    induction rows with
    | nil => exact fun items => (List.append_nil items).symm
    | cons row rows ih =>
        intro items
        rw [List.foldl_cons, ih, List.append_assoc]
        rfl
  obtain ⟨row, rows, rfl⟩ := List.exists_cons_of_ne_nil h
  rw [settle_none_cons, hfold, List.nil_append]

end Entry

/-! ## The whole map -/

section Lawful

variable [Std.LawfulEqCmp cmp]

theorem compare_eq_iff (k k' : K) : cmp k k' = .eq ↔ k = k' := by
  constructor
  · exact Std.LawfulEqCmp.eq_of_compare
  · rintro rfl
    exact Std.ReflCmp.compare_self

variable [Std.TransCmp cmp]

theorem nodup_toList (entries : Std.TreeMap K α cmp) : entries.toList.Nodup := by
  apply Std.TreeMap.distinct_keys_toList.imp
  intro e f hne heq
  exact hne ((compare_eq_iff e.1 f.1).mpr (congrArg Prod.fst heq))

theorem toList_eq_of_getElem? {entries entries' : Std.TreeMap K α cmp}
    (h : ∀ k : K, entries[k]? = entries'[k]?) : entries.toList = entries'.toList := by
  apply Std.TreeMap.Equiv.toList_eq
  apply Std.TreeMap.equiv_iff_toList_perm.mpr
  apply (List.perm_ext_iff_of_nodup (nodup_toList entries) (nodup_toList entries')).mpr
  rintro ⟨k, a⟩
  rw [Std.TreeMap.mem_toList_iff_getElem?_eq_some, Std.TreeMap.mem_toList_iff_getElem?_eq_some,
    h k]

variable [DecidableEq K]

theorem getElem?_upsert (entries : Std.TreeMap K α cmp) (key k : K) (new : α) (f : α → α) :
    (upsert entries key new f)[k]? =
      if key = k then some (f (entries[k]?.getD new)) else entries[k]? := by
  unfold upsert
  rw [Std.TreeMap.getElem?_insert, Std.TreeMap.getD_eq_getD_getElem?]
  simp only [compare_eq_iff]
  by_cases h : key = k
  · rw [if_pos h, if_pos h, h]
  · rw [if_neg h, if_neg h]

/-- The loop leaves at a key what the rows of that key make of its entry. -/
theorem getElem?_upsertAll (key : ρ → K) (new : ρ → α) (f : ρ → α → α) (rows : List ρ)
    (entries : Std.TreeMap K α cmp) (k : K) :
    (upsertAll key new f rows entries)[k]? =
      settle new f entries[k]? (rows.filter fun row => decide (key row = k)) := by
  induction rows generalizing entries with
  | nil => rfl
  | cons row rows ih =>
      show (upsertAll key new f rows (upsert entries (key row) (new row) (f row)))[k]? = _
      rw [ih, getElem?_upsert]
      by_cases h : key row = k
      · rw [if_pos h, List.filter_cons, if_pos (decide_eq_true h), settle_cons]
      · rw [if_neg h, List.filter_cons, if_neg (by simpa using h)]

/-- Maps within the entries, changed by the rows of a kind: what is left at a key of one of
them depends on the rows of both keys. -/
theorem bind_settle_upsert {p : ρ → Bool} {key : ρ → K} {new : ρ → β} {f : ρ → β → β}
    {outer : ρ → α} {step : ρ → α → α} {g : α → Std.TreeMap K β cmp}
    (hstep : ∀ row a, g (step row a) =
      if p row then upsert (g a) (key row) (new row) (f row) else g a)
    (houter : ∀ row, g (outer row) = ∅) (entry : Option α) (rows : List ρ) (k : K) :
    (settle outer step entry rows).bind (fun a => (g a)[k]?) =
      settle new f (entry.bind fun a => (g a)[k]?)
        (rows.filter fun row => p row && decide (key row = k)) := by
  induction rows generalizing entry with
  | nil => rfl
  | cons row rows ih =>
      have hentry : (g (entry.getD (outer row)))[k]? = entry.bind fun a => (g a)[k]? := by
        cases entry with
        | none =>
            show (g (outer row))[k]? = none
            rw [houter, Std.TreeMap.getElem?_emptyc]
        | some a => rfl
      rw [settle_cons, ih, List.filter_cons]
      show settle new f (g (step row (entry.getD (outer row))))[k]? _ = _
      rw [hstep]
      cases p row with
      | false => rw [if_neg Bool.false_ne_true, hentry, Bool.false_and, if_neg Bool.false_ne_true]
      | true =>
          rw [if_pos rfl, getElem?_upsert, hentry, Bool.true_and]
          by_cases h : key row = k
          · rw [if_pos h, if_pos (decide_eq_true h), settle_cons]
          · rw [if_neg h, if_neg (by simpa using h)]

theorem filter_toList (entries : Std.TreeMap K α cmp) (k : K) :
    entries.toList.filter (fun e => decide (e.1 = k)) =
      (entries[k]?.map fun a => (k, a)).toList := by
  have hnodup : (entries.toList.filter fun e => decide (e.1 = k)).Pairwise fun e f => e.1 ≠ f.1 := by
    apply List.Pairwise.filter
    apply Std.TreeMap.distinct_keys_toList.imp
    intro e f hne heq
    exact hne ((compare_eq_iff e.1 f.1).mpr heq)
  have hmem : ∀ e, e ∈ entries.toList.filter (fun e => decide (e.1 = k)) ↔
      entries[k]? = some e.2 ∧ e.1 = k := by
    intro e
    rw [List.mem_filter, decide_eq_true_iff]
    constructor
    · rintro ⟨hin, rfl⟩
      exact ⟨Std.TreeMap.mem_toList_iff_getElem?_eq_some.mp hin, rfl⟩
    · rintro ⟨hget, rfl⟩
      exact ⟨Std.TreeMap.mem_toList_iff_getElem?_eq_some.mpr hget, rfl⟩
  cases hfound : entries.toList.filter (fun e => decide (e.1 = k)) with
  | nil =>
      cases hget : entries[k]? with
      | none => rfl
      | some a =>
          have hin := (hmem (k, a)).mpr ⟨hget, rfl⟩
          rw [hfound] at hin
          cases hin
  | cons e rest =>
      rw [hfound] at hnodup hmem
      obtain ⟨hget, hkey⟩ := (hmem e).mp List.mem_cons_self
      have hrest : rest = [] := by
        apply List.eq_nil_iff_forall_not_mem.mpr
        intro e' he'
        have hkey' := ((hmem e').mp (List.mem_cons_of_mem _ he')).2
        exact List.rel_of_pairwise_cons hnodup he' (hkey.trans hkey'.symm)
      rw [hget, hrest, ← hkey]
      rfl

/-- `get_mut` at each key of another map. -/
def modifyAll (f : β → α → α) (others : Std.TreeMap K β cmp) (entries : Std.TreeMap K α cmp) :
    Std.TreeMap K α cmp :=
  others.toList.foldl (fun entries e => entries.modify e.1 (f e.2)) entries

theorem getElem?_modifyAll (f : β → α → α) (others : Std.TreeMap K β cmp)
    (entries : Std.TreeMap K α cmp) (k : K) :
    (modifyAll f others entries)[k]? =
      entries[k]?.map fun a => others[k]?.elim a fun b => f b a := by
  have hfold : ∀ (l : List (K × β)) (entries : Std.TreeMap K α cmp),
      (l.foldl (fun entries e => entries.modify e.1 (f e.2)) entries)[k]? =
        entries[k]?.map fun a =>
          (l.filter fun e => decide (e.1 = k)).foldl (fun a e => f e.2 a) a := by
    intro l
    induction l with
    | nil =>
        intro entries
        exact (Option.map_id' ..).symm
    | cons e l ih =>
        intro entries
        rw [List.foldl_cons, ih, Std.TreeMap.getElem?_modify]
        simp only [compare_eq_iff]
        by_cases h : e.1 = k
        · rw [if_pos h, List.filter_cons, if_pos (decide_eq_true h), Option.map_map, h]
          rfl
        · rw [if_neg h, List.filter_cons, if_neg (by simpa using h)]
  unfold modifyAll
  rw [hfold, filter_toList]
  cases others[k]? with
  | none => rfl
  | some b => rfl

theorem map_modifyAll {f : β → α → α} {g : α → γ} (hkept : ∀ b a, g (f b a) = g a)
    (others : Std.TreeMap K β cmp) (entries : Std.TreeMap K α cmp) (k : K) :
    (modifyAll f others entries)[k]?.map g = entries[k]?.map g := by
  rw [getElem?_modifyAll, Option.map_map]
  congr 1
  funext a
  cases others[k]? with
  | none => rfl
  | some b => exact hkept b a

theorem bind_modifyAll {f : β → α → α} {g : α → Option γ} (hkept : ∀ b a, g (f b a) = g a)
    (others : Std.TreeMap K β cmp) (entries : Std.TreeMap K α cmp) (k : K) :
    (modifyAll f others entries)[k]?.bind g = entries[k]?.bind g := by
  have h := map_modifyAll hkept others entries k
  cases hleft : (modifyAll f others entries)[k]? with
  | none =>
      rw [hleft, eq_comm, Option.map_none, Option.map_eq_none_iff] at h
      rw [h]
  | some a =>
      rw [hleft, eq_comm, Option.map_some, Option.map_eq_some_iff] at h
      obtain ⟨b, hb, heq⟩ := h
      rw [hb]
      exact heq.symm

end Lawful

/-! ## Rows in another order -/

section Order

variable {key : ρ → K} {rows rows' : List ρ}

theorem filter_eq_of_perm [DecidableEq K] (hperm : rows.Perm rows') (hnodup : (rows.map key).Nodup)
    (k : K) :
    rows.filter (fun r => decide (key r = k)) = rows'.filter fun r => decide (key r = k) := by
  have hgroup := hperm.filter fun r => decide (key r = k)
  have hdistinct := (List.pairwise_map.mp hnodup).filter fun r => decide (key r = k)
  have hkey : ∀ r ∈ rows.filter (fun r => decide (key r = k)), key r = k :=
    fun r hr => of_decide_eq_true (List.mem_filter.mp hr).2
  generalize rows.filter (fun r => decide (key r = k)) = group at hgroup hdistinct hkey ⊢
  match group, hgroup, hdistinct, hkey with
  | [], hgroup, _, _ => exact (List.nil_perm.mp hgroup).symm
  | [r], hgroup, _, _ => exact (List.singleton_perm.mp hgroup)
  | r :: r' :: group, _, hdistinct, hkey =>
      have hsame : key r = key r' := by
        rw [hkey r List.mem_cons_self, hkey r' (List.mem_cons_of_mem _ List.mem_cons_self)]
      exact absurd hsame (List.rel_of_pairwise_cons hdistinct List.mem_cons_self)

/-- Where no two rows have the same key and place, the rows of a key have different places. -/
theorem nodup_group [DecidableEq K] {place : ρ → β}
    (hnodup : (rows.map fun r => (key r, place r)).Nodup) (k : K) :
    ((rows.filter fun r => decide (key r = k)).map place).Nodup := by
  have hkey : ∀ r ∈ rows.filter (fun r => decide (key r = k)), key r = k :=
    fun r hr => of_decide_eq_true (List.mem_filter.mp hr).2
  apply List.pairwise_map.mpr
  apply ((List.pairwise_map.mp hnodup).filter _).imp_of_mem
  intro a b ha hb hne heq
  exact hne (by rw [hkey a ha, hkey b hb, heq])

theorem mergeSort_eq_of_perm [LinearOrder K] (hperm : rows.Perm rows')
    (hnodup : (rows.map key).Nodup) :
    (rows.mergeSort fun a b => decide (key a ≤ key b)) =
      rows'.mergeSort fun a b => decide (key a ≤ key b) := by
  have hsorted : ∀ l : List ρ, (l.mergeSort fun a b => decide (key a ≤ key b)).Pairwise
      fun a b => decide (key a ≤ key b) = true := by
    apply List.pairwise_mergeSort
    · intro a b c hab hbc
      exact decide_eq_true (le_trans (of_decide_eq_true hab) (of_decide_eq_true hbc))
    · intro a b
      rw [Bool.or_eq_true, decide_eq_true_iff, decide_eq_true_iff]
      exact le_total (key a) (key b)
  apply List.Perm.eq_of_pairwise _ (hsorted rows) (hsorted rows')
  · exact (List.mergeSort_perm rows _).trans (hperm.trans (List.mergeSort_perm rows' _).symm)
  · intro a b ha hb hab hba
    have hain := (List.mergeSort_perm rows _).mem_iff.mp ha
    have hbin := hperm.mem_iff.mpr ((List.mergeSort_perm rows' _).mem_iff.mp hb)
    apply List.inj_on_of_nodup_map hnodup hain hbin
    exact le_antisymm (of_decide_eq_true hab) (of_decide_eq_true hba)

end Order

end Dbmaster.Lib.Grouping
