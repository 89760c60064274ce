import Mathlib.Data.List.Nodup
import Mathlib.Order.Lattice
/-!
# Tables

A table is the list of its rows.  `UPDATE … WHERE` and the row a query with
`ORDER BY … DESC LIMIT 1` comes back with, over any type of rows.
-/

namespace Dbmaster.Lib.Table

variable {α K T : Type*}

/-! ## Updates -/

/-- `UPDATE … WHERE p`: `f` is what the statement sets. -/
def updateWhere (p : α → Bool) (f : α → α) (table : List α) : List α :=
  table.map fun row => if p row then f row else row

theorem mem_updateWhere {p : α → Bool} {f : α → α} {table : List α} {row : α} :
    row ∈ updateWhere p f table ↔ ∃ old ∈ table, (if p old then f old else old) = row := by
  rw [updateWhere, List.mem_map]

/-- A column the statement does not set. -/
theorem apply_updated {g : α → K} {p : α → Bool} {f : α → α} (hf : ∀ row, g (f row) = g row)
    (row : α) : g (if p row then f row else row) = g row := by
  by_cases hp : p row = true
  · rw [if_pos hp, hf]
  · rw [if_neg hp]

theorem map_updateWhere {g : α → K} {p : α → Bool} {f : α → α}
    (hf : ∀ row, g (f row) = g row) (table : List α) :
    (updateWhere p f table).map g = table.map g := by
  rw [updateWhere, List.map_map]
  apply List.map_congr_left
  intro row _
  exact apply_updated hf row

/-- What holds of every row and of every row the statement writes. -/
theorem forall_updateWhere {P : α → Prop} {p : α → Bool} {f : α → α} {table : List α}
    (hkept : ∀ row ∈ table, p row = false → P row)
    (hset : ∀ row ∈ table, p row = true → P (f row)) :
    ∀ row ∈ updateWhere p f table, P row := by
  intro row hrow
  obtain ⟨old, hold, rfl⟩ := mem_updateWhere.mp hrow
  cases hp : p old with
  | false =>
      rw [if_neg Bool.false_ne_true]
      exact hkept old hold hp
  | true =>
      rw [if_pos rfl]
      exact hset old hold hp

/-- No row has the key. -/
def Absent (key : α → K) (k : K) (table : List α) : Prop := ∀ row ∈ table, key row ≠ k

theorem absent_iff {key : α → K} {k : K} {table : List α} :
    Absent key k table ↔ k ∉ table.map key := by
  rw [List.mem_map]
  constructor
  · rintro h ⟨row, hrow, hkey⟩
    exact h row hrow hkey
  · intro h row hrow hkey
    exact h ⟨row, hrow, hkey⟩

theorem absent_updateWhere {key : α → K} {k : K} {p : α → Bool} {f : α → α}
    (hf : ∀ row, key (f row) = key row) {table : List α} :
    Absent key k (updateWhere p f table) ↔ Absent key k table := by
  rw [absent_iff, absent_iff, map_updateWhere hf]

theorem filter_updateWhere {q p : α → Bool} {f : α → α} (hf : ∀ row, q (f row) = q row)
    (table : List α) : (updateWhere p f table).filter q = updateWhere p f (table.filter q) := by
  rw [updateWhere, updateWhere, List.filter_map]
  have hq : q ∘ (fun row => if p row then f row else row) = q :=
    funext fun row => apply_updated hf row
  rw [hq]

/-- The row found by the condition of the update. -/
theorem find?_updateWhere {p : α → Bool} {f : α → α} (hf : ∀ row, p (f row) = p row)
    (table : List α) : (updateWhere p f table).find? p = (table.find? p).map f := by
  have hp : p ∘ (fun row => if p row then f row else row) = p :=
    funext fun row => apply_updated hf row
  rw [updateWhere, List.find?_map, hp]
  cases hfind : table.find? p with
  | none => rfl
  | some row => rw [Option.map_some, Option.map_some, if_pos (List.find?_some hfind)]

theorem updateWhere_of_none {p : α → Bool} {f : α → α} {table : List α}
    (h : ∀ row ∈ table, p row = false) : updateWhere p f table = table := by
  rw [updateWhere]
  refine (List.map_congr_left fun row hrow => ?_).trans (List.map_id table)
  rw [h row hrow]
  rfl

/-! ## Primary keys -/

/-- A table whose rows have different keys. -/
structure Keyed (key : α → K) where
  rows : List α
  nodup : (rows.map key).Nodup

namespace Keyed

variable {key : α → K}

def update (table : Keyed key) (p : α → Bool) (f : α → α) (hf : ∀ row, key (f row) = key row) :
    Keyed key :=
  ⟨updateWhere p f table.rows, by rw [map_updateWhere hf]; exact table.nodup⟩

/-- The row at the end, unless its key is taken. -/
def insert [DecidableEq K] (table : Keyed key) (row : α) : Option (Keyed key) :=
  if h : key row ∈ table.rows.map key then none
  else some ⟨table.rows ++ [row], by
    rw [List.map_append, List.map_singleton, ← List.concat_eq_append]
    exact table.nodup.concat h⟩

theorem exists_insert [DecidableEq K] {table : Keyed key} (row : α)
    (h : key row ∉ table.rows.map key) :
    ∃ next, table.insert row = some next ∧ next.rows = table.rows ++ [row] :=
  ⟨_, dif_neg h, rfl⟩

/-- The update of the row with a given key leaves the rows out of `q` as they are. -/
theorem filter_update_of_notMem [DecidableEq K] {table : Keyed key} {row : α} {q : α → Bool}
    {f : α → α} {hf : ∀ row, key (f row) = key row} (hq : ∀ row, q (f row) = q row)
    (hrow : row ∈ table.rows) (hnot : q row = false) :
    (table.update (fun r => decide (key r = key row)) f hf).rows.filter q =
      table.rows.filter q := by
  show (updateWhere _ f table.rows).filter q = _
  rw [filter_updateWhere hq]
  apply updateWhere_of_none
  intro other hother
  obtain ⟨hin, hyes⟩ := List.mem_filter.mp hother
  apply decide_eq_false
  intro hkey
  rw [List.inj_on_of_nodup_map table.nodup hin hrow hkey, hnot] at hyes
  cases hyes

theorem filter_update_singleton [DecidableEq K] {table : Keyed key} {row : α} {q : α → Bool}
    {f : α → α} {hf : ∀ row, key (f row) = key row} (hq : ∀ row, q (f row) = q row)
    (h : table.rows.filter q = [row]) :
    (table.update (fun r => decide (key r = key row)) f hf).rows.filter q = [f row] := by
  show (updateWhere _ f table.rows).filter q = _
  rw [filter_updateWhere hq, h, updateWhere, List.map_singleton, if_pos (decide_eq_true rfl)]

end Keyed

/-! ## Some row -/

/-- `WHERE p LIMIT 1`; `pick` decides between the rows. -/
def fetchAny (p : α → Bool) (table : List α) (pick : Nat) : Option α :=
  (table.filter p)[pick]?.or (table.filter p).head?

theorem fetchAny_mem {p : α → Bool} {table : List α} {pick : Nat} {row : α}
    (h : fetchAny p table pick = some row) : row ∈ table.filter p := by
  rcases Option.or_eq_some_iff.mp h with hpick | ⟨-, hhead⟩
  · exact List.mem_of_getElem? hpick
  · exact List.mem_of_head? hhead

theorem fetchAny_eq_none_iff {p : α → Bool} {table : List α} {pick : Nat} :
    fetchAny p table pick = none ↔ table.filter p = [] := by
  constructor
  · intro h
    exact List.head?_eq_none_iff.mp (Option.or_eq_none_iff.mp h).2
  · intro h
    rw [fetchAny, h]
    rfl

/-! ## The latest row -/

section Latest

variable [LinearOrder T]

/-- The rows that `ORDER BY stamp DESC` may put first. -/
def latestRows (stamp : α → T) (p : α → Bool) (table : List α) : List α :=
  (table.filter p).filter fun row =>
    (table.filter p).all fun other => decide (stamp other ≤ stamp row)

/-- `WHERE p ORDER BY stamp DESC LIMIT 1`; `pick` decides between rows of one
stamp. -/
def fetchLatest (stamp : α → T) (p : α → Bool) (table : List α) (pick : Nat) : Option α :=
  (latestRows stamp p table)[pick]?.or (latestRows stamp p table).head?

theorem mem_latestRows {stamp : α → T} {p : α → Bool} {table : List α} {row : α} :
    row ∈ latestRows stamp p table ↔
      (row ∈ table ∧ p row = true) ∧
        ∀ other ∈ table, p other = true → stamp other ≤ stamp row := by
  simp only [latestRows, List.mem_filter, List.all_eq_true, decide_eq_true_eq, and_imp]

theorem fetchLatest_mem {stamp : α → T} {p : α → Bool} {table : List α} {pick : Nat} {row : α}
    (h : fetchLatest stamp p table pick = some row) : row ∈ latestRows stamp p table := by
  rcases Option.or_eq_some_iff.mp h with hpick | ⟨-, hhead⟩
  · exact List.mem_of_getElem? hpick
  · exact List.mem_of_head? hhead

/-- A row later than all the others is the one fetched. -/
theorem fetchLatest_eq {stamp : α → T} {p : α → Bool} {table : List α} {row : α}
    (hrow : row ∈ table) (hp : p row = true)
    (hlast : ∀ other ∈ table, p other = true → other = row ∨ stamp other < stamp row)
    (pick : Nat) : fetchLatest stamp p table pick = some row := by
  have hmem : row ∈ latestRows stamp p table := by
    refine mem_latestRows.mpr ⟨⟨hrow, hp⟩, fun other hother hother' => ?_⟩
    rcases hlast other hother hother' with rfl | hlt
    · exact le_rfl
    · exact le_of_lt hlt
  have honly : ∀ other ∈ latestRows stamp p table, other = row := by
    intro other hother
    obtain ⟨⟨hin, hother'⟩, hle⟩ := mem_latestRows.mp hother
    rcases hlast other hin hother' with heq | hlt
    · exact heq
    · exact absurd (hle row hrow hp) (not_le.mpr hlt)
  cases hfetch : fetchLatest stamp p table pick with
  | some other => rw [honly other (fetchLatest_mem hfetch)]
  | none =>
      obtain ⟨-, hhead⟩ := Option.or_eq_none_iff.mp hfetch
      rw [List.head?_eq_none_iff.mp hhead] at hmem
      cases hmem

/-- Of rows with later and later stamps, the last one is fetched. -/
theorem fetchLatest_eq_getLast? {stamp : α → T} {p : α → Bool} {table : List α}
    (h : table.Pairwise fun row other => stamp row < stamp other) (pick : Nat) :
    fetchLatest stamp p table pick = (table.filter p).getLast? := by
  cases hlast : (table.filter p).getLast? with
  | none =>
      rw [List.getLast?_eq_none_iff] at hlast
      unfold fetchLatest latestRows
      rw [hlast]
      rfl
  | some row =>
      obtain ⟨before, hbefore⟩ := List.getLast?_eq_some_iff.mp hlast
      have hsorted := h.filter p
      rw [hbefore, List.pairwise_append] at hsorted
      have hmem : ∀ other, other ∈ table ∧ p other = true ↔ other ∈ before ∨ other = row := by
        intro other
        rw [← List.mem_filter, hbefore, List.mem_append, List.mem_singleton]
      obtain ⟨hin, hp⟩ := (hmem row).mpr (Or.inr rfl)
      apply fetchLatest_eq hin hp
      intro other hother hp'
      rcases (hmem other).mp ⟨hother, hp'⟩ with hbefore | heq
      · exact Or.inr (hsorted.2.2 other hbefore row (List.mem_singleton_self row))
      · exact Or.inl heq

end Latest

/-! ## Rows that refer to the row before them -/

/-- Each row stands in `R` to the row before it, if there is one. -/
def Linked (R : Option α → α → Prop) (table : List α) : Prop :=
  ∀ before row, before ++ [row] <+: table → R before.getLast? row

theorem linked_nil (R : Option α → α → Prop) : Linked R [] := by
  intro before row h
  have hnil := List.prefix_nil.mp h
  simp at hnil

theorem linked_concat {R : Option α → α → Prop} {table : List α} {new : α}
    (h : Linked R table) (hnew : R table.getLast? new) : Linked R (table ++ [new]) := by
  intro before row hprefix
  rcases List.prefix_concat_iff.mp hprefix with heq | hold
  · obtain ⟨rfl, hrow⟩ := List.append_inj' heq rfl
    rw [List.singleton_inj.mp hrow]
    exact hnew
  · exact h before row hold

theorem Linked.imp {R S : Option α → α → Prop} {table : List α} (h : Linked R table)
    (himp : ∀ prior row, (∀ p ∈ prior, p ∈ table) → row ∈ table → R prior row → S prior row) :
    Linked S table := by
  intro before row hprefix
  apply himp _ row _ _ (h before row hprefix)
  · intro p hp
    have hin := List.mem_of_getLast? hp
    exact hprefix.subset (List.mem_append_left _ hin)
  · exact hprefix.subset (List.mem_append_right _ (List.mem_singleton_self row))

end Dbmaster.Lib.Table
