import Mathlib.Data.List.Pairwise
import Mathlib.Data.List.Sort
/-!
# Rows that come in segments

A listing in the order of a key, and of a position under it, shows items one after another, each
with its rows.  The loop that adds a row to the last group, or starts another one with it, gets the
items back.
-/

namespace Dbmaster.Lib.Segments

variable {K N γ δ ρ : Type*}

/-! ## The loop -/

section Gather

variable (key : ρ → K) (groupKey : γ → K) (start : ρ → γ) (extend : γ → ρ → γ)

/-- A group has the key of the row that started it. -/
structure Keyed : Prop where
  start : ∀ row, groupKey (start row) = key row
  extend : ∀ group row, groupKey (extend group row) = groupKey group

/-- What becomes of the rows of one group. -/
def settle : List ρ → Option γ
  | [] => none
  | row :: rows => some (rows.foldl extend (start row))

section Keys

variable {key groupKey start extend}

theorem groupKey_foldl (hkeyed : Keyed key groupKey start extend) (rows : List ρ) (group : γ) :
    groupKey (rows.foldl extend group) = groupKey group := by
  induction rows generalizing group with
  | nil => rfl
  | cons row rows ih => rw [List.foldl_cons, ih, hkeyed.extend]

end Keys

variable [DecidableEq K]

/-- A row goes to the last group if that has its key. -/
def place (groups : List γ) (row : ρ) : List γ :=
  match groups.getLast? with
  | some last =>
    if groupKey last = key row then groups.dropLast ++ [extend last row]
    else groups ++ [start row]
  | none => groups ++ [start row]

def gather (rows : List ρ) : List γ := rows.foldl (place key groupKey start extend) []

variable {key groupKey start extend}

theorem place_same {groups : List γ} {last : γ} {row : ρ} (h : groupKey last = key row) :
    place key groupKey start extend (groups ++ [last]) row = groups ++ [extend last row] := by
  unfold place
  rw [List.getLast?_concat]
  dsimp only
  rw [if_pos h, List.dropLast_concat]

theorem place_other {groups : List γ} {row : ρ}
    (h : ∀ last, groups.getLast? = some last → groupKey last ≠ key row) :
    place key groupKey start extend groups row = groups ++ [start row] := by
  unfold place
  cases hlast : groups.getLast? with
  | none => rfl
  | some last => exact if_neg (h last hlast)

theorem foldl_place_same (hkeyed : Keyed key groupKey start extend) {rows : List ρ}
    (groups : List γ) {last : γ} (h : ∀ row ∈ rows, key row = groupKey last) :
    rows.foldl (place key groupKey start extend) (groups ++ [last]) =
      groups ++ [rows.foldl extend last] := by
  induction rows generalizing last with
  | nil => rfl
  | cons row rows ih =>
      rw [List.foldl_cons, List.foldl_cons, place_same (h row List.mem_cons_self).symm]
      apply ih
      intro other hother
      rw [hkeyed.extend]
      exact h other (List.mem_cons_of_mem row hother)

theorem foldl_place_segment (hkeyed : Keyed key groupKey start extend) {groups : List γ}
    {row : ρ} {rows : List ρ} (hrows : ∀ other ∈ rows, key other = key row)
    (hlast : ∀ last, groups.getLast? = some last → groupKey last ≠ key row) :
    (row :: rows).foldl (place key groupKey start extend) groups =
      groups ++ [rows.foldl extend (start row)] := by
  rw [List.foldl_cons, place_other hlast]
  apply foldl_place_same hkeyed
  intro other hother
  rw [hkeyed.start]
  exact hrows other hother

variable {items : List δ} {rowsOf : δ → List ρ} {keyOf : δ → K}

theorem foldl_place_flatMap (hkeyed : Keyed key groupKey start extend) {groups : List γ}
    (hkey : ∀ d ∈ items, ∀ row ∈ rowsOf d, key row = keyOf d)
    (hne : ∀ d ∈ items, rowsOf d ≠ []) (hnodup : (items.map keyOf).Nodup)
    (hlast : ∀ last, groups.getLast? = some last → groupKey last ∉ items.map keyOf) :
    (items.flatMap rowsOf).foldl (place key groupKey start extend) groups =
      groups ++ items.filterMap fun d => settle start extend (rowsOf d) := by
  induction items generalizing groups with
  | nil =>
      rw [List.flatMap_nil, List.foldl_nil, List.filterMap_nil, List.append_nil]
  | cons d items ih =>
      obtain ⟨row, rows, hrows⟩ := List.exists_cons_of_ne_nil (hne d List.mem_cons_self)
      have hd := hkey d List.mem_cons_self
      rw [hrows] at hd
      have hrow := hd row List.mem_cons_self
      rw [List.map_cons, List.nodup_cons] at hnodup
      have hsettled : settle start extend (rowsOf d) = some (rows.foldl extend (start row)) := by
        rw [hrows, settle]
      have hfirst : (row :: rows).foldl (place key groupKey start extend) groups =
          groups ++ [rows.foldl extend (start row)] := by
        apply foldl_place_segment hkeyed
        · intro other hother
          rw [hrow]
          exact hd other (List.mem_cons_of_mem row hother)
        · intro last hgroups heq
          refine hlast last hgroups ?_
          rw [heq, hrow, List.map_cons]
          exact List.mem_cons_self
      rw [List.flatMap_cons, List.foldl_append, hrows, hfirst, List.filterMap_cons_some (f := fun d => settle start extend (rowsOf d)) hsettled,
        ih (fun e he => hkey e (List.mem_cons_of_mem d he))
          (fun e he => hne e (List.mem_cons_of_mem d he)) hnodup.2, List.append_assoc]
      · rfl
      · intro last hgroups
        rw [List.getLast?_concat] at hgroups
        rw [← Option.some.inj hgroups, groupKey_foldl hkeyed, hkeyed.start, hrow]
        exact hnodup.1

/-- The loop gets the items back from their rows. -/
theorem gather_flatMap (hkeyed : Keyed key groupKey start extend)
    (hkey : ∀ d ∈ items, ∀ row ∈ rowsOf d, key row = keyOf d)
    (hne : ∀ d ∈ items, rowsOf d ≠ []) (hnodup : (items.map keyOf).Nodup) :
    gather key groupKey start extend (items.flatMap rowsOf) =
      items.filterMap fun d => settle start extend (rowsOf d) := by
  refine (foldl_place_flatMap hkeyed hkey hne hnodup ?_).trans (List.nil_append _)
  rintro last ⟨⟩

end Gather

/-! ## The listing -/

section Listed

variable (le : N → N → Prop) (name : ρ → N) (position : ρ → Int)

/-- `ORDER BY name, position` has one row before another. -/
def Before (row other : ρ) : Prop :=
  le (name row) (name other) ∧ (le (name other) (name row) → position row ≤ position other)

/-- Some rows as a query lists them. -/
structure Listed (rows stored : List ρ) : Prop where
  perm : rows.Perm stored
  sorted : rows.Pairwise (Before le name position)

/-- The names differ for the order of the listing, too. -/
def Distinct (nameOf : δ → N) (items : List δ) : Prop :=
  items.Pairwise fun d e => ¬(le (nameOf d) (nameOf e) ∧ le (nameOf e) (nameOf d))

variable {le name position} {items sorted : List δ} {rowsOf : δ → List ρ} {nameOf : δ → N}
variable {rows : List ρ}

instance symm_told_apart : Std.Symm fun d e => ¬(le (nameOf d) (nameOf e) ∧ le (nameOf e) (nameOf d)) :=
  ⟨fun _ _ hnot hboth => hnot hboth.symm⟩

theorem Distinct.eq_of_le (h : Distinct le nameOf items) {d e : δ} (hd : d ∈ items)
    (he : e ∈ items) (hde : le (nameOf d) (nameOf e)) (hed : le (nameOf e) (nameOf d)) :
    d = e := by
  by_contra hne
  exact h.forall hd he hne ⟨hde, hed⟩

theorem eq_of_position
    (hpos : rows.Pairwise fun row other => position row < position other) {row other : ρ}
    (hrow : row ∈ rows) (hother : other ∈ rows) (heq : position row = position other) :
    row = other := by
  by_contra hne
  have hne_pos : rows.Pairwise fun row other => position row ≠ position other :=
    hpos.imp fun hlt => hlt.ne
  have : Std.Symm fun row other : ρ => position row ≠ position other := ⟨fun _ _ => Ne.symm⟩
  exact hne_pos.forall hrow hother hne heq

theorem before_flatMap [Std.Total le] (hsorted : sorted.Pairwise fun d e => le (nameOf d) (nameOf e))
    (hname : ∀ d ∈ sorted, ∀ row ∈ rowsOf d, name row = nameOf d)
    (hpos : ∀ d ∈ sorted, (rowsOf d).Pairwise fun row other => position row < position other)
    (hdistinct : Distinct le nameOf sorted) :
    (sorted.flatMap rowsOf).Pairwise (Before le name position) := by
  rw [List.pairwise_flatMap]
  constructor
  · intro d hd
    refine (hpos d hd).imp_of_mem ?_
    intro row other hrow hother hlt
    refine ⟨?_, fun _ => hlt.le⟩
    rw [hname d hd row hrow, hname d hd other hother]
    exact (Std.Total.total (nameOf d) (nameOf d)).elim id id
  · refine (hsorted.and hdistinct).imp_of_mem ?_
    rintro d e hd he ⟨hle, hnot⟩ row hrow other hother
    rw [Before, hname d hd row hrow, hname e he other hother]
    exact ⟨hle, fun hback => absurd ⟨hle, hback⟩ hnot⟩

/-- A listing of the rows of some items has them item by item, in the order of their names. -/
theorem Listed.eq_flatMap [Std.Total le] [IsTrans N le]
    (h : Listed le name position rows (items.flatMap rowsOf))
    (hname : ∀ d ∈ items, ∀ row ∈ rowsOf d, name row = nameOf d)
    (hpos : ∀ d ∈ items, (rowsOf d).Pairwise fun row other => position row < position other)
    (hdistinct : Distinct le nameOf items) :
    ∃ sorted : List δ, sorted.Perm items ∧ (sorted.Pairwise fun d e => le (nameOf d) (nameOf e)) ∧
      rows = sorted.flatMap rowsOf := by
  classical
  let r : δ → δ → Prop := fun d e => le (nameOf d) (nameOf e)
  have : Std.Total r := ⟨fun d e => Std.Total.total (nameOf d) (nameOf e)⟩
  have : IsTrans δ r := ⟨fun _ _ _ hde hef => IsTrans.trans _ _ _ hde hef⟩
  have hperm := List.perm_insertionSort r items
  have hsorted := List.pairwise_insertionSort r items
  have hmem : ∀ d, d ∈ items.insertionSort r ↔ d ∈ items := fun d => hperm.mem_iff
  have hdistinct' : Distinct le nameOf (items.insertionSort r) :=
    (hperm.symm.pairwise_iff fun hnot hboth => hnot hboth.symm).mp hdistinct
  refine ⟨items.insertionSort r, hperm, hsorted, ?_⟩
  refine List.Perm.eq_of_pairwise ?_ h.sorted
    (before_flatMap hsorted (fun d hd => hname d ((hmem d).mp hd))
      (fun d hd => hpos d ((hmem d).mp hd)) hdistinct')
    (h.perm.trans (hperm.symm.flatMap_right rowsOf))
  intro row other hrow hother hbefore hafter
  obtain ⟨d, hd, hrow⟩ := List.mem_flatMap.mp (h.perm.mem_iff.mp hrow)
  obtain ⟨e, he, hother⟩ := List.mem_flatMap.mp hother
  rw [hmem] at he
  have hde := hbefore.1
  have hed := hafter.1
  have hle := hbefore.2 hed
  have hge := hafter.2 hde
  rw [hname d hd row hrow, hname e he other hother] at hde hed
  obtain rfl := hdistinct.eq_of_le hd he hde hed
  exact eq_of_position (hpos d hd) hrow hother (le_antisymm hle hge)

/-- Rows in the order of their positions, where these are distinct. -/
theorem eq_of_sorted {ordered : List ρ} (hperm : rows.Perm ordered)
    (hsorted : rows.Pairwise fun row other => position row ≤ position other)
    (hordered : ordered.Pairwise fun row other => position row < position other) :
    rows = ordered := by
  refine List.Perm.eq_of_pairwise ?_ hsorted (hordered.imp fun hlt => hlt.le) hperm
  intro row other hrow hother hle hge
  exact eq_of_position hordered (hperm.mem_iff.mp hrow) hother (le_antisymm hle hge)

theorem mergeSort_eq {ordered : List ρ} (hperm : rows.Perm ordered)
    (hordered : ordered.Pairwise fun row other => position row < position other) :
    rows.mergeSort (fun row other => decide (position row ≤ position other)) = ordered := by
  refine eq_of_sorted ((List.mergeSort_perm _ _).trans hperm) ?_ hordered
  refine (List.pairwise_mergeSort ?_ ?_ rows).imp of_decide_eq_true
  · intro a b c hab hbc
    exact decide_eq_true ((of_decide_eq_true hab).trans (of_decide_eq_true hbc))
  · intro a b
    rcases le_total (position a) (position b) with hle | hle
    · rw [decide_eq_true hle, Bool.true_or]
    · rw [decide_eq_true hle, Bool.or_true]

end Listed

/-! ## Positions -/

variable {β : Type*}

/-- The parts of an item with their positions, from 1. -/
def numbered (parts : List β) : List (β × Int) := parts.zipIdx.map fun p => (p.1, (p.2 : Int) + 1)

theorem map_fst_numbered (parts : List β) : (numbered parts).map Prod.fst = parts := by
  rw [numbered, List.map_map]
  exact List.zipIdx_map_fst 0 parts

theorem numbered_pairwise (parts : List β) :
    (numbered parts).Pairwise fun p q => p.2 < q.2 := by
  have hrange : (parts.zipIdx.map Prod.snd).Pairwise (· < ·) := by
    rw [List.zipIdx_map_snd]
    exact List.pairwise_lt_range'
  rw [numbered, List.pairwise_map]
  refine (List.pairwise_map.mp hrange).imp ?_
  intro p q hlt
  dsimp only
  omega

theorem numbered_eq_map_idxOf [BEq β] [LawfulBEq β] {parts : List β} (h : parts.Nodup) :
    numbered parts = parts.map fun b => (b, (parts.idxOf b : Int) + 1) := by
  apply List.ext_getElem
  · rw [numbered, List.length_map, List.length_zipIdx, List.length_map]
  · intro i hi hi'
    rw [List.length_map] at hi'
    simp only [numbered, List.getElem_map, List.getElem_zipIdx, Nat.zero_add,
      h.idxOf_getElem i hi']

end Dbmaster.Lib.Segments
