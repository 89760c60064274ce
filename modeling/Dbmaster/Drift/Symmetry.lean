import Dbmaster.Drift.Chain
/-!
# The drifts of swapped snapshots

What was added going one way was dropped going the other, and the values before and after
change places.
-/

namespace Dbmaster.Drift.Symmetry

open Dbmaster.Lib Dbmaster.Drift.Snapshot Dbmaster.Drift.Diff Dbmaster.Drift.Exactness
open Dbmaster.Drift.Chain

def swapKind : DriftKind → DriftKind
  | .tableAdded => .tableDropped
  | .tableDropped => .tableAdded
  | .columnAdded => .columnDropped
  | .columnDropped => .columnAdded
  | .columnTypeChanged => .columnTypeChanged
  | .columnNullabilityChanged => .columnNullabilityChanged
  | .indexAdded => .indexDropped
  | .indexDropped => .indexAdded
  | .pkChanged => .pkChanged
  | .fkAdded => .fkDropped
  | .fkDropped => .fkAdded

/-- The drift seen from the other side. -/
def swap (d : Drift) : Drift := ⟨swapKind d.kind, d.object, d.after, d.before⟩

theorem swapKind_swapKind (kind : DriftKind) : swapKind (swapKind kind) = kind := by
  cases kind <;> rfl

@[simp] theorem swap_swap (d : Drift) : swap (swap d) = d := by
  unfold swap
  rw [swapKind_swapKind]

theorem swap_injective : Function.Injective swap := by
  intro d d' h
  rw [← swap_swap d, h, swap_swap]

theorem mem_map_swap {l : List Drift} {d : Drift} : d ∈ l.map swap ↔ swap d ∈ l := by
  have h := List.mem_map_of_injective swap_injective (l := l) (a := swap d)
  rwa [swap_swap] at h

/-! ## One level at a time -/

section Levels

variable {α : Type} {entries others : NameMap α} {emit emit' : String → α → Drift} {d : Drift}

theorem swap_mem_onlyIn (hemit : ∀ name a, swap (emit name a) = emit' name a)
    (h : d ∈ onlyIn entries others emit) : swap d ∈ onlyIn entries others emit' := by
  obtain ⟨name, a, ha, hno, rfl⟩ := mem_onlyIn.mp h
  exact mem_onlyIn.mpr ⟨name, a, ha, hno, (hemit name a).symm⟩

/-- The loop over the added and the loop over the dropped ones change places. -/
theorem swap_mem_pair (hemit : ∀ name a, swap (emit name a) = emit' name a)
    (h : d ∈ onlyIn entries others emit ++ onlyIn others entries emit') :
    swap d ∈ onlyIn others entries emit ++ onlyIn entries others emit' := by
  rcases List.mem_append.mp h with hadded | hdropped
  · exact List.mem_append_right _ (swap_mem_onlyIn hemit hadded)
  · apply List.mem_append_left
    apply swap_mem_onlyIn _ hdropped
    intro name a
    rw [← hemit name a, swap_swap]

theorem swap_mem_inBoth {prior current : NameMap α}
    {compare compare' : String → α → α → List Drift}
    (hcompare : ∀ name a b, prior[name]? = some a → current[name]? = some b →
      ∀ d ∈ compare name a b, swap d ∈ compare' name b a)
    (h : d ∈ inBoth prior current compare) : swap d ∈ inBoth current prior compare' := by
  obtain ⟨name, a, b, ha, hb, hd⟩ := mem_inBoth.mp h
  exact mem_inBoth.mpr ⟨name, b, a, hb, ha, hcompare name a b ha hb d hd⟩

end Levels

/-! ## Within a table -/

section Table

variable {t t' : TableSchema} {d : Drift}

theorem swap_mem_diffColumn (hschema : t.schema = t'.schema) (hname : t.name = t'.name)
    {col : String} {c c' : ColumnSchema} (h : d ∈ diffColumn t' col c c') :
    swap d ∈ diffColumn t col c' c := by
  obtain ⟨-, hcolumn, -, -⟩ := objects_eq hschema hname
  rcases mem_diffColumn.mp h with ⟨hne, rfl⟩ | ⟨hne, rfl⟩
  · exact mem_diffColumn.mpr (Or.inl ⟨hne.symm, by rw [← hcolumn]; rfl⟩)
  · exact mem_diffColumn.mpr (Or.inr ⟨hne.symm, by rw [← hcolumn]; rfl⟩)

theorem swap_mem_diffTableColumns (hschema : t.schema = t'.schema) (hname : t.name = t'.name)
    (h : d ∈ diffTableColumns t t') : swap d ∈ diffTableColumns t' t := by
  obtain ⟨-, hcolumn, -, -⟩ := objects_eq hschema hname
  unfold diffTableColumns at h ⊢
  simp only [hcolumn] at h ⊢
  rcases List.mem_append.mp h with hpair | hboth
  · exact List.mem_append_left _ (swap_mem_pair (fun _ _ => rfl) hpair)
  · apply List.mem_append_right
    apply swap_mem_inBoth _ hboth
    intro col c c' _ _ d hd
    exact swap_mem_diffColumn hschema hname hd

theorem swap_mem_diffTablePk (hschema : t.schema = t'.schema) (hname : t.name = t'.name)
    (h : d ∈ diffTablePk t t') : swap d ∈ diffTablePk t' t := by
  obtain ⟨htable, -, -, -⟩ := objects_eq hschema hname
  obtain ⟨hne, rfl⟩ := mem_diffTablePk.mp h
  exact mem_diffTablePk.mpr ⟨hne.symm, by rw [← htable]; rfl⟩

theorem swap_mem_diffTable (hschema : t.schema = t'.schema) (hname : t.name = t'.name)
    (h : d ∈ diffTable t t') : swap d ∈ diffTable t' t := by
  obtain ⟨-, -, hindex, hfk⟩ := objects_eq hschema hname
  unfold diffTable diffTableIndexes diffTableFks at h ⊢
  simp only [hindex, hfk] at h ⊢
  rcases List.mem_append.mp h with h | hfks
  · apply List.mem_append_left
    rcases List.mem_append.mp h with h | hindexes
    · apply List.mem_append_left
      rcases List.mem_append.mp h with hcolumns | hpk
      · exact List.mem_append_left _ (swap_mem_diffTableColumns hschema hname hcolumns)
      · exact List.mem_append_right _ (swap_mem_diffTablePk hschema hname hpk)
    · exact List.mem_append_right _ (swap_mem_pair (fun _ _ => rfl) hindexes)
  · exact List.mem_append_right _ (swap_mem_pair (fun _ _ => rfl) hfks)

end Table

/-! ## Between snapshots -/

section Snapshots

variable {a b : SchemaSnapshot}

theorem swap_mem_computeDrifts (ha : WellFormed a) (hb : WellFormed b)
    (hunambiguous : Unambiguous a b) {d : Drift} (h : d ∈ computeDrifts a b) :
    swap d ∈ computeDrifts b a := by
  unfold computeDrifts at h ⊢
  rcases List.mem_append.mp h with hpair | hboth
  · exact List.mem_append_left _ (swap_mem_pair (fun _ _ => rfl) hpair)
  · apply List.mem_append_right
    apply swap_mem_inBoth _ hboth
    intro key t t' ht ht' d hd
    have hcommon := common_of_key ha hb hunambiguous ht ht'
    exact swap_mem_diffTable hcommon.schema hcommon.name hd

theorem mem_computeDrifts_swap (ha : WellFormed a) (hb : WellFormed b)
    (hunambiguous : Unambiguous a b) (d : Drift) :
    d ∈ computeDrifts b a ↔ d ∈ (computeDrifts a b).map swap := by
  rw [mem_map_swap]
  constructor
  · exact swap_mem_computeDrifts hb ha hunambiguous.symm
  · intro h
    rw [← swap_swap d]
    exact swap_mem_computeDrifts ha hb hunambiguous h

end Snapshots

/-- The drifts back are the drifts there, seen from the other side; a snapshot has none
against itself. -/
theorem computeDrifts_antisymm (a b : SchemaSnapshot) (ha : WellFormed a) (hb : WellFormed b)
    (hunambiguous : Unambiguous a b) :
    (computeDrifts b a).Perm ((computeDrifts a b).map swap) ∧ computeDrifts a a = [] := by
  have hthere := (nodup_computeDrifts ha hb hunambiguous).of_map
  have hback := (nodup_computeDrifts hb ha hunambiguous.symm).of_map
  constructor
  · apply (List.perm_ext_iff_of_nodup hback (hthere.map swap_injective)).mpr
    exact mem_computeDrifts_swap ha hb hunambiguous
  · exact computeDrifts_eq_nil (Same.refl _ _) (Same.refl _ _)

theorem computeDrifts_antisymm_orders :
    let a := ofTables [orders, bare "states"]
    let b := ofTables [ordersLater, bare "buyers"]
    (computeDrifts b a).Perm ((computeDrifts a b).map swap) ∧
      (computeDrifts b a).map Drift.kind =
        [.tableAdded, .tableDropped, .columnAdded, .columnDropped, .columnTypeChanged,
          .columnNullabilityChanged, .pkChanged, .indexAdded, .indexDropped, .fkAdded,
          .fkDropped] := by
  intro a b
  obtain ⟨ha, hb, hunambiguous⟩ := orders_comparable
  exact ⟨(computeDrifts_antisymm a b ha hb hunambiguous).1, by decide +kernel⟩

end Dbmaster.Drift.Symmetry
