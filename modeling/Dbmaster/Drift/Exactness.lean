import Dbmaster.Drift.Diff
import Mathlib.Data.Set.Basic
import Mathlib.Data.List.Nodup
/-!
# The emitted drifts are the schema difference

What differs between two snapshots is stated on the sets of their tables, columns,
indexes and foreign keys; `computeDrifts` emits exactly that, each difference once.
-/

namespace Dbmaster.Drift.Exactness

open Dbmaster.Drift.Snapshot Dbmaster.Drift.Diff Dbmaster.Lib

/-! ## What differs -/

def HasTable (s : SchemaSnapshot) (t : TableSchema) : Prop :=
  s.tables[t.qualifiedName]? = some t

/-- The tables are keyed by their qualified names. -/
def WellFormed (s : SchemaSnapshot) : Prop :=
  ∀ (key : String) (t : TableSchema), s.tables[key]? = some t → t.qualifiedName = key

/-- A qualified name is that of one table. -/
def Unambiguous (prior current : SchemaSnapshot) : Prop :=
  ∀ t t', HasTable prior t → HasTable current t' → t.qualifiedName = t'.qualifiedName →
    t.schema = t'.schema ∧ t.name = t'.name

def tableIds (s : SchemaSnapshot) : Set (String × String) :=
  {id | ∃ t, HasTable s t ∧ (t.schema, t.name) = id}

def names {α : Type} (entries : NameMap α) : Set String := {name | name ∈ entries}

/-- The table that stands on both sides. -/
structure Common (prior current : SchemaSnapshot) (t t' : TableSchema) : Prop where
  inPrior : HasTable prior t
  inCurrent : HasTable current t'
  schema : t.schema = t'.schema
  name : t.name = t'.name

def typeShape (c : ColumnSchema) : String × Option Int × Option Int × Option Int :=
  (c.dataType, c.charMaxLength, c.numericPrecision, c.numericScale)

/-- The differences within a table. -/
inductive TableDiffers (t t' : TableSchema) : DriftKind → DriftObject → Prop
  | columnAdded {col : String} (h : col ∈ names t'.columns \ names t.columns) :
      TableDiffers t t' .columnAdded (objectForColumn t col)
  | columnDropped {col : String} (h : col ∈ names t.columns \ names t'.columns) :
      TableDiffers t t' .columnDropped (objectForColumn t col)
  | columnTypeChanged {col : String} {c c' : ColumnSchema} (h : t.columns[col]? = some c)
      (h' : t'.columns[col]? = some c') (hne : typeShape c ≠ typeShape c') :
      TableDiffers t t' .columnTypeChanged (objectForColumn t col)
  | columnNullabilityChanged {col : String} {c c' : ColumnSchema}
      (h : t.columns[col]? = some c) (h' : t'.columns[col]? = some c')
      (hne : c.isNullable ≠ c'.isNullable) :
      TableDiffers t t' .columnNullabilityChanged (objectForColumn t col)
  | pkChanged (hne : t.primaryKey ≠ t'.primaryKey) :
      TableDiffers t t' .pkChanged (objectForTable t)
  | indexAdded {ix : String} (h : ix ∈ names t'.indexes \ names t.indexes) :
      TableDiffers t t' .indexAdded (objectForIndex t ix)
  | indexDropped {ix : String} (h : ix ∈ names t.indexes \ names t'.indexes) :
      TableDiffers t t' .indexDropped (objectForIndex t ix)
  | fkAdded {fk : String} (h : fk ∈ names t'.foreignKeys \ names t.foreignKeys) :
      TableDiffers t t' .fkAdded (objectForFk t fk)
  | fkDropped {fk : String} (h : fk ∈ names t.foreignKeys \ names t'.foreignKeys) :
      TableDiffers t t' .fkDropped (objectForFk t fk)

/-- The differences of two snapshots: tables on one side only, and what differs within
the tables on both sides. -/
inductive Differs (prior current : SchemaSnapshot) : DriftKind → DriftObject → Prop
  | tableAdded {schema name : String} (h : (schema, name) ∈ tableIds current \ tableIds prior) :
      Differs prior current .tableAdded ⟨some schema, some name, none, none⟩
  | tableDropped {schema name : String} (h : (schema, name) ∈ tableIds prior \ tableIds current) :
      Differs prior current .tableDropped ⟨some schema, some name, none, none⟩
  | within {t t' : TableSchema} {kind : DriftKind} {object : DriftObject}
      (hcommon : Common prior current t t') (h : TableDiffers t t' kind object) :
      Differs prior current kind object

/-- The snapshots agree on what is compared. -/
structure Agree (prior current : SchemaSnapshot) : Prop where
  tables : tableIds prior = tableIds current
  columns : ∀ t t', Common prior current t t' → names t.columns = names t'.columns
  types : ∀ t t', Common prior current t t' → ∀ (col : String) c c', t.columns[col]? = some c →
    t'.columns[col]? = some c' → typeShape c = typeShape c'
  nullability : ∀ t t', Common prior current t t' → ∀ (col : String) c c', t.columns[col]? = some c →
    t'.columns[col]? = some c' → c.isNullable = c'.isNullable
  primaryKeys : ∀ t t', Common prior current t t' → t.primaryKey = t'.primaryKey
  indexes : ∀ t t', Common prior current t t' → names t.indexes = names t'.indexes
  foreignKeys : ∀ t t', Common prior current t t' → names t.foreignKeys = names t'.foreignKeys

def locator (d : Drift) : DriftKind × DriftObject := (d.kind, d.object)

/-! ## The two loops -/

section Loops

variable {α : Type}

theorem mem_names {entries : NameMap α} {name : String} :
    name ∈ names entries ↔ ∃ a, entries[name]? = some a := by
  show name ∈ entries ↔ _
  rw [Std.TreeMap.mem_iff_isSome_getElem?, Option.isSome_iff_exists]

theorem mem_onlyIn {entries others : NameMap α} {emit : String → α → Drift} {d : Drift} :
    d ∈ onlyIn entries others emit ↔
      ∃ name a, entries[name]? = some a ∧ name ∉ others ∧ emit name a = d := by
  unfold onlyIn
  simp only [List.mem_map, List.mem_filter, Prod.exists,
    Std.TreeMap.mem_toList_iff_getElem?_eq_some, Bool.not_eq_true', Std.TreeMap.mem_iff_contains,
    Bool.not_eq_true, and_assoc]

theorem mem_inBoth {prior current : NameMap α} {compare : String → α → α → List Drift}
    {d : Drift} :
    d ∈ inBoth prior current compare ↔
      ∃ name a b, prior[name]? = some a ∧ current[name]? = some b ∧ d ∈ compare name a b := by
  unfold inBoth
  simp only [List.mem_flatMap, Prod.exists, Std.TreeMap.mem_toList_iff_getElem?_eq_some]
  constructor
  · rintro ⟨name, a, ha, hd⟩
    split at hd
    case h_1 => cases hd
    case h_2 b hb => exact ⟨name, a, b, ha, hb, hd⟩
  · rintro ⟨name, a, b, ha, hb, hd⟩
    refine ⟨name, a, ha, ?_⟩
    rw [hb]
    exact hd

theorem distinct_names (entries : NameMap α) :
    entries.toList.Pairwise fun e f => e.1 ≠ f.1 := by
  apply Std.TreeMap.distinct_keys_toList.imp
  intro e f hne heq
  exact hne (by rw [heq]; exact Std.ReflCmp.compare_self)

theorem nodup_onlyIn {entries others : NameMap α} {emit : String → α → Drift}
    (h : ∀ name a name' a', entries[name]? = some a → entries[name']? = some a' →
      locator (emit name a) = locator (emit name' a') → name = name') :
    ((onlyIn entries others emit).map locator).Nodup := by
  unfold onlyIn List.Nodup
  rw [List.map_map, List.pairwise_map]
  apply ((distinct_names entries).filter _).imp_of_mem
  intro e f he hf hne heq
  have hentry := Std.TreeMap.mem_toList_iff_getElem?_eq_some.mp (List.mem_filter.mp he).1
  have hentry' := Std.TreeMap.mem_toList_iff_getElem?_eq_some.mp (List.mem_filter.mp hf).1
  exact hne (h e.1 e.2 f.1 f.2 hentry hentry' heq)

theorem nodup_inBoth {prior current : NameMap α} {compare : String → α → α → List Drift}
    (heach : ∀ name a b, prior[name]? = some a → current[name]? = some b →
      ((compare name a b).map locator).Nodup)
    (h : ∀ name a b d name' a' b' d', prior[name]? = some a → current[name]? = some b →
      prior[name']? = some a' → current[name']? = some b' → d ∈ compare name a b →
      d' ∈ compare name' a' b' → locator d = locator d' → name = name') :
    ((inBoth prior current compare).map locator).Nodup := by
  unfold inBoth
  rw [List.map_flatMap, List.nodup_flatMap]
  constructor
  · intro e he
    have hentry := Std.TreeMap.mem_toList_iff_getElem?_eq_some.mp he
    split
    case h_1 => exact List.nodup_nil
    case h_2 b hb => exact heach e.1 e.2 b hentry hb
  · apply (distinct_names prior).imp_of_mem
    intro e f he hf hne loc hloc hloc'
    have hentry := Std.TreeMap.mem_toList_iff_getElem?_eq_some.mp he
    have hentry' := Std.TreeMap.mem_toList_iff_getElem?_eq_some.mp hf
    obtain ⟨d, hd, rfl⟩ := List.mem_map.mp hloc
    obtain ⟨d', hd', heq⟩ := List.mem_map.mp hloc'
    split at hd
    case h_1 => cases hd
    case h_2 b hb =>
      split at hd'
      case h_1 => cases hd'
      case h_2 b' hb' =>
        exact hne (h e.1 e.2 b d f.1 f.2 b' d' hentry hb hentry' hb' hd hd' heq.symm)

end Loops

/-! ## Lists of drifts of different kinds -/

section Kinds

variable {l l' : List Drift} {ks ks' : List DriftKind} {k : DriftKind}

def KindsIn (ks : List DriftKind) (l : List Drift) : Prop := ∀ d ∈ l, d.kind ∈ ks

theorem KindsIn.append (h : KindsIn ks l) (h' : KindsIn ks' l') :
    KindsIn (ks ++ ks') (l ++ l') := by
  intro d hd
  rcases List.mem_append.mp hd with hleft | hright
  · exact List.mem_append_left ks' (h d hleft)
  · exact List.mem_append_right ks (h' d hright)

theorem nodup_append_of_kinds (h : (l.map locator).Nodup) (h' : (l'.map locator).Nodup)
    (hk : KindsIn ks l) (hk' : KindsIn ks' l') (hdisjoint : ∀ k ∈ ks, k ∉ ks') :
    ((l ++ l').map locator).Nodup := by
  rw [List.map_append]
  apply h.append h'
  intro loc hleft hright
  obtain ⟨d, hd, rfl⟩ := List.mem_map.mp hleft
  obtain ⟨d', hd', heq⟩ := List.mem_map.mp hright
  have hkind : d'.kind = d.kind := congrArg Prod.fst heq
  have hin := hk' d' hd'
  rw [hkind] at hin
  exact hdisjoint d.kind (hk d hd) hin

theorem kindsIn_onlyIn {α : Type} {entries others : NameMap α} {emit : String → α → Drift}
    (h : ∀ name a, (emit name a).kind = k) : KindsIn [k] (onlyIn entries others emit) := by
  intro d hd
  obtain ⟨name, a, -, -, rfl⟩ := mem_onlyIn.mp hd
  rw [h name a]
  exact List.mem_singleton_self k

variable {α : Type} {entries others : NameMap α} {emit emit' : String → α → Drift}
  {k' : DriftKind}

theorem kindsIn_pair (h : ∀ name a, (emit name a).kind = k)
    (h' : ∀ name a, (emit' name a).kind = k') :
    KindsIn [k, k'] (onlyIn entries others emit ++ onlyIn others entries emit') :=
  (kindsIn_onlyIn h).append (kindsIn_onlyIn h')

/-- What is added and what is dropped, each located by its name. -/
theorem nodup_pair (h : ∀ name a, (emit name a).kind = k)
    (h' : ∀ name a, (emit' name a).kind = k') (hne : k ≠ k')
    (hname : ∀ name a name' a', entries[name]? = some a → entries[name']? = some a' →
      (emit name a).object = (emit name' a').object → name = name')
    (hname' : ∀ name a name' a', others[name]? = some a → others[name']? = some a' →
      (emit' name a).object = (emit' name' a').object → name = name') :
    ((onlyIn entries others emit ++ onlyIn others entries emit').map locator).Nodup := by
  apply nodup_append_of_kinds (nodup_onlyIn ?_) (nodup_onlyIn ?_) (kindsIn_onlyIn h)
    (kindsIn_onlyIn h')
  · intro kind hkind hkind'
    exact hne ((List.mem_singleton.mp hkind).symm.trans (List.mem_singleton.mp hkind'))
  · intro name a name' a' ha ha' heq
    exact hname name a name' a' ha ha' (congrArg Prod.snd heq)
  · intro name a name' a' ha ha' heq
    exact hname' name a name' a' ha ha' (congrArg Prod.snd heq)

end Kinds

/-! ## Within a table -/

section Table

variable {t t' : TableSchema}

theorem columnTypeDiffers_iff (c c' : ColumnSchema) :
    columnTypeDiffers c c' = true ↔ typeShape c ≠ typeShape c' := by
  simp only [columnTypeDiffers, typeShape, ne_eq, Prod.mk.injEq, Bool.or_eq_true,
    decide_eq_true_eq]
  tauto

theorem mem_diffColumn {col : String} {c c' : ColumnSchema} {d : Drift} :
    d ∈ diffColumn t' col c c' ↔
      typeShape c ≠ typeShape c' ∧ d = ⟨.columnTypeChanged, objectForColumn t' col,
        columnTypeSummary c, columnTypeSummary c'⟩ ∨
      c.isNullable ≠ c'.isNullable ∧ d = ⟨.columnNullabilityChanged, objectForColumn t' col,
        .bool c.isNullable, .bool c'.isNullable⟩ := by
  unfold diffColumn
  rw [List.mem_append, ← columnTypeDiffers_iff]
  apply or_congr
  · by_cases h : columnTypeDiffers c c' = true <;> simp [h]
  · by_cases h : c.isNullable ≠ c'.isNullable <;> simp [h]

theorem mem_diffTableColumns {d : Drift} :
    d ∈ diffTableColumns t t' ↔
      (∃ col c, t'.columns[col]? = some c ∧ col ∉ t.columns ∧
        (⟨.columnAdded, objectForColumn t' col, .null, columnFull c⟩ : Drift) = d) ∨
      (∃ col c, t.columns[col]? = some c ∧ col ∉ t'.columns ∧
        (⟨.columnDropped, objectForColumn t col, columnFull c, .null⟩ : Drift) = d) ∨
      (∃ col c c', t.columns[col]? = some c ∧ t'.columns[col]? = some c' ∧
        d ∈ diffColumn t' col c c') := by
  unfold diffTableColumns
  simp only [List.mem_append, mem_onlyIn, mem_inBoth, or_assoc]

theorem mem_diffTablePk {d : Drift} :
    d ∈ diffTablePk t t' ↔ t.primaryKey ≠ t'.primaryKey ∧
      d = ⟨.pkChanged, objectForTable t', .ofOption pkSummary t.primaryKey,
        .ofOption pkSummary t'.primaryKey⟩ := by
  unfold diffTablePk
  by_cases h : t.primaryKey ≠ t'.primaryKey
  · rw [if_pos h, List.mem_singleton]
    exact (and_iff_right h).symm
  · rw [if_neg h]
    simp [h]

/-- Tables of one name locate their parts alike. -/
theorem objects_eq (hschema : t.schema = t'.schema) (hname : t.name = t'.name) :
    objectForTable t' = objectForTable t ∧
      (∀ col, objectForColumn t' col = objectForColumn t col) ∧
      (∀ ix, objectForIndex t' ix = objectForIndex t ix) ∧
      ∀ fk, objectForFk t' fk = objectForFk t fk := by
  simp only [objectForTable, objectForColumn, objectForIndex, objectForFk, hschema, hname,
    implies_true, and_self]

theorem tableDiffers_of_mem (hschema : t.schema = t'.schema) (hname : t.name = t'.name)
    {d : Drift} (h : d ∈ diffTable t t') : TableDiffers t t' d.kind d.object := by
  obtain ⟨htable, hcolumn, hindex, hfk⟩ := objects_eq hschema hname
  simp only [diffTable, List.mem_append, mem_diffTableColumns, mem_diffColumn, mem_diffTablePk,
    diffTableIndexes, diffTableFks, mem_onlyIn] at h
  rcases h with ((hcolumns | ⟨hne, rfl⟩) | hindexes) | hfks
  · rcases hcolumns with ⟨col, c, hc, hno, rfl⟩ | ⟨col, c, hc, hno, rfl⟩ |
      ⟨col, c, c', hc, hc', ⟨hne, rfl⟩ | ⟨hne, rfl⟩⟩
    · rw [hcolumn]
      exact .columnAdded ⟨mem_names.mpr ⟨c, hc⟩, hno⟩
    · exact .columnDropped ⟨mem_names.mpr ⟨c, hc⟩, hno⟩
    · rw [hcolumn]
      exact .columnTypeChanged hc hc' hne
    · rw [hcolumn]
      exact .columnNullabilityChanged hc hc' hne
  · rw [htable]
    exact .pkChanged hne
  · rcases hindexes with ⟨ix, i, hi, hno, rfl⟩ | ⟨ix, i, hi, hno, rfl⟩
    · rw [hindex]
      exact .indexAdded ⟨mem_names.mpr ⟨i, hi⟩, hno⟩
    · exact .indexDropped ⟨mem_names.mpr ⟨i, hi⟩, hno⟩
  · rcases hfks with ⟨fk, f, hf, hno, rfl⟩ | ⟨fk, f, hf, hno, rfl⟩
    · rw [hfk]
      exact .fkAdded ⟨mem_names.mpr ⟨f, hf⟩, hno⟩
    · exact .fkDropped ⟨mem_names.mpr ⟨f, hf⟩, hno⟩

theorem mem_of_tableDiffers (hschema : t.schema = t'.schema) (hname : t.name = t'.name)
    {kind : DriftKind} {object : DriftObject} (h : TableDiffers t t' kind object) :
    ∃ d ∈ diffTable t t', d.kind = kind ∧ d.object = object := by
  obtain ⟨htable, hcolumn, hindex, hfk⟩ := objects_eq hschema hname
  simp only [diffTable, List.mem_append, mem_diffTableColumns, mem_diffColumn, mem_diffTablePk,
    diffTableIndexes, diffTableFks, mem_onlyIn]
  cases h with
  | columnAdded h =>
      obtain ⟨c, hc⟩ := mem_names.mp h.1
      exact ⟨_, Or.inl (Or.inl (Or.inl (Or.inl ⟨_, c, hc, h.2, rfl⟩))), rfl, hcolumn _⟩
  | columnDropped h =>
      obtain ⟨c, hc⟩ := mem_names.mp h.1
      exact ⟨_, Or.inl (Or.inl (Or.inl (Or.inr (Or.inl ⟨_, c, hc, h.2, rfl⟩)))), rfl, rfl⟩
  | columnTypeChanged hc hc' hne =>
      exact ⟨_, Or.inl (Or.inl (Or.inl (Or.inr (Or.inr ⟨_, _, _, hc, hc',
        Or.inl ⟨hne, rfl⟩⟩)))), rfl, hcolumn _⟩
  | columnNullabilityChanged hc hc' hne =>
      exact ⟨_, Or.inl (Or.inl (Or.inl (Or.inr (Or.inr ⟨_, _, _, hc, hc',
        Or.inr ⟨hne, rfl⟩⟩)))), rfl, hcolumn _⟩
  | pkChanged hne => exact ⟨_, Or.inl (Or.inl (Or.inr ⟨hne, rfl⟩)), rfl, htable⟩
  | indexAdded h =>
      obtain ⟨i, hi⟩ := mem_names.mp h.1
      exact ⟨_, Or.inl (Or.inr (Or.inl ⟨_, i, hi, h.2, rfl⟩)), rfl, hindex _⟩
  | indexDropped h =>
      obtain ⟨i, hi⟩ := mem_names.mp h.1
      exact ⟨_, Or.inl (Or.inr (Or.inr ⟨_, i, hi, h.2, rfl⟩)), rfl, rfl⟩
  | fkAdded h =>
      obtain ⟨f, hf⟩ := mem_names.mp h.1
      exact ⟨_, Or.inr (Or.inl ⟨_, f, hf, h.2, rfl⟩), rfl, hfk _⟩
  | fkDropped h =>
      obtain ⟨f, hf⟩ := mem_names.mp h.1
      exact ⟨_, Or.inr (Or.inr ⟨_, f, hf, h.2, rfl⟩), rfl, rfl⟩

theorem TableDiffers.object {kind : DriftKind} {object : DriftObject}
    (h : TableDiffers t t' kind object) :
    object.schema = some t.schema ∧ object.table = some t.name := by
  cases h <;> exact ⟨rfl, rfl⟩

theorem mem_diffColumn_object {col : String} {c c' : ColumnSchema} {d : Drift}
    (h : d ∈ diffColumn t' col c c') : d.object = objectForColumn t' col := by
  rcases mem_diffColumn.mp h with ⟨-, rfl⟩ | ⟨-, rfl⟩
  · rfl
  · rfl

variable (t t')

theorem kindsIn_diffColumns {prior current : NameMap ColumnSchema} :
    KindsIn [.columnTypeChanged, .columnNullabilityChanged]
      (inBoth prior current (diffColumn t')) := by
  intro d hd
  obtain ⟨col, c, c', -, -, hd⟩ := mem_inBoth.mp hd
  rcases mem_diffColumn.mp hd with ⟨-, rfl⟩ | ⟨-, rfl⟩
  · exact List.mem_cons_self
  · exact List.mem_cons_of_mem _ List.mem_cons_self

theorem kindsIn_diffTableColumns :
    KindsIn [.columnAdded, .columnDropped, .columnTypeChanged, .columnNullabilityChanged]
      (diffTableColumns t t') := by
  show KindsIn ([.columnAdded, .columnDropped] ++ [.columnTypeChanged, .columnNullabilityChanged]) _
  exact KindsIn.append (kindsIn_pair (fun _ _ => rfl) fun _ _ => rfl) (kindsIn_diffColumns t')

theorem kindsIn_diffTablePk : KindsIn [.pkChanged] (diffTablePk t t') := by
  intro d hd
  obtain ⟨-, rfl⟩ := mem_diffTablePk.mp hd
  exact List.mem_singleton_self _

theorem kindsIn_diffTableIndexes :
    KindsIn [.indexAdded, .indexDropped] (diffTableIndexes t t') := by
  unfold diffTableIndexes
  exact kindsIn_pair (fun _ _ => rfl) fun _ _ => rfl

theorem kindsIn_diffTableFks : KindsIn [.fkAdded, .fkDropped] (diffTableFks t t') := by
  unfold diffTableFks
  exact kindsIn_pair (fun _ _ => rfl) fun _ _ => rfl

theorem nodup_diffColumns {prior current : NameMap ColumnSchema} :
    ((inBoth prior current (diffColumn t')).map locator).Nodup := by
  apply nodup_inBoth
  · intro col c c' _ _
    unfold diffColumn
    split <;> split <;> simp [locator]
  · intro col c c' d col' e e' d' _ _ _ _ hd hd' heq
    have hsame : d.object = d'.object := congrArg Prod.snd heq
    rw [mem_diffColumn_object hd, mem_diffColumn_object hd'] at hsame
    exact Option.some.inj (congrArg DriftObject.column hsame)

theorem nodup_diffTableColumns : ((diffTableColumns t t').map locator).Nodup := by
  unfold diffTableColumns
  refine nodup_append_of_kinds (nodup_pair (fun _ _ => rfl) (fun _ _ => rfl) (by decide) ?_ ?_)
    (nodup_diffColumns t') (kindsIn_pair (fun _ _ => rfl) fun _ _ => rfl) (kindsIn_diffColumns t')
    (by decide)
  · intro col c col' c' _ _ heq
    exact Option.some.inj (congrArg DriftObject.column heq)
  · intro col c col' c' _ _ heq
    exact Option.some.inj (congrArg DriftObject.column heq)

theorem nodup_diffTablePk : ((diffTablePk t t').map locator).Nodup := by
  unfold diffTablePk
  split
  case isTrue => exact List.nodup_singleton _
  case isFalse => exact List.nodup_nil

theorem nodup_diffTableIndexes : ((diffTableIndexes t t').map locator).Nodup := by
  unfold diffTableIndexes
  refine nodup_pair (fun _ _ => rfl) (fun _ _ => rfl) (by decide) ?_ ?_
  · intro ix i ix' i' _ _ heq
    exact Option.some.inj (congrArg DriftObject.index heq)
  · intro ix i ix' i' _ _ heq
    exact Option.some.inj (congrArg DriftObject.index heq)

theorem nodup_diffTableFks : ((diffTableFks t t').map locator).Nodup := by
  unfold diffTableFks
  refine nodup_pair (fun _ _ => rfl) (fun _ _ => rfl) (by decide) ?_ ?_
  · intro fk f fk' f' _ _ heq
    exact Option.some.inj (congrArg DriftObject.index heq)
  · intro fk f fk' f' _ _ heq
    exact Option.some.inj (congrArg DriftObject.index heq)

theorem kindsIn_diffTable :
    KindsIn [.columnAdded, .columnDropped, .columnTypeChanged, .columnNullabilityChanged,
      .pkChanged, .indexAdded, .indexDropped, .fkAdded, .fkDropped] (diffTable t t') :=
  (((kindsIn_diffTableColumns t t').append (kindsIn_diffTablePk t t')).append
    (kindsIn_diffTableIndexes t t')).append (kindsIn_diffTableFks t t')

theorem nodup_diffTable : ((diffTable t t').map locator).Nodup := by
  have hkinds := (kindsIn_diffTableColumns t t').append (kindsIn_diffTablePk t t')
  have hcolumns := nodup_append_of_kinds (nodup_diffTableColumns t t') (nodup_diffTablePk t t')
    (kindsIn_diffTableColumns t t') (kindsIn_diffTablePk t t') (by decide)
  have hindexes := nodup_append_of_kinds hcolumns (nodup_diffTableIndexes t t') hkinds
    (kindsIn_diffTableIndexes t t') (by decide)
  exact nodup_append_of_kinds hindexes (nodup_diffTableFks t t')
    (hkinds.append (kindsIn_diffTableIndexes t t')) (kindsIn_diffTableFks t t') (by decide)

end Table

/-! ## Between snapshots -/

section Snapshots

variable {prior current : SchemaSnapshot}

theorem WellFormed.hasTable {s : SchemaSnapshot} (h : WellFormed s) {key : String}
    {t : TableSchema} (ht : s.tables[key]? = some t) : HasTable s t := by
  unfold HasTable
  rw [h key t ht]
  exact ht

theorem Unambiguous.symm (h : Unambiguous prior current) : Unambiguous current prior := by
  intro t t' ht ht' heq
  obtain ⟨hschema, hname⟩ := h t' t ht' ht heq.symm
  exact ⟨hschema.symm, hname.symm⟩

theorem qualifiedName_congr {t t' : TableSchema} (hschema : t.schema = t'.schema)
    (hname : t.name = t'.name) : t.qualifiedName = t'.qualifiedName := by
  rw [TableSchema.qualifiedName, TableSchema.qualifiedName, hschema, hname]

/-- The key of a table is missing when the table is. -/
theorem not_mem_tables_iff {s s' : SchemaSnapshot} (h : WellFormed s')
    (hunambiguous : Unambiguous s s') {t : TableSchema} (ht : HasTable s t) :
    t.qualifiedName ∉ s'.tables ↔ (t.schema, t.name) ∉ tableIds s' := by
  rw [not_iff_not]
  constructor
  · intro hmem
    obtain ⟨t', ht'⟩ := mem_names.mp hmem
    have hhas := h.hasTable ht'
    obtain ⟨hschema, hname⟩ := hunambiguous t t' ht hhas (h _ t' ht').symm
    exact ⟨t', hhas, by rw [hschema, hname]⟩
  · rintro ⟨t', ht', hid⟩
    rw [Prod.mk.injEq] at hid
    apply mem_names.mpr
    exact ⟨t', by rw [← qualifiedName_congr hid.1 hid.2]; exact ht'⟩

theorem common_of_key (hprior : WellFormed prior) (hcurrent : WellFormed current)
    (hunambiguous : Unambiguous prior current) {key : String} {t t' : TableSchema}
    (h : prior.tables[key]? = some t) (h' : current.tables[key]? = some t') :
    Common prior current t t' := by
  have hkey : t.qualifiedName = t'.qualifiedName := by
    rw [hprior key t h, hcurrent key t' h']
  obtain ⟨hschema, hname⟩ :=
    hunambiguous t t' (hprior.hasTable h) (hcurrent.hasTable h') hkey
  exact ⟨hprior.hasTable h, hcurrent.hasTable h', hschema, hname⟩

theorem Common.key {t t' : TableSchema} (h : Common prior current t t') :
    current.tables[t.qualifiedName]? = some t' := by
  rw [qualifiedName_congr h.schema h.name]
  exact h.inCurrent

theorem differs_of_mem (hprior : WellFormed prior) (hcurrent : WellFormed current)
    (hunambiguous : Unambiguous prior current) {d : Drift}
    (h : d ∈ computeDrifts prior current) : Differs prior current d.kind d.object := by
  simp only [computeDrifts, List.mem_append, mem_onlyIn, mem_inBoth] at h
  rcases h with (⟨key, t, ht, hno, rfl⟩ | ⟨key, t, ht, hno, rfl⟩) | ⟨key, t, t', ht, ht', hd⟩
  · have hhas := hcurrent.hasTable ht
    rw [← hcurrent key t ht, not_mem_tables_iff hprior hunambiguous.symm hhas] at hno
    exact .tableAdded ⟨⟨t, hhas, rfl⟩, hno⟩
  · have hhas := hprior.hasTable ht
    rw [← hprior key t ht, not_mem_tables_iff hcurrent hunambiguous hhas] at hno
    exact .tableDropped ⟨⟨t, hhas, rfl⟩, hno⟩
  · have hcommon := common_of_key hprior hcurrent hunambiguous ht ht'
    exact .within hcommon (tableDiffers_of_mem hcommon.schema hcommon.name hd)

theorem mem_of_differs (hprior : WellFormed prior) (hcurrent : WellFormed current)
    (hunambiguous : Unambiguous prior current) {kind : DriftKind} {object : DriftObject}
    (h : Differs prior current kind object) :
    ∃ d ∈ computeDrifts prior current, d.kind = kind ∧ d.object = object := by
  simp only [computeDrifts, List.mem_append, mem_onlyIn, mem_inBoth]
  cases h with
  | tableAdded h =>
      obtain ⟨⟨t, ht, hid⟩, hno⟩ := h
      rw [Prod.mk.injEq] at hid
      rw [← hid.1, ← hid.2, ← not_mem_tables_iff hprior hunambiguous.symm ht] at hno
      exact ⟨_, Or.inl (Or.inl ⟨_, t, ht, hno, rfl⟩), rfl, by rw [← hid.1, ← hid.2]; rfl⟩
  | tableDropped h =>
      obtain ⟨⟨t, ht, hid⟩, hno⟩ := h
      rw [Prod.mk.injEq] at hid
      rw [← hid.1, ← hid.2, ← not_mem_tables_iff hcurrent hunambiguous ht] at hno
      exact ⟨_, Or.inl (Or.inr ⟨_, t, ht, hno, rfl⟩), rfl, by rw [← hid.1, ← hid.2]; rfl⟩
  | within hcommon h =>
      obtain ⟨d, hd, hkind, hobject⟩ := mem_of_tableDiffers hcommon.schema hcommon.name h
      exact ⟨d, Or.inr ⟨_, _, _, hcommon.inPrior, hcommon.key, hd⟩, hkind, hobject⟩

theorem mem_locators_iff (hprior : WellFormed prior) (hcurrent : WellFormed current)
    (hunambiguous : Unambiguous prior current) (kind : DriftKind) (object : DriftObject) :
    (kind, object) ∈ (computeDrifts prior current).map locator ↔
      Differs prior current kind object := by
  constructor
  · intro h
    obtain ⟨d, hd, heq⟩ := List.mem_map.mp h
    have hdiffers := differs_of_mem hprior hcurrent hunambiguous hd
    rw [locator, Prod.mk.injEq] at heq
    rwa [heq.1, heq.2] at hdiffers
  · intro h
    obtain ⟨d, hd, rfl, rfl⟩ := mem_of_differs hprior hcurrent hunambiguous h
    exact List.mem_map_of_mem hd

theorem objectForTable_inj {t t' : TableSchema} (h : objectForTable t = objectForTable t') :
    t.qualifiedName = t'.qualifiedName := by
  have hschema := Option.some.inj (congrArg DriftObject.schema h)
  have hname := Option.some.inj (congrArg DriftObject.table h)
  exact qualifiedName_congr hschema hname

theorem nodup_computeDrifts (hprior : WellFormed prior) (hcurrent : WellFormed current)
    (hunambiguous : Unambiguous prior current) :
    ((computeDrifts prior current).map locator).Nodup := by
  have hkinds : KindsIn [.columnAdded, .columnDropped, .columnTypeChanged,
      .columnNullabilityChanged, .pkChanged, .indexAdded, .indexDropped, .fkAdded, .fkDropped]
      (inBoth prior.tables current.tables fun _ t t' => diffTable t t') := by
    intro d hd
    obtain ⟨key, t, t', -, -, hd⟩ := mem_inBoth.mp hd
    exact kindsIn_diffTable t t' d hd
  refine nodup_append_of_kinds (nodup_pair (fun _ _ => rfl) (fun _ _ => rfl) (by decide) ?_ ?_)
    (nodup_inBoth ?_ ?_) (kindsIn_pair (fun _ _ => rfl) fun _ _ => rfl) hkinds (by decide)
  · intro key t key' t' ht ht' heq
    rw [← hcurrent key t ht, ← hcurrent key' t' ht']
    exact objectForTable_inj heq
  · intro key t key' t' ht ht' heq
    rw [← hprior key t ht, ← hprior key' t' ht']
    exact objectForTable_inj heq
  · intro key t t' _ _
    exact nodup_diffTable t t'
  · intro key t t' d key' u u' d' ht ht' hu hu' hd hd' heq
    -- each drift names the schema and the table in which it was found
    have hcommon := common_of_key hprior hcurrent hunambiguous ht ht'
    have hcommon' := common_of_key hprior hcurrent hunambiguous hu hu'
    obtain ⟨hschema, hname⟩ := (tableDiffers_of_mem hcommon.schema hcommon.name hd).object
    obtain ⟨hschema', hname'⟩ := (tableDiffers_of_mem hcommon'.schema hcommon'.name hd').object
    have hobject : d.object = d'.object := congrArg Prod.snd heq
    rw [hobject, hschema', Option.some.injEq] at hschema
    rw [hobject, hname', Option.some.injEq] at hname
    rw [← hprior key t ht, ← hprior key' u hu]
    exact qualifiedName_congr hschema.symm hname.symm

theorem eq_of_no_difference {α : Type*} {before after : Set α}
    (hdropped : ∀ x, ¬ (x ∈ before ∧ x ∉ after)) (hadded : ∀ x, ¬ (x ∈ after ∧ x ∉ before)) :
    before = after := by
  apply Set.Subset.antisymm
  · intro x hin
    by_contra hno
    exact hdropped x ⟨hin, hno⟩
  · intro x hin
    by_contra hno
    exact hadded x ⟨hin, hno⟩

theorem agree_iff : Agree prior current ↔ ∀ kind object, ¬ Differs prior current kind object := by
  constructor
  · intro h kind object hdiffers
    cases hdiffers with
    | tableAdded hin => exact hin.2 (by rw [h.tables]; exact hin.1)
    | tableDropped hin => exact hin.2 (by rw [← h.tables]; exact hin.1)
    | within hcommon hin =>
        cases hin with
        | columnAdded hin => exact hin.2 (by rw [h.columns _ _ hcommon]; exact hin.1)
        | columnDropped hin => exact hin.2 (by rw [← h.columns _ _ hcommon]; exact hin.1)
        | columnTypeChanged hc hc' hne => exact hne (h.types _ _ hcommon _ _ _ hc hc')
        | columnNullabilityChanged hc hc' hne =>
            exact hne (h.nullability _ _ hcommon _ _ _ hc hc')
        | pkChanged hne => exact hne (h.primaryKeys _ _ hcommon)
        | indexAdded hin => exact hin.2 (by rw [h.indexes _ _ hcommon]; exact hin.1)
        | indexDropped hin => exact hin.2 (by rw [← h.indexes _ _ hcommon]; exact hin.1)
        | fkAdded hin => exact hin.2 (by rw [h.foreignKeys _ _ hcommon]; exact hin.1)
        | fkDropped hin => exact hin.2 (by rw [← h.foreignKeys _ _ hcommon]; exact hin.1)
  · intro h
    constructor
    · apply eq_of_no_difference
      · rintro ⟨schema, name⟩ hin
        exact h _ _ (.tableDropped hin)
      · rintro ⟨schema, name⟩ hin
        exact h _ _ (.tableAdded hin)
    · intro t t' hcommon
      exact eq_of_no_difference (fun _ hin => h _ _ (.within hcommon (.columnDropped hin)))
        fun _ hin => h _ _ (.within hcommon (.columnAdded hin))
    · intro t t' hcommon col c c' hc hc'
      by_contra hne
      exact h _ _ (.within hcommon (.columnTypeChanged hc hc' hne))
    · intro t t' hcommon col c c' hc hc'
      by_contra hne
      exact h _ _ (.within hcommon (.columnNullabilityChanged hc hc' hne))
    · intro t t' hcommon
      by_contra hne
      exact h _ _ (.within hcommon (.pkChanged hne))
    · intro t t' hcommon
      exact eq_of_no_difference (fun _ hin => h _ _ (.within hcommon (.indexDropped hin)))
        fun _ hin => h _ _ (.within hcommon (.indexAdded hin))
    · intro t t' hcommon
      exact eq_of_no_difference (fun _ hin => h _ _ (.within hcommon (.fkDropped hin)))
        fun _ hin => h _ _ (.within hcommon (.fkAdded hin))

end Snapshots

/-! ## The counts -/

theorem total_count (c : DriftKindCounts) (kind : DriftKind) :
    (c.count kind).total = c.total + 1 := by
  cases kind <;> simp only [DriftKindCounts.count, DriftKindCounts.total] <;> ac_rfl

theorem total_foldl (drifts : List Drift) (c : DriftKindCounts) :
    (drifts.foldl (fun c d => c.count d.kind) c).total =
      c.total + UInt32.ofNat drifts.length := by
  induction drifts generalizing c with
  | nil => simp
  | cons d drifts ih =>
      rw [List.foldl_cons, ih, total_count, List.length_cons, Nat.add_comm drifts.length,
        UInt32.ofNat_add, UInt32.add_assoc]
      rfl

theorem total_summarize (drifts : List Drift) :
    (summarize drifts).total = UInt32.ofNat drifts.length := by
  unfold summarize
  rw [total_foldl]
  exact UInt32.zero_add _

theorem total_eq_length_iff (drifts : List Drift) :
    (summarize drifts).total.toNat = drifts.length ↔ drifts.length < UInt32.size := by
  rw [total_summarize, UInt32.toNat_ofNat']
  constructor
  · intro h
    rw [← h]
    exact Nat.mod_lt _ (by decide)
  · exact Nat.mod_eq_of_lt

/-! ## All together -/

/-- The drifts are the differences, each once; none is emitted when the snapshots agree;
and the 32-bit counts add up to fewer than `2 ^ 32` drifts. -/
theorem computeDrifts_exact (prior current : SchemaSnapshot) (hprior : WellFormed prior)
    (hcurrent : WellFormed current) (hunambiguous : Unambiguous prior current) :
    (∀ kind object, (kind, object) ∈ (computeDrifts prior current).map locator ↔
      Differs prior current kind object) ∧
    ((computeDrifts prior current).map locator).Nodup ∧
    (computeDrifts prior current = [] ↔ Agree prior current) ∧
    ((summarize (computeDrifts prior current)).total.toNat = (computeDrifts prior current).length ↔
      (computeDrifts prior current).length < UInt32.size) := by
  have hmem := mem_locators_iff hprior hcurrent hunambiguous
  refine ⟨hmem, nodup_computeDrifts hprior hcurrent hunambiguous, ?_, total_eq_length_iff _⟩
  rw [agree_iff]
  constructor
  · intro hnil kind object hdiffers
    have hin := (hmem kind object).mpr hdiffers
    rw [hnil] at hin
    cases hin
  · intro hno
    apply List.eq_nil_iff_forall_not_mem.mpr
    intro d hd
    exact hno d.kind d.object (differs_of_mem hprior hcurrent hunambiguous hd)

/-! ## Snapshots of given tables -/

def ofTables (tables : List TableSchema) : SchemaSnapshot :=
  ⟨"db", .mySql, .ofList (tables.map fun t => (t.qualifiedName, t))⟩

section Given

variable {tables tables' : List TableSchema}

theorem distinct_pairs (hdistinct : (tables.map TableSchema.qualifiedName).Nodup) :
    (tables.map fun t => (t.qualifiedName, t)).Pairwise
      fun a b => ¬ compare a.1 b.1 = .eq := by
  rw [List.pairwise_map]
  apply (List.pairwise_map.mp hdistinct).imp
  exact fun hne heq => hne (Std.LawfulEqCmp.eq_of_compare heq)

theorem mem_ofTables (hdistinct : (tables.map TableSchema.qualifiedName).Nodup) {key : String}
    {t : TableSchema} (h : (ofTables tables).tables[key]? = some t) :
    t ∈ tables ∧ key = t.qualifiedName := by
  have hin : key ∈ (ofTables tables).tables := mem_names.mpr ⟨t, h⟩
  rw [Std.TreeMap.mem_iff_contains, ofTables, Std.TreeMap.contains_ofList,
    List.contains_iff_mem, List.map_map] at hin
  obtain ⟨t', ht', rfl⟩ := List.mem_map.mp hin
  have hget : (ofTables tables).tables[t'.qualifiedName]? = some t' :=
    Std.TreeMap.getElem?_ofList_of_mem Std.ReflCmp.compare_self (distinct_pairs hdistinct)
      (List.mem_map_of_mem (f := fun t => (t.qualifiedName, t)) ht')
  obtain rfl : t' = t := Option.some.inj (hget.symm.trans h)
  exact ⟨ht', rfl⟩

theorem wellFormed_ofTables (hdistinct : (tables.map TableSchema.qualifiedName).Nodup) :
    WellFormed (ofTables tables) :=
  fun _ _ h => (mem_ofTables hdistinct h).2.symm

theorem unambiguous_ofTables (hdistinct : (tables.map TableSchema.qualifiedName).Nodup)
    (hdistinct' : (tables'.map TableSchema.qualifiedName).Nodup)
    (h : ∀ t ∈ tables, ∀ t' ∈ tables', t.qualifiedName = t'.qualifiedName →
      t.schema = t'.schema ∧ t.name = t'.name) :
    Unambiguous (ofTables tables) (ofTables tables') :=
  fun t t' ht ht' => h t (mem_ofTables hdistinct ht).1 t' (mem_ofTables hdistinct' ht').1

end Given

/-! ## A table that drifts below its own level -/

def column (name : String) (ordinal : Int) (dataType : String) (isNullable : Bool) :
    String × ColumnSchema :=
  (name, ⟨name, ordinal, dataType, isNullable, none, none, none, none⟩)

def bare (name : String) : TableSchema := ⟨"s", name, ∅, none, ∅, ∅⟩

def orders : TableSchema where
  schema := "s"
  name := "orders"
  columns := .ofList [column "id" 1 "int" false, column "note" 2 "text" false,
    column "state" 3 "text" true]
  primaryKey := some ⟨some "PRIMARY", ["id"]⟩
  indexes := .ofList [("by_note", IndexSchema.mk "by_note" ["note"] false)]
  foreignKeys := .ofList
    [("fk_state", ForeignKey.mk "fk_state" ["state"] (some "s") "states" ["name"])]

def ordersLater : TableSchema where
  schema := "s"
  name := "orders"
  columns := .ofList [column "id" 1 "bigint" false, column "note" 2 "text" true,
    column "buyer" 3 "int" true]
  primaryKey := some ⟨some "PRIMARY", ["id", "note"]⟩
  indexes := .ofList [("by_buyer", IndexSchema.mk "by_buyer" ["buyer"] true)]
  foreignKeys := .ofList
    [("fk_buyer", ForeignKey.mk "fk_buyer" ["buyer"] (some "s") "buyers" ["id"])]

theorem orders_comparable :
    WellFormed (ofTables [orders, bare "states"]) ∧ WellFormed (ofTables [ordersLater, bare "buyers"]) ∧
      Unambiguous (ofTables [orders, bare "states"]) (ofTables [ordersLater, bare "buyers"]) := by
  have hdistinct : ([orders, bare "states"].map TableSchema.qualifiedName).Nodup := by decide
  have hdistinct' : ([ordersLater, bare "buyers"].map TableSchema.qualifiedName).Nodup := by decide
  exact ⟨wellFormed_ofTables hdistinct, wellFormed_ofTables hdistinct',
    unambiguous_ofTables hdistinct hdistinct' (by decide)⟩

/-- Every kind of drift is found, each at its place. -/
theorem computeDrifts_exact_orders :
    let prior := ofTables [orders, bare "states"]
    let current := ofTables [ordersLater, bare "buyers"]
    (∀ kind object, (kind, object) ∈ (computeDrifts prior current).map locator ↔
        Differs prior current kind object) ∧
      ((computeDrifts prior current).map locator).Nodup ∧ ¬ Agree prior current ∧
      (computeDrifts prior current).map Drift.kind =
        [.tableAdded, .tableDropped, .columnAdded, .columnDropped, .columnTypeChanged,
          .columnNullabilityChanged, .pkChanged, .indexAdded, .indexDropped, .fkAdded,
          .fkDropped] ∧
      (summarize (computeDrifts prior current)).total.toNat = 11 := by
  intro prior current
  obtain ⟨hprior, hcurrent, hunambiguous⟩ := orders_comparable
  obtain ⟨hmem, hnodup, hagree, -⟩ :=
    computeDrifts_exact prior current hprior hcurrent hunambiguous
  have hkinds : (computeDrifts prior current).map Drift.kind =
      [.tableAdded, .tableDropped, .columnAdded, .columnDropped, .columnTypeChanged,
        .columnNullabilityChanged, .pkChanged, .indexAdded, .indexDropped, .fkAdded,
        .fkDropped] := by decide +kernel
  refine ⟨hmem, hnodup, fun hsame => ?_, hkinds, by decide +kernel⟩
  rw [hagree.mpr hsame] at hkinds
  cases hkinds

/-! ## A snapshot of many tables -/

def numbered (i : Nat) : TableSchema :=
  ⟨"s", String.ofList (List.replicate i 'a'), ∅, none, ∅, ∅⟩

def manyTables (n : Nat) : SchemaSnapshot :=
  ⟨"db", .mySql, .ofList ((List.range n).map fun i => ((numbered i).qualifiedName, numbered i))⟩

theorem numbered_inj {i j : Nat} (h : (numbered i).qualifiedName = (numbered j).qualifiedName) :
    i = j := by
  have htexts := congrArg String.toList h
  simp only [TableSchema.qualifiedName, numbered, String.toList_append, String.toList_ofList]
    at htexts
  have hlength := congrArg List.length (List.append_cancel_left htexts)
  simpa using hlength

theorem manyTables_eq (n : Nat) : manyTables n = ofTables ((List.range n).map numbered) := by
  rw [manyTables, ofTables, List.map_map]
  rfl

theorem distinct_numbered (n : Nat) :
    (((List.range n).map numbered).map TableSchema.qualifiedName).Nodup := by
  rw [List.map_map]
  exact List.nodup_range.map fun i j => numbered_inj

theorem mem_manyTables {n : Nat} {key : String} {t : TableSchema}
    (h : (manyTables n).tables[key]? = some t) :
    ∃ i, i < n ∧ t = numbered i ∧ key = (numbered i).qualifiedName := by
  rw [manyTables_eq] at h
  obtain ⟨ht, rfl⟩ := mem_ofTables (distinct_numbered n) h
  obtain ⟨i, hi, rfl⟩ := List.mem_map.mp ht
  exact ⟨i, List.mem_range.mp hi, rfl, rfl⟩

theorem wellFormed_manyTables (n : Nat) : WellFormed (manyTables n) := by
  intro key t h
  obtain ⟨i, -, rfl, rfl⟩ := mem_manyTables h
  rfl

theorem unambiguous_manyTables (m n : Nat) : Unambiguous (manyTables m) (manyTables n) := by
  intro t t' h h' heq
  obtain ⟨i, -, rfl, -⟩ := mem_manyTables h
  obtain ⟨j, -, rfl, -⟩ := mem_manyTables h'
  rw [numbered_inj heq]
  exact ⟨rfl, rfl⟩

theorem size_manyTables (n : Nat) : (manyTables n).tables.size = n := by
  rw [manyTables_eq, ofTables, Std.TreeMap.size_ofList (distinct_pairs (distinct_numbered n)),
    List.length_map, List.length_map, List.length_range]

theorem length_computeDrifts_of_isEmpty {prior : SchemaSnapshot} (h : prior.tables.isEmpty = true)
    (current : SchemaSnapshot) : (computeDrifts prior current).length = current.tables.size := by
  have hnone : prior.tables.toList = [] := by
    rwa [← List.isEmpty_iff, Std.TreeMap.isEmpty_toList]
  have hmissing : ∀ key, prior.tables.contains key = false :=
    fun key => Std.TreeMap.contains_of_isEmpty h
  simp [computeDrifts, onlyIn, inBoth, hnone, hmissing, Std.TreeMap.length_toList]

theorem length_computeDrifts_manyTables (n : Nat) :
    (computeDrifts (manyTables 0) (manyTables n)).length = n := by
  rw [length_computeDrifts_of_isEmpty rfl, size_manyTables]

/-- As many added tables as the counter has values are counted as none. -/
theorem counts_do_not_add_up :
    WellFormed (manyTables 0) ∧ WellFormed (manyTables UInt32.size) ∧
      Unambiguous (manyTables 0) (manyTables UInt32.size) ∧
      (summarize (computeDrifts (manyTables 0) (manyTables UInt32.size))).total.toNat ≠
        (computeDrifts (manyTables 0) (manyTables UInt32.size)).length := by
  refine ⟨wellFormed_manyTables 0, wellFormed_manyTables _, unambiguous_manyTables 0 _, ?_⟩
  intro h
  have hlt := (total_eq_length_iff _).mp h
  rw [length_computeDrifts_manyTables] at hlt
  exact absurd hlt (Nat.lt_irrefl _)

end Dbmaster.Drift.Exactness
