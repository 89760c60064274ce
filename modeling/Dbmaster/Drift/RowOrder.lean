import Dbmaster.Drift.Exactness
import Dbmaster.Drift.Namespaces
import Dbmaster.Drift.Runner
/-!
# Catalog rows in another order

The snapshot, its canonical text and its hash depend on the rows of the catalog, not on the
order in which the queries return them.
-/

namespace Dbmaster.Drift.RowOrder

open Dbmaster.Lib Dbmaster.Lib.Grouping
open Dbmaster.Drift.Snapshot Dbmaster.Drift.Diff Dbmaster.Drift.Exactness Dbmaster.Drift.Runner
open Dbmaster.Drift.Assembly Dbmaster.Drift.Namespaces

/-! ## Equal snapshots -/

/-- What `==` compares of a table; maps are compared by their entries in order. -/
def tableParts (t : TableSchema) :
    String × String × List (String × ColumnSchema) × Option PrimaryKey ×
      List (String × IndexSchema) × List (String × ForeignKey) :=
  (t.schema, t.name, t.columns.toList, t.primaryKey, t.indexes.toList, t.foreignKeys.toList)

/-- `a == b` -/
def SameSnapshot (a b : SchemaSnapshot) : Prop :=
  a.database = b.database ∧ a.dbType = b.dbType ∧
    (a.tables.toList.map fun e => (e.1, tableParts e.2)) =
      b.tables.toList.map fun e => (e.1, tableParts e.2)

def partsJson : String × String × List (String × ColumnSchema) × Option PrimaryKey ×
    List (String × IndexSchema) × List (String × ForeignKey) → Json
  | (schema, name, columns, primaryKey, indexes, foreignKeys) =>
      .obj [("schema", .str schema), ("name", .str name),
        ("columns", .obj (columns.map fun e => (e.1, columnJson e.2))),
        ("primary_key", .ofOption pkSummary primaryKey),
        ("indexes", .obj (indexes.map fun e => (e.1, indexJson e.2))),
        ("foreign_keys", .obj (foreignKeys.map fun e => (e.1, fkJson e.2)))]

theorem canonicalJson_eq (s : SchemaSnapshot) :
    canonicalJson s = .obj [("database", .str s.database),
      ("db_type", .str (DbType.asWireStr s.dbType)),
      ("tables", .obj ((s.tables.toList.map fun e => (e.1, tableParts e.2)).map
        fun e => (e.1, partsJson e.2)))] := by
  rw [List.map_map]
  rfl

/-- Equal snapshots have one canonical text. -/
theorem canonicalJson_of_same {a b : SchemaSnapshot} (h : SameSnapshot a b) :
    canonicalJson a = canonicalJson b := by
  obtain ⟨hdatabase, hdbType, htables⟩ := h
  rw [canonicalJson_eq, canonicalJson_eq, hdatabase, hdbType, htables]

/-- Assembled tables stand under their qualified names. -/
theorem wellFormed_assembled (rows : CatalogRows) (database : String) (dbType : DbType) :
    WellFormed ⟨database, dbType, rows.assemble⟩ :=
  fun _ _ h => (named_of_assembled h).2

/-! ## Rows that say the same -/

structure SayTheSame (own own' : CatalogRows) : Prop where
  column : ∀ name, own.column name = own'.column name
  primaryKey : own.primaryKey = own'.primaryKey
  index : ∀ name, own.index name = own'.index name
  foreignKey : ∀ name, own.foreignKey name = own'.foreignKey name

theorem tableParts_eq {own own' : CatalogRows} {t t' : TableSchema}
    (hid : (t.schema, t.name) = (t'.schema, t'.name)) (h : HoldsExactly own t)
    (h' : HoldsExactly own' t') (hsame : SayTheSame own own') : tableParts t = tableParts t' := by
  obtain ⟨hschema, hname⟩ := Prod.mk.inj hid
  have hcolumns : t.columns.toList = t'.columns.toList := by
    apply toList_eq_of_getElem?
    intro name
    rw [h.columns, h'.columns, hsame.column]
  have hindexes : t.indexes.toList = t'.indexes.toList := by
    apply toList_eq_of_getElem?
    intro name
    rw [h.indexes, h'.indexes, hsame.index]
  have hfks : t.foreignKeys.toList = t'.foreignKeys.toList := by
    apply toList_eq_of_getElem?
    intro name
    rw [h.foreignKeys, h'.foreignKeys, hsame.foreignKey]
  have hpk : t.primaryKey = t'.primaryKey := by
    rw [h.primaryKey, h'.primaryKey, hsame.primaryKey]
  unfold tableParts
  rw [hschema, hname, hcolumns, hpk, hindexes, hfks]

section Rows

variable {rows rows' : CatalogRows}

theorem assembled_isSome (rows : CatalogRows) (key : String) :
    rows.assemble[key]?.isSome = true ↔ ∃ id ∈ rows.ids, tableKey id = key := by
  rw [Option.isSome_iff_exists]
  constructor
  · rintro ⟨t, ht⟩
    obtain ⟨hid, hkey⟩ := named_of_assembled ht
    exact ⟨_, hid, hkey⟩
  · rintro ⟨id, hid, rfl⟩
    exact assembled_of_named hid

/-- Rows that name the same tables and say the same of each assemble alike. -/
theorem assemble_parts_eq (hapart : KeysApart rows) (hids : ∀ id, id ∈ rows.ids ↔ id ∈ rows'.ids)
    (hsame : ∀ id, SayTheSame (rows.own id) (rows'.own id)) :
    (rows.assemble.toList.map fun e => (e.1, tableParts e.2)) =
      rows'.assemble.toList.map fun e => (e.1, tableParts e.2) := by
  have hapart' : KeysApart rows' := by
    intro id hid other hother
    exact hapart id ((hids id).mpr hid) other ((hids other).mpr hother)
  rw [← Std.TreeMap.toList_map (f := fun _ t => tableParts t),
    ← Std.TreeMap.toList_map (f := fun _ t => tableParts t)]
  apply toList_eq_of_getElem?
  intro key
  rw [Std.TreeMap.getElem?_map, Std.TreeMap.getElem?_map]
  have hsome : rows.assemble[key]?.isSome = true ↔ rows'.assemble[key]?.isSome = true := by
    rw [assembled_isSome, assembled_isSome]
    simp only [hids]
  cases ht : rows.assemble[key]? with
  | none =>
      rw [ht] at hsome
      cases ht' : rows'.assemble[key]? with
      | none => rfl
      | some t' =>
          rw [ht'] at hsome
          cases hsome.mpr rfl
  | some t =>
      rw [ht] at hsome
      obtain ⟨t', ht'⟩ := Option.isSome_iff_exists.mp (hsome.mp rfl)
      rw [ht']
      obtain ⟨hid, hkey⟩ := named_of_assembled ht
      obtain ⟨hid', hkey'⟩ := named_of_assembled ht'
      have heq := hapart _ hid _ ((hids _).mpr hid') (hkey.trans hkey'.symm)
      subst hkey
      have hexact := assembled_holdsExactly ht hid (hapart.alone hid)
      rw [← hkey'] at ht'
      have hexact' := assembled_holdsExactly ht' hid' (hapart'.alone hid')
      rw [← heq] at hexact'
      exact congrArg some (tableParts_eq heq hexact hexact' (hsame _))

end Rows

/-! ## MySQL -/

section MySql

variable {columns columns' : List MySqlColumnRow} {indexes indexes' : List MySqlIndexRow}
  {foreignKeys foreignKeys' : List MySqlFkRow}

/-- The catalog has one row for a column of a table, for a position in a primary key and for a
position in a foreign key. -/
structure OneRowEach (columns : List MySqlColumnRow) (indexes : List MySqlIndexRow)
    (foreignKeys : List MySqlFkRow) : Prop where
  columns : (columns.map fun r => (r.tableName, r.columnName)).Nodup
  primaryKeys : ((indexes.filter fun r => decide (r.indexName = "PRIMARY")).map
    fun r => (r.tableName, r.seqInIndex)).Nodup
  foreignKeys : (foreignKeys.map fun r => ((r.tableName, r.constraintName), r.ordinalPosition)).Nodup

/-- The rows of each secondary index stand in the order in which they stood. -/
def KeepsIndexes (indexes indexes' : List MySqlIndexRow) : Prop :=
  ∀ table name, name ≠ "PRIMARY" →
    (indexes.filter fun r => decide ((r.tableName, r.indexName) = (table, name))) =
      indexes'.filter fun r => decide ((r.tableName, r.indexName) = (table, name))

/-- The snapshot of `collect_mysql`. -/
def mySqlSnapshot (databaseName : String) (columns : List MySqlColumnRow)
    (indexes : List MySqlIndexRow) (foreignKeys : List MySqlFkRow) : SchemaSnapshot :=
  ⟨databaseName, .mySql, (CatalogRows.mySql databaseName columns indexes foreignKeys).assemble⟩

variable {databaseName : String}

theorem filter_own {ρ : Type} {table part : ρ → String} (l : List ρ) (id : TableId) (name : String) :
    ((l.filter fun r => decide ((databaseName, table r) = id)).filter
        fun r => decide (part r = name)) =
      (l.filter fun r => decide ((table r, part r) = (id.2, name))).filter
        fun r => decide ((databaseName, table r) = id) := by
  rw [List.filter_filter, List.filter_filter]
  apply List.filter_congr
  intro r _
  rw [Bool.eq_iff_iff]
  simp only [Bool.and_eq_true, decide_eq_true_eq, Prod.mk.injEq]
  constructor
  · rintro ⟨hname, rfl⟩
    exact ⟨rfl, rfl, hname⟩
  · rintro ⟨hid, -, hname⟩
    exact ⟨hname, hid⟩

theorem column_reordered (hnodup : (columns.map fun r => (r.tableName, r.columnName)).Nodup)
    (hperm : columns.Perm columns') (id : TableId) (name : String) :
    ((columns.filter fun r => decide ((databaseName, r.tableName) = id)).filter
        fun r => decide (r.columnName = name)) =
      (columns'.filter fun r => decide ((databaseName, r.tableName) = id)).filter
        fun r => decide (r.columnName = name) := by
  rw [filter_own, filter_own, filter_eq_of_perm hperm hnodup]

theorem primaryKeyOf_reordered {cols cols' : List (Int × String)} (hperm : cols.Perm cols')
    (hnodup : (cols.map Prod.fst).Nodup) : primaryKeyOf cols = primaryKeyOf cols' := by
  unfold primaryKeyOf
  rw [mergeSort_eq_of_perm hperm hnodup]

theorem foreignKeyOf_reordered {group group' : List MySqlFkRow} (hperm : group.Perm group')
    (hnodup : (group.map MySqlFkRow.ordinalPosition).Nodup) (name : String) :
    foreignKeyOf databaseName name group = foreignKeyOf databaseName name group' := by
  unfold foreignKeyOf sortFkRows
  rw [mergeSort_eq_of_perm hperm hnodup]

theorem index_reordered (hkeeps : KeepsIndexes indexes indexes') (id : TableId) (name : String) :
    ((indexes.filter fun r => decide ((databaseName, r.tableName) = id)).filter
        fun r => r.indexName ≠ "PRIMARY" && decide (r.indexName = name)) =
      (indexes'.filter fun r => decide ((databaseName, r.tableName) = id)).filter
        fun r => r.indexName ≠ "PRIMARY" && decide (r.indexName = name) := by
  by_cases hprimary : name = "PRIMARY"
  · have hnone : ∀ r : MySqlIndexRow,
        (decide (r.indexName ≠ "PRIMARY") && decide (r.indexName = name)) = false := by
      intro r
      rw [hprimary]
      by_cases h : r.indexName = "PRIMARY" <;> simp [h]
    simp only [hnone, List.filter_false]
  · have hname : ∀ r : MySqlIndexRow,
        (decide (r.indexName ≠ "PRIMARY") && decide (r.indexName = name)) =
          decide (r.indexName = name) := by
      intro r
      by_cases h : r.indexName = name
      · simp [h, hprimary]
      · simp [h]
    simp only [hname]
    rw [filter_own, filter_own, hkeeps id.2 name hprimary]

theorem grouped_reordered {ρ β : Type} {group group' : List ρ} {x x' : β}
    (hperm : group.Perm group') (h : x = x') :
    (if group = [] then none else some x) = if group' = [] then none else some x' := by
  have hnil : group = [] ↔ group' = [] := by
    rw [← List.length_eq_zero_iff, ← List.length_eq_zero_iff, hperm.length_eq]
  simp only [h, hnil]

theorem primaryKey_reordered
    (hnodup : ((indexes.filter fun r => decide (r.indexName = "PRIMARY")).map
      fun r => (r.tableName, r.seqInIndex)).Nodup)
    (hperm : indexes.Perm indexes') (id : TableId) :
    ((CatalogRows.mySql databaseName columns indexes foreignKeys).own id).primaryKey =
      ((CatalogRows.mySql databaseName columns' indexes' foreignKeys').own id).primaryKey := by
  have hgroup := (hperm.filter fun r => decide ((databaseName, r.tableName) = id)).filter
    fun r => decide (r.indexName = "PRIMARY")
  have hplaces : (((indexes.filter fun r => decide ((databaseName, r.tableName) = id)).filter
      fun r => decide (r.indexName = "PRIMARY")).map MySqlIndexRow.seqInIndex).Nodup := by
    have hinj : Function.Injective fun x : String × Int => ((databaseName, x.1), x.2) := by
      rintro ⟨table, seq⟩ ⟨table', seq'⟩ heq
      simpa using heq
    have hkeyed := hnodup.map hinj
    rw [List.map_map] at hkeyed
    have hplaces := nodup_group hkeyed id
    rw [List.filter_filter] at hplaces ⊢
    simp only [Bool.and_comm] at hplaces ⊢
    exact hplaces
  apply grouped_reordered hgroup
  apply primaryKeyOf_reordered (hgroup.map _)
  rw [List.map_map]
  exact hplaces

theorem foreignKey_reordered
    (hnodup : (foreignKeys.map fun r =>
      ((r.tableName, r.constraintName), r.ordinalPosition)).Nodup)
    (hperm : foreignKeys.Perm foreignKeys') (id : TableId) (name : String) :
    ((CatalogRows.mySql databaseName columns indexes foreignKeys).own id).foreignKey name =
      ((CatalogRows.mySql databaseName columns' indexes' foreignKeys').own id).foreignKey name := by
  have hgroup := (hperm.filter fun r => decide ((databaseName, r.tableName) = id)).filter
    fun r => decide (r.constraintName = name)
  have hplaces : (((foreignKeys.filter fun r => decide ((databaseName, r.tableName) = id)).filter
      fun r => decide (r.constraintName = name)).map MySqlFkRow.ordinalPosition).Nodup := by
    rw [filter_own]
    exact (nodup_group hnodup (id.2, name)).sublist (List.filter_sublist.map _)
  exact grouped_reordered hgroup (foreignKeyOf_reordered hgroup hplaces name)

theorem sayTheSame_reordered (hcatalog : OneRowEach columns indexes foreignKeys)
    (hcolumns : columns.Perm columns') (hindexes : indexes.Perm indexes')
    (hfks : foreignKeys.Perm foreignKeys') (hkeeps : KeepsIndexes indexes indexes')
    (id : TableId) :
    SayTheSame ((CatalogRows.mySql databaseName columns indexes foreignKeys).own id)
      ((CatalogRows.mySql databaseName columns' indexes' foreignKeys').own id) := by
  constructor
  · intro name
    show Option.map _ (List.getLast? _) = Option.map _ (List.getLast? _)
    rw [column_reordered hcatalog.columns hcolumns]
  · exact primaryKey_reordered hcatalog.primaryKeys hindexes id
  · intro name
    show Option.map _ (List.getLast? _) = Option.map _ (List.getLast? _)
    rw [index_reordered hkeeps]
  · exact foreignKey_reordered hcatalog.foreignKeys hfks id

theorem mem_ids_reordered (hcolumns : columns.Perm columns') (hindexes : indexes.Perm indexes')
    (hfks : foreignKeys.Perm foreignKeys') (id : TableId) :
    id ∈ (CatalogRows.mySql databaseName columns indexes foreignKeys).ids ↔
      id ∈ (CatalogRows.mySql databaseName columns' indexes' foreignKeys').ids :=
  (((hcolumns.map _).append (hindexes.map _)).append (hfks.map _)).mem_iff

theorem sameSnapshot_reordered (hcatalog : OneRowEach columns indexes foreignKeys)
    (hcolumns : columns.Perm columns') (hindexes : indexes.Perm indexes')
    (hfks : foreignKeys.Perm foreignKeys') (hkeeps : KeepsIndexes indexes indexes') :
    SameSnapshot (mySqlSnapshot databaseName columns indexes foreignKeys)
      (mySqlSnapshot databaseName columns' indexes' foreignKeys') :=
  ⟨rfl, rfl, assemble_parts_eq (keysApart_mySql _ _ _ _) (mem_ids_reordered hcolumns hindexes hfks)
    (sayTheSame_reordered hcatalog hcolumns hindexes hfks hkeeps)⟩

end MySql

/-! ## PostgreSQL -/

section Pg

variable {columns columns' : List PgColumnRow} {indexes indexes' : List PgIndexRow}
  {foreignKeys foreignKeys' : List PgFkRow}

/-- The catalog has one row for a column, a primary key, an index and a foreign key of a
table. -/
structure PgOneRowEach (columns : List PgColumnRow) (indexes : List PgIndexRow)
    (foreignKeys : List PgFkRow) : Prop where
  columns : (columns.map fun r => ((r.schemaName, r.tableName), r.columnName)).Nodup
  primaryKeys : ((indexes.filter PgIndexRow.isPrimary).map
    fun r => (r.schemaName, r.tableName)).Nodup
  indexes : ((indexes.filter fun r => !r.isPrimary).map
    fun r => ((r.schemaName, r.tableName), r.indexName)).Nodup
  foreignKeys : (foreignKeys.map fun r => ((r.schemaName, r.tableName), r.constraintName)).Nodup

/-- The snapshot of `collect_postgres`. -/
def pgSnapshot (databaseName : String) (columns : List PgColumnRow) (indexes : List PgIndexRow)
    (foreignKeys : List PgFkRow) : SchemaSnapshot :=
  ⟨databaseName, .postgres, (CatalogRows.pg columns indexes foreignKeys).assemble⟩

theorem filter_pair {ρ : Type} {table : ρ → TableId} {part : ρ → String} (l : List ρ)
    (id : TableId) (name : String) :
    ((l.filter fun r => decide (table r = id)).filter fun r => decide (part r = name)) =
      l.filter fun r => decide ((table r, part r) = (id, name)) := by
  rw [List.filter_filter]
  simp only [Prod.mk.injEq, Bool.decide_and, Bool.and_comm]

theorem sayTheSame_pg (hcatalog : PgOneRowEach columns indexes foreignKeys)
    (hcolumns : columns.Perm columns') (hindexes : indexes.Perm indexes')
    (hfks : foreignKeys.Perm foreignKeys') (id : TableId) :
    SayTheSame ((CatalogRows.pg columns indexes foreignKeys).own id)
      ((CatalogRows.pg columns' indexes' foreignKeys').own id) := by
  constructor
  · intro name
    show Option.map _ (List.getLast? _) = Option.map _ (List.getLast? _)
    rw [filter_pair, filter_pair, filter_eq_of_perm hcolumns hcatalog.columns]
  · show Option.map _ (List.getLast? _) = Option.map _ (List.getLast? _)
    have hgroup := filter_eq_of_perm (hindexes.filter PgIndexRow.isPrimary) hcatalog.primaryKeys id
    simp only [List.filter_filter, Bool.and_comm] at hgroup ⊢
    rw [hgroup]
  · intro name
    show Option.map _ (List.getLast? _) = Option.map _ (List.getLast? _)
    have hsplit : ∀ l : List PgIndexRow,
        ((l.filter fun r => decide ((r.schemaName, r.tableName) = id)).filter
            fun r => !r.isPrimary && decide (r.indexName = name)) =
          (l.filter fun r => !r.isPrimary).filter
            fun r => decide (((r.schemaName, r.tableName), r.indexName) = (id, name)) := by
      intro l
      rw [← filter_pair, List.filter_filter, List.filter_filter, List.filter_filter]
      simp only [Bool.and_comm, Bool.and_assoc]
    rw [hsplit, hsplit,
      filter_eq_of_perm (hindexes.filter fun r => !r.isPrimary) hcatalog.indexes]
  · intro name
    show Option.map _ (List.getLast? _) = Option.map _ (List.getLast? _)
    rw [filter_pair, filter_pair, filter_eq_of_perm hfks hcatalog.foreignKeys]

theorem sameSnapshot_pg (hapart : KeysApart (.pg columns indexes foreignKeys))
    (hcatalog : PgOneRowEach columns indexes foreignKeys)
    (hcolumns : columns.Perm columns') (hindexes : indexes.Perm indexes')
    (hfks : foreignKeys.Perm foreignKeys') (database : String) :
    SameSnapshot (pgSnapshot database columns indexes foreignKeys)
      (pgSnapshot database columns' indexes' foreignKeys') := by
  refine ⟨rfl, rfl, assemble_parts_eq hapart ?_ (sayTheSame_pg hcatalog hcolumns hindexes hfks)⟩
  intro id
  exact (((hcolumns.map _).append (hindexes.map _)).append (hfks.map _)).mem_iff

end Pg

/-! ## All together -/

/-- Nothing tells the two snapshots apart. -/
def Indistinct (digest : Json → String) (a b : SchemaSnapshot) : Prop :=
  SameSnapshot a b ∧ canonicalJson a = canonicalJson b ∧
    canonicalHash digest a = canonicalHash digest b

theorem indistinct_of_same (digest : Json → String) {a b : SchemaSnapshot}
    (h : SameSnapshot a b) : Indistinct digest a b :=
  ⟨h, canonicalJson_of_same h, congrArg digest (canonicalJson_of_same h)⟩

/-- The order of the catalog rows leaves no trace in the snapshot, its canonical text and its
hash: with MySQL's rows but for the rows of one secondary index, with PostgreSQL's wherever
the tables are kept apart. -/
theorem snapshot_reordered (digest : Json → String) (databaseName : String) :
    (∀ (columns columns' : List MySqlColumnRow) (indexes indexes' : List MySqlIndexRow)
        (foreignKeys foreignKeys' : List MySqlFkRow), OneRowEach columns indexes foreignKeys →
        columns.Perm columns' → indexes.Perm indexes' → foreignKeys.Perm foreignKeys' →
        KeepsIndexes indexes indexes' →
        Indistinct digest (mySqlSnapshot databaseName columns indexes foreignKeys)
          (mySqlSnapshot databaseName columns' indexes' foreignKeys')) ∧
      ∀ (columns columns' : List PgColumnRow) (indexes indexes' : List PgIndexRow)
        (foreignKeys foreignKeys' : List PgFkRow), KeysApart (.pg columns indexes foreignKeys) →
        PgOneRowEach columns indexes foreignKeys →
        columns.Perm columns' → indexes.Perm indexes' → foreignKeys.Perm foreignKeys' →
        Indistinct digest (pgSnapshot databaseName columns indexes foreignKeys)
          (pgSnapshot databaseName columns' indexes' foreignKeys') := by
  constructor
  · intro columns columns' indexes indexes' foreignKeys foreignKeys' hcatalog hcolumns hindexes
      hfks hkeeps
    exact indistinct_of_same digest
      (sameSnapshot_reordered hcatalog hcolumns hindexes hfks hkeeps)
  · intro columns columns' indexes indexes' foreignKeys foreignKeys' hapart hcatalog hcolumns
      hindexes hfks
    exact indistinct_of_same digest (sameSnapshot_pg hapart hcatalog hcolumns hindexes hfks _)

def sampleColumns : List MySqlColumnRow :=
  [⟨"orders", "id", 1, "bigint", "NO", none, none, none, none⟩,
    ⟨"orders", "line", 2, "int", "NO", none, none, none, none⟩]

def sampleIndexRow (index column : String) (seq : Int) : MySqlIndexRow :=
  ⟨"orders", index, column, seq, 0⟩

/-- A primary key of two columns, and an index of the same two. -/
def sampleIndexes : List MySqlIndexRow :=
  [sampleIndexRow "PRIMARY" "id" 1, sampleIndexRow "PRIMARY" "line" 2,
    sampleIndexRow "ix" "line" 1, sampleIndexRow "ix" "id" 2]

def shuffledIndexes : List MySqlIndexRow :=
  [sampleIndexRow "ix" "line" 1, sampleIndexRow "PRIMARY" "line" 2,
    sampleIndexRow "PRIMARY" "id" 1, sampleIndexRow "ix" "id" 2]

theorem keepsIndexes_shuffled : KeepsIndexes sampleIndexes shuffledIndexes := by
  intro table name hname
  have hprimary : ("PRIMARY" = name) = False := eq_false hname.symm
  simp [sampleIndexes, shuffledIndexes, sampleIndexRow, List.filter_cons, hprimary]

def samplePgColumns : List PgColumnRow :=
  [⟨"orders", "public", "id", 1, "bigint", "NO", none, none, none, none⟩,
    ⟨"orders", "audit", "id", 1, "bigint", "NO", none, none, none, none⟩]

def samplePgIndexes : List PgIndexRow :=
  [⟨"orders", "orders_pkey", "public", true, true, ["id"]⟩,
    ⟨"orders", "ix", "public", false, false, ["id"]⟩]

theorem keysApart_samplePg : KeysApart (.pg samplePgColumns samplePgIndexes []) :=
  keysApart_of_dotless (by decide)

theorem snapshot_reordered_orders :
    canonicalJson (mySqlSnapshot "shop" sampleColumns sampleIndexes []) =
        canonicalJson (mySqlSnapshot "shop" sampleColumns.reverse shuffledIndexes []) ∧
      canonicalJson (pgSnapshot "shop" samplePgColumns samplePgIndexes []) =
        canonicalJson (pgSnapshot "shop" samplePgColumns.reverse samplePgIndexes.reverse []) :=
  ⟨((snapshot_reordered (fun _ => "") "shop").1 _ _ _ _ [] []
      ⟨by decide, by decide, by decide⟩ (List.reverse_perm _).symm
      (by decide) (.refl _) keepsIndexes_shuffled).2.1,
    ((snapshot_reordered (fun _ => "") "shop").2 _ _ _ _ [] [] keysApart_samplePg
      ⟨by decide, by decide, by decide, by decide⟩ (List.reverse_perm _).symm
      (List.reverse_perm _).symm (.refl _)).2.1⟩

end Dbmaster.Drift.RowOrder
