import Dbmaster.Drift.Snapshot
import Dbmaster.Lib.Grouping
import Dbmaster.Lib.Text
import Mathlib.Data.List.Sort
/-!
# The assembly of a snapshot

`assemble_mysql_*` and `assemble_pg_*`: the rows of the catalog queries folded into the
tables, which stand under the text `schema.name`.  What the assembly leaves of a table is
what its own rows say.
-/

namespace Dbmaster.Drift.Assembly

open Dbmaster.Lib Dbmaster.Lib.Grouping Dbmaster.Drift.Snapshot

/-! ## Catalog rows -/

structure MySqlColumnRow where
  tableName : String
  columnName : String
  ordinalPosition : Int
  dataType : String
  isNullable : String
  columnDefault : Option String
  charMaxLength : Option Int
  numericPrecision : Option Int
  numericScale : Option Int

structure MySqlIndexRow where
  tableName : String
  indexName : String
  columnName : String
  seqInIndex : Int
  nonUnique : Int
deriving DecidableEq

structure MySqlFkRow where
  tableName : String
  constraintName : String
  columnName : String
  ordinalPosition : Int
  refTable : String
  refColumn : String

structure PgColumnRow where
  tableName : String
  schemaName : String
  columnName : String
  ordinalPosition : Int
  dataType : String
  isNullable : String
  columnDefault : Option String
  charMaxLength : Option Int
  numericPrecision : Option Int
  numericScale : Option Int

structure PgIndexRow where
  tableName : String
  indexName : String
  schemaName : String
  isUnique : Bool
  isPrimary : Bool
  columnNames : List String

structure PgFkRow where
  tableName : String
  schemaName : String
  constraintName : String
  refTable : String
  refSchema : String
  columns : List String
  refColumns : List String

/-! ## The loops -/

/-- The schema and the name of a table. -/
abbrev TableId := String × String

/-- `format!("{schema}.{name}")` -/
def tableKey (id : TableId) : String := id.1 ++ "." ++ id.2

/-- The table of `or_insert_with`. -/
def newTable (id : TableId) : TableSchema := ⟨id.1, id.2, ∅, none, ∅, ∅⟩

/-- The loop of an assembler: each row changes the table that it names. -/
def foldTables {ρ : Type} (id : ρ → TableId) (f : ρ → TableSchema → TableSchema) (rows : List ρ)
    (tables : NameMap TableSchema) : NameMap TableSchema :=
  upsertAll (fun r => tableKey (id r)) (fun r => newTable (id r)) f rows tables

/-- The loop over the rows of columns. -/
def columnLoop {ρ : Type} (id : ρ → TableId) (name : ρ → String) (value : ρ → ColumnSchema)
    (rows : List ρ) : NameMap TableSchema :=
  foldTables id (fun r t => { t with columns := t.columns.insert (name r) (value r) }) rows ∅

/-- The loop over foreign keys. -/
def fkLoop {ρ : Type} (id : ρ → TableId) (name : ρ → String) (value : ρ → ForeignKey)
    (rows : List ρ) (tables : NameMap TableSchema) : NameMap TableSchema :=
  foldTables id (fun r t => { t with foreignKeys := t.foreignKeys.insert (name r) (value r) }) rows
    tables

/-- `eq_ignore_ascii_case` -/
def isNullableDecode (s : String) : Bool :=
  !decide (Text.asciiLower s.toList = Text.asciiLower "NO".toList)

/-- `as i32` of an `i64`. -/
def asI32 (n : Int) : Int := n.bmod 4294967296

/-- The order of pairs of texts. -/
def comparePair : String × String → String × String → Ordering :=
  compareLex (compareOn Prod.fst) (compareOn Prod.snd)

instance : Std.TransCmp comparePair :=
  inferInstanceAs (Std.TransCmp (compareLex (compareOn Prod.fst) (compareOn Prod.snd)))

instance : Std.LawfulEqCmp comparePair where
  compare_self := Std.ReflCmp.compare_self
  eq_of_compare := by
    intro a b h
    obtain ⟨hfst, hsnd⟩ := compareLex_eq_eq.mp h
    exact Prod.ext (Std.LawfulEqCmp.eq_of_compare hfst) (Std.LawfulEqCmp.eq_of_compare hsnd)

/-! ## MySQL -/

def MySqlColumnRow.column (r : MySqlColumnRow) : ColumnSchema where
  name := r.columnName
  ordinal := asI32 r.ordinalPosition
  dataType := r.dataType
  isNullable := isNullableDecode r.isNullable
  columnDefault := r.columnDefault
  charMaxLength := r.charMaxLength
  numericPrecision := r.numericPrecision
  numericScale := r.numericScale

def assembleMySqlColumns (databaseName : String) (rows : List MySqlColumnRow) :
    NameMap TableSchema :=
  columnLoop (fun r => (databaseName, r.tableName)) MySqlColumnRow.columnName
    MySqlColumnRow.column rows

/-- A secondary index gets the columns in the order of its rows. -/
def addIndexColumn (r : MySqlIndexRow) (t : TableSchema) : TableSchema :=
  { t with
    indexes := upsert t.indexes r.indexName ⟨r.indexName, [], decide (r.nonUnique = 0)⟩
      fun entry => { entry with
        columns := entry.columns ++ [r.columnName]
        isUnique := decide (r.nonUnique = 0) } }

/-- The tables, and `pk_columns` with the rows of the primary keys. -/
def indexRow (databaseName : String)
    (s : NameMap TableSchema × NameMap (List (Int × String))) (r : MySqlIndexRow) :
    NameMap TableSchema × NameMap (List (Int × String)) :=
  let key := tableKey (databaseName, r.tableName)
  let new := newTable (databaseName, r.tableName)
  if r.indexName = "PRIMARY" then
    (upsert s.1 key new id, upsert s.2 key [] fun cols => cols ++ [(r.seqInIndex, r.columnName)])
  else (upsert s.1 key new (addIndexColumn r), s.2)

/-- `sort_by_key` is stable. -/
def primaryKeyOf (cols : List (Int × String)) : PrimaryKey :=
  ⟨some "PRIMARY", (cols.mergeSort fun a b => decide (a.1 ≤ b.1)).map Prod.snd⟩

def assembleMySqlIndexes (tables : NameMap TableSchema) (databaseName : String)
    (rows : List MySqlIndexRow) : NameMap TableSchema :=
  let looped := rows.foldl (indexRow databaseName) (tables, ∅)
  modifyAll (fun cols t => { t with primaryKey := some (primaryKeyOf cols) }) looped.2 looped.1

def sortFkRows (group : List MySqlFkRow) : List MySqlFkRow :=
  group.mergeSort fun a b => decide (a.ordinalPosition ≤ b.ordinalPosition)

def foreignKeyOf (databaseName fkName : String) (group : List MySqlFkRow) : ForeignKey where
  name := fkName
  columns := (sortFkRows group).map MySqlFkRow.columnName
  refSchema := some databaseName
  refTable := ((sortFkRows group).head?.map MySqlFkRow.refTable).getD ""
  refColumns := (sortFkRows group).map MySqlFkRow.refColumn

/-- `buf`, the rows of each constraint. -/
def constraintRows (rows : List MySqlFkRow) :
    Std.TreeMap (String × String) (List MySqlFkRow) comparePair :=
  upsertAll (fun r => (r.tableName, r.constraintName)) (fun _ => []) (fun r group => group ++ [r])
    rows ∅

def assembleMySqlFks (tables : NameMap TableSchema) (databaseName : String)
    (rows : List MySqlFkRow) : NameMap TableSchema :=
  fkLoop (fun e => (databaseName, e.1.1)) (fun e => e.1.2)
    (fun e => foreignKeyOf databaseName e.1.2 e.2) (constraintRows rows).toList tables

/-! ## PostgreSQL -/

def PgColumnRow.column (r : PgColumnRow) : ColumnSchema where
  name := r.columnName
  ordinal := asI32 r.ordinalPosition
  dataType := r.dataType
  isNullable := isNullableDecode r.isNullable
  columnDefault := r.columnDefault
  charMaxLength := r.charMaxLength
  numericPrecision := r.numericPrecision
  numericScale := r.numericScale

def assemblePgColumns (rows : List PgColumnRow) : NameMap TableSchema :=
  columnLoop (fun r => (r.schemaName, r.tableName)) PgColumnRow.columnName PgColumnRow.column rows

def PgIndexRow.primaryKey (r : PgIndexRow) : PrimaryKey := ⟨some r.indexName, r.columnNames⟩

def PgIndexRow.index (r : PgIndexRow) : IndexSchema := ⟨r.indexName, r.columnNames, r.isUnique⟩

/-- What a row does to its table. -/
def pgIndexStep (r : PgIndexRow) (t : TableSchema) : TableSchema :=
  if r.isPrimary then { t with primaryKey := some r.primaryKey }
  else { t with indexes := t.indexes.insert r.indexName r.index }

def assemblePgIndexes (tables : NameMap TableSchema) (rows : List PgIndexRow) :
    NameMap TableSchema :=
  foldTables (fun r => (r.schemaName, r.tableName)) pgIndexStep rows tables

def PgFkRow.foreignKey (r : PgFkRow) : ForeignKey where
  name := r.constraintName
  columns := r.columns
  refSchema := if r.refSchema = "" then none else some r.refSchema
  refTable := r.refTable
  refColumns := r.refColumns

def assemblePgFks (tables : NameMap TableSchema) (rows : List PgFkRow) : NameMap TableSchema :=
  fkLoop (fun r => (r.schemaName, r.tableName)) PgFkRow.constraintName PgFkRow.foreignKey rows
    tables

/-! ## What the rows say -/

/-- The rows of the three queries of a collection. -/
inductive CatalogRows
  | mySql (databaseName : String) (columns : List MySqlColumnRow) (indexes : List MySqlIndexRow)
      (foreignKeys : List MySqlFkRow)
  | pg (columns : List PgColumnRow) (indexes : List PgIndexRow) (foreignKeys : List PgFkRow)

namespace CatalogRows

/-- The tables of `collect_mysql` and `collect_postgres`. -/
def assemble : CatalogRows → NameMap TableSchema
  | .mySql databaseName columns indexes foreignKeys =>
      assembleMySqlFks
        (assembleMySqlIndexes (assembleMySqlColumns databaseName columns) databaseName indexes)
        databaseName foreignKeys
  | .pg columns indexes foreignKeys =>
      assemblePgFks (assemblePgIndexes (assemblePgColumns columns) indexes) foreignKeys

/-- The tables that the rows name. -/
def ids : CatalogRows → List TableId
  | .mySql databaseName columns indexes foreignKeys =>
      columns.map (fun r => (databaseName, r.tableName)) ++
        indexes.map (fun r => (databaseName, r.tableName)) ++
        foreignKeys.map fun r => (databaseName, r.tableName)
  | .pg columns indexes foreignKeys =>
      columns.map (fun r => (r.schemaName, r.tableName)) ++
        indexes.map (fun r => (r.schemaName, r.tableName)) ++
        foreignKeys.map fun r => (r.schemaName, r.tableName)

/-- The rows of one table. -/
def own (id : TableId) : CatalogRows → CatalogRows
  | .mySql databaseName columns indexes foreignKeys =>
      .mySql databaseName (columns.filter fun r => decide ((databaseName, r.tableName) = id))
        (indexes.filter fun r => decide ((databaseName, r.tableName) = id))
        (foreignKeys.filter fun r => decide ((databaseName, r.tableName) = id))
  | .pg columns indexes foreignKeys =>
      .pg (columns.filter fun r => decide ((r.schemaName, r.tableName) = id))
        (indexes.filter fun r => decide ((r.schemaName, r.tableName) = id))
        (foreignKeys.filter fun r => decide ((r.schemaName, r.tableName) = id))

/-- The column that a table's rows give a name; of several rows the last one counts. -/
def column (name : String) : CatalogRows → Option ColumnSchema
  | .mySql _ columns _ _ =>
      (columns.filter fun r => decide (r.columnName = name)).getLast?.map MySqlColumnRow.column
  | .pg columns _ _ =>
      (columns.filter fun r => decide (r.columnName = name)).getLast?.map PgColumnRow.column

def primaryKey : CatalogRows → Option PrimaryKey
  | .mySql _ _ indexes _ =>
      let group := indexes.filter fun r => decide (r.indexName = "PRIMARY")
      if group = [] then none
      else some (primaryKeyOf (group.map fun r => (r.seqInIndex, r.columnName)))
  | .pg _ indexes _ => (indexes.filter PgIndexRow.isPrimary).getLast?.map PgIndexRow.primaryKey

def index (name : String) : CatalogRows → Option IndexSchema
  | .mySql _ _ indexes _ =>
      let group := indexes.filter fun r => r.indexName ≠ "PRIMARY" && decide (r.indexName = name)
      group.getLast?.map fun last =>
        ⟨name, group.map MySqlIndexRow.columnName, decide (last.nonUnique = 0)⟩
  | .pg _ indexes _ =>
      (indexes.filter fun r => !r.isPrimary && decide (r.indexName = name)).getLast?.map
        PgIndexRow.index

def foreignKey (name : String) : CatalogRows → Option ForeignKey
  | .mySql databaseName _ _ foreignKeys =>
      let group := foreignKeys.filter fun r => decide (r.constraintName = name)
      if group = [] then none else some (foreignKeyOf databaseName name group)
  | .pg _ _ foreignKeys =>
      (foreignKeys.filter fun r => decide (r.constraintName = name)).getLast?.map
        PgFkRow.foreignKey

end CatalogRows

/-- A table has what its rows say and nothing else. -/
structure HoldsExactly (own : CatalogRows) (t : TableSchema) : Prop where
  columns : ∀ name, t.columns[name]? = own.column name
  primaryKey : t.primaryKey = own.primaryKey
  indexes : ∀ name, t.indexes[name]? = own.index name
  foreignKeys : ∀ name, t.foreignKeys[name]? = own.foreignKey name

/-! ## One loop -/

section Loop

variable {ρ β : Type} {id : ρ → TableId} {f : ρ → TableSchema → TableSchema} {key : String}

/-- The schema and the name of the table under a key. -/
def nameAt (tables : NameMap TableSchema) (key : String) : Option TableId :=
  tables[key]?.map fun t => (t.schema, t.name)

theorem getElem?_foldTables (rows : List ρ) (tables : NameMap TableSchema) :
    (foldTables id f rows tables)[key]? =
      settle (fun r => newTable (id r)) f tables[key]?
        (rows.filter fun r => decide (tableKey (id r) = key)) :=
  getElem?_upsertAll ..

theorem nameAt_foldTables (hschema : ∀ r t, (f r t).schema = t.schema)
    (hname : ∀ r t, (f r t).name = t.name) (rows : List ρ) (tables : NameMap TableSchema) :
    nameAt (foldTables id f rows tables) key =
      (nameAt tables key).or ((rows.map id).find? fun i => decide (tableKey i = key)) := by
  have hkept : ∀ r t, ((f r t).schema, (f r t).name) = (t.schema, t.name) := by
    intro r t
    rw [hschema, hname]
  unfold nameAt
  rw [getElem?_foldTables, map_settle hkept, List.head?_filter, List.find?_map]
  rfl

theorem kept_foldTables {g : TableSchema → Option β} (hkept : ∀ r t, g (f r t) = g t)
    (hnew : ∀ i, g (newTable i) = none) (rows : List ρ) (tables : NameMap TableSchema) :
    (foldTables id f rows tables)[key]?.bind g = tables[key]?.bind g := by
  rw [getElem?_foldTables]
  exact bind_settle_of_kept hkept (fun r => hnew (id r)) _

theorem inserted_foldTables (g : TableSchema → NameMap β) (p : ρ → Bool) (name : ρ → String)
    (value : ρ → β)
    (hstep : ∀ r t, g (f r t) = if p r then (g t).insert (name r) (value r) else g t)
    (hnew : ∀ i, g (newTable i) = ∅) (rows : List ρ) (tables : NameMap TableSchema)
    (entry : String) :
    (foldTables id f rows tables)[key]?.bind (fun t => (g t)[entry]?) =
      (((rows.filter fun r => decide (tableKey (id r) = key)).filter
        fun r => p r && decide (name r = entry)).getLast?.map value).or
        (tables[key]?.bind fun t => (g t)[entry]?) := by
  have hupsert : ∀ r t, g (f r t) =
      if p r then upsert (g t) (name r) (value r) (fun _ => value r) else g t := hstep
  rw [getElem?_foldTables, bind_settle_upsert hupsert fun r => hnew (id r), settle_put]

theorem nameAt_empty : nameAt ∅ key = none := by
  rw [nameAt, Std.TreeMap.getElem?_emptyc]
  rfl

variable {name : ρ → String} (rows : List ρ)

theorem nameAt_columnLoop (value : ρ → ColumnSchema) :
    nameAt (columnLoop id name value rows) key =
      (rows.map id).find? fun i => decide (tableKey i = key) := by
  unfold columnLoop
  rw [nameAt_foldTables, nameAt_empty, Option.none_or]
  · intro r t
    rfl
  · intro r t
    rfl

theorem column_columnLoop (value : ρ → ColumnSchema) (entry : String) :
    ((columnLoop id name value rows)[key]?.bind fun t => t.columns[entry]?) =
      ((rows.filter fun r => decide (tableKey (id r) = key)).filter
        fun r => decide (name r = entry)).getLast?.map value := by
  unfold columnLoop
  rw [inserted_foldTables TableSchema.columns (fun _ => true) name value,
    Std.TreeMap.getElem?_emptyc, Option.bind_none, Option.or_none]
  · simp only [Bool.true_and]
  · intro r t
    rfl
  · intro i
    rfl

theorem kept_columnLoop {g : TableSchema → Option β} (value : ρ → ColumnSchema)
    (hkept : ∀ t columns, g { t with columns := columns } = g t)
    (hnew : ∀ i, g (newTable i) = none) : (columnLoop id name value rows)[key]?.bind g = none := by
  unfold columnLoop
  rw [kept_foldTables (fun r t => hkept t _) hnew, Std.TreeMap.getElem?_emptyc]
  rfl

variable (tables : NameMap TableSchema)

theorem nameAt_fkLoop (value : ρ → ForeignKey) :
    nameAt (fkLoop id name value rows tables) key =
      (nameAt tables key).or ((rows.map id).find? fun i => decide (tableKey i = key)) := by
  unfold fkLoop
  rw [nameAt_foldTables]
  · intro r t
    rfl
  · intro r t
    rfl

theorem foreignKey_fkLoop (value : ρ → ForeignKey) (entry : String)
    (hnone : (tables[key]?.bind fun t => t.foreignKeys[entry]?) = none) :
    ((fkLoop id name value rows tables)[key]?.bind fun t => t.foreignKeys[entry]?) =
      ((rows.filter fun r => decide (tableKey (id r) = key)).filter
        fun r => decide (name r = entry)).getLast?.map value := by
  unfold fkLoop
  rw [inserted_foldTables TableSchema.foreignKeys (fun _ => true) name value, hnone, Option.or_none]
  · simp only [Bool.true_and]
  · intro r t
    rfl
  · intro i
    rfl

theorem kept_fkLoop {g : TableSchema → Option β} (value : ρ → ForeignKey)
    (hkept : ∀ t foreignKeys, g { t with foreignKeys := foreignKeys } = g t)
    (hnew : ∀ i, g (newTable i) = none) :
    (fkLoop id name value rows tables)[key]?.bind g = tables[key]?.bind g :=
  kept_foldTables (fun _ t => hkept t _) hnew rows tables

end Loop

/-! ## The loops of MySQL -/

section MySql

variable {databaseName : String} {key : String}

theorem tableKey_inj {table table' : String} :
    tableKey (databaseName, table) = tableKey (databaseName, table') ↔ table = table' := by
  constructor
  · intro h
    have htexts := congrArg String.toList h
    simp only [tableKey, String.toList_append] at htexts
    exact String.toList_inj.mp (List.append_cancel_left htexts)
  · rintro rfl
    rfl

/-- What a row does to its table; the rows of the primary key wait for the end. -/
def indexStep (r : MySqlIndexRow) (t : TableSchema) : TableSchema :=
  if r.indexName = "PRIMARY" then t else addIndexColumn r t

theorem indexStep_kept {β : Type} {g : TableSchema → β}
    (hkept : ∀ t indexes, g { t with indexes := indexes } = g t) (r : MySqlIndexRow)
    (t : TableSchema) : g (indexStep r t) = g t := by
  unfold indexStep
  split
  case isTrue => rfl
  case isFalse => exact hkept t _

theorem indexRow_eq (s : NameMap TableSchema × NameMap (List (Int × String))) (r : MySqlIndexRow) :
    indexRow databaseName s r =
      (upsert s.1 (tableKey (databaseName, r.tableName)) (newTable (databaseName, r.tableName))
          (indexStep r),
        if r.indexName = "PRIMARY" then
          upsert s.2 (tableKey (databaseName, r.tableName)) []
            fun cols => cols ++ [(r.seqInIndex, r.columnName)]
        else s.2) := by
  unfold indexRow indexStep
  by_cases h : r.indexName = "PRIMARY"
  · simp only [if_pos h]
    rfl
  · simp only [if_neg h]

/-- The tables after the loop over the index rows. -/
def indexed (databaseName : String) (rows : List MySqlIndexRow) (tables : NameMap TableSchema) :
    NameMap TableSchema :=
  foldTables (fun r => (databaseName, r.tableName)) indexStep rows tables

/-- `pk_columns` after the loop. -/
def pkColumns (databaseName : String) (rows : List MySqlIndexRow) :
    NameMap (List (Int × String)) :=
  upsertAll (fun r => tableKey (databaseName, r.tableName)) (fun _ => [])
    (fun r cols => cols ++ [(r.seqInIndex, r.columnName)])
    (rows.filter fun r => decide (r.indexName = "PRIMARY")) ∅

theorem foldl_indexRow (rows : List MySqlIndexRow) (tables : NameMap TableSchema) :
    rows.foldl (indexRow databaseName) (tables, ∅) =
      (indexed databaseName rows tables, pkColumns databaseName rows) := by
  have hloop : ∀ (rows : List MySqlIndexRow) tables cols,
      rows.foldl (indexRow databaseName) (tables, cols) =
        (indexed databaseName rows tables,
          upsertAll (fun r => tableKey (databaseName, r.tableName)) (fun _ => [])
            (fun r cols => cols ++ [(r.seqInIndex, r.columnName)])
            (rows.filter fun r => decide (r.indexName = "PRIMARY")) cols) := by
    intro rows
    induction rows with
    | nil => exact fun _ _ => rfl
    | cons r rows ih =>
        intro tables cols
        rw [List.foldl_cons, indexRow_eq, ih, List.filter_cons]
        by_cases h : r.indexName = "PRIMARY"
        · rw [if_pos h, if_pos (decide_eq_true h)]
          rfl
        · rw [if_neg h, if_neg (by simpa using h)]
          rfl
  exact hloop rows tables ∅

theorem assembleMySqlIndexes_eq (rows : List MySqlIndexRow) (tables : NameMap TableSchema) :
    assembleMySqlIndexes tables databaseName rows =
      modifyAll (fun cols t => { t with primaryKey := some (primaryKeyOf cols) })
        (pkColumns databaseName rows) (indexed databaseName rows tables) := by
  unfold assembleMySqlIndexes
  rw [foldl_indexRow]

theorem nameAt_assembleMySqlIndexes (rows : List MySqlIndexRow) (tables : NameMap TableSchema) :
    nameAt (assembleMySqlIndexes tables databaseName rows) key =
      (nameAt tables key).or ((rows.map fun r => (databaseName, r.tableName)).find?
        fun i => decide (tableKey i = key)) := by
  rw [assembleMySqlIndexes_eq, nameAt, map_modifyAll]
  · exact nameAt_foldTables (fun r t => indexStep_kept (fun _ _ => rfl) r t)
      (fun r t => indexStep_kept (fun _ _ => rfl) r t) rows tables
  · intro cols t
    rfl

theorem kept_assembleMySqlIndexes {β : Type} {g : TableSchema → Option β}
    (hindexes : ∀ t indexes, g { t with indexes := indexes } = g t)
    (hpk : ∀ t pk, g { t with primaryKey := pk } = g t) (hnew : ∀ i, g (newTable i) = none)
    (rows : List MySqlIndexRow) (tables : NameMap TableSchema) :
    (assembleMySqlIndexes tables databaseName rows)[key]?.bind g = tables[key]?.bind g := by
  rw [assembleMySqlIndexes_eq, bind_modifyAll]
  · exact kept_foldTables (fun r t => indexStep_kept hindexes r t) hnew rows tables
  · intro cols t
    exact hpk t _

theorem settle_index {name : String} (rows : List MySqlIndexRow)
    (hname : ∀ r ∈ rows, r.indexName = name) :
    settle (fun r : MySqlIndexRow => (⟨r.indexName, [], decide (r.nonUnique = 0)⟩ : IndexSchema))
        (fun r entry => { entry with
          columns := entry.columns ++ [r.columnName]
          isUnique := decide (r.nonUnique = 0) }) none rows =
      rows.getLast?.map fun last =>
        ⟨name, rows.map MySqlIndexRow.columnName, decide (last.nonUnique = 0)⟩ := by
  have hfold : ∀ (rows : List MySqlIndexRow) (entry : IndexSchema),
      rows.foldl (fun (entry : IndexSchema) (r : MySqlIndexRow) => { entry with
          columns := entry.columns ++ [r.columnName]
          isUnique := decide (r.nonUnique = 0) }) entry =
        ⟨entry.name, entry.columns ++ rows.map MySqlIndexRow.columnName,
          (rows.getLast?.map fun last => decide (last.nonUnique = 0)).getD entry.isUnique⟩ := by
    intro rows
    induction rows with
    | nil =>
        intro entry
        rw [List.map_nil, List.append_nil]
        rfl
    | cons r rows ih =>
        intro entry
        rw [List.foldl_cons, ih, List.map_cons, List.append_assoc, List.getLast?_cons]
        cases rows.getLast? <;> rfl
  cases rows with
  | nil => rfl
  | cons r rows =>
      rw [settle_none_cons, hfold, List.getLast?_cons, hname r List.mem_cons_self]
      rfl

theorem index_assembleMySqlIndexes (rows : List MySqlIndexRow) (tables : NameMap TableSchema)
    (name : String) (hnone : (tables[key]?.bind fun t => t.indexes[name]?) = none) :
    ((assembleMySqlIndexes tables databaseName rows)[key]?.bind fun t => t.indexes[name]?) =
      let group := (rows.filter fun r => decide (tableKey (databaseName, r.tableName) = key)).filter
        fun r => r.indexName ≠ "PRIMARY" && decide (r.indexName = name)
      group.getLast?.map fun last =>
        ⟨name, group.map MySqlIndexRow.columnName, decide (last.nonUnique = 0)⟩ := by
  have hstep : ∀ (r : MySqlIndexRow) (t : TableSchema), (indexStep r t).indexes =
      if decide (r.indexName ≠ "PRIMARY") then
        upsert t.indexes r.indexName ⟨r.indexName, [], decide (r.nonUnique = 0)⟩
          fun entry => { entry with
            columns := entry.columns ++ [r.columnName]
            isUnique := decide (r.nonUnique = 0) }
      else t.indexes := by
    intro r t
    unfold indexStep
    by_cases h : r.indexName = "PRIMARY"
    · rw [if_pos h, if_neg (by simpa using h)]
    · rw [if_neg h, if_pos (by simpa using h)]
      rfl
  rw [assembleMySqlIndexes_eq, bind_modifyAll]
  · rw [indexed, getElem?_foldTables, bind_settle_upsert hstep fun _ => rfl, hnone]
    apply settle_index
    intro r hr
    have hkind := (List.mem_filter.mp hr).2
    rw [Bool.and_eq_true, decide_eq_true_iff, decide_eq_true_iff] at hkind
    exact hkind.2
  · intro cols t
    rfl

theorem getElem?_pkColumns (rows : List MySqlIndexRow) :
    (pkColumns databaseName rows)[key]? =
      let group := (rows.filter fun r => decide (tableKey (databaseName, r.tableName) = key)).filter
        fun r => decide (r.indexName = "PRIMARY")
      if group = [] then none else some (group.map fun r => (r.seqInIndex, r.columnName)) := by
  unfold pkColumns
  rw [getElem?_upsertAll, Std.TreeMap.getElem?_emptyc, List.filter_filter, List.filter_filter]
  simp only [Bool.and_comm]
  split
  case isTrue hnil =>
    rw [hnil]
    rfl
  case isFalse hne => exact settle_append _ _ hne

theorem primaryKey_assembleMySqlIndexes (rows : List MySqlIndexRow)
    (tables : NameMap TableSchema) (hnone : tables[key]?.bind TableSchema.primaryKey = none) :
    (assembleMySqlIndexes tables databaseName rows)[key]?.bind TableSchema.primaryKey =
      let group := (rows.filter fun r => decide (tableKey (databaseName, r.tableName) = key)).filter
        fun r => decide (r.indexName = "PRIMARY")
      if group = [] then none
      else some (primaryKeyOf (group.map fun r => (r.seqInIndex, r.columnName))) := by
  have hkept : (indexed databaseName rows tables)[key]?.bind TableSchema.primaryKey = none := by
    rw [← hnone]
    exact kept_foldTables (fun r t => indexStep_kept (fun _ _ => rfl) r t) (fun _ => rfl) rows tables
  rw [assembleMySqlIndexes_eq, getElem?_modifyAll, getElem?_pkColumns]
  cases htable : (indexed databaseName rows tables)[key]? with
  | none =>
      -- a row of the primary key would have made the table
      rw [indexed, getElem?_foldTables, settle_eq_none_iff] at htable
      rw [htable.2]
      rfl
  | some t =>
      rw [htable] at hkept
      have hpk : t.primaryKey = none := hkept
      dsimp only
      split
      case isTrue => exact hpk
      case isFalse => rfl

theorem getElem?_constraintRows (rows : List MySqlFkRow) (k : String × String) :
    (constraintRows rows)[k]? =
      let group := rows.filter fun r => decide ((r.tableName, r.constraintName) = k)
      if group = [] then none else some group := by
  unfold constraintRows
  rw [getElem?_upsertAll, Std.TreeMap.getElem?_emptyc]
  dsimp only
  split
  case isTrue hnil =>
    rw [hnil]
    rfl
  case isFalse hne =>
    rw [settle_append (fun r => r) _ hne, List.map_id']

theorem mem_constraintRows (rows : List MySqlFkRow) (table : String) :
    (∃ e ∈ (constraintRows rows).toList, e.1.1 = table) ↔ ∃ r ∈ rows, r.tableName = table := by
  constructor
  · rintro ⟨e, he, rfl⟩
    rw [Std.TreeMap.mem_toList_iff_getElem?_eq_some, getElem?_constraintRows] at he
    dsimp only at he
    split at he
    case isTrue => cases he
    case isFalse hne =>
      obtain ⟨r, hr⟩ := List.exists_mem_of_ne_nil _ hne
      obtain ⟨hin, hkey⟩ := List.mem_filter.mp hr
      exact ⟨r, hin, congrArg Prod.fst (of_decide_eq_true hkey)⟩
  · rintro ⟨r, hr, rfl⟩
    have hne : (rows.filter fun r' =>
        decide ((r'.tableName, r'.constraintName) = (r.tableName, r.constraintName))) ≠ [] :=
      List.ne_nil_of_mem (List.mem_filter.mpr ⟨hr, decide_eq_true rfl⟩)
    have hget := getElem?_constraintRows rows (r.tableName, r.constraintName)
    dsimp only at hget
    rw [if_neg hne] at hget
    exact ⟨_, Std.TreeMap.mem_toList_iff_getElem?_eq_some.mpr hget, rfl⟩

theorem foreignKey_assembleMySqlFks (rows : List MySqlFkRow) (tables : NameMap TableSchema)
    (table name : String)
    (hnone : (tables[tableKey (databaseName, table)]?.bind fun t => t.foreignKeys[name]?) = none) :
    ((assembleMySqlFks tables databaseName rows)[tableKey (databaseName, table)]?.bind
        fun t => t.foreignKeys[name]?) =
      let group := (rows.filter fun r => decide (r.tableName = table)).filter
        fun r => decide (r.constraintName = name)
      if group = [] then none else some (foreignKeyOf databaseName name group) := by
  unfold assembleMySqlFks
  rw [foreignKey_fkLoop _ _ _ _ hnone]
  have hkey : ∀ e : (String × String) × List MySqlFkRow,
      (decide (e.1.2 = name) &&
        decide (tableKey (databaseName, e.1.1) = tableKey (databaseName, table))) =
        decide (e.1 = (table, name)) := by
    intro e
    simp only [tableKey_inj, Prod.ext_iff, Bool.decide_and, Bool.and_comm]
  have hrow : ∀ r : MySqlFkRow, (decide (r.constraintName = name) && decide (r.tableName = table)) =
      decide ((r.tableName, r.constraintName) = (table, name)) := by
    intro r
    simp only [Prod.mk.injEq, Bool.decide_and, Bool.and_comm]
  rw [List.filter_filter, List.filter_filter]
  simp only [hkey, hrow]
  rw [filter_toList, getElem?_constraintRows]
  dsimp only
  split
  case isTrue => rfl
  case isFalse => rfl

end MySql

/-! ## The loop of PostgreSQL -/

section Pg

variable {key : String}

theorem pgIndexStep_kept {β : Type} {g : TableSchema → β}
    (hindexes : ∀ t indexes, g { t with indexes := indexes } = g t)
    (hpk : ∀ t pk, g { t with primaryKey := pk } = g t) (r : PgIndexRow) (t : TableSchema) :
    g (pgIndexStep r t) = g t := by
  unfold pgIndexStep
  split
  case isTrue => exact hpk t _
  case isFalse => exact hindexes t _

theorem nameAt_assemblePgIndexes (rows : List PgIndexRow) (tables : NameMap TableSchema) :
    nameAt (assemblePgIndexes tables rows) key =
      (nameAt tables key).or ((rows.map fun r => (r.schemaName, r.tableName)).find?
        fun i => decide (tableKey i = key)) :=
  nameAt_foldTables (fun r t => pgIndexStep_kept (fun _ _ => rfl) (fun _ _ => rfl) r t)
    (fun r t => pgIndexStep_kept (fun _ _ => rfl) (fun _ _ => rfl) r t) rows tables

theorem kept_assemblePgIndexes {β : Type} {g : TableSchema → Option β}
    (hindexes : ∀ t indexes, g { t with indexes := indexes } = g t)
    (hpk : ∀ t pk, g { t with primaryKey := pk } = g t) (hnew : ∀ i, g (newTable i) = none)
    (rows : List PgIndexRow) (tables : NameMap TableSchema) :
    (assemblePgIndexes tables rows)[key]?.bind g = tables[key]?.bind g :=
  kept_foldTables (fun r t => pgIndexStep_kept hindexes hpk r t) hnew rows tables

theorem primaryKey_assemblePgIndexes (rows : List PgIndexRow) (tables : NameMap TableSchema)
    (hnone : tables[key]?.bind TableSchema.primaryKey = none) :
    (assemblePgIndexes tables rows)[key]?.bind TableSchema.primaryKey =
      ((rows.filter fun r => decide (tableKey (r.schemaName, r.tableName) = key)).filter
        PgIndexRow.isPrimary).getLast?.map PgIndexRow.primaryKey := by
  have hput : ∀ r t, (pgIndexStep r t).primaryKey =
      if r.isPrimary then some r.primaryKey else t.primaryKey := by
    intro r t
    unfold pgIndexStep
    cases r.isPrimary with
    | true => rfl
    | false => rfl
  unfold assemblePgIndexes
  rw [getElem?_foldTables, ← Option.or_none (o := Option.map ..), ← hnone]
  exact bind_settle_put hput (fun _ => rfl) _

theorem index_assemblePgIndexes (rows : List PgIndexRow) (tables : NameMap TableSchema)
    (name : String) (hnone : (tables[key]?.bind fun t => t.indexes[name]?) = none) :
    ((assemblePgIndexes tables rows)[key]?.bind fun t => t.indexes[name]?) =
      ((rows.filter fun r => decide (tableKey (r.schemaName, r.tableName) = key)).filter
        fun r => !r.isPrimary && decide (r.indexName = name)).getLast?.map PgIndexRow.index := by
  have hstep : ∀ r t, (pgIndexStep r t).indexes =
      if !r.isPrimary then t.indexes.insert r.indexName r.index else t.indexes := by
    intro r t
    unfold pgIndexStep
    cases r.isPrimary with
    | true => rfl
    | false => rfl
  unfold assemblePgIndexes
  rw [inserted_foldTables TableSchema.indexes (fun r => !r.isPrimary) PgIndexRow.indexName
    PgIndexRow.index hstep fun _ => rfl, hnone, Option.or_none]

end Pg

/-! ## The whole assembly -/

section Assemble

variable {rows : CatalogRows} {id : TableId} {key : String} {t : TableSchema}

/-- No other table that the rows name stands under the key of this one. -/
def Alone (rows : CatalogRows) (id : TableId) : Prop :=
  ∀ other ∈ rows.ids, tableKey other = tableKey id → other = id

theorem nameAt_assemble (rows : CatalogRows) :
    ∃ named : List TableId, (∀ id, id ∈ named ↔ id ∈ rows.ids) ∧
      ∀ key, nameAt rows.assemble key = named.find? fun id => decide (tableKey id = key) := by
  cases rows with
  | mySql databaseName columns indexes foreignKeys =>
      refine ⟨columns.map (fun r => (databaseName, r.tableName)) ++
        indexes.map (fun r => (databaseName, r.tableName)) ++
        (constraintRows foreignKeys).toList.map fun e => (databaseName, e.1.1), ?_, ?_⟩
      · intro id
        have hfks := mem_constraintRows foreignKeys
        simp only [CatalogRows.ids, List.mem_append, List.mem_map]
        apply or_congr_right
        constructor
        · rintro ⟨e, he, rfl⟩
          obtain ⟨r, hr, hname⟩ := (hfks e.1.1).mp ⟨e, he, rfl⟩
          exact ⟨r, hr, by rw [hname]⟩
        · rintro ⟨r, hr, rfl⟩
          obtain ⟨e, he, hname⟩ := (hfks r.tableName).mpr ⟨r, hr, rfl⟩
          exact ⟨e, he, by rw [hname]⟩
      · intro key
        show nameAt (assembleMySqlFks (assembleMySqlIndexes
          (assembleMySqlColumns databaseName columns) databaseName indexes) databaseName
          foreignKeys) key = _
        unfold assembleMySqlFks assembleMySqlColumns
        rw [nameAt_fkLoop, nameAt_assembleMySqlIndexes, nameAt_columnLoop, List.find?_append,
          List.find?_append]
  | pg columns indexes foreignKeys =>
      refine ⟨_, fun _ => Iff.rfl, ?_⟩
      intro key
      show nameAt (assemblePgFks (assemblePgIndexes (assemblePgColumns columns) indexes)
        foreignKeys) key = _
      unfold assemblePgFks assemblePgColumns
      rw [nameAt_fkLoop, nameAt_assemblePgIndexes, nameAt_columnLoop, CatalogRows.ids,
        List.find?_append, List.find?_append]

theorem named_of_assembled (h : rows.assemble[key]? = some t) :
    (t.schema, t.name) ∈ rows.ids ∧ tableKey (t.schema, t.name) = key := by
  obtain ⟨named, hmem, hname⟩ := nameAt_assemble rows
  have hfind : named.find? (fun id => decide (tableKey id = key)) = some (t.schema, t.name) := by
    rw [← hname, nameAt, h]
    rfl
  have hkey := List.find?_some hfind
  exact ⟨(hmem _).mp (List.mem_of_find?_eq_some hfind), of_decide_eq_true hkey⟩

theorem assembled_of_named (h : id ∈ rows.ids) : ∃ t, rows.assemble[tableKey id]? = some t := by
  obtain ⟨named, hmem, hname⟩ := nameAt_assemble rows
  have hsome : (nameAt rows.assemble (tableKey id)).isSome = true := by
    rw [hname, List.find?_isSome]
    exact ⟨id, (hmem id).mpr h, decide_eq_true rfl⟩
  rw [nameAt, Option.isSome_map] at hsome
  exact Option.isSome_iff_exists.mp hsome

theorem bind_eq {β : Type} {tables : NameMap TableSchema} (h : tables[key]? = some t)
    (g : TableSchema → Option β) : g t = tables[key]?.bind g := by
  rw [h]
  rfl

theorem filter_tableKey {ρ : Type} {idOf : ρ → TableId} {l : List ρ}
    (h : ∀ r ∈ l, tableKey (idOf r) = tableKey id → idOf r = id) :
    (l.filter fun r => decide (tableKey (idOf r) = tableKey id)) =
      l.filter fun r => decide (idOf r = id) := by
  apply List.filter_congr
  intro r hr
  rw [decide_eq_decide]
  constructor
  · exact h r hr
  · intro heq
    rw [heq]

theorem mySql_holdsExactly {databaseName table : String} {columns : List MySqlColumnRow}
    {indexes : List MySqlIndexRow} {foreignKeys : List MySqlFkRow}
    (h : (assembleMySqlFks (assembleMySqlIndexes (assembleMySqlColumns databaseName columns)
      databaseName indexes) databaseName foreignKeys)[tableKey (databaseName, table)]? = some t) :
    HoldsExactly ((CatalogRows.mySql databaseName columns indexes foreignKeys).own
      (databaseName, table)) t := by
  have hown : ∀ {ρ : Type} (nameOf : ρ → String) (l : List ρ),
      (l.filter fun r => decide (tableKey (databaseName, nameOf r) = tableKey (databaseName, table)))
        = l.filter fun r => decide ((databaseName, nameOf r) = (databaseName, table)) := by
    intro ρ nameOf l
    apply filter_tableKey
    intro r _ hkey
    rw [tableKey_inj.mp hkey]
  have htable : ∀ r : MySqlFkRow, decide (r.tableName = table) =
      decide ((databaseName, r.tableName) = (databaseName, table)) := by
    intro r
    simp only [Prod.mk.injEq, true_and]
  constructor
  · intro name
    rw [bind_eq h fun t => t.columns[name]?, assembleMySqlFks, kept_fkLoop,
      kept_assembleMySqlIndexes, assembleMySqlColumns, column_columnLoop, hown]
    · rfl
    all_goals intros; rfl
  · rw [bind_eq h TableSchema.primaryKey, assembleMySqlFks, kept_fkLoop,
      primaryKey_assembleMySqlIndexes, hown]
    · rfl
    · exact kept_columnLoop _ _ (fun _ _ => rfl) fun _ => rfl
    all_goals intros; rfl
  · intro name
    rw [bind_eq h fun t => t.indexes[name]?, assembleMySqlFks, kept_fkLoop,
      index_assembleMySqlIndexes, hown]
    · rfl
    · exact kept_columnLoop _ _ (fun _ _ => rfl) fun _ => rfl
    all_goals intros; rfl
  · intro name
    rw [bind_eq h fun t => t.foreignKeys[name]?, foreignKey_assembleMySqlFks]
    · simp only [htable]
      rfl
    · rw [kept_assembleMySqlIndexes]
      · exact kept_columnLoop _ _ (fun _ _ => rfl) fun _ => rfl
      all_goals intros; rfl

theorem pg_holdsExactly {columns : List PgColumnRow} {indexes : List PgIndexRow}
    {foreignKeys : List PgFkRow} (halone : Alone (.pg columns indexes foreignKeys) id)
    (h : (assemblePgFks (assemblePgIndexes (assemblePgColumns columns) indexes)
      foreignKeys)[tableKey id]? = some t) :
    HoldsExactly ((CatalogRows.pg columns indexes foreignKeys).own id) t := by
  have hids : ∀ i, (i ∈ columns.map fun r => (r.schemaName, r.tableName)) ∨
      (i ∈ indexes.map fun r => (r.schemaName, r.tableName)) ∨
      (i ∈ foreignKeys.map fun r => (r.schemaName, r.tableName)) →
      tableKey i = tableKey id → i = id := by
    intro i hi
    apply halone
    simpa only [CatalogRows.ids, List.mem_append, or_assoc] using hi
  constructor
  · intro name
    rw [bind_eq h fun t => t.columns[name]?, assemblePgFks, kept_fkLoop, kept_assemblePgIndexes,
      assemblePgColumns, column_columnLoop, filter_tableKey]
    · rfl
    · intro r hr
      exact hids _ (Or.inl (List.mem_map.mpr ⟨r, hr, rfl⟩))
    all_goals intros; rfl
  · rw [bind_eq h TableSchema.primaryKey, assemblePgFks, kept_fkLoop, primaryKey_assemblePgIndexes,
      filter_tableKey]
    · rfl
    · intro r hr
      exact hids _ (Or.inr (Or.inl (List.mem_map.mpr ⟨r, hr, rfl⟩)))
    · exact kept_columnLoop _ _ (fun _ _ => rfl) fun _ => rfl
    all_goals intros; rfl
  · intro name
    rw [bind_eq h fun t => t.indexes[name]?, assemblePgFks, kept_fkLoop, index_assemblePgIndexes,
      filter_tableKey]
    · rfl
    · intro r hr
      exact hids _ (Or.inr (Or.inl (List.mem_map.mpr ⟨r, hr, rfl⟩)))
    · exact kept_columnLoop _ _ (fun _ _ => rfl) fun _ => rfl
    all_goals intros; rfl
  · intro name
    rw [bind_eq h fun t => t.foreignKeys[name]?, assemblePgFks, foreignKey_fkLoop, filter_tableKey]
    · rfl
    · intro r hr
      exact hids _ (Or.inr (Or.inr (List.mem_map.mpr ⟨r, hr, rfl⟩)))
    · rw [kept_assemblePgIndexes]
      · exact kept_columnLoop _ _ (fun _ _ => rfl) fun _ => rfl
      all_goals intros; rfl

theorem assembled_holdsExactly (h : rows.assemble[tableKey id]? = some t) (hid : id ∈ rows.ids)
    (halone : Alone rows id) : HoldsExactly (rows.own id) t := by
  cases rows with
  | pg columns indexes foreignKeys => exact pg_holdsExactly halone h
  | mySql databaseName columns indexes foreignKeys =>
      have hdatabase : id = (databaseName, id.2) := by
        simp only [CatalogRows.ids, List.mem_append, List.mem_map] at hid
        rcases hid with (⟨r, -, rfl⟩ | ⟨r, -, rfl⟩) | ⟨r, -, rfl⟩
        · rfl
        · rfl
        · rfl
      rw [hdatabase] at h ⊢
      exact mySql_holdsExactly h

end Assemble

end Dbmaster.Drift.Assembly
