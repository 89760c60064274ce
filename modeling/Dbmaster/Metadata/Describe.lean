import Dbmaster.Lib.Segments
import Dbmaster.Metadata.CsvColumns
import Dbmaster.Metadata.DefaultParens
import Mathlib.Data.List.Nodup
/-!
# The descriptions of tables

`describe_table` for MySQL, SQL Server and SQLite: the rows of the catalog queries, of which a loop
makes the indexes and the foreign keys again.  A table is compared with its description, for every
order of the rows that the queries leave open.
-/

namespace Dbmaster.Metadata.Describe

open Dbmaster.Lib Dbmaster.Lib.Segments
open Dbmaster.Metadata.CsvColumns (IndexDetail ForeignKeyDetail)
open Dbmaster.Metadata.DefaultParens (stripDefaultParensOpt)

/-! ## Descriptions -/

abbrev Name := List Char

structure ColumnDetail where
  name : Name
  dataType : List Char
  nullable : Bool
  defaultValue : Option (List Char)
  comment : Option (List Char)

structure TableDescription where
  table : Name
  comment : Option (List Char)
  columns : List ColumnDetail
  primaryKey : List Name
  indexes : List IndexDetail
  foreignKeys : List ForeignKeyDetail

structure MetadataError where
  code : String
  message : List Char

def notFound (what : List Char) : MetadataError := ⟨"NOT_FOUND", what ++ " not found".toList⟩

def connectFailed : MetadataError := ⟨"CONNECT_FAILED", "database connection failed".toList⟩

def queryFailed (e : List Char) : MetadataError := ⟨"QUERY_FAILED", e.take 200⟩

def configError (message : String) : MetadataError := ⟨"CONFIG_ERROR", message.toList⟩

def nonEmpty (s : List Char) : Option (List Char) := if s.isEmpty then none else some s

theorem nonEmpty_inj {s t : List Char} (h : nonEmpty s = nonEmpty t) : s = t := by
  unfold nonEmpty at h
  split_ifs at h with hs ht ht
  · rw [List.isEmpty_iff.mp hs, List.isEmpty_iff.mp ht]
  · exact Option.some.inj h

/-! ## The loops -/

section Loops

variable {ρ : Type}

/-- Consecutive rows of one index. -/
def gatherIndexes (name : ρ → Name) (unique : ρ → Bool) (column : ρ → Name) (rows : List ρ) :
    List IndexDetail :=
  gather name IndexDetail.name (fun row => ⟨name row, [column row], unique row⟩)
    (fun last row => { last with columns := last.columns ++ [column row] }) rows

/-- Consecutive rows of one constraint and referenced table. -/
def gatherForeignKeys (name column refTable refColumn : ρ → Name) (rows : List ρ) :
    List ForeignKeyDetail :=
  gather (fun row => (nonEmpty (name row), refTable row)) (fun last => (last.name, last.refTable))
    (fun row => ⟨nonEmpty (name row), [column row], refTable row, [refColumn row]⟩)
    (fun last row => { last with
      columns := last.columns ++ [column row]
      refColumns := last.refColumns ++ [refColumn row] }) rows

end Loops

/-! ## MySQL -/

/-- A row of `information_schema.columns`; the last is 1 where `column_key` is `PRI`. -/
structure MysqlColumnRow where
  columnName : Name
  columnType : List Char
  isNullable : List Char
  columnDefault : Option (List Char)
  columnComment : List Char
  isPri : Option Int

/-- A row of `information_schema.statistics`, ordered by name and `seq_in_index`. -/
structure Statistic where
  indexName : Name
  nonUnique : Option Int
  columnName : Name
  seqInIndex : Int
  deriving DecidableEq

/-- A row of `information_schema.key_column_usage`, ordered by name and `ordinal_position`. -/
structure KeyColumnUsage where
  constraintName : Name
  columnName : Name
  referencedTableName : Name
  referencedColumnName : Name
  ordinalPosition : Int
  deriving DecidableEq

/-- What the server answers to the queries; an error is its text. -/
structure MysqlAnswers where
  connected : Bool
  comments : Except (List Char) (List (List Char))
  columns : Except (List Char) (List MysqlColumnRow)
  statistics : Except (List Char) (List Statistic)
  keyColumnUsage : Except (List Char) (List KeyColumnUsage)

def MysqlColumnRow.detail (row : MysqlColumnRow) : ColumnDetail where
  name := row.columnName
  dataType := row.columnType
  nullable := decide (row.isNullable = "YES".toList)
  defaultValue := row.columnDefault
  comment := nonEmpty row.columnComment

def describeMysql (answers : MysqlAnswers) (db : Option Name) (table : Name) :
    Except MetadataError TableDescription :=
  match db with
  | none => .error (configError "no database specified and connection has no default_database")
  | some db =>
    if answers.connected then do
      let comments ← answers.comments.mapError queryFailed
      let columns ← answers.columns.mapError queryFailed
      if columns.isEmpty then
        .error (notFound ("table '".toList ++ table ++ "' (database '".toList ++ db ++ "')".toList))
      else do
        let statistics ← answers.statistics.mapError queryFailed
        let usage ← answers.keyColumnUsage.mapError queryFailed
        .ok
          { table := table
            comment := comments.head?.bind nonEmpty
            columns := columns.map MysqlColumnRow.detail
            primaryKey := (columns.filter fun row => decide (row.isPri.getD 0 = 1)).map
              MysqlColumnRow.columnName
            indexes := gatherIndexes Statistic.indexName
              (fun row => decide (row.nonUnique.getD 1 = 0)) Statistic.columnName statistics
            foreignKeys := gatherForeignKeys KeyColumnUsage.constraintName
              KeyColumnUsage.columnName KeyColumnUsage.referencedTableName
              KeyColumnUsage.referencedColumnName usage }
    else .error connectFailed

/-! ## SQL Server -/

/-- `format_sqlserver_type`; a length is in bytes, and of the `n` types it is halved. -/
def formatSqlserverType (typeName : List Char) (maxLength : Int16) (precision scale : UInt8) :
    List Char :=
  let name := typeName.map Char.toLower
  let sized (n : Int) : List Char :=
    if maxLength = -1 then name ++ "(max)".toList
    else if 0 < maxLength then name ++ ("(" ++ toString n ++ ")").toList
    else name
  if name = "nvarchar".toList ∨ name = "nchar".toList then sized (maxLength.toInt / 2)
  else if name = "varchar".toList ∨ name = "char".toList ∨ name = "varbinary".toList ∨
      name = "binary".toList then
    sized maxLength.toInt
  else if name = "decimal".toList ∨ name = "numeric".toList then
    name ++ ("(" ++ toString precision.toNat ++ "," ++ toString scale.toNat ++ ")").toList
  else if name = "time".toList ∨ name = "datetime2".toList ∨ name = "datetimeoffset".toList then
    name ++ ("(" ++ toString scale.toNat ++ ")").toList
  else name

/-- A row of the query on `sys.columns`. -/
structure SsColumnRow where
  name : Name
  typeName : List Char
  maxLength : Int
  precision : Int
  scale : Int
  isNullable : Int
  defaultExpr : Json
  comment : List Char

/-- A row of the query on the key columns of `sys.indexes`, ordered by name and key ordinal. -/
structure SsIndexRow where
  indexName : Name
  isUnique : Int
  columnName : Name
  keyOrdinal : Int
  deriving DecidableEq

/-- A row of the query on the columns of the primary key, ordered by key ordinal. -/
structure SsKeyRow where
  columnName : Name
  keyOrdinal : Int
  deriving DecidableEq

/-- A row of the query on `sys.foreign_keys`, ordered by name and constraint column. -/
structure SsForeignKeyRow where
  fkName : Name
  columnName : Name
  refTable : Name
  refColumn : Name
  constraintColumnId : Int
  deriving DecidableEq

inductive SsError
  | connect
  | query (text : List Char)

def SsError.toMetadata : SsError → MetadataError
  | .connect => connectFailed
  | .query text => queryFailed text

/-- Every query has a connection of its own. -/
structure SsAnswers where
  columns : Except SsError (List SsColumnRow)
  primaryKey : Except SsError (List SsKeyRow)
  indexes : Except SsError (List SsIndexRow)
  foreignKeys : Except SsError (List SsForeignKeyRow)
  comments : Except SsError (List (List Char))

def SsColumnRow.detail (row : SsColumnRow) : ColumnDetail where
  name := row.name
  dataType := formatSqlserverType row.typeName (Int16.ofInt row.maxLength)
    (UInt8.ofInt row.precision) (UInt8.ofInt row.scale)
  nullable := decide (row.isNullable = 1)
  defaultValue := (stripDefaultParensOpt row.defaultExpr).map String.toList
  comment := nonEmpty row.comment

/-- `db` is the one asked for or else the default of the connection. -/
def describeSqlserver (answers : SsAnswers) (db : Option Name) (table : Name) :
    Except MetadataError TableDescription := do
  let columns ← answers.columns.mapError SsError.toMetadata
  if columns.isEmpty then
    .error (notFound ("table '".toList ++ table ++ "' (schema 'dbo', database '".toList ++
      db.getD "master".toList ++ "')".toList))
  else do
    let primaryKey ← answers.primaryKey.mapError SsError.toMetadata
    let indexes ← answers.indexes.mapError SsError.toMetadata
    let foreignKeys ← answers.foreignKeys.mapError SsError.toMetadata
    let comments ← answers.comments.mapError SsError.toMetadata
    .ok
      { table := table
        comment := comments.head?.bind nonEmpty
        columns := columns.map SsColumnRow.detail
        primaryKey := primaryKey.map SsKeyRow.columnName
        indexes := gatherIndexes SsIndexRow.indexName (fun row => decide (row.isUnique = 1))
          SsIndexRow.columnName indexes
        foreignKeys := gatherForeignKeys SsForeignKeyRow.fkName SsForeignKeyRow.columnName
          SsForeignKeyRow.refTable SsForeignKeyRow.refColumn foreignKeys }

/-! ## SQLite -/

/-- A row of `PRAGMA table_info`; `pk` is the place in the primary key, from 1. -/
structure TableInfoRow where
  name : Name
  type : List Char
  notnull : Int
  dfltValue : Option (List Char)
  pk : Int

/-- A row of `PRAGMA index_list`. -/
structure IndexListRow where
  name : Name
  unique : Int

/-- A row of `PRAGMA foreign_key_list`. -/
structure ForeignKeyListRow where
  id : Int
  seq : Int
  table : Name
  fromColumn : Name
  toColumn : Name
  deriving DecidableEq

structure SqliteAnswers where
  connected : Bool
  tableInfo : Except (List Char) (List TableInfoRow)
  indexList : Except (List Char) (List IndexListRow)
  indexInfo : Name → Except (List Char) (List (Option Name))
  foreignKeyList : Except (List Char) (List ForeignKeyListRow)

def TableInfoRow.detail (row : TableInfoRow) : ColumnDetail where
  name := row.name
  dataType := if row.type.isEmpty then "BLOB".toList else row.type
  nullable := decide (row.notnull = 0)
  defaultValue := row.dfltValue
  comment := none

/-- The columns with a place in the primary key, in the order of the places. -/
def sqlitePrimaryKey (rows : List TableInfoRow) : List Name :=
  (((rows.filter fun row => decide (0 < row.pk)).map fun row => (row.pk, row.name)).mergeSort
    fun a b => decide (a.1 ≤ b.1)).map Prod.snd

def isAutoindex (name : Name) : Bool := "sqlite_autoindex".toList.isPrefixOf name

def sqliteIndexes (indexInfo : Name → Except (List Char) (List (Option Name))) :
    List IndexListRow → Except MetadataError (List IndexDetail)
  | [] => .ok []
  | row :: rows =>
    if row.name.isEmpty || isAutoindex row.name then sqliteIndexes indexInfo rows
    else do
      let info ← (indexInfo row.name).mapError queryFailed
      let rest ← sqliteIndexes indexInfo rows
      .ok (⟨row.name, info.filterMap fun name => name.filter fun n => !n.isEmpty,
        decide (row.unique = 1)⟩ :: rest)

/-- `(id, seq)` in order. -/
def entryLe (a b : ForeignKeyListRow) : Bool :=
  decide (a.id < b.id) || decide (a.id = b.id) && decide (a.seq ≤ b.seq)

/-- Sorted, and then gathered by id. -/
def sqliteForeignKeys (rows : List ForeignKeyListRow) : List ForeignKeyDetail :=
  (gather ForeignKeyListRow.id Prod.fst
    (fun row => (row.id, ⟨none, [row.fromColumn], row.table, [row.toColumn]⟩))
    (fun last row => (last.1, { last.2 with
      columns := last.2.columns ++ [row.fromColumn]
      refColumns := last.2.refColumns ++ [row.toColumn] })) (rows.mergeSort entryLe)).map Prod.snd

def describeSqlite (answers : SqliteAnswers) (table : Name) :
    Except MetadataError TableDescription :=
  if answers.connected then do
    let rows ← answers.tableInfo.mapError queryFailed
    if rows.isEmpty then .error (notFound ("table '".toList ++ table ++ "'".toList))
    else do
      let listed ← answers.indexList.mapError queryFailed
      let indexes ← sqliteIndexes answers.indexInfo listed
      let foreignKeys ← answers.foreignKeyList.mapError queryFailed
      .ok
        { table := table
          comment := none
          columns := rows.map TableInfoRow.detail
          primaryKey := sqlitePrimaryKey rows
          indexes := indexes
          foreignKeys := sqliteForeignKeys foreignKeys }
  else .error connectFailed

/-! ## What a table has -/

/-- An index with its columns in order. -/
structure Key where
  name : Name
  unique : Bool
  columns : List Name
  columns_ne : columns ≠ []

/-- A foreign key, every column beside the one it refers to. -/
structure Reference where
  name : Name
  refTable : Name
  pairs : List (Name × Name)
  pairs_ne : pairs ≠ []

def Key.detail (k : Key) : IndexDetail := ⟨k.name, k.columns, k.unique⟩

def Reference.detail (name : Option Name) (r : Reference) : ForeignKeyDetail :=
  ⟨name, r.pairs.map Prod.fst, r.refTable, r.pairs.map Prod.snd⟩

/-- All indexes and foreign keys, in the order of their names. -/
structure Described (le : Name → Name → Prop) (keys : List Key) (references : List Reference)
    (d : TableDescription) : Prop where
  indexes : ∃ sorted : List Key, sorted.Perm keys ∧
    (sorted.Pairwise fun k l => le k.name l.name) ∧ d.indexes = sorted.map Key.detail
  foreignKeys : ∃ sorted : List Reference, sorted.Perm references ∧
    (sorted.Pairwise fun r q => le r.name q.name) ∧
      d.foreignKeys = sorted.map fun r => r.detail (nonEmpty r.name)

section Gathered

variable {ρ : Type} {name column refTable refColumn : ρ → Name} {unique : ρ → Bool}
variable {position : ρ → Int} {le : Name → Name → Prop} {rows : List ρ}

theorem foldl_index (rows : List ρ) (last : IndexDetail) :
    rows.foldl (fun last row => { last with columns := last.columns ++ [column row] }) last =
      { last with columns := last.columns ++ rows.map column } := by
  induction rows generalizing last with
  | nil => rw [List.foldl_nil, List.map_nil, List.append_nil]
  | cons row rows ih =>
      rw [List.foldl_cons, ih, List.map_cons]
      dsimp only
      rw [List.append_assoc, List.singleton_append]

theorem foldl_foreignKey (rows : List ρ) (last : ForeignKeyDetail) :
    rows.foldl (fun last row => { last with
      columns := last.columns ++ [column row]
      refColumns := last.refColumns ++ [refColumn row] }) last =
    { last with
      columns := last.columns ++ rows.map column
      refColumns := last.refColumns ++ rows.map refColumn } := by
  induction rows generalizing last with
  | nil =>
      rw [List.foldl_nil, List.map_nil, List.map_nil, List.append_nil, List.append_nil]
  | cons row rows ih =>
      rw [List.foldl_cons, ih, List.map_cons, List.map_cons]
      dsimp only
      rw [List.append_assoc, List.singleton_append, List.append_assoc, List.singleton_append]

/-- The rows of an index, one for each column. -/
def RowsOf (name : ρ → Name) (unique : ρ → Bool) (column : ρ → Name) (k : Key) (rows : List ρ) :
    Prop :=
  rows.map (fun row => (name row, unique row, column row)) =
    k.columns.map fun c => (k.name, k.unique, c)

theorem RowsOf.name_eq {k : Key} (h : RowsOf name unique column k rows) :
    ∀ row ∈ rows, name row = k.name ∧ unique row = k.unique := by
  intro row hrow
  have hmem : (name row, unique row, column row) ∈ k.columns.map fun c => (k.name, k.unique, c) :=
    h ▸ List.mem_map.mpr ⟨row, hrow, rfl⟩
  obtain ⟨c, -, hc⟩ := List.mem_map.mp hmem
  injection hc with hname hrest
  injection hrest with hunique
  exact ⟨hname.symm, hunique.symm⟩

theorem RowsOf.columns_eq {k : Key} (h : RowsOf name unique column k rows) :
    rows.map column = k.columns := by
  have hthird := congrArg (List.map fun p : Name × Bool × Name => p.2.2) h
  rw [List.map_map, List.map_map] at hthird
  exact hthird.trans (List.map_id k.columns)

theorem RowsOf.settle {k : Key} (h : RowsOf name unique column k rows) :
    settle (fun row => (⟨name row, [column row], unique row⟩ : IndexDetail))
      (fun last row => { last with columns := last.columns ++ [column row] }) rows =
        some k.detail := by
  have hcolumns := h.columns_eq
  cases rows with
  | nil => exact absurd hcolumns.symm k.columns_ne
  | cons row rows =>
      obtain ⟨hname, hunique⟩ := h.name_eq row List.mem_cons_self
      rw [Segments.settle, foldl_index, hname, hunique]
      dsimp only
      rw [List.singleton_append, ← List.map_cons, hcolumns]
      rfl

theorem nodup_of_distinct {δ : Type} [Std.Total le] {nameOf : δ → Name} {items : List δ}
    (h : Distinct le nameOf items) : (items.map nameOf).Nodup := by
  rw [List.Nodup, List.pairwise_map]
  refine h.imp ?_
  intro d e hnot heq
  have hself := (Std.Total.total (r := le) (nameOf e) (nameOf e)).elim id id
  rw [heq] at hnot
  exact hnot ⟨hself, hself⟩

/-- Whatever the listing, each index comes back with its columns in order. -/
theorem gatherIndexes_listed [Std.Total le] [IsTrans Name le] {keys : List Key}
    {rowsOf : Key → List ρ} (hrows : ∀ k, RowsOf name unique column k (rowsOf k))
    (hpos : ∀ k, (rowsOf k).Pairwise fun row other => position row < position other)
    (hlisted : Listed le name position rows (keys.flatMap rowsOf))
    (hdistinct : Distinct le Key.name keys) :
    ∃ sorted : List Key, sorted.Perm keys ∧ (sorted.Pairwise fun k l => le k.name l.name) ∧
      gatherIndexes name unique column rows = sorted.map Key.detail := by
  obtain ⟨sorted, hperm, hsorted, rfl⟩ := hlisted.eq_flatMap
    (fun k _ row hrow => ((hrows k).name_eq row hrow).1) (fun k _ => hpos k) hdistinct
  refine ⟨sorted, hperm, hsorted, ?_⟩
  have hnodup : (sorted.map Key.name).Nodup :=
    (hperm.map Key.name).nodup_iff.mpr (nodup_of_distinct hdistinct)
  have hne : ∀ k ∈ sorted, rowsOf k ≠ [] := by
    intro k _ hnil
    have hcolumns := (hrows k).columns_eq
    rw [hnil] at hcolumns
    exact k.columns_ne hcolumns.symm
  unfold gatherIndexes
  refine (gather_flatMap ?_ (fun k _ row hrow => ((hrows k).name_eq row hrow).1) hne hnodup).trans ?_
  · exact ⟨fun _ => rfl, fun _ _ => rfl⟩
  · rw [← List.filterMap_eq_map]
    exact List.filterMap_congr fun k _ => (hrows k).settle

/-- The rows of a foreign key, one for each pair of columns. -/
def PairsOf (name column refTable refColumn : ρ → Name) (r : Reference) (rows : List ρ) : Prop :=
  rows.map (fun row => (name row, refTable row, column row, refColumn row)) =
    r.pairs.map fun p => (r.name, r.refTable, p)

theorem PairsOf.name_eq {r : Reference} (h : PairsOf name column refTable refColumn r rows) :
    ∀ row ∈ rows, name row = r.name ∧ refTable row = r.refTable := by
  intro row hrow
  have hmem : (name row, refTable row, column row, refColumn row) ∈
      r.pairs.map fun p => (r.name, r.refTable, p) := h ▸ List.mem_map.mpr ⟨row, hrow, rfl⟩
  obtain ⟨p, -, hp⟩ := List.mem_map.mp hmem
  injection hp with hname hrest
  injection hrest with href
  exact ⟨hname.symm, href.symm⟩

theorem PairsOf.pairs_eq {r : Reference} (h : PairsOf name column refTable refColumn r rows) :
    rows.map (fun row => (column row, refColumn row)) = r.pairs := by
  have hrest := congrArg (List.map fun p : Name × Name × Name × Name => p.2.2) h
  rw [List.map_map, List.map_map] at hrest
  exact hrest.trans (List.map_id r.pairs)

theorem PairsOf.settle {r : Reference} (h : PairsOf name column refTable refColumn r rows) :
    settle (fun row =>
        (⟨nonEmpty (name row), [column row], refTable row, [refColumn row]⟩ : ForeignKeyDetail))
      (fun last row => { last with
        columns := last.columns ++ [column row]
        refColumns := last.refColumns ++ [refColumn row] }) rows =
        some (r.detail (nonEmpty r.name)) := by
  have hpairs := h.pairs_eq
  cases rows with
  | nil => exact absurd hpairs.symm r.pairs_ne
  | cons row rows =>
      obtain ⟨hname, href⟩ := h.name_eq row List.mem_cons_self
      rw [Segments.settle, foldl_foreignKey, hname, href, Reference.detail, ← hpairs,
        List.map_map, List.map_map]
      rfl

theorem gatherForeignKeys_listed [Std.Total le] [IsTrans Name le] {references : List Reference}
    {rowsOf : Reference → List ρ}
    (hrows : ∀ r, PairsOf name column refTable refColumn r (rowsOf r))
    (hpos : ∀ r, (rowsOf r).Pairwise fun row other => position row < position other)
    (hlisted : Listed le name position rows (references.flatMap rowsOf))
    (hdistinct : Distinct le Reference.name references) :
    ∃ sorted : List Reference, sorted.Perm references ∧
      (sorted.Pairwise fun r q => le r.name q.name) ∧
        gatherForeignKeys name column refTable refColumn rows =
          sorted.map fun r => r.detail (nonEmpty r.name) := by
  obtain ⟨sorted, hperm, hsorted, rfl⟩ := hlisted.eq_flatMap
    (fun r _ row hrow => ((hrows r).name_eq row hrow).1) (fun r _ => hpos r) hdistinct
  refine ⟨sorted, hperm, hsorted, ?_⟩
  have hnames : (sorted.map Reference.name).Nodup :=
    (hperm.map Reference.name).nodup_iff.mpr (nodup_of_distinct hdistinct)
  have hnodup : (sorted.map fun r => (nonEmpty r.name, r.refTable)).Nodup := by
    rw [List.Nodup, List.pairwise_map] at hnames ⊢
    exact hnames.imp fun hne heq => hne (nonEmpty_inj (congrArg Prod.fst heq))
  have hne : ∀ r ∈ sorted, rowsOf r ≠ [] := by
    intro r _ hnil
    have hpairs := (hrows r).pairs_eq
    rw [hnil] at hpairs
    exact r.pairs_ne hpairs.symm
  have hkey : ∀ r ∈ sorted, ∀ row ∈ rowsOf r,
      (nonEmpty (name row), refTable row) = (nonEmpty r.name, r.refTable) := by
    intro r _ row hrow
    obtain ⟨hname, href⟩ := (hrows r).name_eq row hrow
    rw [hname, href]
  unfold gatherForeignKeys
  refine (gather_flatMap ?_ hkey hne hnodup).trans ?_
  · exact ⟨fun _ => rfl, fun _ _ => rfl⟩
  · rw [← List.filterMap_eq_map]
    exact List.filterMap_congr fun r _ => (hrows r).settle

end Gathered

/-! ## A MySQL table -/

def Key.statistics (k : Key) : List Statistic :=
  (numbered k.columns).map fun c => ⟨k.name, some (if k.unique then 0 else 1), c.1, c.2⟩

def Reference.usage (r : Reference) : List KeyColumnUsage :=
  (numbered r.pairs).map fun p => ⟨r.name, p.1.1, r.refTable, p.1.2, p.2⟩

structure MysqlColumn where
  name : Name
  columnType : List Char
  nullable : Bool
  default : Option (List Char)
  comment : List Char

/-- `primary` is the key of which the columns are marked `PRI`. -/
structure MysqlTable where
  comment : List Char
  columns : List MysqlColumn
  columns_ne : columns ≠ []
  names_nodup : (columns.map MysqlColumn.name).Nodup
  keys : List Key
  references : List Reference
  primary : List Name
  primary_nodup : primary.Nodup
  primary_subset : primary ⊆ columns.map MysqlColumn.name

def MysqlTable.columnRow (t : MysqlTable) (c : MysqlColumn) : MysqlColumnRow where
  columnName := c.name
  columnType := c.columnType
  isNullable := if c.nullable then "YES".toList else "NO".toList
  columnDefault := c.default
  columnComment := c.comment
  isPri := some (if c.name ∈ t.primary then 1 else 0)

/-- The answers are those of a server that has the table. -/
structure MysqlTable.Answered (le : Name → Name → Prop) (t : MysqlTable) (answers : MysqlAnswers) :
    Prop where
  connected : answers.connected = true
  comments : answers.comments = .ok [t.comment]
  columns : answers.columns = .ok (t.columns.map t.columnRow)
  statistics : ∃ rows, answers.statistics = .ok rows ∧
    Listed le Statistic.indexName Statistic.seqInIndex rows (t.keys.flatMap Key.statistics)
  keyColumnUsage : ∃ rows, answers.keyColumnUsage = .ok rows ∧
    Listed le KeyColumnUsage.constraintName KeyColumnUsage.ordinalPosition rows
      (t.references.flatMap Reference.usage)

def MysqlColumn.detail (c : MysqlColumn) : ColumnDetail :=
  ⟨c.name, c.columnType, c.nullable, c.default, nonEmpty c.comment⟩

/-- `primaryKey` has the columns of the key in the order of the table. -/
structure MysqlTable.DescribedBy (le : Name → Name → Prop) (t : MysqlTable)
    (d : TableDescription) : Prop where
  described : Described le t.keys t.references d
  columns : d.columns = t.columns.map MysqlColumn.detail
  comment : d.comment = nonEmpty t.comment
  primaryKey : d.primaryKey.Perm t.primary
  ordered : d.primaryKey = t.primary ↔ t.primary.Sublist (t.columns.map MysqlColumn.name)

theorem rowsOf_statistics (k : Key) :
    RowsOf Statistic.indexName (fun row => decide (row.nonUnique.getD 1 = 0))
      Statistic.columnName k k.statistics := by
  unfold RowsOf Key.statistics
  conv_rhs => rw [← map_fst_numbered k.columns]
  rw [List.map_map, List.map_map]
  apply List.map_congr_left
  intro c _
  cases k.unique <;> simp

theorem statistics_pairwise (k : Key) :
    k.statistics.Pairwise fun row other => row.seqInIndex < other.seqInIndex := by
  rw [Key.statistics, List.pairwise_map]
  exact numbered_pairwise k.columns

theorem pairsOf_usage (r : Reference) :
    PairsOf KeyColumnUsage.constraintName KeyColumnUsage.columnName
      KeyColumnUsage.referencedTableName KeyColumnUsage.referencedColumnName r r.usage := by
  unfold PairsOf Reference.usage
  conv_rhs => rw [← map_fst_numbered r.pairs]
  rw [List.map_map, List.map_map]
  rfl

theorem usage_pairwise (r : Reference) :
    r.usage.Pairwise fun row other => row.ordinalPosition < other.ordinalPosition := by
  rw [Reference.usage, List.pairwise_map]
  exact numbered_pairwise r.pairs

theorem filter_mem_perm {names key : List Name} (hnames : names.Nodup) (hkey : key.Nodup)
    (hsub : key ⊆ names) : (names.filter fun n => decide (n ∈ key)).Perm key := by
  refine (List.perm_ext_iff_of_nodup (hnames.filter _) hkey).mpr ?_
  intro n
  rw [List.mem_filter, decide_eq_true_iff]
  exact ⟨And.right, fun hn => ⟨hsub hn, hn⟩⟩

/-- The columns of a key in the order of the table are the key if its order is that. -/
theorem filter_mem_eq_iff {names key : List Name} (hnames : names.Nodup) (hkey : key.Nodup)
    (hsub : key ⊆ names) :
    (names.filter fun n => decide (n ∈ key)) = key ↔ key.Sublist names := by
  constructor
  · intro heq
    rw [← heq]
    exact List.filter_sublist
  · intro hsublist
    have hself : key.filter (fun n => decide (n ∈ key)) = key :=
      List.filter_eq_self.mpr fun n hn => decide_eq_true hn
    have hkept := hsublist.filter fun n => decide (n ∈ key)
    rw [hself] at hkept
    exact (hkept.eq_of_length (filter_mem_perm hnames hkey hsub).length_eq.symm).symm

theorem MysqlTable.primaryKey_eq (t : MysqlTable) :
    ((t.columns.map t.columnRow).filter fun row => decide (row.isPri.getD 0 = 1)).map
        MysqlColumnRow.columnName =
      (t.columns.map MysqlColumn.name).filter fun n => decide (n ∈ t.primary) := by
  rw [List.filter_map, List.map_map, List.filter_map]
  have hmarked : ((fun row : MysqlColumnRow => decide (row.isPri.getD 0 = 1)) ∘ t.columnRow) =
      (fun n => decide (n ∈ t.primary)) ∘ MysqlColumn.name := by
    funext c
    by_cases hmem : c.name ∈ t.primary <;> simp [columnRow, hmem]
  rw [hmarked]
  rfl

theorem MysqlTable.detail_columnRow (t : MysqlTable) (c : MysqlColumn) :
    (t.columnRow c).detail = c.detail := by
  unfold columnRow MysqlColumnRow.detail MysqlColumn.detail
  cases c.nullable <;> rfl

def Key.ssRows (k : Key) : List SsIndexRow :=
  (numbered k.columns).map fun c => ⟨k.name, if k.unique then 1 else 0, c.1, c.2⟩

def Reference.ssRows (r : Reference) : List SsForeignKeyRow :=
  (numbered r.pairs).map fun p => ⟨r.name, p.1.1, r.refTable, p.1.2, p.2⟩

structure SsTable where
  comment : Option (List Char)
  columns : List SsColumnRow
  columns_ne : columns ≠ []
  keys : List Key
  references : List Reference
  primary : List Name

structure SsTable.Answered (le : Name → Name → Prop) (t : SsTable) (answers : SsAnswers) :
    Prop where
  columns : answers.columns = .ok t.columns
  primaryKey : ∃ rows, answers.primaryKey = .ok rows ∧
    rows.Perm ((numbered t.primary).map fun c => ⟨c.1, c.2⟩) ∧
      rows.Pairwise fun row other => row.keyOrdinal ≤ other.keyOrdinal
  indexes : ∃ rows, answers.indexes = .ok rows ∧
    Listed le SsIndexRow.indexName SsIndexRow.keyOrdinal rows (t.keys.flatMap Key.ssRows)
  foreignKeys : ∃ rows, answers.foreignKeys = .ok rows ∧
    Listed le SsForeignKeyRow.fkName SsForeignKeyRow.constraintColumnId rows
      (t.references.flatMap Reference.ssRows)
  comments : answers.comments = .ok t.comment.toList

structure SsTable.DescribedBy (le : Name → Name → Prop) (t : SsTable) (d : TableDescription) :
    Prop where
  described : Described le t.keys t.references d
  columns : d.columns = t.columns.map SsColumnRow.detail
  comment : d.comment = t.comment.bind nonEmpty
  primaryKey : d.primaryKey = t.primary

theorem rowsOf_ssRows (k : Key) :
    RowsOf SsIndexRow.indexName (fun row => decide (row.isUnique = 1)) SsIndexRow.columnName k
      k.ssRows := by
  unfold RowsOf Key.ssRows
  conv_rhs => rw [← map_fst_numbered k.columns]
  rw [List.map_map, List.map_map]
  apply List.map_congr_left
  intro c _
  cases k.unique <;> simp

theorem pairsOf_ssRows (r : Reference) :
    PairsOf SsForeignKeyRow.fkName SsForeignKeyRow.columnName SsForeignKeyRow.refTable
      SsForeignKeyRow.refColumn r r.ssRows := by
  unfold PairsOf Reference.ssRows
  conv_rhs => rw [← map_fst_numbered r.pairs]
  rw [List.map_map, List.map_map]
  rfl

/-- Rows in the order of their distinct positions are those of the parts, in order. -/
theorem ssKeyRows_eq {primary : List Name} {rows : List SsKeyRow}
    (hperm : rows.Perm ((numbered primary).map fun c => ⟨c.1, c.2⟩))
    (hsorted : rows.Pairwise fun row other => row.keyOrdinal ≤ other.keyOrdinal) :
    rows.map SsKeyRow.columnName = primary := by
  have hordered : ((numbered primary).map fun c => (⟨c.1, c.2⟩ : SsKeyRow)).Pairwise
      fun row other => row.keyOrdinal < other.keyOrdinal := by
    rw [List.pairwise_map]
    exact numbered_pairwise primary
  rw [eq_of_sorted hperm hsorted hordered, List.map_map]
  exact map_fst_numbered primary

structure SqliteColumn where
  name : Name
  type : List Char
  notnull : Bool
  default : Option (List Char)

/-- The foreign keys have ids and no names; an index that stands for a constraint has a name of
its own kind. -/
structure SqliteTable where
  columns : List SqliteColumn
  columns_ne : columns ≠ []
  names_nodup : (columns.map SqliteColumn.name).Nodup
  primary : List Name
  primary_nodup : primary.Nodup
  primary_subset : primary ⊆ columns.map SqliteColumn.name
  indexes : List Key
  indexes_named : ∀ k ∈ indexes, k.name ≠ [] ∧ ∀ c ∈ k.columns, c ≠ []
  references : List (Int × Reference)
  ids_nodup : (references.map Prod.fst).Nodup

def SqliteTable.infoRow (t : SqliteTable) (c : SqliteColumn) : TableInfoRow where
  name := c.name
  type := c.type
  notnull := if c.notnull then 1 else 0
  dfltValue := c.default
  pk := if c.name ∈ t.primary then t.primary.idxOf c.name + 1 else 0

def foreignKeyRows (r : Int × Reference) : List ForeignKeyListRow :=
  (numbered r.2.pairs).map fun p => ⟨r.1, p.2 - 1, r.2.refTable, p.1.1, p.1.2⟩

/-- The rows of the foreign keys come in any order. -/
structure SqliteTable.Answered (t : SqliteTable) (answers : SqliteAnswers) : Prop where
  connected : answers.connected = true
  tableInfo : answers.tableInfo = .ok (t.columns.map t.infoRow)
  indexList : answers.indexList = .ok (t.indexes.map fun k => ⟨k.name, if k.unique then 1 else 0⟩)
  indexInfo : ∀ k ∈ t.indexes, answers.indexInfo k.name = .ok (k.columns.map some)
  foreignKeyList : ∃ rows, answers.foreignKeyList = .ok rows ∧
    rows.Perm (t.references.flatMap foreignKeyRows)

def SqliteColumn.detail (c : SqliteColumn) : ColumnDetail :=
  ⟨c.name, if c.type.isEmpty then "BLOB".toList else c.type, !c.notnull, c.default, none⟩

structure SqliteTable.DescribedBy (t : SqliteTable) (d : TableDescription) : Prop where
  columns : d.columns = t.columns.map SqliteColumn.detail
  primaryKey : d.primaryKey = t.primary
  indexes : d.indexes = (t.indexes.filter fun k => !isAutoindex k.name).map Key.detail
  foreignKeys : ∃ sorted : List (Int × Reference), sorted.Perm t.references ∧
    (sorted.Pairwise fun r q => r.1 ≤ q.1) ∧ d.foreignKeys = sorted.map fun r => r.2.detail none

/-- A column of the key with its place there. -/
def placed (primary : List Name) (n : Name) : Int × Name := ((primary.idxOf n : Int) + 1, n)

theorem placed_pairwise {primary : List Name} (h : primary.Nodup) :
    (primary.map (placed primary)).Pairwise fun a b => a.1 < b.1 := by
  have hnumbered := numbered_pairwise primary
  rw [numbered_eq_map_idxOf h, List.pairwise_map] at hnumbered
  exact List.pairwise_map.mpr (hnumbered.imp fun hlt => hlt)

theorem SqliteTable.placed_eq (t : SqliteTable) :
    ((t.columns.map t.infoRow).filter fun row => decide (0 < row.pk)).map
        (fun row => (row.pk, row.name)) =
      ((t.columns.map SqliteColumn.name).filter fun n => decide (n ∈ t.primary)).map
        (placed t.primary) := by
  have hmarked : ((fun row : TableInfoRow => decide (0 < row.pk)) ∘ t.infoRow) =
      (fun n => decide (n ∈ t.primary)) ∘ SqliteColumn.name := by
    funext c
    rw [Function.comp_apply, Function.comp_apply, infoRow]
    dsimp only
    split_ifs with hmem
    · rw [decide_eq_true hmem, decide_eq_true_iff]
      omega
    · rw [decide_eq_false hmem]
      rfl
  rw [List.filter_map, List.map_map, List.filter_map, List.map_map, hmarked]
  apply List.map_congr_left
  intro c hc
  have hmem : c.name ∈ t.primary := of_decide_eq_true (List.mem_filter.mp hc).2
  rw [Function.comp_apply, Function.comp_apply, infoRow, placed, if_pos hmem]

/-- The places make up the key. -/
theorem sqlitePrimaryKey_eq (t : SqliteTable) :
    sqlitePrimaryKey (t.columns.map t.infoRow) = t.primary := by
  have hperm := (filter_mem_perm t.names_nodup t.primary_nodup t.primary_subset).map
    (placed t.primary)
  have hsorted := mergeSort_eq hperm (placed_pairwise t.primary_nodup)
  unfold sqlitePrimaryKey
  rw [t.placed_eq, hsorted, List.map_map]
  exact List.map_id _

theorem sqliteIndexes_eq {indexInfo : Name → Except (List Char) (List (Option Name))}
    {keys : List Key} (hinfo : ∀ k ∈ keys, indexInfo k.name = .ok (k.columns.map some))
    (hnamed : ∀ k ∈ keys, k.name ≠ [] ∧ ∀ c ∈ k.columns, c ≠ []) :
    sqliteIndexes indexInfo (keys.map fun k => ⟨k.name, if k.unique then 1 else 0⟩) =
      .ok ((keys.filter fun k => !isAutoindex k.name).map Key.detail) := by
  induction keys with
  | nil => rfl
  | cons k keys ih =>
      obtain ⟨hname, hcolumns⟩ := hnamed k List.mem_cons_self
      have hrest := ih (fun l hl => hinfo l (List.mem_cons_of_mem k hl))
        (fun l hl => hnamed l (List.mem_cons_of_mem k hl))
      rw [List.map_cons, sqliteIndexes, List.isEmpty_eq_false_iff.mpr hname, Bool.false_or]
      by_cases hauto : isAutoindex k.name = true
      · rw [if_pos hauto, hrest, List.filter_cons_of_neg (by rw [hauto]; exact Bool.false_ne_true)]
      · have hkept : (k.columns.map some).filterMap (fun n => n.filter fun m => !m.isEmpty) =
            k.columns := by
          rw [List.filterMap_map]
          conv_rhs => rw [← List.filterMap_some (l := k.columns)]
          apply List.filterMap_congr
          intro c hc
          rw [Function.comp_apply, Option.filter_some,
            List.isEmpty_eq_false_iff.mpr (hcolumns c hc)]
          rfl
        rw [if_neg hauto, hinfo k List.mem_cons_self, hrest,
          List.filter_cons_of_pos (by rw [Bool.eq_false_iff.mpr hauto]; rfl)]
        have hdetail : (⟨k.name, k.columns, decide ((if k.unique then (1 : Int) else 0) = 1)⟩ :
            IndexDetail) = k.detail := by
          unfold Key.detail
          cases k.unique <;> rfl
        rw [List.map_cons, ← hdetail]
        conv_rhs => rw [← hkept]
        rfl

theorem entryLe_before {a b : ForeignKeyListRow} (h : entryLe a b = true) :
    Before (· ≤ ·) ForeignKeyListRow.id ForeignKeyListRow.seq a b := by
  unfold entryLe at h
  rw [Bool.or_eq_true, Bool.and_eq_true, decide_eq_true_iff, decide_eq_true_iff,
    decide_eq_true_iff] at h
  refine ⟨by omega, ?_⟩
  intro hback
  omega

theorem listed_mergeSort (rows : List ForeignKeyListRow) :
    Listed (· ≤ ·) ForeignKeyListRow.id ForeignKeyListRow.seq (rows.mergeSort entryLe) rows where
  perm := List.mergeSort_perm _ _
  sorted := by
    refine (List.pairwise_mergeSort ?_ ?_ rows).imp entryLe_before
    · intro a b c hab hbc
      unfold entryLe at hab hbc ⊢
      rw [Bool.or_eq_true, Bool.and_eq_true, decide_eq_true_iff, decide_eq_true_iff,
        decide_eq_true_iff] at *
      omega
    · intro a b
      unfold entryLe
      rw [Bool.or_eq_true, Bool.or_eq_true, Bool.and_eq_true, Bool.or_eq_true, Bool.and_eq_true]
      simp only [decide_eq_true_iff]
      omega

theorem foldl_entry (rows : List ForeignKeyListRow) (last : Int × ForeignKeyDetail) :
    rows.foldl (fun last row => (last.1, { last.2 with
      columns := last.2.columns ++ [row.fromColumn]
      refColumns := last.2.refColumns ++ [row.toColumn] })) last =
    (last.1, { last.2 with
      columns := last.2.columns ++ rows.map ForeignKeyListRow.fromColumn
      refColumns := last.2.refColumns ++ rows.map ForeignKeyListRow.toColumn }) := by
  induction rows generalizing last with
  | nil =>
      rw [List.foldl_nil, List.map_nil, List.map_nil, List.append_nil, List.append_nil]
  | cons row rows ih =>
      rw [List.foldl_cons, ih, List.map_cons, List.map_cons]
      dsimp only
      rw [List.append_assoc, List.singleton_append, List.append_assoc, List.singleton_append]

theorem settle_foreignKeyRows (r : Int × Reference) :
    settle (fun row : ForeignKeyListRow =>
        (row.id, (⟨none, [row.fromColumn], row.table, [row.toColumn]⟩ : ForeignKeyDetail)))
      (fun last row => (last.1, { last.2 with
        columns := last.2.columns ++ [row.fromColumn]
        refColumns := last.2.refColumns ++ [row.toColumn] })) (foreignKeyRows r) =
      some (r.1, r.2.detail none) := by
  have hfrom : (foreignKeyRows r).map ForeignKeyListRow.fromColumn = r.2.pairs.map Prod.fst := by
    conv_rhs => rw [← map_fst_numbered r.2.pairs]
    rw [foreignKeyRows, List.map_map, List.map_map]
    rfl
  have hto : (foreignKeyRows r).map ForeignKeyListRow.toColumn = r.2.pairs.map Prod.snd := by
    conv_rhs => rw [← map_fst_numbered r.2.pairs]
    rw [foreignKeyRows, List.map_map, List.map_map]
    rfl
  have hrow : ∀ row ∈ foreignKeyRows r, row.id = r.1 ∧ row.table = r.2.refTable := by
    intro row hrow
    obtain ⟨p, -, rfl⟩ := List.mem_map.mp hrow
    exact ⟨rfl, rfl⟩
  cases hrows : foreignKeyRows r with
  | nil =>
      rw [hrows] at hfrom
      exact absurd (List.map_eq_nil_iff.mp hfrom.symm) r.2.pairs_ne
  | cons row rows =>
      obtain ⟨hid, htable⟩ := hrow row (hrows ▸ List.mem_cons_self)
      rw [hrows] at hfrom hto
      rw [settle, foldl_entry, hid, htable, Reference.detail, ← hfrom, ← hto]
      rfl

theorem sqliteForeignKeys_eq {references : List (Int × Reference)} {rows : List ForeignKeyListRow}
    (hids : (references.map Prod.fst).Nodup)
    (hperm : rows.Perm (references.flatMap foreignKeyRows)) :
    ∃ sorted : List (Int × Reference), sorted.Perm references ∧
      (sorted.Pairwise fun r q => r.1 ≤ q.1) ∧
        sqliteForeignKeys rows = sorted.map fun r => r.2.detail none := by
  have hlisted := listed_mergeSort rows
  have hdistinct : Distinct (· ≤ ·) Prod.fst references := by
    rw [List.Nodup, List.pairwise_map] at hids
    exact hids.imp fun hne hboth => hne (le_antisymm hboth.1 hboth.2)
  have hid : ∀ r ∈ references, ∀ row ∈ foreignKeyRows r, row.id = r.1 := by
    intro r _ row hrow
    obtain ⟨p, -, rfl⟩ := List.mem_map.mp hrow
    rfl
  have hseq : ∀ r ∈ references,
      (foreignKeyRows r).Pairwise fun row other => row.seq < other.seq := by
    intro r _
    rw [foreignKeyRows, List.pairwise_map]
    exact (numbered_pairwise r.2.pairs).imp fun hlt => Int.sub_lt_sub_right hlt 1
  obtain ⟨sorted, hsorts, hsorted, hrows⟩ :=
    Listed.eq_flatMap ⟨hlisted.perm.trans hperm, hlisted.sorted⟩ hid hseq hdistinct
  refine ⟨sorted, hsorts, hsorted, ?_⟩
  have hne : ∀ r ∈ sorted, foreignKeyRows r ≠ [] := by
    intro r _ hnil
    have hsettled := settle_foreignKeyRows r
    rw [hnil] at hsettled
    cases hsettled
  unfold sqliteForeignKeys
  rw [hrows]
  refine (congrArg (List.map Prod.snd) (gather_flatMap ?_
    (fun r hr => hid r (hsorts.mem_iff.mp hr)) hne ((hsorts.map Prod.fst).nodup_iff.mpr hids))).trans ?_
  · exact ⟨fun _ => rfl, fun _ _ => rfl⟩
  · rw [List.filterMap_congr fun r _ => settle_foreignKeyRows r, List.map_filterMap,
      ← List.filterMap_eq_map]
    rfl

/-- An order in which many names are alike. -/
def fixtureLe (a b : Name) : Prop := a.length ≤ b.length

instance : DecidableRel fixtureLe := fun a b => inferInstanceAs (Decidable (a.length ≤ b.length))

instance : Std.Total fixtureLe := ⟨fun a b => Nat.le_total a.length b.length⟩

instance : IsTrans Name fixtureLe := ⟨fun _ _ _ => Nat.le_trans⟩

/-- The primary key has the columns the other way round than the table. -/
def fixtureKeys : List Key :=
  [⟨"PRIMARY".toList, true, ["b".toList, "a".toList], by decide⟩,
    ⟨"ix_a".toList, false, ["a".toList], by decide⟩]

def fixtureReferences : List Reference :=
  [⟨"fk_ab".toList, "other".toList, [("a".toList, "x".toList), ("b".toList, "y".toList)],
    by decide⟩]

theorem fixtureKeys_distinct : Distinct fixtureLe Key.name fixtureKeys := by
  unfold Distinct fixtureKeys
  rw [List.pairwise_pair]
  decide

theorem fixtureReferences_distinct : Distinct fixtureLe Reference.name fixtureReferences :=
  List.pairwise_singleton _ _

def fixtureTable : MysqlTable where
  comment := []
  columns := [⟨"a".toList, "int".toList, false, none, []⟩,
    ⟨"b".toList, "int".toList, false, none, []⟩]
  columns_ne := by simp
  names_nodup := by decide
  keys := fixtureKeys
  references := fixtureReferences
  primary := ["b".toList, "a".toList]
  primary_nodup := by decide
  primary_subset := by decide

def fixtureAnswers : MysqlAnswers where
  connected := true
  comments := .ok [[]]
  columns := .ok (fixtureTable.columns.map fixtureTable.columnRow)
  statistics := .ok (fixtureKeys.reverse.flatMap Key.statistics)
  keyColumnUsage := .ok (fixtureReferences.flatMap Reference.usage)

instance (p q : Statistic) :
    Decidable (Before fixtureLe Statistic.indexName Statistic.seqInIndex p q) :=
  inferInstanceAs (Decidable (_ ∧ (_ → _)))

theorem fixture_answered : fixtureTable.Answered fixtureLe fixtureAnswers where
  connected := rfl
  comments := rfl
  columns := rfl
  statistics := ⟨_, rfl, by decide, by decide⟩
  keyColumnUsage := by
    refine ⟨_, rfl, .refl _, ?_⟩
    exact before_flatMap (List.pairwise_singleton _ _)
      (fun r _ row hrow => ((pairsOf_usage r).name_eq row hrow).1) (fun r _ => usage_pairwise r)
      fixtureReferences_distinct

def fixtureSsTable : SsTable where
  comment := none
  columns := [⟨"a".toList, "nvarchar".toList, 100, 0, 0, 1, .null, []⟩]
  columns_ne := by simp
  keys := fixtureKeys
  references := fixtureReferences
  primary := ["b".toList, "a".toList]

def fixtureSsAnswers : SsAnswers where
  columns := .ok fixtureSsTable.columns
  primaryKey := .ok [⟨"b".toList, 1⟩, ⟨"a".toList, 2⟩]
  indexes := .ok (fixtureKeys.reverse.flatMap Key.ssRows)
  foreignKeys := .ok (fixtureReferences.flatMap Reference.ssRows)
  comments := .ok []

instance (p q : SsIndexRow) :
    Decidable (Before fixtureLe SsIndexRow.indexName SsIndexRow.keyOrdinal p q) :=
  inferInstanceAs (Decidable (_ ∧ (_ → _)))

theorem fixtureSs_answered : fixtureSsTable.Answered fixtureLe fixtureSsAnswers where
  columns := rfl
  primaryKey := ⟨_, rfl, by decide, by simp⟩
  indexes := ⟨_, rfl, by decide, by decide⟩
  foreignKeys := by
    refine ⟨_, rfl, .refl _, ?_⟩
    exact before_flatMap (List.pairwise_singleton _ _)
      (fun r _ row hrow => ((pairsOf_ssRows r).name_eq row hrow).1)
      (fun r _ => List.pairwise_map.mpr (numbered_pairwise r.pairs)) fixtureReferences_distinct
  comments := rfl

def fixtureSqliteTable : SqliteTable where
  columns := [⟨"a".toList, [], true, none⟩, ⟨"b".toList, "TEXT".toList, false, none⟩]
  columns_ne := by simp
  names_nodup := by decide
  primary := ["b".toList, "a".toList]
  primary_nodup := by decide
  primary_subset := by decide
  indexes := [⟨"sqlite_autoindex_t_1".toList, true, ["b".toList], by decide⟩,
    ⟨"ix_a".toList, false, ["a".toList], by decide⟩]
  indexes_named := by
    intro k hk
    simp only [List.mem_cons, List.not_mem_nil, or_false] at hk
    rcases hk with rfl | rfl <;> decide
  references := [(1, ⟨[], "u".toList, [("a".toList, "x".toList), ("b".toList, "y".toList)],
    by decide⟩), (0, ⟨[], "v".toList, [("b".toList, "z".toList)], by decide⟩)]
  ids_nodup := by decide

def fixtureSqliteAnswers : SqliteAnswers where
  connected := true
  tableInfo := .ok (fixtureSqliteTable.columns.map fixtureSqliteTable.infoRow)
  indexList := .ok (fixtureSqliteTable.indexes.map fun k => ⟨k.name, if k.unique then 1 else 0⟩)
  indexInfo name := .ok (if name = "ix_a".toList then [some "a".toList] else [some "b".toList])
  foreignKeyList := .ok (fixtureSqliteTable.references.flatMap foreignKeyRows).reverse

theorem fixtureSqlite_answered : fixtureSqliteTable.Answered fixtureSqliteAnswers where
  connected := rfl
  tableInfo := rfl
  indexList := rfl
  indexInfo := by
    intro k hk
    simp only [fixtureSqliteTable, List.mem_cons, List.not_mem_nil, or_false] at hk
    rcases hk with rfl | rfl <;> rfl
  foreignKeyList := ⟨_, rfl, List.reverse_perm _⟩

end Dbmaster.Metadata.Describe
