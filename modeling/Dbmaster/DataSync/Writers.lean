import Dbmaster.DataSync.Config
import Dbmaster.Lib.Quoted
/-!
# The writers of a batch

The row materialisers and the batch inserters of the runner, from the rows of
the source to what the target is handed, and the rows the target reads there.
-/

namespace Dbmaster.DataSync.Writers

open Dbmaster.Lib Dbmaster.DataSync.Config

/-! ## Source rows -/

/-- The value of `alias.column`, as text; `none` is NULL. -/
abbrev SourceRow := String → Option String

/-- The columns of a row as it is fetched: every selected column is cast to
text and named after its target. -/
abbrev FetchedRow := List (String × Option String)

def fetched (cfg : DataSyncTaskConfig) (row : SourceRow) : FetchedRow :=
  cfg.columnMapping.columns.map fun c => (c.target, row c.source)

/-- `r.try_get(name).ok()`: the last column of that name. -/
def tryGet (row : FetchedRow) (name : String) : Option String :=
  (row.reverse.find? fun column => column.1 = name).bind Prod.snd

/-! ## `INSERT` statements -/

/-- A place of a tuple: a bound parameter, or a literal in the text. -/
inductive Value
  | bound (v : Option String)
  | literal (text : List Char)

structure InsertStatement where
  dialect : Dialect
  table : String
  columns : List String
  tuples : List (List Value)
  tail : Option String

/-- All target column names (selected columns and constants), each quoted. -/
def targetColumns (cfg : DataSyncTaskConfig) (dialect : Dialect) : List String :=
  (cfg.columnMapping.columns.map fun c => quote c.target dialect) ++
    cfg.columnMapping.constants.map fun cst => quote cst.target dialect

def upsertTail (cfg : DataSyncTaskConfig) (dialect : Dialect) (colNames : List String) :
    Option String :=
  match cfg.targetStrategy with
  | .upsert key =>
      let qk := quote key dialect
      let updates := (colNames.filter fun c => c ≠ qk).map fun c => c ++ "=VALUES(" ++ c ++ ")"
      if updates.isEmpty then some ("ON DUPLICATE KEY UPDATE " ++ qk ++ "=" ++ qk)
      else some ("ON DUPLICATE KEY UPDATE " ++ ", ".intercalate updates)
  | .append | .truncate => none

def upsertTailPg (cfg : DataSyncTaskConfig) (dialect : Dialect) (colNames : List String) :
    Option String :=
  match cfg.targetStrategy with
  | .upsert key =>
      let qk := quote key dialect
      let updates := (colNames.filter fun c => c ≠ qk).map fun c => c ++ "=EXCLUDED." ++ c
      if updates.isEmpty then some ("ON CONFLICT (" ++ qk ++ ") DO NOTHING")
      else some ("ON CONFLICT (" ++ qk ++ ") DO UPDATE SET " ++ ", ".intercalate updates)
  | .append | .truncate => none

/-- `display` is the compact JSON text of a value. -/
def jsonValueToString (display : Json → String) : Json → String
  | .str s => s
  | .null => ""
  | other => display other

def pushPgLiteral : Option String → List Char
  | some s => '\'' :: (Text.replace "'" "''" s.toList ++ "'::unknown".toList)
  | none => "NULL".toList

section Inserters

variable {Row : Type} (display : Json → String) (cfg : DataSyncTaskConfig)

/-- The statement of a batch: a value for each selected column, then one for
each constant. -/
def insertStatement (dialect : Dialect) (tail : List String → Option String)
    (value : Row → ColumnSelect → Value) (constant : String → Value) (rows : List Row) :
    Option InsertStatement :=
  if rows.isEmpty then none
  else some
    { dialect := dialect
      table := quote cfg.target.table dialect
      columns := targetColumns cfg dialect
      tuples := rows.map fun r => (cfg.columnMapping.columns.map (value r)) ++
        cfg.columnMapping.constants.map fun cst => constant (jsonValueToString display cst.value)
      tail := tail (targetColumns cfg dialect) }

def insertBatchMysql (rows : List FetchedRow) : Option InsertStatement :=
  insertStatement display cfg .mySql (upsertTail cfg .mySql)
    (fun r c => .bound (tryGet r c.target)) (fun s => .bound (some s)) rows

def insertBatchPg (rows : List FetchedRow) : Option InsertStatement :=
  insertStatement display cfg .postgres (upsertTailPg cfg .postgres)
    (fun r c => .bound (tryGet r c.target)) (fun s => .bound (some s)) rows

/-! ## Rows as JSON -/

abbrev JsonRow := List (String × Json)

/-- `Map::insert`. -/
def insertMember (key : String) (value : Json) : JsonRow → JsonRow
  | [] => [(key, value)]
  | m :: members => if m.1 = key then (key, value) :: members else m :: insertMember key value members

/-- A row of `rows_to_json_mysql` and `rows_to_json_pg`. -/
def rowToJson (cols : List ColumnSelect) (r : FetchedRow) : JsonRow :=
  cols.foldl (fun m c => insertMember c.target (.str ((tryGet r c.target).getD "")) m) []

def rowsToJson (rows : List FetchedRow) : List JsonRow :=
  rows.map (rowToJson cfg.columnMapping.columns)

/-- `r.get(target).and_then(as_str)`. -/
def getStr (r : JsonRow) (name : String) : Option String :=
  ((Json.obj r).get name).bind Json.asStr

def insertJsonBatchMysql (rows : List JsonRow) : Option InsertStatement :=
  insertStatement display cfg .mySql (upsertTail cfg .mySql)
    (fun r c => .bound (getStr r c.target)) (fun s => .bound (some s)) rows

/-- Every value is a literal, so that the target infers its type. -/
def insertJsonBatchPg (rows : List JsonRow) : Option InsertStatement :=
  insertStatement display cfg .postgres (upsertTailPg cfg .postgres)
    (fun r c => .literal (pushPgLiteral (getStr r c.target)))
    (fun s => .literal (pushPgLiteral (some s))) rows

end Inserters

/-! ## JSON lines -/

/-- A load over HTTP: the `query` or path it goes to, and an object a line. -/
structure LoadRequest where
  address : String
  lines : List JsonRow

/-- `ClickHouseClient::insert_batch` -/
def clickHouseInsertBatch (database table : String) (rows : List JsonRow) :
    Option LoadRequest :=
  if rows.isEmpty then none
  else some ⟨"INSERT INTO " ++ quote database .clickHouse ++ "." ++ table ++
    " FORMAT JSONEachRow", rows⟩

/-- `DorisStreamLoadClient::insert_batch` -/
def dorisInsertBatch (database table : String) (rows : List JsonRow) : Option LoadRequest :=
  if rows.isEmpty then none
  else some ⟨"/api/" ++ database ++ "/" ++ table ++ "/_load", rows⟩

/-! ## What the target reads -/

/-- The columns a target is handed for one row, and their values. -/
abbrev WrittenRow := List (String × Option String)

def delimiter : Dialect → Char
  | .mySql | .clickHouse | .doris => '`'
  | .postgres => '"'

def readName (dialect : Dialect) (name : String) : String :=
  ((Quoted.readQuoted (delimiter dialect) name.toList).map
    fun pair => String.ofList pair.1).getD name

/-- A parameter is what was bound; a literal that is not quoted is `NULL`. -/
def Value.read : Value → Option String
  | .bound v => v
  | .literal text => (Quoted.readQuoted '\'' text).map fun pair => String.ofList pair.1

def InsertStatement.rows (stmt : InsertStatement) : List WrittenRow :=
  stmt.tuples.map fun tuple =>
    (stmt.columns.map (readName stmt.dialect)).zip (tuple.map Value.read)

def LoadRequest.rows (request : LoadRequest) : List WrittenRow :=
  request.lines.map fun members => members.map fun m => (m.1, m.2.asStr)

inductive WritePath
  | mysqlToMysql | pgToPg | mysqlToPg | pgToMysql | toClickHouse | toDoris
  deriving DecidableEq, Repr

/-- The rows a batch writes on a path; `database` is the one the HTTP clients
were made for. -/
def written (display : Json → String) (database : String) (cfg : DataSyncTaskConfig)
    (path : WritePath) (rows : List SourceRow) : List WrittenRow :=
  let rows := rows.map (fetched cfg)
  let maps := rowsToJson cfg rows
  match path with
  | .mysqlToMysql => (insertBatchMysql display cfg rows).elim [] InsertStatement.rows
  | .pgToPg => (insertBatchPg display cfg rows).elim [] InsertStatement.rows
  | .mysqlToPg => (insertJsonBatchPg display cfg maps).elim [] InsertStatement.rows
  | .pgToMysql => (insertJsonBatchMysql display cfg maps).elim [] InsertStatement.rows
  | .toClickHouse =>
      (clickHouseInsertBatch database cfg.target.table maps).elim [] LoadRequest.rows
  | .toDoris => (dorisInsertBatch database cfg.target.table maps).elim [] LoadRequest.rows

end Dbmaster.DataSync.Writers
