import Dbmaster.License.Entitlement
import Dbmaster.SqlSplit.DdlWhitelist
/-!
# Statements executed by the database handlers

`db_query` and `admin_script` from the request body to the statements that
reach the target.  What the store holds and what the target does with the
`n`-th statement of a request is given.
-/

namespace Dbmaster.DbHandler.Execute

open Dbmaster.Lib Dbmaster.Lib.Text Dbmaster.Gateway.Classify Dbmaster.Gateway.Query
  Dbmaster.License.Entitlement Dbmaster.SqlSplit.Splitter
open Dbmaster.SqlSplit.DdlWhitelist (backendFor redact)

/-! ## The gate -/

def gateBlocked (entitlement : EntitlementState) : Option HttpError :=
  if entitlement.isGated then
    some ⟨403, "ENTITLEMENT_GATED",
      "License gated. Activate or renew your license to perform this action."⟩
  else none

/-! ## The target -/

/-- How a statement goes to its target. -/
inductive Channel
  | prepare | rawSql | tdsQuery | tdsExecute | tdsBatch
  deriving DecidableEq, Repr

structure Sent where
  family : Family
  channel : Channel
  text : String

/-- Name and type of each column, and the decoded rows. -/
structure Fetched where
  columns : List (String × String)
  rows : List Json

/-- What the target does with one statement.  Each has a connection of its own. -/
structure Turn where
  opens : Except HttpError Unit
  refusesPrepare : Bool
  fetched : Except String Fetched
  affected : Except String Nat

structure ConnRow where
  dbType : String
  defaultDatabase : Option String

structure Environment where
  /-- the connection, when it is found and its password decrypts -/
  loaded : Except HttpError ConnRow
  /-- the `n`-th statement of the request, on the database it names -/
  turns : Option String → Nat → Turn
  elapsedMs : Nat

/-- What was sent, and the answer. -/
structure Execution where
  sent : List Sent
  result : Except HttpError Json

def refuse (e : HttpError) : Execution := ⟨[], .error e⟩

/-! ## The backends -/

def fetchAllByMode : CatalogQueryMode → List Channel
  | .rawSql => [.rawSql]
  | .prepare => [.prepare]

/-- What the server cannot prepare is sent again as text. -/
def executeByMode (refusesPrepare : Bool) : CatalogQueryMode → List Channel
  | .rawSql => [.rawSql]
  | .prepare => if refusesPrepare then [.prepare, .rawSql] else [.prepare]

/-- Rows are counted for these only; the rest goes as a batch. -/
def isDmlStatement (sql : String) : Bool :=
  let first := (trimStart sql.toList).takeWhile fun c => !isWhitespace c
  String.ofList (asciiLower first) ∈ ["insert", "update", "delete", "merge"]

/-- `backend_for` answers none of the last three families. -/
def channels (family : Family) (refusesPrepare : Bool) (sql : String) (isSelect : Bool) :
    List Channel :=
  match family with
  | .mySql mode => if isSelect then fetchAllByMode mode else executeByMode refusesPrepare mode
  | .clickhouse =>
      if isSelect then fetchAllByMode .prepare else executeByMode refusesPrepare .prepare
  | .postgres | .sqlite => [.prepare]
  | .sqlServer =>
      if isSelect then [.tdsQuery]
      else if isDmlStatement sql then [.tdsExecute]
      else [.tdsBatch]
  | .mongo | .redis | .tdengine => []

def rowsToJson (fetched : Fetched) (limit : Nat) : Json :=
  if fetched.rows.isEmpty then .obj [("columns", .arr []), ("rows", .arr [])]
  else .obj
    [("columns", .arr (fetched.columns.map fun c => .str c.1)),
      ("columnTypes", .arr (fetched.columns.map fun c =>
        .obj [("name", .str c.1), ("type", .str c.2)])),
      ("rows", .arr (fetched.rows.take limit))]

def affectedToJson (affected : Nat) : Json :=
  .obj [("columns", .arr []), ("rows", .arr []), ("affectedRows", .int affected)]

def queryFailed (message : String) : HttpError :=
  ⟨500, "QUERY_FAILED", String.ofList (redact message.toList)⟩

/-- A batch to SQL Server is answered with no affected rows. -/
def answer (family : Family) (turn : Turn) (sql : String) (limit : Nat) (isSelect : Bool) :
    Except HttpError Json :=
  if isSelect then
    match turn.fetched with
    | .error message => .error (queryFailed message)
    | .ok fetched => .ok (rowsToJson fetched limit)
  else
    match turn.affected with
    | .error message => .error (queryFailed message)
    | .ok affected =>
        .ok (affectedToJson (if family = .sqlServer ∧ ¬ isDmlStatement sql then 0 else affected))

/-- `execute_query`: a connection is opened, then the statement is sent. -/
def executeQuery (family : Family) (turn : Turn) (sql : String) (limit : Nat)
    (isSelect : Bool) : Execution :=
  match turn.opens with
  | .error e => refuse e
  | .ok () =>
      { sent := (channels family turn.refusesPrepare sql isSelect).map fun channel =>
          ⟨family, channel, sql⟩
        result := answer family turn sql limit isSelect }

/-! ## The handlers -/

structure QueryBody where
  db : Option String
  sql : String
  limit : Option Int

structure AdminScriptBody where
  db : Option String
  script : String
  limit : Option Int

def clampLimit (limit : Option Int) : Nat := (max (min (limit.getD 10000) 100000) 1).toNat

/-- The connection, its backend, and the database of the request. -/
def load (env : Environment) (db : Option String) :
    Except HttpError (Family × Option String) := do
  let conn ← env.loaded
  let family ← backendFor conn.dbType
  return (family, db <|> conn.defaultDatabase)

def withTime (elapsedMs : Nat) : Json → Json
  | .obj members => .obj (members ++ [("executionTimeMs", .int elapsedMs)])
  | value => value

/-- What is not a query goes through the gate. -/
def dbQuery (entitlement : EntitlementState) (env : Environment) (body : QueryBody) :
    Execution :=
  let isSelect := isSelectStatement body.sql
  match (if isSelect then none else gateBlocked entitlement) with
  | some gated => refuse gated
  | none =>
    match load env body.db with
    | .error e => refuse e
    | .ok (family, dbName) =>
        let run := executeQuery family (env.turns dbName 0) body.sql (clampLimit body.limit)
          isSelect
        { run with result := run.result.map (withTime env.elapsedMs) }

def copyMember (key : String) (value : Json) : List (String × Json) :=
  match value.get key with
  | some member => [(key, member)]
  | none => []

/-- The entry of a statement in the results. -/
def entryOf (stmt : String) : Except HttpError Json → Json
  | .ok value => .obj ([("sql", .str stmt), ("ok", .bool true)] ++
      copyMember "affectedRows" value ++ copyMember "columns" value ++ copyMember "rows" value)
  | .error e => .obj [("sql", .str stmt), ("ok", .bool false), ("error", .str e.message)]

def statementsOf (alphanumeric : Char → Bool) (script : String) : List String :=
  (splitSqlScript alphanumeric script.toList).map String.ofList

/-- Every statement is executed, whatever became of those before it.  The
entitlement is not consulted. -/
def adminScript (alphanumeric : Char → Bool) (env : Environment) (body : AdminScriptBody) :
    Execution :=
  match load env body.db with
  | .error e => refuse e
  | .ok (family, dbName) =>
      let runs := (statementsOf alphanumeric body.script).mapIdx fun n stmt =>
        (stmt, executeQuery family (env.turns dbName n) stmt (clampLimit body.limit)
          (isSelectStatement stmt))
      { sent := runs.flatMap fun run => run.2.sent
        result := .ok (.obj [("results", .arr (runs.map fun run => entryOf run.1 run.2.result))]) }

inductive Request
  | query (body : QueryBody)
  | script (body : AdminScriptBody)

def handle (alphanumeric : Char → Bool) (entitlement : EntitlementState) (env : Environment) :
    Request → Execution
  | .query body => dbQuery entitlement env body
  | .script body => adminScript alphanumeric env body

end Dbmaster.DbHandler.Execute
