import Dbmaster.Gateway.Classify
import Dbmaster.Gateway.Stream
/-!
# A gateway query

`gw_query` from the request body to the commands that reach the target: the
checks made before the stream opens, the connection row, and the execution leg
of each kind.  What the row, the target and the SQL parser answer is given.
-/

namespace Dbmaster.Gateway.Query

open Dbmaster.Lib Dbmaster.Lib.Text Dbmaster.Gateway.Stream Dbmaster.Gateway.Classify

/-! ## The request -/

structure QueryBody where
  sql : Option String
  kind : Option String
  command : Option Json
  pipeline : Option (List (List String))
  atomic : Option Bool
  rowLimit : Option Nat
  timeoutMs : Option Nat

structure GwConfig where
  gwQueryDefaultRows : Nat
  gwQueryMaxRows : Nat
  gwQueryTimeoutSecs : Nat

/-- A Redis command: never empty. -/
structure RedisCommand where
  name : String
  args : List String

def RedisCommand.ofList : List String → Option RedisCommand
  | [] => none
  | name :: args => some ⟨name, args⟩

inductive Payload
  | sql (text : String)
  | mongo (doc : List (String × Json))
  | redisCommand (command : RedisCommand)
  | redisPipeline (commands : List RedisCommand) (atomic : Bool)
  | tdengine (text : String)

structure Accepted where
  payload : Payload
  rowLimit : Nat
  timeoutMs : Nat

/-- An error answered before the stream opens. -/
structure HttpError where
  status : Nat
  code : String
  message : String

def badRequest (code message : String) : HttpError := ⟨400, code, message⟩

/-- The check of the `sql` field, the same for `sql` and `tdengine`.
`statementCount` is the count of the SQL parser, 0 when nothing parses. -/
def checkSql (statementCount : String → Nat) (sql : Option String) :
    Except HttpError String :=
  match sql with
  | none => .error (badRequest "CONFIG" "sql must be a non-empty statement")
  | some text =>
      let trimmed := String.ofList (trim text.toList)
      if trimmed = "" then .error (badRequest "CONFIG" "sql must be a non-empty statement")
      else if 1 < statementCount trimmed then
        .error (badRequest "MULTI_STATEMENT"
          "gateway v1 executes exactly one statement per request")
      else .ok text

def checkMongo : Option Json → Except HttpError (List (String × Json))
  | some (.obj (m :: members)) => .ok (m :: members)
  | _ => .error (badRequest "CONFIG" "kind \"mongo\" requires a non-empty command object")

/-- The `command` field as a Redis command: an array of strings, not empty. -/
def redisCommandOf (command : Option Json) : Option RedisCommand := do
  let items ← (← command).asArray
  RedisCommand.ofList (← items.mapM Json.asStr)

/-- The `pipeline` field when it is valid: no empty command, no empty argument. -/
def redisPipelineOf (pipeline : List (List String)) : Option (List RedisCommand) :=
  if pipeline = [] ∨ pipeline.any (fun entry => entry.any fun arg => arg = "") then none
  else pipeline.mapM RedisCommand.ofList

def checkRedis (command : Option Json) (pipeline : Option (List (List String)))
    (atomic : Bool) : Except HttpError Payload :=
  match redisCommandOf command, pipeline with
  | some cmd, none => .ok (.redisCommand cmd)
  | some _, some _ =>
      .error (badRequest "CONFIG"
        "kind \"redis\" accepts either command or pipeline, not both")
  | none, some entries =>
      match redisPipelineOf entries with
      | some cmds => .ok (.redisPipeline cmds atomic)
      | none => .error (badRequest "CONFIG"
          "kind \"redis\" requires a non-empty command array or pipeline")
  | none, none =>
      .error (badRequest "CONFIG"
        "kind \"redis\" requires a non-empty command array or pipeline")

def checkPayload (statementCount : String → Nat) (body : QueryBody) :
    Except HttpError Payload :=
  let kind := body.kind.getD "sql"
  if kind = "sql" then (checkSql statementCount body.sql).map .sql
  else if kind = "mongo" then (checkMongo body.command).map .mongo
  else if kind = "redis" then
    checkRedis body.command body.pipeline (body.atomic.getD false)
  else if kind = "tdengine" then (checkSql statementCount body.sql).map .tdengine
  else .error (badRequest "UNSUPPORTED_KIND" ("unsupported kind \"" ++ kind ++
    "\": only \"sql\", \"mongo\", \"redis\" and \"tdengine\" are implemented"))

def clamp (lo hi n : Nat) : Nat := max lo (min n hi)

def gwQuery (config : GwConfig) (statementCount : String → Nat) (body : QueryBody) :
    Except HttpError Accepted :=
  (checkPayload statementCount body).map fun payload =>
    { payload := payload
      rowLimit := clamp 1 config.gwQueryMaxRows
        (body.rowLimit.getD config.gwQueryDefaultRows)
      timeoutMs := clamp 1000 600000
        (body.timeoutMs.getD (config.gwQueryTimeoutSecs * 1000)) }

/-! ## The connection -/

/-- How statements go to the members of the MySQL family. -/
inductive CatalogQueryMode
  | prepare | rawSql
  deriving DecidableEq, Repr

inductive Family
  | mySql (catalogMode : CatalogQueryMode)
  | postgres | sqlite | clickhouse | sqlServer | mongo | redis | tdengine
  deriving DecidableEq, Repr

def mysqlFamilyFor (dbType : String) : Option CatalogQueryMode :=
  if dbType ∈ ["mysql", "oceanbase", "tidb", "mariadb"] then some .prepare
  else if dbType ∈ ["doris", "starrocks"] then some .rawSql
  else none

def familyFor (dbType : String) : Except StreamQueryError Family :=
  let lower := String.ofList (asciiLower dbType.toList)
  match mysqlFamilyFor lower with
  | some mode => .ok (.mySql mode)
  | none =>
    if lower ∈ ["postgres", "postgresql", "pg"] then .ok .postgres
    else if lower = "sqlite" then .ok .sqlite
    else if lower = "clickhouse" then .ok .clickhouse
    else if lower ∈ ["sqlserver", "mssql"] then .ok .sqlServer
    else if lower ∈ ["mongodb", "mongo"] then .ok .mongo
    else if lower = "redis" then .ok .redis
    else if lower = "tdengine" then .ok .tdengine
    else .error ⟨"UNSUPPORTED_DB_TYPE", "unsupported db_type: " ++ lower, none⟩

structure ConnRow where
  dbType : String
  readOnly : Int

/-- What a run meets: the opening of the connection (the credential and the
tunnel included), the ping of MongoDB, the `ACL CAT` of Redis and the cache of
its answers, MySQL refusing to prepare a statement, and the final answer. -/
structure Target where
  loads : Except StreamQueryError Unit
  opens : Except StreamQueryError Unit
  pings : Except StreamQueryError Unit
  aclFetched : Option Redis.AclClasses
  aclCache : Redis.AclCache
  refusesPrepare : Bool
  answer : Except StreamQueryError Unit

/-! ## The legs -/

/-- A statement or command of the request, as the target gets it. -/
inductive Command
  | sql (text : String)
  | mongo (doc : List (String × Json))
  | redis (command : RedisCommand)
  | tdengine (text : String)

inductive Mode
  | prepare | rawSql | tds | runCommand | single
  | pipeline (atomic : Bool)
  | rest
  deriving DecidableEq, Repr

/-- What a run sent of its request, and how it answers.  The session settings,
the ping and `ACL CAT` are not listed. -/
structure Run where
  sent : List (Mode × Command)
  answer : Except StreamQueryError Unit

def refuse (e : StreamQueryError) : Run := ⟨[], .error e⟩

def readOnlyError (what : String) : StreamQueryError :=
  ⟨"DB_ERROR", "connection is read-only: write " ++ what ++ " rejected", some "READONLY"⟩

def unsupportedKind (message : String) : StreamQueryError :=
  ⟨"UNSUPPORTED_KIND", message, none⟩

/-- Send once the connection is open. -/
def sendWhen (opens : Except StreamQueryError Unit) (target : Target)
    (commands : List (Mode × Command)) : Run :=
  match opens with
  | .error e => refuse e
  | .ok () => ⟨commands, target.answer⟩

/-- The statement on the MySQL protocol: a `SHOW`, or a family that cannot
prepare, goes as text; other queries are prepared.  A prepared non-query that
the server cannot prepare is sent again as text. -/
def mysqlCommands (mode : CatalogQueryMode) (refusesPrepare : Bool) (sql : String) :
    List (Mode × Command) :=
  if isSelectStatement sql then
    if mode = .rawSql ∨ isShowStatement sql then [(.rawSql, .sql sql)]
    else [(.prepare, .sql sql)]
  else match mode with
    | .rawSql => [(.rawSql, .sql sql)]
    | .prepare =>
        if refusesPrepare then [(.prepare, .sql sql), (.rawSql, .sql sql)]
        else [(.prepare, .sql sql)]

/-- `run_inner`: no family looks at `read_only`. -/
def runInner (family : Family) (target : Target) (sql : String) : Run :=
  match family with
  | .mySql mode =>
      sendWhen target.opens target (mysqlCommands mode target.refusesPrepare sql)
  | .postgres | .sqlite | .clickhouse =>
      sendWhen target.opens target [(.prepare, .sql sql)]
  | .sqlServer => sendWhen target.opens target [(.tds, .sql sql)]
  | .mongo => refuse (unsupportedKind
      "mongodb connections require kind \"mongo\" with a command object")
  | .redis => refuse (unsupportedKind
      "redis connections require kind \"redis\" with a command or pipeline")
  | .tdengine => refuse (unsupportedKind
      "tdengine connections require kind \"tdengine\" statements")

def runMongoInner (conn : ConnRow) (family : Family) (target : Target)
    (doc : List (String × Json)) : Run :=
  if family ≠ .mongo then
    refuse (unsupportedKind ("connection db_type '" ++ conn.dbType ++
      "' does not accept kind \"mongo\" commands"))
  else match Mongo.commandNameOf doc with
    | none => refuse ⟨"DB_ERROR", "command object must have at least one key", none⟩
    | some name =>
        if conn.readOnly ≠ 0 ∧ Mongo.isWriteCommand name doc then
          refuse (readOnlyError "command")
        else match target.opens with
          | .error e => refuse e
          | .ok () => sendWhen target.pings target [(.runCommand, .mongo doc)]

def runRedisInner (conn : ConnRow) (family : Family) (target : Target)
    (commands : List RedisCommand) (mode : Mode) : Run :=
  if family ≠ .redis then
    refuse (unsupportedKind ("connection db_type '" ++ conn.dbType ++
      "' does not accept kind \"redis\" commands"))
  else match target.opens with
    | .error e => refuse e
    | .ok () =>
        if conn.readOnly ≠ 0 ∧
            Redis.guardReadOnly target.aclFetched target.aclCache (commands.map (·.name)) then
          refuse (readOnlyError "command")
        else ⟨commands.map fun command => (mode, .redis command), target.answer⟩

def runTdengineInner (conn : ConnRow) (family : Family) (target : Target) (sql : String) :
    Run :=
  if family ≠ .tdengine then
    refuse (unsupportedKind ("connection db_type '" ++ conn.dbType ++
      "' does not accept kind \"tdengine\" statements"))
  else if conn.readOnly ≠ 0 ∧ Tdengine.isWriteStatement sql then
    refuse (readOnlyError "statement")
  else sendWhen target.opens target [(.rest, .tdengine sql)]

/-- The execution task: load the connection, then the leg of the kind. -/
def runPayload (conn : ConnRow) (target : Target) (payload : Payload) : Run :=
  match familyFor conn.dbType with
  | .error e => refuse e
  | .ok family =>
  match target.loads with
  | .error e => refuse e
  | .ok () =>
  match payload with
  | .sql text => runInner family target text
  | .mongo doc => runMongoInner conn family target doc
  | .redisCommand command => runRedisInner conn family target [command] .single
  | .redisPipeline commands atomic =>
      runRedisInner conn family target commands (.pipeline atomic)
  | .tdengine text => runTdengineInner conn family target text

end Dbmaster.Gateway.Query
