import Dbmaster.DataSync.Config
/-!
# The runner of a `data_sync` task

The five ETL loops differ in the SQL they send and in how they count, so each is
the loop `etl` at its own `EtlPath`.  The databases are a `World` that answers;
a run is followed for a number of turns of its loop.
-/

namespace Dbmaster.DataSync.Etl

open Dbmaster.DataSync.Cursor Dbmaster.DataSync.Config

variable {ρ T : Type}

/-! ## The world -/

/-- What the databases answer to one run: `ρ` are the rows of the source, and
the number is the turn of the loop. -/
structure World (ρ T : Type) where
  /-- the clock, where MIN and MAX are null -/
  nowMin : T
  nowMax : T
  /-- MIN and MAX of the time field; `none` when the query fails -/
  probe : String → Option (Option String × Option String)
  cancelRequested : Nat → Option Bool
  fetch : Nat → String → String → String → Except String (List ρ)
  /-- whether the target executes a TRUNCATE -/
  truncates : Bool
  /-- the rows written by an attempt to insert a batch; `none` when it fails -/
  insert : Nat → Nat → List ρ → Option Nat
  savesProgress : Nat → Bool

/-- What reaches the target. -/
inductive TargetEvent (ρ : Type) where
  | truncate (sql : String) (executed : Bool)
  | insert (rows : List ρ) (written : Option Nat)
deriving DecidableEq

structure RunOutcome where
  processedRows : Nat
  failedRows : Nat
  canceled : Bool
deriving DecidableEq

inductive Exit where
  | ok (outcome : RunOutcome)
  | err (message : String)
  | panicked
deriving DecidableEq

structure LoopCtx where
  config : DataSyncTaskConfig
  /-- `default_database` of the source and of the target connection -/
  srcDatabase : Option String
  tgtDatabase : Option String
  batchSize : UInt64
  resumeCursor : Option String
  batchRetries : UInt32

/-- How one of the ETL functions talks to its databases. -/
structure EtlPath where
  fetchSql : String
  /-- the context put on a failed fetch, when there is one -/
  fetchContext : Option String
  probeSql : String
  probeContext : String
  truncateSql : Option String
  /-- the rows written are counted, not the rows fetched -/
  countsWritten : Bool

structure LoopState (ρ : Type) where
  turn : Nat
  cursor : String
  processed : Nat
  failed : Nat
  /-- the cursor last written to the run row -/
  saved : Option String
  events : List (TargetEvent ρ)

/-! ## The loop -/

/-- The attempts of `retry_batch_insert`, `left` of them at most. -/
def attemptInsert (insert : Nat → List ρ → Option Nat) (rows : List ρ) :
    Nat → Nat → List (TargetEvent ρ) × Option Nat
  | 0, _ => ([], none)
  | left + 1, attempt =>
      match insert attempt rows with
      | some written => ([.insert rows (some written)], some written)
      | none =>
          let rest := attemptInsert insert rows left (attempt + 1)
          (.insert rows none :: rest.1, rest.2)

def retryBatchInsert (maxRetries : UInt32) (insert : Nat → List ρ → Option Nat)
    (rows : List ρ) : List (TargetEvent ρ) × Option Nat :=
  attemptInsert insert rows (max maxRetries 1).toNat 1

/-- The counts and the target after a batch has been handed over. -/
def handBatch (world : World ρ T) (ctx : LoopCtx) (path : EtlPath) (rows : List ρ)
    (s : LoopState ρ) : LoopState ρ :=
  let inserted := retryBatchInsert ctx.batchRetries (world.insert s.turn) rows
  match inserted.2 with
  | some written =>
      { s with
        processed := s.processed + if path.countsWritten then written else rows.length
        events := s.events ++ inserted.1 }
  | none => { s with failed := s.failed + rows.length, events := s.events ++ inserted.1 }

def LoopState.finish (s : LoopState ρ) : Exit := .ok ⟨s.processed, s.failed, false⟩

def LoopState.advance (s : LoopState ρ) (next : String) : LoopState ρ :=
  { s with turn := s.turn + 1, cursor := next }

/-- One turn of the loop; the exit is there when the function returns. -/
def etlTurn [LinearOrder T] (chrono : Chrono T) (world : World ρ T) (ctx : LoopCtx) (path : EtlPath)
    (upper : String) (s : LoopState ρ) : LoopState ρ × Option Exit :=
  match world.cancelRequested s.turn with
  | none => (s, some (.err "poll cancel_requested"))
  | some true => (s, some (.ok ⟨s.processed, s.failed, true⟩))
  | some false =>
    match advanceCursor chrono s.cursor ctx.batchSize with
    | none => (s, some .panicked)
    | some next =>
      match world.fetch s.turn path.fetchSql s.cursor next with
      | .error e => (s, some (.err (path.fetchContext.getD e)))
      | .ok [] =>
          if cursorGt chrono next upper then (s, some s.finish)
          else (s.advance next, none)
      | .ok (row :: rows) =>
          let s' := handBatch world ctx path (row :: rows) s
          if world.savesProgress s.turn = false then
            (s', some (.err "update data_sync_runs progress"))
          else if cursorGt chrono next upper then
            ({ s'.advance next with saved := some s.cursor }, some s'.finish)
          else ({ s'.advance next with saved := some s.cursor }, none)

/-- At most `n` turns of the loop. -/
def turns [LinearOrder T] (chrono : Chrono T) (world : World ρ T) (ctx : LoopCtx) (path : EtlPath)
    (upper : String) : Nat → LoopState ρ → LoopState ρ × Option Exit
  | 0, s => (s, none)
  | n + 1, s =>
    match etlTurn chrono world ctx path upper s with
    | (s', none) => turns chrono world ctx path upper n s'
    | (s', some exit) => (s', some exit)

/-- `resolve_window_mysql` and `resolve_window_pg`, by the path's query. -/
def resolveWindow (chrono : Chrono T) (world : World ρ T) (ctx : LoopCtx) (path : EtlPath) :
    Except String (String × String) :=
  match world.probe path.probeSql with
  | none => .error path.probeContext
  | some row =>
      let min := row.1.getD (chrono.toRfc3339 world.nowMin)
      let max := row.2.getD (chrono.toRfc3339 world.nowMax)
      .ok ((ctx.resumeCursor <|> ctx.config.batching.start).getD min, max)

/-- The state in which the loop is entered. -/
def enterLoop (world : World ρ T) (path : EtlPath) (start : String) : LoopState ρ :=
  { turn := 0
    cursor := start
    processed := 0
    failed := 0
    saved := none
    events := path.truncateSql.toList.map fun sql => .truncate sql world.truncates }

/-- A function that returns before it touches a database. -/
def refused (message : String) : LoopState ρ × Option Exit :=
  (⟨0, "", 0, 0, none, []⟩, some (.err message))

/-- An ETL function, followed for at most `n` turns of its loop. -/
def etl [LinearOrder T] (chrono : Chrono T) (world : World ρ T) (ctx : LoopCtx) (path : EtlPath) (n : Nat) :
    LoopState ρ × Option Exit :=
  match resolveWindow chrono world ctx path with
  | .error e => refused e
  | .ok window => turns chrono world ctx path window.2 n (enterLoop world path window.1)

/-! ## The ETL functions -/

/-- What the truncate helpers send: nothing on `is_resume`, and the statement
under the strategy `Truncate`. -/
def maybeTruncate (sql : String) (cfg : DataSyncTaskConfig) (isResume : Bool) : Option String :=
  if isResume then none
  else if cfg.targetStrategy = .truncate then some sql
  else none

def maybeTruncateMysql (cfg : DataSyncTaskConfig) (isResume : Bool) : Option String :=
  maybeTruncate ("TRUNCATE TABLE " ++ quote cfg.target.table .mySql) cfg isResume

def maybeTruncatePg (cfg : DataSyncTaskConfig) (isResume : Bool) : Option String :=
  maybeTruncate ("TRUNCATE TABLE " ++ quote cfg.target.table .postgres) cfg isResume

/-- The database is that of the ClickHouse client. -/
def maybeTruncateCh (database : Option String) (cfg : DataSyncTaskConfig) (isResume : Bool) :
    Option String :=
  maybeTruncate ("TRUNCATE TABLE " ++ quote (database.getD "default") .clickHouse ++ "." ++
    cfg.target.table) cfg isResume

inductive SourceKind where
  | mySql
  | postgres
deriving DecidableEq

inductive TargetKind where
  | mySql
  | postgres
deriving DecidableEq

/-- The part of a path that the source decides. -/
def sourcePath (ctx : LoopCtx) : SourceKind → EtlPath
  | .mySql =>
      { fetchSql := mysqlSelect (buildSelectSql ctx.config ctx.srcDatabase .mySql)
        fetchContext := none
        probeSql := probeMysql ctx.config
        probeContext := "probe MIN/MAX (mysql)"
        truncateSql := none
        countsWritten := false }
  | .postgres =>
      { fetchSql := pgSelect (buildSelectSql ctx.config ctx.srcDatabase .postgres)
        fetchContext := none
        probeSql := probePg ctx.config
        probeContext := "probe MIN/MAX (pg)"
        truncateSql := none
        countsWritten := false }

def mysqlToMysqlPath (ctx : LoopCtx) : EtlPath :=
  { sourcePath ctx .mySql with
    fetchContext := some "fetch batch (mysql)"
    truncateSql := maybeTruncateMysql ctx.config ctx.resumeCursor.isSome }

def pgToPgPath (ctx : LoopCtx) : EtlPath :=
  { sourcePath ctx .postgres with
    fetchContext := some "fetch batch (pg)"
    truncateSql := maybeTruncatePg ctx.config ctx.resumeCursor.isNone }

def mysqlToPgPath (ctx : LoopCtx) : EtlPath :=
  { sourcePath ctx .mySql with
    truncateSql := maybeTruncatePg ctx.config ctx.resumeCursor.isNone }

def pgToMysqlPath (ctx : LoopCtx) : EtlPath :=
  { sourcePath ctx .postgres with
    truncateSql := maybeTruncateMysql ctx.config ctx.resumeCursor.isNone }

def toClickhousePath (ctx : LoopCtx) (src : SourceKind) : EtlPath :=
  { sourcePath ctx src with
    truncateSql := maybeTruncateCh ctx.tgtDatabase ctx.config ctx.resumeCursor.isSome
    countsWritten := true }

def toDorisPath (ctx : LoopCtx) (src : SourceKind) : EtlPath :=
  { sourcePath ctx src with countsWritten := true }

section Members

variable [LinearOrder T] (chrono : Chrono T) (world : World ρ T) (ctx : LoopCtx) (n : Nat)

def etlMysqlToMysql : LoopState ρ × Option Exit := etl chrono world ctx (mysqlToMysqlPath ctx) n

def etlPgToPg : LoopState ρ × Option Exit := etl chrono world ctx (pgToPgPath ctx) n

def etlCross (src : SourceKind) (tgt : TargetKind) : LoopState ρ × Option Exit :=
  match src, tgt with
  | .mySql, .postgres => etl chrono world ctx (mysqlToPgPath ctx) n
  | .postgres, .mySql => etl chrono world ctx (pgToMysqlPath ctx) n
  | _, _ => refused "unsupported source/target combination for cross-driver ETL"

def etlToClickhouse (src : SourceKind) : LoopState ρ × Option Exit :=
  etl chrono world ctx (toClickhousePath ctx src) n

def etlToDorisStreamLoad (src : SourceKind) : LoopState ρ × Option Exit :=
  etl chrono world ctx (toDorisPath ctx src) n

/-! ## The run of a task -/

inductive DbType where
  | mySql
  | postgres
  | clickHouse
  | doris
deriving DecidableEq

def DbType.fromDbTypeStr (s : String) : Option DbType :=
  let word := String.ofList (Dbmaster.Lib.Text.asciiLower s.toList)
  if word = "mysql" then some .mySql
  else if word = "postgres" ∨ word = "postgresql" ∨ word = "pg" then some .postgres
  else if word = "clickhouse" then some .clickHouse
  else if word = "doris" then some .doris
  else none

/-- Dispatch by the driver pair. -/
def dispatch (src tgt : DbType) : LoopState ρ × Option Exit :=
  match src, tgt with
  | .mySql, .mySql => etlMysqlToMysql chrono world ctx n
  | .postgres, .postgres => etlPgToPg chrono world ctx n
  | .mySql, .postgres => etlCross chrono world ctx n .mySql .postgres
  | .postgres, .mySql => etlCross chrono world ctx n .postgres .mySql
  | .mySql, .clickHouse => etlToClickhouse chrono world ctx n .mySql
  | .postgres, .clickHouse => etlToClickhouse chrono world ctx n .postgres
  | .clickHouse, _ => refused "clickhouse can only be used as data_sync target, not source"
  | .mySql, .doris => etlToDorisStreamLoad chrono world ctx n .mySql
  | .postgres, .doris => etlToDorisStreamLoad chrono world ctx n .postgres
  | .doris, _ => refused "doris can only be used as data_sync target, not source"

end Members

structure ConnectionRow where
  dbType : String
  defaultDatabase : Option String

/-- What a run reads before its loop: each step yields its value or an error. -/
structure Setup where
  /-- the task row is fetched and its config parses -/
  config : Except String DataSyncTaskConfig
  /-- the target is set, both rows are loaded and both passwords decrypted -/
  connections : Except String (ConnectionRow × ConnectionRow)
  /-- both pools open -/
  pools : Except String Unit
  /-- `data_sync_default_batch_size` of the server -/
  defaultBatchSize : UInt64
  /-- cursor and status of the latest run row; an error when it cannot be read -/
  latestRun : Except String (Option (Option String × Option String))

def findResumableCursor : Option (Option String × Option String) → Option String
  | some (some cursor, status) => if status ≠ some "succeeded" then some cursor else none
  | _ => none

/-- The cursor a new run resumes from; a run that cannot read it starts fresh. -/
def Setup.resumeCursor (setup : Setup) : Option String :=
  match setup.latestRun with
  | .ok row => findResumableCursor row
  | .error _ => none

def loopCtx (setup : Setup) (cfg : DataSyncTaskConfig) (src tgt : ConnectionRow) : LoopCtx where
  config := cfg
  srcDatabase := src.defaultDatabase
  tgtDatabase := tgt.defaultDatabase
  batchSize := max (cfg.batching.batchSize.getD (max setup.defaultBatchSize 1)) 1
  resumeCursor := setup.resumeCursor
  batchRetries := cfg.batching.batchRetries.getD 3

/-- `run_task_inner`, followed for at most `n` turns of the loop. -/
def runTaskInner [LinearOrder T] (chrono : Chrono T) (setup : Setup) (world : World ρ T) (n : Nat) :
    LoopState ρ × Option Exit :=
  match setup.config with
  | .error e => refused e
  | .ok cfg =>
  match validate chrono cfg with
  | .error e => refused ("invalid config: " ++ e.text)
  | .ok _ =>
  match setup.connections with
  | .error e => refused e
  | .ok (srcConn, tgtConn) =>
  match DbType.fromDbTypeStr srcConn.dbType with
  | none => refused ("unsupported source db_type: " ++ srcConn.dbType)
  | some src =>
  match DbType.fromDbTypeStr tgtConn.dbType with
  | none => refused ("unsupported target db_type: " ++ tgtConn.dbType)
  | some tgt =>
  match src, setup.pools with
  | .mySql, .error e | .postgres, .error e => refused e
  | _, _ => dispatch chrono world (loopCtx setup cfg srcConn tgtConn) n src tgt

/-! ## The supported pairs -/

def SourceKind.dbType : SourceKind → DbType
  | .mySql => .mySql
  | .postgres => .postgres

/-- The path of a supported pair. -/
def pathFor (ctx : LoopCtx) : SourceKind → DbType → EtlPath
  | .mySql, .mySql => mysqlToMysqlPath ctx
  | .postgres, .postgres => pgToPgPath ctx
  | .mySql, .postgres => mysqlToPgPath ctx
  | .postgres, .mySql => pgToMysqlPath ctx
  | src, .clickHouse => toClickhousePath ctx src
  | src, .doris => toDorisPath ctx src

theorem dispatch_eq_etl [LinearOrder T] (chrono : Chrono T) (world : World ρ T) (ctx : LoopCtx)
    (n : Nat) (src : SourceKind) (tgt : DbType) :
    dispatch chrono world ctx n src.dbType tgt = etl chrono world ctx (pathFor ctx src tgt) n := by
  cases src <;> cases tgt <;> rfl

/-- The task and its connections load, and the pair is a supported one. -/
structure Loaded (chrono : Chrono T) (setup : Setup) (cfg : DataSyncTaskConfig)
    (srcConn tgtConn : ConnectionRow) (src : SourceKind) (tgt : DbType) : Prop where
  config : setup.config = .ok cfg
  valid : validate chrono cfg = .ok ()
  connections : setup.connections = .ok (srcConn, tgtConn)
  source : DbType.fromDbTypeStr srcConn.dbType = some src.dbType
  target : DbType.fromDbTypeStr tgtConn.dbType = some tgt
  pools : setup.pools = .ok ()

theorem runTaskInner_eq_etl [LinearOrder T] {chrono : Chrono T} {setup : Setup}
    {cfg : DataSyncTaskConfig} {srcConn tgtConn : ConnectionRow} {src : SourceKind} {tgt : DbType}
    (h : Loaded chrono setup cfg srcConn tgtConn src tgt) (world : World ρ T) (n : Nat) :
    runTaskInner chrono setup world n =
      etl chrono world (loopCtx setup cfg srcConn tgtConn)
        (pathFor (loopCtx setup cfg srcConn tgtConn) src tgt) n := by
  rw [← dispatch_eq_etl]
  simp only [runTaskInner, h.config, h.valid, h.connections, h.source, h.target, h.pools]
  cases src <;> rfl

/-! ## What a turn does -/

section Turns

variable {chrono : Chrono T} {world : World ρ T} {ctx : LoopCtx} {path : EtlPath}
variable {upper : String}

/-- The events of the attempts to insert what a turn fetched. -/
def batchEvents (world : World ρ T) (ctx : LoopCtx) (turn : Nat) (rows : List ρ) :
    List (TargetEvent ρ) :=
  match rows with
  | [] => []
  | rows => (retryBatchInsert ctx.batchRetries (world.insert turn) rows).1

/-- What one turn can do to the state, and how it can leave the function. -/
inductive Turned [LinearOrder T] (chrono : Chrono T) (world : World ρ T) (ctx : LoopCtx) (path : EtlPath)
    (upper : String) (s : LoopState ρ) : LoopState ρ × Option Exit → Prop
  /-- canceled, failed or panicked before the batch -/
  | stopped (exit : Exit) (hexit : ∀ processed failed, exit ≠ .ok ⟨processed, failed, false⟩) :
      Turned chrono world ctx path upper s (s, some exit)
  /-- the progress of the batch could not be saved -/
  | unsaved (t : LoopState ρ) (rows : List ρ) (message : String)
      (hevents : t.events = s.events ++ batchEvents world ctx s.turn rows) :
      Turned chrono world ctx path upper s (t, some (.err message))
  | moved (t : LoopState ρ) (next : String) (rows : List ρ) (exit : Option Exit)
      (hadvance : advanceCursor chrono s.cursor ctx.batchSize = some next)
      (hfetch : world.fetch s.turn path.fetchSql s.cursor next = .ok rows)
      (hevents : t.events = s.events ++ batchEvents world ctx s.turn rows)
      (hexit : exit.isSome = cursorGt chrono next upper)
      (hagain : exit = none → t.turn = s.turn + 1 ∧ t.cursor = next) :
      Turned chrono world ctx path upper s (t, exit)

theorem handBatch_events (row : ρ) (rows : List ρ) (s : LoopState ρ) :
    (handBatch world ctx path (row :: rows) s).events =
      s.events ++ batchEvents world ctx s.turn (row :: rows) := by
  unfold handBatch
  cases hinserted : (retryBatchInsert ctx.batchRetries (world.insert s.turn) (row :: rows)).2 with
  | none => simp only [hinserted, batchEvents]
  | some written => simp only [hinserted, batchEvents]

theorem handBatch_turn (rows : List ρ) (s : LoopState ρ) :
    (handBatch world ctx path rows s).turn = s.turn := by
  unfold handBatch
  dsimp only
  split <;> rfl

theorem etlTurn_cases [LinearOrder T] (s : LoopState ρ) :
    Turned chrono world ctx path upper s (etlTurn chrono world ctx path upper s) := by
  unfold etlTurn
  split
  case h_1 => exact .stopped _ (by simp)
  case h_2 => exact .stopped _ (by simp)
  case h_3 =>
    split
    case h_1 => exact .stopped _ (by simp)
    case h_2 next hadvance =>
      split
      case h_1 => exact .stopped _ (by simp)
      case h_2 hfetch =>
        by_cases hgt : cursorGt chrono next upper = true
        · rw [if_pos hgt]
          exact .moved _ next [] _ hadvance hfetch (by simp [batchEvents]) hgt.symm (by simp)
        · rw [if_neg hgt]
          exact .moved _ next [] _ hadvance hfetch (by simp [batchEvents, LoopState.advance])
            (by simpa using hgt) (fun _ => ⟨rfl, rfl⟩)
      case h_3 row rows hfetch =>
        have hevents := @handBatch_events ρ T world ctx path row rows s
        have hturn := @handBatch_turn ρ T world ctx path (row :: rows) s
        dsimp only
        by_cases hsave : world.savesProgress s.turn = false
        · rw [if_pos hsave]
          exact .unsaved _ (row :: rows) _ hevents
        · rw [if_neg hsave]
          by_cases hgt : cursorGt chrono next upper = true
          · rw [if_pos hgt]
            exact .moved _ next (row :: rows) _ hadvance hfetch hevents hgt.symm (by simp)
          · rw [if_neg hgt]
            exact .moved _ next (row :: rows) _ hadvance hfetch hevents (by simpa using hgt)
              (fun _ => ⟨by simp [LoopState.advance, hturn], rfl⟩)

theorem etlTurn_goes_on [LinearOrder T] {s : LoopState ρ}
    (hgo : (etlTurn chrono world ctx path upper s).2 = none) :
    ∃ next, advanceCursor chrono s.cursor ctx.batchSize = some next ∧
      (etlTurn chrono world ctx path upper s).1.cursor = next ∧
      cursorGt chrono next upper = false := by
  have hturned : Turned chrono world ctx path upper s
    (etlTurn chrono world ctx path upper s) := etlTurn_cases s
  generalize etlTurn chrono world ctx path upper s = r at hturned hgo
  cases hturned with
  | stopped => cases hgo
  | unsaved => cases hgo
  | moved t next rows exit hadvance _ _ hexit hagain =>
      cases hgo
      exact ⟨next, hadvance, (hagain rfl).2, by simpa using hexit.symm⟩

theorem turns_of_exit [LinearOrder T] {s : LoopState ρ} {exit : Exit} (n : Nat)
    (h : (etlTurn chrono world ctx path upper s).2 = some exit) :
    turns chrono world ctx path upper (n + 1) s = etlTurn chrono world ctx path upper s := by
  unfold turns
  split
  case h_1 t hturn =>
    rw [hturn] at h
    cases h
  case h_2 t exit' hturn => exact hturn.symm

theorem turns_of_none [LinearOrder T] {s : LoopState ρ} (n : Nat)
    (h : (etlTurn chrono world ctx path upper s).2 = none) :
    turns chrono world ctx path upper (n + 1) s =
      turns chrono world ctx path upper n (etlTurn chrono world ctx path upper s).1 := by
  conv_lhs => unfold turns
  split
  case h_1 t hturn => rw [hturn]
  case h_2 t exit hturn =>
    rw [hturn] at h
    cases h

/-! ## What a run does to the target -/

def InsertsOnly (events : List (TargetEvent ρ)) : Prop :=
  ∀ e ∈ events, ∃ rows written, e = .insert rows written

theorem attemptInsert_insertsOnly (insert : Nat → List ρ → Option Nat) (rows : List ρ)
    (left attempt : Nat) : InsertsOnly (attemptInsert insert rows left attempt).1 := by
  induction left generalizing attempt with
  | zero =>
      intro e he
      cases he
  | succ left ih =>
      intro e he
      unfold attemptInsert at he
      split at he
      · rw [List.mem_singleton] at he
        exact ⟨_, _, he⟩
      · rcases List.mem_cons.mp he with rfl | hrest
        · exact ⟨_, _, rfl⟩
        · exact ih (attempt + 1) e hrest

theorem batchEvents_insertsOnly (turn : Nat) (rows : List ρ) :
    InsertsOnly (batchEvents world ctx turn rows) := by
  cases rows with
  | nil =>
      intro e he
      cases he
  | cons row rows => exact attemptInsert_insertsOnly _ _ _ _

theorem Turned.insertsOnly [LinearOrder T] {s : LoopState ρ} {r : LoopState ρ × Option Exit}
    (h : Turned chrono world ctx path upper s r) :
    ∃ inserts, InsertsOnly inserts ∧ r.1.events = s.events ++ inserts := by
  cases h with
  | stopped exit hexit => exact ⟨[], by simp [InsertsOnly], by simp⟩
  | unsaved t rows message hevents => exact ⟨_, batchEvents_insertsOnly s.turn rows, hevents⟩
  | moved t next rows exit hadvance hfetch hevents hexit hagain =>
      exact ⟨_, batchEvents_insertsOnly s.turn rows, hevents⟩

theorem turns_events [LinearOrder T] (n : Nat) (s : LoopState ρ) :
    ∃ inserts, InsertsOnly inserts ∧
      (turns chrono world ctx path upper n s).1.events = s.events ++ inserts := by
  induction n generalizing s with
  | zero => exact ⟨[], by simp [InsertsOnly], by simp [turns]⟩
  | succ n ih =>
      have hturned : Turned chrono world ctx path upper s
        (etlTurn chrono world ctx path upper s) := etlTurn_cases s
      obtain ⟨first, hfirst, heq⟩ := hturned.insertsOnly
      unfold turns
      split
      case h_1 t hstep =>
        rw [hstep] at heq
        obtain ⟨rest, hrest, hevents⟩ := ih t
        refine ⟨first ++ rest, ?_, by rw [hevents, heq, List.append_assoc]⟩
        intro e he
        rcases List.mem_append.mp he with h | h
        · exact hfirst e h
        · exact hrest e h
      case h_2 t exit hstep =>
        rw [hstep] at heq
        exact ⟨first, hfirst, heq⟩

end Turns

end Dbmaster.DataSync.Etl
