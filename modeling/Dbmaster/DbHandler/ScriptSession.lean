import Dbmaster.DbHandler.Execute
import Dbmaster.Lib.Sessions
/-!
# The sessions of a script

`admin_script` opens a connection for each statement.  The target is a server with sessions:
what a statement leaves in its session ends with the connection.
-/

namespace Dbmaster.DbHandler.ScriptSession

open Dbmaster.Lib Dbmaster.Lib.Sessions Dbmaster.Gateway.Classify Dbmaster.Gateway.Query
  Dbmaster.DbHandler.Execute

/-- What the server answers to a statement; which of the two results is read depends on the
statement. -/
structure Reply where
  refusesPrepare : Bool
  fetched : Except String Fetched
  affected : Except String Nat

/-- A session holds what a connection has beside the database: variables, the database in use,
options, temporary tables, locks, an open transaction. -/
structure Server (Session Database : Type) where
  /-- the `n`-th connection of the request, to the database it names -/
  connect : Option String → Nat → Database → Except HttpError Session
  /-- the statement, and whether its rows are fetched -/
  execute : Session → Database → String → Bool → Reply × Session × Database
  disconnect : Session → Database → Database
  /-- a connection that was not used leaves the database as it is -/
  disconnect_new : ∀ {dbName n database session}, connect dbName n database = .ok session →
    disconnect session database = database

namespace Server

variable {Session Database : Type} (server : Server Session Database)

abbrev Link (Session Database : Type) := Except HttpError Session × Database

def next (link : Link Session Database) (stmt : String) : Link Session Database :=
  match link.1 with
  | .error _ => link
  | .ok session =>
      let (_, session, database) :=
        server.execute session link.2 stmt (isSelectStatement stmt)
      (.ok session, database)

def stop (link : Link Session Database) : Database :=
  match link.1 with
  | .error _ => link.2
  | .ok session => server.disconnect session link.2

def service (dbName : Option String) : Service (Link Session Database) Database String where
  start n database := (server.connect dbName n database, database)
  next := server.next
  stop := server.stop
  stop_start n database := by
    unfold stop
    cases h : server.connect dbName n database with
    | error e => rfl
    | ok session => exact server.disconnect_new h

/-- What the target does with a statement on a connection. -/
def turn (link : Link Session Database) (stmt : String) : Turn :=
  match link.1 with
  | .error e => ⟨.error e, false, .error "", .error ""⟩
  | .ok session =>
      let (reply, _) := server.execute session link.2 stmt (isSelectStatement stmt)
      ⟨.ok (), reply.refusesPrepare, reply.fetched, reply.affected⟩

def entry (family : Family) (limit : Nat) (link : Link Session Database) (stmt : String) : Json :=
  entryOf stmt
    (executeQuery family (server.turn link stmt) stmt limit (isSelectStatement stmt)).result

/-- Each statement of a request has a connection of its own. -/
def environment (loaded : Except HttpError Execute.ConnRow) (database : Database) (stmts : List String) :
    Environment where
  loaded := loaded
  turns dbName n :=
    let service := server.service dbName
    server.turn (service.start n (service.storeAfter 0 database (stmts.take n))) (stmts.getD n "")
  elapsedMs := 0

/-- The answer to the script when all its statements are executed on one connection. -/
def sessionScript (alphanumeric : Char → Bool) (loaded : Except HttpError Execute.ConnRow)
    (database : Database) (body : AdminScriptBody) : Except HttpError Json :=
  match load (server.environment loaded database (statementsOf alphanumeric body.script))
      body.db with
  | .error e => .error e
  | .ok (family, dbName) =>
      .ok (.obj [("results", .arr ((server.service dbName).answers
        (server.entry family (clampLimit body.limit)) ((server.service dbName).start 0 database)
        (statementsOf alphanumeric body.script)))])

variable (alphanumeric : Char → Bool) (loaded : Except HttpError Execute.ConnRow)
  (database : Database) (body : AdminScriptBody)

def execution : Execution :=
  adminScript alphanumeric
    (server.environment loaded database (statementsOf alphanumeric body.script)) body

/-- The results are those of one connection, and the database is at each statement. -/
structure OneSession (dbName : Option String) : Prop where
  results : (server.execution alphanumeric loaded database body).result =
    server.sessionScript alphanumeric loaded database body
  databases : ∀ part, part <+: statementsOf alphanumeric body.script →
    (server.service dbName).storeAfter 0 database part =
      (server.service dbName).stop
        ((server.service dbName).after ((server.service dbName).start 0 database) part)

variable {alphanumeric loaded database body}

theorem entries_eq (loaded : Except HttpError Execute.ConnRow) (database : Database)
    (family : Family) (dbName : Option String) (limit : Nat) (stmts : List String) :
    ((stmts.mapIdx fun n stmt => (stmt, executeQuery family
      ((server.environment loaded database stmts).turns dbName n) stmt limit
      (isSelectStatement stmt))).map fun run => entryOf run.1 run.2.result) =
      (server.service dbName).ownAnswers (server.entry family limit) 0 database stmts := by
  apply List.ext_getElem?
  intro n
  rw [List.getElem?_map, List.getElem?_mapIdx, Service.getElem?_ownAnswers, Nat.zero_add,
    Option.map_map]
  cases hstmt : stmts[n]? with
  | none => rfl
  | some stmt =>
      have hget : stmts.getD n "" = stmt := by rw [List.getD_eq_getElem?_getD, hstmt]; rfl
      have hturn : (server.environment loaded database stmts).turns dbName n =
          server.turn ((server.service dbName).start n
            ((server.service dbName).storeAfter 0 database (stmts.take n))) stmt := by
        rw [← hget]
        rfl
      show some (entryOf stmt (executeQuery family _ stmt limit (isSelectStatement stmt)).result) = _
      rw [hturn]
      rfl

theorem result_execution {family : Family} {dbName : Option String}
    (hload : load (server.environment loaded database (statementsOf alphanumeric body.script))
      body.db = .ok (family, dbName)) :
    (server.execution alphanumeric loaded database body).result =
      .ok (.obj [("results", .arr ((server.service dbName).ownAnswers
        (server.entry family (clampLimit body.limit)) 0 database
        (statementsOf alphanumeric body.script)))]) := by
  unfold execution adminScript
  rw [hload, ← server.entries_eq loaded]

theorem result_sessionScript {family : Family} {dbName : Option String}
    (hload : load (server.environment loaded database (statementsOf alphanumeric body.script))
      body.db = .ok (family, dbName)) :
    server.sessionScript alphanumeric loaded database body =
      .ok (.obj [("results", .arr ((server.service dbName).answers
        (server.entry family (clampLimit body.limit)) ((server.service dbName).start 0 database)
        (statementsOf alphanumeric body.script)))]) := by
  unfold sessionScript
  rw [hload]

/-- A script is executed as in one session if and only if no statement tells the session that
the statements before it left from a new one. -/
theorem oneSession_iff {family : Family} {dbName : Option String}
    (hload : load (server.environment loaded database (statementsOf alphanumeric body.script))
      body.db = .ok (family, dbName)) :
    server.OneSession alphanumeric loaded database body dbName ↔
      ∀ before stmt rest, statementsOf alphanumeric body.script = before ++ stmt :: rest →
        (server.service dbName).Indifferent (server.entry family (clampLimit body.limit))
          before.length
          ((server.service dbName).after ((server.service dbName).start 0 database) before)
          stmt := by
  rw [← Service.agree_iff]
  constructor
  · rintro ⟨hresults, hdatabases⟩
    rw [server.result_execution hload, server.result_sessionScript hload] at hresults
    simp only [Except.ok.injEq, Json.obj.injEq, List.cons.injEq, Prod.mk.injEq, Json.arr.injEq,
      and_true, true_and] at hresults
    exact ⟨hresults, hdatabases⟩
  · rintro ⟨hresults, hdatabases⟩
    refine ⟨?_, hdatabases⟩
    rw [server.result_execution hload, server.result_sessionScript hload, hresults]

end Server

/-! ## A table and its transactions -/

/-- The rows of `t`; a session holds how many there were when its transaction started. -/
def counter : Server (Option Nat) Nat where
  connect _ _ _ := .ok none
  execute session rows stmt _ :=
    if stmt = "START TRANSACTION" then (⟨false, .ok ⟨[], []⟩, .ok 0⟩, some rows, rows)
    else if stmt = "INSERT INTO t VALUES (1)" then (⟨false, .ok ⟨[], []⟩, .ok 1⟩, session, rows + 1)
    else if stmt = "ROLLBACK" then (⟨false, .ok ⟨[], []⟩, .ok 0⟩, none, session.getD rows)
    else (⟨false, .ok ⟨[], []⟩, .ok 0⟩, session, rows)
  disconnect session rows := session.getD rows
  disconnect_new := by
    rintro dbName n rows session ⟨⟩
    rfl

def onMysql : Except HttpError Execute.ConnRow := .ok ⟨"mysql", none⟩

/-- Two inserts are executed as in one session; a transaction is not, where a statement tells
the session it is in from a new one. -/
theorem oneSession_iff_of_insert :
    counter.OneSession Char.isAlphanum onMysql 0
        ⟨none, "INSERT INTO t VALUES (1); INSERT INTO t VALUES (1)", none⟩ none ∧
      ¬ ∀ before stmt rest, statementsOf Char.isAlphanum
          "START TRANSACTION; INSERT INTO t VALUES (1); ROLLBACK" = before ++ stmt :: rest →
        (counter.service none).Indifferent (counter.entry (.mySql .prepare) (clampLimit none))
          before.length
          ((counter.service none).after ((counter.service none).start 0 0) before) stmt := by
  constructor
  · refine (@Server.oneSession_iff _ _ counter _ _ _ _ _ _ rfl).mpr fun before stmt rest hsplit => ?_
    have hstmts : statementsOf Char.isAlphanum "INSERT INTO t VALUES (1); INSERT INTO t VALUES (1)" =
        ["INSERT INTO t VALUES (1)", "INSERT INTO t VALUES (1)"] := by decide +kernel
    have hpair := hstmts.symm.trans hsplit
    rcases before with _ | ⟨first, _ | ⟨second, before⟩⟩
    · exact Service.indifferent_of_new _ _ rfl stmt
    · obtain ⟨rfl, -⟩ := List.cons.inj hpair
      exact Service.indifferent_of_new _ _ rfl stmt
    · have hlength := congrArg List.length hpair
      simp at hlength
  · intro hall
    have hone : counter.OneSession Char.isAlphanum onMysql 0
        ⟨none, "START TRANSACTION; INSERT INTO t VALUES (1); ROLLBACK", none⟩ none :=
      (@Server.oneSession_iff _ _ counter _ _ _ _ _ _ rfl).mpr hall
    exact absurd (hone.databases _ (List.prefix_refl _)) (by decide)

/-- A row that is taken back stays. -/
theorem insert_outlives_rollback :
    let script := "START TRANSACTION; INSERT INTO t VALUES (1); ROLLBACK"
    let stmts := statementsOf Char.isAlphanum script
    let service := counter.service none
    service.storeAfter 0 0 stmts = 1 ∧ service.stop (service.after (service.start 0 0) stmts) = 0 ∧
      ¬ counter.OneSession Char.isAlphanum onMysql 0 ⟨none, script, none⟩ none := by
  intro script stmts service
  have hown : service.storeAfter 0 0 stmts = 1 := by decide
  have hone : service.stop (service.after (service.start 0 0) stmts) = 0 := by decide
  refine ⟨hown, hone, fun h => ?_⟩
  have hfinal := h.databases stmts (List.prefix_refl stmts)
  rw [show counter.service none = service from rfl, hown, hone] at hfinal
  cases hfinal

end Dbmaster.DbHandler.ScriptSession
