import Dbmaster.NativeCollector.Digest
import Dbmaster.Lib.CivilTime
import Mathlib.Data.List.Sort
import Mathlib.Logic.Function.Basic
/-!
# The collector of a MySQL connection

A server that logs and counts what it executes, and the tick that reads one of its two
sources.  The executions behind a row of `query_stats` are kept beside it, and so are
the readings of the digest table.
-/

namespace Dbmaster.NativeCollector.Collector

open Dbmaster.Lib.Text Dbmaster.NativeCollector.Digest

variable {T : Type}

/-! ## The server -/

structure Statement (T : Type) where
  digest : DigestId
  digestText : List Char
  db : Option (List Char)
  sqlText : Option (List Char)
  startTime : T
  queryTime : List Char
  /-- in picoseconds -/
  timerWait : Nat

/-- A statement executed; the executions of a server are numbered from 1. -/
structure Execution (T : Type) extends Statement T where
  number : Nat

/-- A row of the digest table, with the executions it counts. -/
structure DigestEntry (T : Type) where
  id : DigestId
  text : List Char
  executions : List (Execution T)

def DigestEntry.countStar (entry : DigestEntry T) : Nat := entry.executions.length

def DigestEntry.sumTimerWait (entry : DigestEntry T) : Nat :=
  entry.executions.foldl (fun total e => total + e.timerWait) 0

/-- The row of `now_rows`. -/
def DigestEntry.row (entry : DigestEntry T) : DigestRow :=
  { key := entry.id.key
    digestText := entry.text
    countStar := saturate entry.countStar
    totalMs := psToMs (saturate entry.sumTimerWait) }

structure Server (T : Type) where
  executed : Nat
  slowQueryLog : Int
  logOutput : List Char
  performanceSchema : Bool
  slowLog : List (Execution T)
  digests : List (DigestEntry T)

def Server.initial : Server T := ⟨0, 0, "FILE".toList, true, [], []⟩

/-- The slow log is on and goes to its table. -/
def Server.slowLogUsable (server : Server T) : Bool :=
  !(decide (server.slowQueryLog = 0) ||
    !(afterFirst "table" (lower server.logOutput)).isSome)

/-- The digest table after one more execution. -/
def countExecution (e : Execution T) : List (DigestEntry T) → List (DigestEntry T)
  | [] => [⟨e.digest, e.digestText, [e]⟩]
  | entry :: entries =>
      if entry.id.key = e.digest.key then
        { entry with executions := entry.executions ++ [e] } :: entries
      else entry :: countExecution e entries

/-- `logged` is whether the statement is a slow one, `counted` whether the digest table
has an entry for it. -/
def Server.execute (server : Server T) (st : Statement T) (logged counted : Bool) : Server T :=
  let e : Execution T := ⟨st, server.executed + 1⟩
  { server with
    executed := server.executed + 1
    slowLog := if logged && server.slowLogUsable then server.slowLog ++ [e] else server.slowLog
    digests := if counted && server.performanceSchema then countExecution e server.digests
      else server.digests }

/-! ## The collector -/

def mysqlSource : String := "db_native:mysql_slow_log"

def psDigestSource : String := "db_native:mysql_ps_digest"

def psSnapshotDigests : Nat := 500

def sqlTextMaxChars : Nat := 8192

/-- What the column `cursor` can hold. -/
inductive CursorText (T : Type) where
  | stamp (t : T)
  | snapshot (snap : PsSnapshot)

def CursorText.stamp? : CursorText T → Option T
  | .stamp t => some t
  | .snapshot _ => none

def CursorText.snapshot? : CursorText T → Option PsSnapshot
  | .stamp _ => none
  | .snapshot snap => some snap

/-- A row of `query_stats`. -/
structure QueryStat where
  source : String
  database : Option (List Char)
  digest : List Char
  sqlText : Option (List Char)
  elapsedMs : Int
  queryCount : Option Int

/-- The executions a row stands for. -/
inductive Origin (T : Type) where
  | slowLog (e : Execution T)
  /-- counted by the digest table; `since` is its previous reading -/
  | digests (es : List (Execution T)) (since : Nat)

structure Sample (T : Type) where
  stat : QueryStat
  origin : Origin T

structure State (T : Type) where
  server : Server T
  /-- the cursors of the connection, by source -/
  cursors : String → Option (CursorText T)
  samples : List (Sample T)
  /-- the executions before the last reading of the digest table -/
  lastReading : Nat
  /-- the readings that a digest difference was taken of -/
  differences : List (Nat × Nat)

def State.initial : State T := ⟨.initial, fun _ => none, [], 0, []⟩

/-- What a tick meets. -/
structure Answers (T : Type) where
  /-- the connection loads and opens, and its settings are read -/
  connects : Bool
  /-- `mysql_source_now_minus_hours(1)` -/
  hourAgo : T
  /-- the queries on the source succeed -/
  reads : Bool
  /-- the order of digests of the same total time -/
  tie : DigestEntry T → Nat
  cursorReads : Bool
  /-- whether the row of this number is inserted -/
  inserts : Nat → Bool
  cursorPuts : Bool

def cursorGet (s : State T) (source : String) (reads : Bool) : Option (CursorText T) :=
  if reads then s.cursors source else none

/-- A failed write is logged, and the cursor stays. -/
def cursorPut (s : State T) (source : String) (cursor : CursorText T) (puts : Bool) : State T :=
  if puts then { s with cursors := Function.update s.cursors source (some cursor) } else s

/-- The items whose insert succeeds, the first of them numbered `i`. -/
def stored {α : Type} (inserts : Nat → Bool) : Nat → List α → List α
  | _, [] => []
  | i, item :: items =>
      if inserts i then item :: stored inserts (i + 1) items
      else stored inserts (i + 1) items

/-- `str::parse::<i64>`, within its range. -/
def parseI64 (text : List Char) : Option Int :=
  match text with
  | [] => none
  | ['-'] => none
  | ['+'] => none
  | '-' :: digits => (Dbmaster.Lib.CivilTime.number digits).map fun n => -n
  | '+' :: digits => Dbmaster.Lib.CivilTime.number digits
  | digits => Dbmaster.Lib.CivilTime.number digits

/-- `HH:MM:SS[.ffffff]` in milliseconds. -/
def parseMysqlTimeMs (text : List Char) : Int :=
  let parts := text.splitOn ':'
  let h := ((parts[0]?).bind parseI64).getD 0
  let m := ((parts[1]?).bind parseI64).getD 0
  let secText := (parts[2]?).getD "0".toList
  let (sec, fracMs) :=
    match splitOnce '.' secText with
    | some (sec, frac) =>
        ((parseI64 sec).getD 0,
          if frac.isEmpty then 0
          else (parseI64 ((frac ++ List.replicate (6 - frac.length) '0').take 3)).getD 0)
    | none => ((parseI64 secText).getD 0, 0)
  h * 3600000 + m * 60000 + sec * 1000 + fracMs

def truncateChars (text : List Char) (max : Nat) : List Char :=
  if text.length ≤ max then text else text.take max ++ ['…']

/-- `insert_native` -/
def nativeStat (database : Option (List Char)) (source : String) (digest : List Char)
    (sqlText : Option (List Char)) (elapsedMs : Int) (queryCount : Option Int) : QueryStat :=
  { source := source
    database := database
    digest := digest
    sqlText := sqlText.map fun text => truncateChars text sqlTextMaxChars
    elapsedMs := elapsedMs
    queryCount := queryCount }

section Tick

variable (normalizeDigest : List Char → List Char)

def slowSample (e : Execution T) : Sample T where
  stat := nativeStat e.db mysqlSource (normalizeDigest (e.sqlText.getD [])) e.sqlText
    (max (parseMysqlTimeMs e.queryTime) 1) none
  origin := .slowLog e

def digestSample (delta : PsDelta) (covered : List (Execution T)) (since : Nat) : Sample T where
  stat := nativeStat delta.schema psDigestSource (normalizeDigest delta.digestText)
    (some delta.digestText) (max delta.totalMs 1) (some delta.count)
  origin := .digests covered since

variable [LinearOrder T]

/-- Where a tick starts to read `slow_log`. -/
def slowStart (s : State T) (a : Answers T) : T :=
  ((cursorGet s mysqlSource a.cursorReads).bind CursorText.stamp?).getD a.hourAgo

/-- The rows after the cursor, in the order of `start_time`. -/
def slowRows (s : State T) (start : T) : List (Execution T) :=
  (s.server.slowLog.filter fun e => decide (start < e.startTime)).insertionSort
    fun e e' => e.startTime ≤ e'.startTime

/-- `collect_mysql` where the slow log is usable. -/
def collectSlowLog (s : State T) (a : Answers T) : State T :=
  if a.reads then
    let start := slowStart s a
    let rows := stored a.inserts 0 (slowRows s start)
    let s' := { s with samples := s.samples ++ rows.map (slowSample normalizeDigest) }
    if rows.isEmpty then s'
    else cursorPut s' mysqlSource
      (.stamp (rows.foldl (fun latest e => max latest e.startTime) start)) a.cursorPuts
  else s

omit [LinearOrder T] in
/-- The top of the digest table by its total time. -/
def topDigests (s : State T) (a : Answers T) : List (DigestEntry T) :=
  (s.server.digests.insertionSort fun entry entry' =>
    entry'.sumTimerWait < entry.sumTimerWait ∨
      entry.sumTimerWait = entry'.sumTimerWait ∧ a.tie entry ≤ a.tie entry').take psSnapshotDigests

omit [LinearOrder T] in
def prevSnapshot (s : State T) (a : Answers T) : Option PsSnapshot :=
  (cursorGet s psDigestSource a.cursorReads).bind CursorText.snapshot?

/-- The executions of an entry after those that the snapshot counts. -/
def covered (prev : PsSnapshot) (entry : DigestEntry T) : List (Execution T) :=
  entry.executions.drop (((prev.get entry.id.key).map Prod.fst).getD 0).toNat

/-- The deltas of `diff_ps_snapshots`, with the executions they cover. -/
def coveredDeltas (prev : Option PsSnapshot) (entries : List (DigestEntry T)) :
    List (PsDelta × List (Execution T)) :=
  match prev with
  | none => []
  | some prev =>
      if wentBack prev (entries.map DigestEntry.row) then []
      else entries.filterMap fun entry =>
        (diffRow prev entry.row).map fun delta => (delta, covered prev entry)

omit [LinearOrder T] in
def collectMysqlPsDigest (s : State T) (a : Answers T) : State T :=
  if a.reads && s.server.performanceSchema then
    let entries := topDigests s a
    let prev := prevSnapshot s a
    let deltas := stored a.inserts 0 (coveredDeltas prev entries)
    cursorPut
      { s with
        samples := s.samples ++
          deltas.map fun delta => digestSample normalizeDigest delta.1 delta.2 s.lastReading
        lastReading := s.server.executed
        differences := s.differences ++ prev.toList.map fun snap => (snap.t, s.server.executed) }
      psDigestSource (.snapshot (snapshotOf s.server.executed (entries.map DigestEntry.row)))
      a.cursorPuts
  else s

def collectMysql (s : State T) (a : Answers T) : State T :=
  if !a.connects then s
  else if s.server.slowLogUsable then collectSlowLog normalizeDigest s a
  else collectMysqlPsDigest normalizeDigest s a

/-! ## Runs -/

inductive Action (T : Type) where
  | execute (st : Statement T) (logged counted : Bool)
  | configure (slowQueryLog : Int) (logOutput : List Char)
  | truncateSlowLog
  | truncateDigests
  | evictDigest (id : DigestId)
  | restartServer (slowQueryLog : Int) (logOutput : List Char) (performanceSchema : Bool)
  | tick (a : Answers T)

def serverStep (server : Server T) : Action T → Server T
  | .execute st logged counted => server.execute st logged counted
  | .configure slowQueryLog logOutput =>
      { server with slowQueryLog := slowQueryLog, logOutput := logOutput }
  | .truncateSlowLog => { server with slowLog := [] }
  | .truncateDigests => { server with digests := [] }
  | .evictDigest id =>
      { server with digests := server.digests.filter fun entry => decide (entry.id.key ≠ id.key) }
  | .restartServer slowQueryLog logOutput performanceSchema =>
      { server with
        slowQueryLog := slowQueryLog
        logOutput := logOutput
        performanceSchema := performanceSchema
        digests := [] }
  | .tick _ => server

/-- A tick reads one state of the server; between two ticks anything may happen to it. -/
def step (s : State T) : Action T → Option (State T)
  | .tick a => some (collectMysql normalizeDigest s a)
  | act => some { s with server := serverStep s.server act }

end Tick

theorem covered_eq {prev : PsSnapshot} {entry : DigestEntry T} {pc ptotal : Int}
    (h : prev.get entry.id.key = some (pc, ptotal)) :
    covered prev entry = entry.executions.drop pc.toNat := by
  rw [covered, h, Option.map_some, Option.getD_some]

end Dbmaster.NativeCollector.Collector
