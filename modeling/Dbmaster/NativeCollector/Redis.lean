import Dbmaster.NativeCollector.Collector
import Dbmaster.Redis.Resp
import Dbmaster.Lib.Transition
import Dbmaster.Lib.Watermark
/-!
# The collector of a Redis connection

A server that keeps its newest slow commands, numbered from zero after every restart, and
the tick that reads some of them.  What was ever read is kept beside the state.
-/

namespace Dbmaster.NativeCollector.Redis

open Dbmaster.Lib Dbmaster.Lib.Transition Dbmaster.Redis Dbmaster.Mongo.ExtendedJson
open Dbmaster.NativeCollector.Collector (QueryStat nativeStat stored)

/-! ## The server -/

structure SlowCommand where
  timestamp : Int64
  /-- in microseconds -/
  duration : Int64
  args : List (List UInt8)
  /-- the address and the name of the client, where the server sends them -/
  client : List Resp

/-- An entry of the slow log; no two entries of all restarts have one serial. -/
structure LogEntry extends SlowCommand where
  serial : Nat
  id : Int64

def LogEntry.reply (entry : LogEntry) : Resp :=
  .array ([.int entry.id, .int entry.timestamp, .int entry.duration,
    .array (entry.args.map .bulkString)] ++ entry.client)

structure Server where
  logged : Nat
  nextId : Int64
  /-- the newest first -/
  slowLog : List LogEntry

def Server.initial : Server := ⟨0, 0, []⟩

def Server.log (server : Server) (command : SlowCommand) (maxLen : Nat) : Server :=
  { logged := server.logged + 1
    nextId := server.nextId + 1
    slowLog := ({ command with serial := server.logged, id := server.nextId } ::
      server.slowLog).take maxLen }

/-! ## The collector -/

def redisSource : String := "db_native:redis_slowlog"

def slowlogBatch : Nat := 128

/-- The parts of an entry that are read. -/
structure Parts where
  id : Int
  durUs : Int
  args : List String

def asInt : Value → Option Int
  | .int n => (asI64 n).map Int64.toInt
  | _ => none

def asArray : Value → Option (List Value)
  | .array items => some items
  | _ => none

/-- An entry of fewer than four parts is passed over. -/
def readParts (entry : Value) : Option Parts :=
  match entry with
  | .array (id :: _ :: dur :: args :: _) =>
      some
        { id := (asInt id).getD 0
          durUs := (asInt dur).getD 0
          args := ((asArray args).map fun xs => xs.map fun x => (x.asStr).getD "").getD [] }
  | _ => none

/-- A command of the slow log itself, or none at all. -/
def ownCommand (args : List String) : Bool :=
  match args with
  | [] => true
  | arg :: _ => Text.asciiLower arg.toList == "slowlog".toList

def eligible (last : Nat) (parts : Parts) : Bool :=
  !(ownCommand parts.args || decide (parts.id ≤ 0) || decide (parts.id.toNat ≤ last))

structure Sample where
  stat : QueryStat
  entry : LogEntry

structure State where
  server : Server
  cursor : Option Nat
  samples : List Sample
  /-- every entry that a tick was sent -/
  fetched : List LogEntry

def State.initial : State := ⟨.initial, none, [], []⟩

/-- What a tick meets. -/
structure Answers where
  /-- the connection loads and opens, and the slow log is read -/
  connects : Bool
  cursorReads : Bool
  /-- whether the row of this number is inserted -/
  inserts : Nat → Bool
  cursorPuts : Bool

/-- What `SLOWLOG GET` sends. -/
def batch (s : State) : List LogEntry := s.server.slowLog.take slowlogBatch

def lastId (s : State) (a : Answers) : Nat :=
  (if a.cursorReads then s.cursor else none).getD 0

/-- The entries that are inserted if they can be, with what is read of them. -/
def attempts (last : Nat) (entries : List LogEntry) : List (LogEntry × Parts) :=
  entries.filterMap fun entry =>
    ((readParts (respToJson entry.reply)).filter (eligible last)).map fun parts => (entry, parts)

def markOf (row : LogEntry × Parts) : Nat := row.2.id.toNat

section Tick

variable (toUppercase : List Char → List Char)

/-- `normalize_redis` -/
def normalizeRedis (args : List String) : List Char :=
  "redis:".toList ++ toUppercase ((args.head?.map String.toList).getD []) ++ ":".toList ++
    (toString args.length).toList

def sampleOf (row : LogEntry × Parts) : Sample where
  stat := nativeStat none redisSource (normalizeRedis toUppercase row.2.args)
    (some (" ".intercalate row.2.args).toList) (max (row.2.durUs.tdiv 1000) 1) none
  entry := row.1

def collectRedis (s : State) (a : Answers) : State :=
  if a.connects then
    let last := lastId s a
    let rows := stored a.inserts 0 (attempts last (batch s))
    let maxId := rows.foldl (fun m row => max m (markOf row)) last
    { s with
      samples := s.samples ++ rows.map (sampleOf toUppercase)
      fetched := s.fetched ++ batch s
      cursor := if last < maxId ∧ a.cursorPuts = true then some maxId else s.cursor }
  else s

inductive Action where
  | log (command : SlowCommand) (maxLen : Nat)
  | reset
  | restart
  | tick (a : Answers)

def step (s : State) : Action → Option State
  | .log command maxLen => some { s with server := s.server.log command maxLen }
  | .reset => some { s with server := { s.server with slowLog := [] } }
  | .restart => some { s with server := { s.server with nextId := 0, slowLog := [] } }
  | .tick a => some (collectRedis toUppercase s a)

end Tick

end Dbmaster.NativeCollector.Redis
