import Dbmaster.Lib.Json
import Dbmaster.Lib.Text
/-!
# Classification of statements and commands

How each execution leg of the gateway tells a write from a read.
-/

namespace Dbmaster.Gateway.Classify

open Dbmaster.Lib Dbmaster.Lib.Text

/-! ## SQL -/

def isSelectStatement (sql : String) : Bool :=
  let trimmed := upper (trimStart sql.toList)
  ["SELECT", "WITH", "SHOW", "DESCRIBE", "EXPLAIN", "PRAGMA"].any (startsWith trimmed)

def isShowStatement (sql : String) : Bool :=
  asciiUpper ((trimStart sql.toList).take 4) = "SHOW".toList

/-! ## MongoDB -/

namespace Mongo

def writeCommands : List String :=
  ["insert", "update", "delete", "findandmodify", "findAndModify",
    "create", "createindexes", "createIndexes", "drop", "dropdatabase", "dropDatabase",
    "dropindexes", "dropIndexes", "renamecollection", "renameCollection",
    "collmod", "collMod"]

/-- The first key. -/
def commandNameOf (doc : List (String × Json)) : Option String := doc.head?.map Prod.fst

def containsKey (key : String) : Json → Bool
  | .obj members => members.any fun m => m.1 = key
  | _ => false

def isWriteCommand (name : String) (doc : List (String × Json)) : Bool :=
  if name = "aggregate" then
    match (Json.obj doc).get "pipeline" with
    | some (.arr stages) => stages.any fun s => containsKey "$out" s || containsKey "$merge" s
    | _ => false
  else if name = "mapreduce" ∨ name = "mapReduce" ∨ name = "eval" then true
  else name ∈ writeCommands

end Mongo

/-! ## Redis -/

namespace Redis

def writeCommands : List String :=
  ["SET", "SETNX", "SETEX", "PSETEX", "MSET", "MSETNX", "GETSET", "GETDEL",
    "SETRANGE", "SETBIT", "APPEND",
    "DEL", "UNLINK", "RENAME", "RENAMENX", "EXPIRE", "PEXPIRE", "EXPIREAT",
    "PEXPIREAT", "PERSIST", "COPY", "MOVE", "RESTORE", "MIGRATE",
    "INCR", "INCRBY", "INCRBYFLOAT", "DECR", "DECRBY",
    "LPUSH", "LPUSHX", "RPUSH", "RPUSHX", "LPOP", "RPOP", "LINSERT", "LSET",
    "LTRIM", "RPOPLPUSH", "LMOVE", "LMPOP", "BLPOP", "BRPOP", "BLMOVE",
    "BRPOPLPUSH",
    "SADD", "SPOP", "SREM", "SMOVE", "SINTERSTORE", "SUNIONSTORE",
    "SDIFFSTORE",
    "ZADD", "ZINCRBY", "ZPOPMIN", "ZPOPMAX", "ZPOPCOUNT", "ZREM",
    "ZREMRANGEBYRANK", "ZREMRANGEBYSCORE", "ZREMRANGEBYLEX", "ZMPOP",
    "BZPOPMIN", "BZPOPMAX",
    "HSET", "HSETNX", "HMSET", "HDEL", "HINCRBY", "HINCRBYFLOAT",
    "BITOP", "PFADD", "PFMERGE", "GEOADD",
    "XADD", "XDEL", "XTRIM", "XGROUP", "XSETID", "XACK",
    "EVAL", "EVALSHA", "FUNCTION", "SCRIPT", "CONFIG", "ACL",
    "FLUSHALL", "FLUSHDB", "SWAPDB", "SORT"]

def dangerousCommands : List String :=
  ["KEYS", "FLUSHALL", "FLUSHDB", "SHUTDOWN", "DEBUG", "MONITOR",
    "SLAVEOF", "REPLICAOF", "FAILOVER", "CLIENT", "CLUSTER", "SYNC",
    "PSYNC", "RESET", "LOLWUT"]

inductive RedisCommandClass
  | write | read
  deriving DecidableEq, Repr

def upperName (name : String) : String := String.ofList (asciiUpper name.toList)

def classifyStatic (name : String) : RedisCommandClass :=
  if upperName name ∈ writeCommands ∨ upperName name ∈ dangerousCommands then .write
  else .read

structure AclClasses where
  write : List String
  dangerous : List String

/-- The entry of the connection in `ACL_CACHE`: `some none` is a fetch that failed. -/
abbrev AclCache := Option (Option AclClasses)

def classifyAcl (classes : Option AclClasses) (name : String) : RedisCommandClass :=
  match classes with
  | some classes =>
      if upperName name ∈ classes.write ∨ upperName name ∈ classes.dangerous then .write
      else .read
  | none => .read

/-- `fetched` is what `ACL CAT` answers if it is asked. -/
def classify (fetched : Option AclClasses) (cache : AclCache) (name : String) :
    RedisCommandClass × AclCache :=
  if classifyStatic name = .write then (.write, cache)
  else match cache with
    | some cached => (classifyAcl cached name, cache)
    | none => (classifyAcl fetched name, some fetched)

/-- Whether one of the names is not a read; each is classified with the cache
the one before it left. -/
def guardReadOnly (fetched : Option AclClasses) : AclCache → List String → Bool
  | _, [] => false
  | cache, name :: names =>
      let (verdict, cache) := classify fetched cache name
      if verdict ≠ .read then true else guardReadOnly fetched cache names

/-- The verdict on a name does not depend on who asked before. -/
def isWrite (fetched : Option AclClasses) (cache : AclCache) (name : String) : Bool :=
  classifyStatic name = .write || classifyAcl (cache.getD fetched) name = .write

theorem classify_verdict (fetched : Option AclClasses) (cache : AclCache) (name : String) :
    (classify fetched cache name).1 ≠ .read ↔ isWrite fetched cache name = true := by
  unfold classify isWrite
  by_cases hstatic : classifyStatic name = .write
  · simp [hstatic]
  · cases cache with
    | some cached => cases h : classifyAcl cached name <;> simp [hstatic, h]
    | none => cases h : classifyAcl fetched name <;> simp [hstatic, h]

theorem classify_cache (fetched : Option AclClasses) (cache : AclCache) (name : String) :
    (classify fetched cache name).2.getD fetched = cache.getD fetched := by
  unfold classify
  split
  · rfl
  · cases cache <;> rfl

theorem guardReadOnly_eq (fetched : Option AclClasses) (cache : AclCache)
    (names : List String) :
    guardReadOnly fetched cache names = names.any (isWrite fetched cache) := by
  induction names generalizing cache with
  | nil => rfl
  | cons name names ih =>
      simp only [guardReadOnly, List.any_cons]
      by_cases hwrite : (classify fetched cache name).1 ≠ .read
      · rw [if_pos hwrite, (classify_verdict fetched cache name).mp hwrite, Bool.true_or]
      · have hread : isWrite fetched cache name = false := by
          rw [← Bool.not_eq_true]
          exact fun h => hwrite ((classify_verdict fetched cache name).mpr h)
        have hlater : isWrite fetched (classify fetched cache name).2 =
            isWrite fetched cache := by
          funext later
          simp only [isWrite, classify_cache]
        rw [if_neg hwrite, ih, hread, Bool.false_or, hlater]

end Redis

/-! ## TDengine -/

namespace Tdengine

def writeWords : List String :=
  ["INSERT", "DELETE", "UPDATE", "CREATE", "DROP", "ALTER", "TRUNCATE", "GRANT",
    "REVOKE", "USE", "MERGE", "COMPACT", "KILL"]

/-- Leading comments removed.  Each round drops two characters at least, so the
length of the text is enough fuel. -/
def stripComments : Nat → List Char → List Char
  | 0, rest => rest
  | fuel + 1, rest =>
      match stripPrefix "--" rest with
      | some r => stripComments fuel (trimStart ((afterFirst "\n" r).getD []))
      | none =>
      match stripPrefix "//" rest with
      | some r => stripComments fuel (trimStart ((afterFirst "\n" r).getD []))
      | none =>
      match stripPrefix "/*" rest with
      | some r => stripComments fuel (trimStart ((afterFirst "*/" r).getD []))
      | none => rest

def isWordBreak (c : Char) : Bool := isWhitespace c || c = '('

def firstWord (text : List Char) : List Char :=
  (text.dropWhile isWordBreak).takeWhile fun c => !isWordBreak c

def isWriteStatement (sql : String) : Bool :=
  let rest := stripComments sql.length (trimStart sql.toList)
  String.ofList (asciiUpper (firstWord rest)) ∈ writeWords

example : isWriteStatement "/* block */ DELETE FROM t" = true := by decide

end Tdengine

end Dbmaster.Gateway.Classify
