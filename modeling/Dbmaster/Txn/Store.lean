import Dbmaster.Lib.Transition
import Mathlib.Data.List.Basic
/-!
# The transaction session store

The calls on `DbTxnSessionStore` as steps that interleave at their await points.  An
entry taken by `get` or by the iterator keeps a read guard of its shard of the map, and
`insert`, `remove` and `remove_if` wait for the shard to be free of them.  A call can be
dropped at any await point.
-/

namespace Dbmaster.Txn.Store

open Dbmaster.Lib.Transition

inductive Control
  | commit | rollback
deriving DecidableEq

/-- The statement that `finish` sends. -/
def Control.sql : Control → String
  | .commit => "COMMIT"
  | .rollback => "ROLLBACK"

/-- A pinned pool, its serialization lock and when it was last used. -/
structure TxnSession where
  mySqlFamily : Bool
  lock : Option Nat
  lastUsed : Nat

/-- The methods of the store. -/
inductive Method
  | begin
  | executeInTxn (id : String)
  | finish (id : String) (control : Control)
  | cleanupExpired
deriving DecidableEq

inductive Reply
  | ok
  | reclaimed (sessions : Nat)
  | error (message : String)
deriving DecidableEq

/-- What is sent to the database and heard from it, what is taken out of the map, and
what the calls return. -/
inductive Event
  | registered (id : String)
  | executed (call : Nat) (id : String) (sql : String)
  | removed (call : Nat) (id : String)
  | finished (call : Nat) (id : String) (control : Control)
  | acknowledged (id : String) (control : Control)
  | committed (id : String)
  | replied (call : Nat) (method : Method) (reply : Reply)
deriving DecidableEq

/-- How far a call has come. -/
inductive Phase
  | new
  | opened (mySqlFamily : Bool)
  | waiting (id sql : String)
  | running (id : String)
  | executed (id : String)
  | taken (id : String) (session : TxnSession) (control : Control)
  | sent (id : String) (control : Control)
  | scanning (now ttl : Nat) (entry : Option String) (victims : List String)
  | sweeping (now ttl : Nat) (victims : List String) (reclaimed : Nat)
  | reclaiming (now ttl : Nat) (id : String) (victims : List String) (reclaimed : Nat)
  | reclaimed (now ttl : Nat) (id : String) (victims : List String) (reclaimed : Nat)
  | returned

structure State where
  sessions : String → Option TxnSession
  readers : Nat → List Nat
  calls : Nat → Phase
  log : List Event

def State.init : State := ⟨fun _ => none, fun _ => [], fun _ => .new, []⟩

/-- The call goes on to the phase, and this happens on the way. -/
def State.turn (s : State) (c : Nat) (p : Phase) (events : List Event) : State :=
  { s with calls := Function.update s.calls c p, log := s.log ++ events }

def State.reply (s : State) (c : Nat) (method : Method) (reply : Reply) : State :=
  s.turn c .returned [.replied c method reply]

def State.setSession (s : State) (id : String) (session : Option TxnSession) : State :=
  { s with sessions := Function.update s.sessions id session }

/-- The call takes a read guard of the shard. -/
def State.hold (s : State) (c shard : Nat) : State :=
  { s with readers := Function.update s.readers shard (c :: s.readers shard) }

def State.release (s : State) (c shard : Nat) : State :=
  { s with readers := Function.update s.readers shard ((s.readers shard).filter (· ≠ c)) }

/-- Without the lock, if the call holds it. -/
def unlock (c : Nat) (session : TxnSession) : TxnSession :=
  if session.lock = some c then { session with lock := none } else session

/-- Leaving the scope in which the entry and its lock are held. -/
def State.leave (s : State) (shard : String → Nat) (c : Nat) (id : String) : State :=
  (s.setSession id ((s.sessions id).map (unlock c))).release c (shard id)

/-- What becomes of a control statement; a lost answer follows a statement that took
effect. -/
inductive Outcome
  | acknowledged | lost | failed
deriving DecidableEq

/-- What the database does with a control statement of that outcome. -/
def Outcome.events (id : String) (control : Control) : Outcome → List Event
  | .acknowledged =>
      (if control = .commit then [.committed id] else []) ++ [.acknowledged id control]
  | .lost => if control = .commit then [.committed id] else []
  | .failed => []

/-- The steps of the calls.  `commits` is whether the statement commits the transaction,
as a `COMMIT` in its text or a data definition does. -/
inductive Action
  | begin (c : Nat) (mySqlFamily : Bool) (failure : Option String)
  | register (c : Nat) (id : String) (now : Nat)
  | get (c : Nat) (id sql : String)
  | acquire (c : Nat)
  | complete (c : Nat) (failure : Option String) (commits : Bool)
  | refresh (c : Nat) (now : Nat)
  | remove (c : Nat) (id : String) (control : Control)
  | send (c : Nat)
  | answer (c : Nat) (outcome : Outcome)
  | sweep (c now ttl : Nat)
  | scan (c : Nat) (id : String)
  | read (c : Nat)
  | endScan (c : Nat)
  | reclaim (c : Nat)
  | drop (c : Nat) (commits : Bool)

def notFoundInTxn : String := "transaction session not found (expired or rolled back)"

def notFound : String := "transaction session not found"

def threadIdSql : String := "SELECT CONNECTION_ID()"

/-- Idle longer than the time to live. -/
def expired (now ttl : Nat) (session : TxnSession) : Bool := ttl < now - session.lastUsed

/-- What is executed to find the id of the connection's thread. -/
def threadIdProbe (c : Nat) (id : String) (session : Option TxnSession) : List Event :=
  if session.any TxnSession.mySqlFamily then [.executed c id threadIdSql] else []

def commitIf (commits : Prop) [Decidable commits] (id : String) : List Event :=
  if commits then [.committed id] else []

def step (shard : String → Nat) (s : State) : Action → Option State
  | .begin c mySqlFamily failure =>
      match s.calls c with
      | .new =>
          match failure with
          | some e => some (s.reply c .begin (.error e))
          | none => some (s.turn c (.opened mySqlFamily) [])
      | _ => none
  | .register c id now =>
      match s.calls c with
      | .opened mySqlFamily =>
          -- `Uuid::new_v4` repeats no id
          if .registered id ∉ s.log ∧ s.readers (shard id) = [] then
            some ((s.setSession id (some ⟨mySqlFamily, none, now⟩)).turn c .returned
              [.registered id, .replied c .begin .ok])
          else none
      | _ => none
  | .get c id sql =>
      match s.calls c with
      | .new =>
          match s.sessions id with
          | none => some (s.reply c (.executeInTxn id) (.error notFoundInTxn))
          | some _ => some ((s.hold c (shard id)).turn c (.waiting id sql) [])
      | _ => none
  | .acquire c =>
      match s.calls c with
      | .waiting id sql =>
          match s.sessions id with
          | some session =>
              if session.lock = none then
                some ((s.setSession id (some { session with lock := some c })).turn c
                  (.running id) [.executed c id sql])
              else none
          | none => none
      | _ => none
  | .complete c failure commits =>
      match s.calls c with
      | .running id =>
          match failure with
          | some e =>
              some ((s.leave shard c id).turn c .returned
                (commitIf commits id ++ [.replied c (.executeInTxn id) (.error e)]))
          | none =>
              some (s.turn c (.executed id)
                (commitIf commits id ++ threadIdProbe c id (s.sessions id)))
      | _ => none
  | .refresh c now =>
      match s.calls c with
      | .executed id =>
          let refreshed := s.setSession id
            ((s.sessions id).map fun session => { session with lastUsed := now })
          some ((refreshed.leave shard c id).reply c (.executeInTxn id) .ok)
      | _ => none
  | .remove c id control =>
      match s.calls c with
      | .new =>
          if s.readers (shard id) = [] then
            match s.sessions id with
            | none => some (s.reply c (.finish id control) (.error notFound))
            | some session =>
                some ((s.setSession id none).turn c (.taken id session control) [.removed c id])
          else none
      | _ => none
  | .send c =>
      match s.calls c with
      | .taken id session control =>
          if session.lock = none then
            some (s.turn c (.sent id control) [.finished c id control])
          else none
      | .reclaiming now ttl id victims reclaimed =>
          some (s.turn c (.reclaimed now ttl id victims reclaimed) [.finished c id .rollback])
      | _ => none
  | .answer c outcome =>
      match s.calls c with
      | .sent id control =>
          -- the outcome is ignored
          some (s.turn c .returned
            (outcome.events id control ++ [.replied c (.finish id control) .ok]))
      | .reclaimed now ttl id victims reclaimed =>
          some (s.turn c (.sweeping now ttl victims reclaimed) (outcome.events id .rollback))
      | _ => none
  | .sweep c now ttl =>
      match s.calls c with
      | .new => some (s.turn c (.scanning now ttl none []) [])
      | _ => none
  | .scan c id =>
      match s.calls c with
      | .scanning now ttl none victims =>
          if (s.sessions id).isSome then
            some ((s.hold c (shard id)).turn c (.scanning now ttl (some id) victims) [])
          else none
      | _ => none
  | .read c =>
      match s.calls c with
      | .scanning now ttl (some id) victims =>
          some ((s.release c (shard id)).turn c (.scanning now ttl none
            (if (s.sessions id).any (expired now ttl) then victims ++ [id] else victims)) [])
      | _ => none
  | .endScan c =>
      match s.calls c with
      | .scanning now ttl none victims => some (s.turn c (.sweeping now ttl victims 0) [])
      | _ => none
  | .reclaim c =>
      match s.calls c with
      | .sweeping _ _ [] reclaimed => some (s.reply c .cleanupExpired (.reclaimed reclaimed))
      | .sweeping now ttl (id :: victims) reclaimed =>
          if s.readers (shard id) = [] then
            if (s.sessions id).any (expired now ttl) then
              some ((s.setSession id none).turn c
                (.reclaiming now ttl id victims (reclaimed + 1)) [.removed c id])
            else some (s.turn c (.sweeping now ttl victims reclaimed) [])
          else none
      | _ => none
  | .drop c commits =>
      match s.calls c with
      | .new => none
      | .returned => none
      | .waiting id _ => some ((s.leave shard c id).turn c .returned [])
      | .executed id => some ((s.leave shard c id).turn c .returned [])
      | .running id => some ((s.leave shard c id).turn c .returned (commitIf commits id))
      | .sent id control =>
          some (s.turn c .returned (commitIf (commits = true ∧ control = .commit) id))
      | .scanning _ _ (some id) _ => some ((s.release c (shard id)).turn c .returned [])
      | _ => some (s.turn c .returned [])

end Dbmaster.Txn.Store
