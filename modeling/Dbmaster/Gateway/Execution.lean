import Dbmaster.Gateway.Stream
import Mathlib.Data.List.Basic
/-!
# The execution task of `gw_query`

One of the four legs, the terminal event, and the fallback of the task for a panic: a
second sender and a send that does not wait.
-/

namespace Dbmaster.Gateway.Execution

open Dbmaster.Lib Dbmaster.Lib.Transition Dbmaster.Gateway.Stream

def sseChannelBatches : Nat := 4

/-! ## The legs -/

/-- What the target answers to a leg: the legs of `sql` and `mongo` go on as in `Stream`,
those of `redis` and `tdengine` have all rows at once. -/
inductive Answer
  | leg (leg : Leg)
  | redis (columns : List String) (rawRows : List Row)
  | tdengine (columns : List (String × String)) (rows : List Row)

inductive Stage
  | opening
  | leg (leg : Leg) (phase : Phase)
  | slicing (pending : List StreamQueryEvent) (info : CompleteInfo)
  | terminal (outcome : Except StreamQueryError CompleteInfo)
  | ended (outcome : Except StreamQueryError CompleteInfo)

def Stage.ofPhase (source : Leg) : Phase → Stage
  | .terminal outcome => .terminal outcome
  | .ended outcome => .ended outcome
  | phase => .leg source phase

/-- The meta and the rows in chunks. -/
def sliceEvents (columns : List String) (types : Option (List String)) (rows : List Row) :
    List StreamQueryEvent :=
  .metaEvent columns types :: (rows.toChunks batchSize).map .rows

def Answer.start (rowLimit : Nat) : Answer → Stage
  | .leg source => .ofPhase source source.start
  | .redis columns rawRows =>
      let rows := rawRows.take (max rowLimit 1)
      .slicing (sliceEvents columns none rows)
        ⟨rows.length, max rowLimit 1 ≤ rawRows.length, none⟩
  | .tdengine columns rows =>
      let kept := rows.take (max rowLimit 1)
      .slicing (sliceEvents (columns.map (·.1)) (some (columns.map (·.2))) kept)
        ⟨kept.length, max rowLimit 1 < rows.length, none⟩

/-! ## The task -/

structure TaskRequest where
  rowLimit : Nat
  timeoutSecs : Nat

structure ExecTask where
  chan : Chan
  cancelled : Bool
  expired : Bool
  stage : Stage

def ExecTask.init : ExecTask := ⟨⟨sseChannelBatches, 0, false, []⟩, false, false, .opening⟩

/-- The task as a leg sees it. -/
def ExecTask.world (t : ExecTask) (phase : Phase) : World := ⟨t.chan, t.cancelled, t.expired, phase, false⟩

/-- The task after the leg has run. -/
def ExecTask.after (t : ExecTask) (leg : Leg) (w : World) : ExecTask :=
  { t with chan := w.chan, stage := .ofPhase leg w.phase }

def TaskRequest.stream (req : TaskRequest) (leg : Leg) : Request :=
  ⟨leg, req.rowLimit, req.timeoutSecs, sseChannelBatches⟩

def ExecTask.interrupted (t : ExecTask) (timeoutSecs : Nat) : Option StreamQueryError :=
  if t.cancelled then some .cancelled
  else if t.expired then some (.timeout timeoutSecs)
  else none

/-- The flush of the legs that have all rows at once. -/
def pollSlicing (req : TaskRequest) (t : ExecTask) (pending : List StreamQueryEvent)
    (info : CompleteInfo) : ExecTask :=
  match t.interrupted req.timeoutSecs with
  | some e => { t with stage := .terminal (.error e) }
  | none =>
    let (chan, rest) := t.chan.pushAll pending
    { t with
      chan := chan
      stage := if rest = [] then .terminal (.ok info) else .slicing rest info }

/-- It waits for room; a consumer that is gone gets nothing. -/
def sendTerminal (t : ExecTask) (outcome : Except StreamQueryError CompleteInfo) (elapsedMs : Nat) :
    ExecTask :=
  if t.chan.closed then { t with stage := .ended outcome }
  else if t.chan.hasRoom then
    { t with
      chan := t.chan.push (terminalEvent outcome elapsedMs)
      stage := .ended outcome }
  else t

def panicError (reason : String) : StreamQueryError :=
  ⟨"DB_ERROR", "execution panicked in the TDS decode path (" ++ reason ++
    "); CAST the column (e.g. sql_variant via SERVERPROPERTY) and retry", none⟩

/-- `try_send`: an event that finds no room is lost. -/
def trySend (chan : Chan) (event : StreamQueryEvent) : Chan :=
  if chan.closed then chan
  else if chan.hasRoom then chan.push event
  else chan

/-- The target answers, the future is polled or panics when it is polled, the consumer
takes an event or goes away, the client cancels, time runs out. -/
inductive Action
  | answer (answer : Answer)
  | poll (ready : Bool) (elapsedMs : Nat)
  | panic (reason : String)
  | receive
  | disconnect
  | cancel
  | expire

def pollTask (req : TaskRequest) (t : ExecTask) (ready : Bool) (elapsedMs : Nat) : Option ExecTask :=
  match t.stage with
  | .opening => none
  | .leg leg phase =>
      (Stream.step (req.stream leg) (t.world phase) (.poll ready elapsedMs)).map (t.after leg)
  | .slicing pending info => some (pollSlicing req t pending info)
  | .terminal outcome => some (sendTerminal t outcome elapsedMs)
  | .ended _ => none

def step (req : TaskRequest) (t : ExecTask) : Action → Option ExecTask
  | .answer answer =>
      match t.stage with
      | .opening => some { t with stage := answer.start req.rowLimit }
      | _ => none
  | .poll ready elapsedMs => pollTask req t ready elapsedMs
  | .panic reason =>
      match t.stage with
      | .ended _ => none
      | _ => some { t with
          chan := trySend t.chan (.error (panicError reason))
          stage := .ended (.error (panicError reason)) }
  | .receive =>
      if t.chan.queued = 0 then none
      else some { t with chan := { t.chan with queued := t.chan.queued - 1 } }
  | .disconnect => some { t with chan := { t.chan with closed := true } }
  | .cancel => some { t with cancelled := true }
  | .expire => some { t with expired := true }

end Dbmaster.Gateway.Execution
