import Dbmaster.Lib.Json
import Dbmaster.Lib.Transition
/-!
# One streamed execution

`run_stream_query` and `run_stream_mongo` from the moment the target answers:
the loop of `stream_rows`, its final flush, the single document of a Mongo
command, `guard_execute`, and the terminal event.  The scheduler, the consumer,
the canceller and the clock are the other actors; a `poll` runs the task up to
the next point at which it waits.
-/

namespace Dbmaster.Gateway.Stream

open Dbmaster.Lib Dbmaster.Lib.Transition

/-! ## Events -/

structure StreamQueryError where
  code : String
  message : String
  engineCode : Option String

def StreamQueryError.cancelled : StreamQueryError :=
  ⟨"CANCELLED", "execution cancelled by client", none⟩

def StreamQueryError.timeout (timeoutSecs : Nat) : StreamQueryError :=
  ⟨"TIMEOUT", "statement exceeded the " ++ toString timeoutSecs ++
    "s server-side timeout and was cancelled", none⟩

structure CompleteInfo where
  rowCount : Nat
  truncated : Bool
  affectedRows : Option Nat

abbrev Row := List Json

inductive StreamQueryEvent
  | metaEvent (columns : List String) (columnTypes : Option (List String))
  | rows (rows : List Row)
  | complete (info : CompleteInfo) (elapsedMs : Nat)
  | error (e : StreamQueryError)

def StreamQueryEvent.isTerminal : StreamQueryEvent → Bool
  | .complete _ _ | .error _ => true
  | _ => false

def StreamQueryEvent.rowsOf : StreamQueryEvent → List Row
  | .rows batch => batch
  | _ => []

/-- The rows of the `Rows` events, in order. -/
def delivered (events : List StreamQueryEvent) : List Row :=
  events.flatMap StreamQueryEvent.rowsOf

/-- The bounded channel.  `sent` is everything that was ever put on it. -/
structure Chan where
  capacity : Nat
  queued : Nat
  closed : Bool
  sent : List StreamQueryEvent

def Chan.hasRoom (chan : Chan) : Bool := chan.queued < chan.capacity

def Chan.push (chan : Chan) (event : StreamQueryEvent) : Chan :=
  { chan with queued := chan.queued + 1, sent := chan.sent ++ [event] }

/-- `tx.send(event).await` for one event after the other, until one has to wait
for room.  A send to a closed channel fails and is ignored. -/
def Chan.pushAll : Chan → List StreamQueryEvent → Chan × List StreamQueryEvent
  | chan, [] => (chan, [])
  | chan, event :: events =>
      if chan.closed then chan.pushAll events
      else if chan.hasRoom then (chan.push event).pushAll events
      else (chan, event :: events)

/-! ## What is executed -/

structure MappedRow where
  columns : List String
  values : Row
  types : Option (List String)

inductive StreamItem
  | row (row : MappedRow)
  | failed (e : StreamQueryError)
  | done

/-- What the target answers: a row stream, the document of a Mongo command
without cursor, the affected rows of a statement, or an early error. -/
inductive Leg
  | rows (source : Nat → StreamItem)
  | document (json : Json)
  | execute (result : Except StreamQueryError Nat)
  | refused (e : StreamQueryError)

structure Request where
  leg : Leg
  rowLimit : Nat
  timeoutSecs : Nat
  capacity : Nat

/-- The rows among the first `n` items of the answer. -/
def Leg.firstRows : Leg → Nat → List Row
  | .rows source, n => (List.range n).filterMap fun i =>
      match source i with
      | .row row => some row.values
      | _ => none
  | .document json, n => List.take n [[json]]
  | _, _ => []

/-- The answer ends after `n` rows. -/
def Leg.exhausted : Leg → Nat → Prop
  | .rows source, n => source n = .done
  | .document _, n => n = 1
  | _, n => n = 0

/-! ## The task -/

def batchSize : Nat := 500

/-- The locals of the loop.  Every item consumed so far was a row, so
`rowCount` is also the position in the stream. -/
structure LoopState where
  rowCount : Nat
  truncated : Bool
  batch : List Row
  metaPending : Option (List String × Option (List String))

def LoopState.init : LoopState := ⟨0, false, [], none⟩

inductive Phase
  | streaming (s : LoopState)
  | flushing (pending : List StreamQueryEvent) (info : CompleteInfo)
  | document (pending : List StreamQueryEvent)
  | executing (result : Except StreamQueryError Nat)
  | terminal (outcome : Except StreamQueryError CompleteInfo)
  | ended (outcome : Except StreamQueryError CompleteInfo)

/-- `flushCut` records that the final select of `stream_rows` was won by the
cancellation or the deadline. -/
structure World where
  chan : Chan
  cancelled : Bool
  expired : Bool
  phase : Phase
  flushCut : Bool

def Leg.start : Leg → Phase
  | .rows _ => .streaming .init
  | .document json => .document [.metaEvent ["result"] none, .rows [[json]]]
  | .execute result => .executing result
  | .refused e => .terminal (.error e)

def World.init (req : Request) : World where
  chan := ⟨req.capacity, 0, false, []⟩
  cancelled := false
  expired := false
  phase := req.leg.start
  flushCut := false

/-- What the flush sends: the meta first, then the last batch, or an empty
meta when there was no row. -/
def LoopState.flushEvents (s : LoopState) : List StreamQueryEvent :=
  (s.metaPending.toList.map fun m => .metaEvent m.1 m.2) ++
    (if s.batch ≠ [] then [.rows s.batch]
     else if s.rowCount = 0 then [.metaEvent [] none] else [])

def LoopState.finish (s : LoopState) : Phase :=
  .flushing s.flushEvents ⟨s.rowCount, s.truncated, none⟩

/-- The body of `Some(Ok(..))`. -/
def LoopState.takeRow (s : LoopState) (rowLimit : Nat) (row : MappedRow) : Phase :=
  let s' : LoopState :=
    { rowCount := s.rowCount + 1
      truncated := s.truncated
      batch := s.batch ++ [row.values]
      metaPending := if s.rowCount = 0 then some (row.columns, row.types) else s.metaPending }
  if max rowLimit 1 ≤ s'.rowCount then { s' with truncated := true }.finish
  else .streaming s'

def World.interrupted (w : World) (timeoutSecs : Nat) : Option StreamQueryError :=
  if w.cancelled then some .cancelled
  else if w.expired then some (.timeout timeoutSecs)
  else none

/-- One turn of the biased select in the loop. -/
def pollStreaming (req : Request) (source : Nat → StreamItem) (w : World) (s : LoopState)
    (ready : Bool) : World :=
  match w.interrupted req.timeoutSecs with
  | some e => { w with phase := .terminal (.error e) }
  | none =>
    if (s.metaPending.isSome || batchSize ≤ s.batch.length) &&
        (w.chan.closed || w.chan.hasRoom) then
      if w.chan.closed then w
      else match s.metaPending with
        | some (columns, types) =>
            { w with
              chan := w.chan.push (.metaEvent columns types)
              phase := .streaming { s with metaPending := none } }
        | none =>
            { w with
              chan := w.chan.push (.rows s.batch)
              phase := .streaming { s with batch := [] } }
    else if s.batch.length < batchSize && ready then
      match source s.rowCount with
      | .row row => { w with phase := s.takeRow req.rowLimit row }
      | .failed e => { w with phase := .terminal (.error e) }
      | .done => { w with phase := s.finish }
    else w

/-- The final select of `stream_rows`: interrupted, it drops what is pending
and answers as if it had been delivered. -/
def pollFlushing (req : Request) (w : World) (pending : List StreamQueryEvent)
    (info : CompleteInfo) : World :=
  match w.interrupted req.timeoutSecs with
  | some _ => { w with phase := .terminal (.ok info), flushCut := true }
  | none =>
    let (chan, rest) := w.chan.pushAll pending
    { w with
      chan := chan
      phase := if rest = [] then .terminal (.ok info) else .flushing rest info }

/-- The same for the single document, where an interruption is an error. -/
def pollDocument (req : Request) (w : World) (pending : List StreamQueryEvent) : World :=
  match w.interrupted req.timeoutSecs with
  | some e => { w with phase := .terminal (.error e) }
  | none =>
    let (chan, rest) := w.chan.pushAll pending
    { w with
      chan := chan
      phase := if rest = [] then .terminal (.ok ⟨1, false, none⟩) else .document rest }

/-- `guard_execute`. -/
def pollExecuting (req : Request) (w : World) (result : Except StreamQueryError Nat)
    (ready : Bool) : World :=
  match w.interrupted req.timeoutSecs with
  | some e => { w with phase := .terminal (.error e) }
  | none =>
    if ready then
      { w with phase := .terminal (result.map fun affected => ⟨0, false, some affected⟩) }
    else w

def terminalEvent (outcome : Except StreamQueryError CompleteInfo) (elapsedMs : Nat) :
    StreamQueryEvent :=
  match outcome with
  | .ok info => .complete info elapsedMs
  | .error e => .error e

/-- `send_terminal`. -/
def pollTerminal (w : World) (outcome : Except StreamQueryError CompleteInfo)
    (elapsedMs : Nat) : World :=
  if w.chan.closed then { w with phase := .ended outcome }
  else if w.chan.hasRoom then
    { w with
      chan := w.chan.push (terminalEvent outcome elapsedMs)
      phase := .ended outcome }
  else w

/-- The task runs (`ready`: what it awaits from the target is there), the
consumer takes an event or goes away, the client cancels, time runs out. -/
inductive Action
  | poll (ready : Bool) (elapsedMs : Nat)
  | receive
  | disconnect
  | cancel
  | expire

def step (req : Request) (w : World) : Action → Option World
  | .poll ready elapsedMs =>
      match w.phase with
      | .streaming s =>
          match req.leg with
          | .rows source => some (pollStreaming req source w s ready)
          | _ => none
      | .flushing pending info => some (pollFlushing req w pending info)
      | .document pending => some (pollDocument req w pending)
      | .executing result => some (pollExecuting req w result ready)
      | .terminal outcome => some (pollTerminal w outcome elapsedMs)
      | .ended _ => none
  | .receive =>
      if w.chan.queued = 0 then none
      else some { w with chan := { w.chan with queued := w.chan.queued - 1 } }
  | .disconnect => some { w with chan := { w.chan with closed := true } }
  | .cancel => some { w with cancelled := true }
  | .expire => some { w with expired := true }

theorem step_receive {req : Request} {w w' : World} (h : step req w .receive = some w') :
    w.chan.queued ≠ 0 ∧ w' = { w with chan := { w.chan with queued := w.chan.queued - 1 } } := by
  simp only [step] at h
  split at h
  case isTrue => cases h
  case isFalse hqueued => exact ⟨hqueued, (Option.some.inj h).symm⟩

def RunsFrom (req : Request) (acts : List Action) (w : World) : Prop :=
  Run (step req) anyStep (World.init req) acts w

end Dbmaster.Gateway.Stream
