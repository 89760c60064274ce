import Dbmaster.DataSync.Steps
import Dbmaster.DataSync.ExactlyOnce
import Dbmaster.Lib.Table
import Dbmaster.Lib.Transition
/-!
# Runs of one task that overlap

The rows of `data_sync_runs`, and any number of runs that act on them one statement
at a time.  The scheduler keeps to one run of a task by its set of tasks in flight;
a manual run does not look at it.
-/

namespace Dbmaster.DataSync.Overlap

open Dbmaster.Lib.Table Dbmaster.Lib.Transition
open Dbmaster.DataSync.Cursor Dbmaster.DataSync.Etl Dbmaster.DataSync.Steps

variable {ρ T : Type}

/-! ## The table -/

inductive RunStatus where
  | running
  | succeeded
  | failed
  | canceled
deriving DecidableEq

def RunStatus.text : RunStatus → String
  | .running => "running"
  | .succeeded => "succeeded"
  | .failed => "failed"
  | .canceled => "canceled"

/-- The columns that `update_progress` sets. -/
structure Progress where
  cursor : Option String
  progress : Int
  processedRows : Nat
  failedRows : Nat

def Progress.fresh : Progress := ⟨none, 0, 0, 0⟩

inductive Trigger where
  | scheduler
  | manual (userId : String)
deriving DecidableEq

def Trigger.triggeredBy : Trigger → String
  | .scheduler => "scheduler"
  | .manual userId => "manual:" ++ userId

structure RunRow (T : Type) where
  id : String
  taskId : String
  startedAt : T
  status : RunStatus
  triggeredBy : String
  progress : Progress
  cancelRequested : Bool

/-- `WHERE task_id = … AND status = 'running'` -/
def RunRow.runs (taskId : String) (row : RunRow T) : Bool :=
  decide (row.taskId = taskId ∧ row.status = .running)

/-- The row that `run_task` opens. -/
def openRow (id taskId : String) (now : T) (trigger : Trigger) : RunRow T :=
  { id := id
    taskId := taskId
    startedAt := now
    status := .running
    triggeredBy := trigger.triggeredBy
    progress := .fresh
    cancelRequested := false }

section Statements

variable [LinearOrder T]

/-- The query of `find_resumable_cursor`. -/
def latestRun (taskId : String) (table : List (RunRow T)) (pick : Nat) :
    Option (Option String × Option String) :=
  (fetchLatest RunRow.startedAt (fun row => decide (row.taskId = taskId)) table pick).map
    fun row => (row.progress.cursor, some row.status.text)

def checkCancel (taskId : String) (table : List (RunRow T)) (pick : Nat) : Bool :=
  ((fetchLatest RunRow.startedAt (RunRow.runs taskId) table pick).map
    RunRow.cancelRequested).getD false

/-- Progress from the cursor and the end of the window; `share` is the quotient of their
timestamps, in floating point and clamped to 0..100. -/
def computePct (chrono : Chrono T) (share : T → T → Int) (cursor max : String) : Int :=
  match parseCursor chrono cursor, parseCursor chrono max with
  | some c, some m => if m ≤ c then 100 else share c m
  | _, _ => 0

end Statements

def updateProgress (taskId : String) (progress : Progress) (table : List (RunRow T)) :
    List (RunRow T) :=
  updateWhere (RunRow.runs taskId) (fun row => { row with progress := progress }) table

/-- The UPDATE of the handler `cancel_task`. -/
def cancelTask (taskId : String) (table : List (RunRow T)) : List (RunRow T) :=
  updateWhere (RunRow.runs taskId) (fun row => { row with cancelRequested := true }) table

/-- What the last UPDATE of `run_task` sets. -/
def RunRow.finish (outcome : Except String RunOutcome) (row : RunRow T) : RunRow T :=
  match outcome with
  | .ok o =>
      { row with
        status := if o.canceled then .canceled else .succeeded
        progress :=
          { row.progress with processedRows := o.processedRows, failedRows := o.failedRows } }
  | .error _ => { row with status := .failed }

def finishRun (id : String) (outcome : Except String RunOutcome) (table : List (RunRow T)) :
    List (RunRow T) :=
  updateWhere (fun row => decide (row.id = id)) (RunRow.finish outcome) table

/-! ## Runs -/

/-- Where a run stands between two of its statements. -/
inductive Phase (ρ T : Type) where
  | spawned
  /-- `find_resumable_cursor` has answered -/
  | resuming (latest : Except String (Option (Option String × Option String)))
  | opened (latest : Except String (Option (Option String × Option String)))
  | polling (loop : Loop ρ T) (s : LoopState ρ)
  | fetching (loop : Loop ρ T) (s : LoopState ρ)
  | saving (loop : Loop ρ T) (s : LoopState ρ) (next : String)
  | closing (outcome : Except String RunOutcome)
  | closed
  /-- released, panicked, or its process died -/
  | gone

/-- Where a run is when its function leaves. -/
def leave : Exit → Phase ρ T
  | .ok outcome => .closing (.ok outcome)
  | .err message => .closing (.error message)
  | .panicked => .gone

structure TaskRun (ρ T : Type) where
  taskId : String
  trigger : Trigger
  phase : Phase ρ T

/-- What happens to the rows, told by the run that does it. -/
inductive Event where
  | saved (id : String) (progress : Progress)
  | finished (id : String) (processedRows failedRows : Nat)
  /-- the flag on the row of the run, and what the run read -/
  | polled (id : String) (recorded : Option Bool) (observed : Bool)

structure State (ρ T : Type) where
  table : List (RunRow T)
  runs : String → Option (TaskRun ρ T)
  inFlight : List String
  history : List Event

def State.initial : State ρ T := ⟨[], fun _ => none, [], []⟩

/-- A statement of a run; `ok` is whether the control database executes it. -/
inductive Statement (ρ T : Type) where
  /-- `none` when the query fails -/
  | findResumable (pick : Option Nat)
  | insertRow (now : T) (ok : Bool)
  | enter (setup : Setup) (world : World ρ T)
  | checkCancel (pick : Option Nat)
  | fetch
  | updateProgress (ok : Bool)
  | finish (ok : Bool)
  /-- the scheduler takes the task out of its set -/
  | release

inductive Action (ρ T : Type) where
  /-- the scheduler finds the task due -/
  | dispatch (id taskId : String)
  | runTaskNow (id taskId userId : String)
  | statement (id : String) (st : Statement ρ T)
  | cancelTask (taskId : String)
  /-- the server starts anew -/
  | restart

def State.setRun (s : State ρ T) (id : String) (run : TaskRun ρ T) : State ρ T :=
  { s with runs := Function.update s.runs id (some run) }

def State.move (s : State ρ T) (id : String) (run : TaskRun ρ T) (phase : Phase ρ T) :
    State ρ T :=
  s.setRun id { run with phase := phase }

/-- `InFlightTasks::try_acquire`, and the run spawned. -/
def dispatch (s : State ρ T) (id taskId : String) : Option (State ρ T) :=
  if taskId ∈ s.inFlight then none
  else some { s.setRun id ⟨taskId, .scheduler, .spawned⟩ with inFlight := taskId :: s.inFlight }

section Step

variable [LinearOrder T] (chrono : Chrono T) (share : T → T → Int)

/-- The flag on the row of a run. -/
def recorded (id : String) (table : List (RunRow T)) : Option Bool :=
  (table.find? fun row => decide (row.id = id)).map RunRow.cancelRequested

/-- What `update_progress` is called with. -/
def progressOf (loop : Loop ρ T) (s : LoopState ρ) : Progress :=
  ⟨some s.cursor, computePct chrono share s.cursor loop.upper, s.processed, s.failed⟩

/-- The turn after its last statement. -/
def endTurn (loop : Loop ρ T) : LoopState ρ × Option Exit → Phase ρ T
  | (s, none) => .polling loop s
  | (_, some exit) => leave exit

def findResumable (s : State ρ T) (id : String) (run : TaskRun ρ T) (pick : Option Nat) :
    State ρ T :=
  s.move id run (.resuming (match pick with
    | some pick => .ok (latestRun run.taskId s.table pick)
    | none => .error "fetch latest data_sync_runs row for resume"))

/-- A run whose row cannot be inserted is over. -/
def insertRow (s : State ρ T) (id : String) (run : TaskRun ρ T)
    (latest : Except String (Option (Option String × Option String))) (now : T) (ok : Bool) :
    State ρ T :=
  if ok then
    { s.move id run (.opened latest) with
      table := s.table ++ [openRow id run.taskId now run.trigger] }
  else s.move id run .closed

def enterLoop (s : State ρ T) (id : String) (run : TaskRun ρ T)
    (latest : Except String (Option (Option String × Option String))) (setup : Setup)
    (world : World ρ T) : State ρ T :=
  match enter chrono { setup with latestRun := latest } world with
  | .ok (loop, start) => s.move id run (.polling loop start)
  | .error e => s.move id run (.closing (.error e))

def poll (s : State ρ T) (id : String) (run : TaskRun ρ T) (loop : Loop ρ T)
    (t : LoopState ρ) : Option Nat → State ρ T
  | none => s.move id run (leave (.err "poll cancel_requested"))
  | some pick =>
      let observed := checkCancel run.taskId s.table pick
      { s.move id run ((pollExit t (some observed)).elim (.fetching loop t) leave) with
        history := s.history ++ [.polled id (recorded id s.table) observed] }

def fetch (s : State ρ T) (id : String) (run : TaskRun ρ T) (loop : Loop ρ T)
    (t : LoopState ρ) : State ρ T :=
  match fetchBatch chrono loop t with
  | .left exit => s.move id run (leave exit)
  | .skipped t' => s.move id run (.polling loop t')
  | .handed t' next => s.move id run (.saving loop t' next)

def save (s : State ρ T) (id : String) (run : TaskRun ρ T) (loop : Loop ρ T)
    (t : LoopState ρ) (next : String) (ok : Bool) : State ρ T :=
  let moved := s.move id run (endTurn loop (savedTurn chrono loop t next ok))
  if ok then
    { moved with
      table := updateProgress run.taskId (progressOf chrono share loop t) s.table
      history := s.history ++ [.saved id (progressOf chrono share loop t)] }
  else moved

/-- The last UPDATE; when it fails the run goes on without it. -/
def finish (s : State ρ T) (id : String) (run : TaskRun ρ T)
    (outcome : Except String RunOutcome) (ok : Bool) : State ρ T :=
  let moved := s.move id run .closed
  if ok then
    { moved with
      table := finishRun id outcome s.table
      history := s.history ++ match outcome with
        | .ok o => [.finished id o.processedRows o.failedRows]
        | .error _ => [] }
  else moved

/-- A statement of a run, where it is the next one. -/
def runStep (s : State ρ T) (id : String) (run : TaskRun ρ T) :
    Statement ρ T → Option (State ρ T)
  | .findResumable pick =>
      match run.phase with
      | .spawned => some (findResumable s id run pick)
      | _ => none
  | .insertRow now ok =>
      match run.phase with
      | .resuming latest => some (insertRow s id run latest now ok)
      | _ => none
  | .enter setup world =>
      match run.phase with
      | .opened latest => some (enterLoop chrono s id run latest setup world)
      | _ => none
  | .checkCancel pick =>
      match run.phase with
      | .polling loop t => some (poll s id run loop t pick)
      | _ => none
  | .fetch =>
      match run.phase with
      | .fetching loop t => some (fetch chrono s id run loop t)
      | _ => none
  | .updateProgress ok =>
      match run.phase with
      | .saving loop t next => some (save chrono share s id run loop t next ok)
      | _ => none
  | .finish ok =>
      match run.phase with
      | .closing outcome => some (finish s id run outcome ok)
      | _ => none
  | .release =>
      match run.phase, run.trigger with
      | .closed, .scheduler =>
          some { s.move id run .gone with inFlight := s.inFlight.erase run.taskId }
      | _, _ => none

/-- The ids of runs are fresh. -/
def step (s : State ρ T) : Action ρ T → Option (State ρ T)
  | .dispatch id taskId =>
      if s.runs id = none then dispatch s id taskId else none
  | .runTaskNow id taskId userId =>
      if s.runs id = none then some (s.setRun id ⟨taskId, .manual userId, .spawned⟩) else none
  | .statement id st =>
      match s.runs id with
      | some run => runStep chrono share s id run st
      | none => none
  | .cancelTask taskId => some { s with table := cancelTask taskId s.table }
  | .restart =>
      some { s with
        runs := fun id => (s.runs id).map fun run => { run with phase := .gone }
        inFlight := [] }

end Step

/-! ## What a row should tell -/

/-- The progress of one run, after one more event. -/
def record (id : String) (progress : Progress) : Event → Progress
  | .saved id' saved => if id' = id then saved else progress
  | .finished id' processed failed =>
      if id' = id then { progress with processedRows := processed, failedRows := failed }
      else progress
  | .polled .. => progress

/-- The progress of one run, by what it did itself. -/
def ownProgress (history : List Event) (id : String) : Progress :=
  history.foldl (record id) .fresh

/-- Every row tells of its own run, and every poll read the flag of its own row. -/
structure Untangled (s : State ρ T) : Prop where
  progress : ∀ row ∈ s.table, row.progress = ownProgress s.history row.id
  cancel : ∀ id flag observed, .polled id flag observed ∈ s.history → flag = some observed

def KeepsApart [LinearOrder T] (chrono : Chrono T) (share : T → T → Int)
    (allowed : State ρ T → Action ρ T → Prop) : Prop :=
  ∀ acts s, Run (step chrono share) allowed .initial acts s → Untangled s

/-- A run saves its progress while no other row of its task is running, and polls while
every other running row of its task is older than its own. -/
def Undisturbed [LinearOrder T] (s : State ρ T) : Action ρ T → Prop
  | .statement id (.updateProgress true) =>
      ∀ run, s.runs id = some run →
        ∀ row ∈ s.table, row.runs run.taskId = true → row.id = id
  | .statement id (.checkCancel (some _)) =>
      ∀ run, s.runs id = some run →
        ∀ own ∈ s.table, own.id = id →
          ∀ row ∈ s.table, row.runs run.taskId = true → row.id ≠ id →
            row.startedAt < own.startedAt
  | _ => True

/-! ## What a step does -/

/-- A run has a row of its own, running, while it is live. -/
inductive Stage where
  | unopened
  | live
  | past
deriving DecidableEq

def Phase.stage : Phase ρ T → Stage
  | .spawned | .resuming _ => .unopened
  | .opened _ | .polling .. | .fetching .. | .saving .. | .closing _ => .live
  | .closed | .gone => .past

theorem leave_stage (exit : Exit) :
    (leave exit : Phase ρ T).stage = .live ∨ (leave exit : Phase ρ T).stage = .past := by
  cases exit with
  | ok outcome => exact .inl rfl
  | err message => exact .inl rfl
  | panicked => exact .inr rfl

theorem endTurn_stage (loop : Loop ρ T) (r : LoopState ρ × Option Exit) :
    (endTurn loop r).stage = .live ∨ (endTurn loop r).stage = .past := by
  obtain ⟨t, exit⟩ := r
  cases exit with
  | none => exact .inl rfl
  | some exit => exact leave_stage exit

section Effect

variable [LinearOrder T]

/-- The steps, by what they do to the rows. -/
inductive Effect (s : State ρ T) : Action ρ T → State ρ T → Prop
  | spawned {a : Action ρ T} (id taskId : String) (trigger : Trigger) (inFlight : List String)
      (hfresh : s.runs id = none) :
      Effect s a { s.setRun id ⟨taskId, trigger, .spawned⟩ with inFlight := inFlight }
  | moved {a : Action ρ T} (id : String) (run : TaskRun ρ T) (phase : Phase ρ T)
      (inFlight : List String) (hrun : s.runs id = some run)
      (hstage : phase.stage = run.phase.stage ∨ phase.stage = .past) :
      Effect s a { s.move id run phase with inFlight := inFlight }
  | inserted {a : Action ρ T} (id : String) (run : TaskRun ρ T) (phase : Phase ρ T) (now : T)
      (hrun : s.runs id = some run) (hstage : run.phase.stage = .unopened)
      (hlive : phase.stage = .live) :
      Effect s a { s.move id run phase with
        table := s.table ++ [openRow id run.taskId now run.trigger] }
  | polled (id : String) (run : TaskRun ρ T) (phase : Phase ρ T) (pick : Nat)
      (hrun : s.runs id = some run) (hlive : run.phase.stage = .live)
      (hstage : phase.stage = run.phase.stage ∨ phase.stage = .past) :
      Effect s (.statement id (.checkCancel (some pick))) { s.move id run phase with
        history := s.history ++
          [.polled id (recorded id s.table) (checkCancel run.taskId s.table pick)] }
  | saved (id : String) (run : TaskRun ρ T) (phase : Phase ρ T) (progress : Progress)
      (hrun : s.runs id = some run) (hlive : run.phase.stage = .live)
      (hstage : phase.stage = run.phase.stage ∨ phase.stage = .past) :
      Effect s (.statement id (.updateProgress true)) { s.move id run phase with
        table := updateProgress run.taskId progress s.table
        history := s.history ++ [.saved id progress] }
  | finished {a : Action ρ T} (id : String) (run : TaskRun ρ T)
      (outcome : Except String RunOutcome)
      (hrun : s.runs id = some run) (hlive : run.phase.stage = .live) :
      Effect s a { s.move id run .closed with
        table := finishRun id outcome s.table
        history := s.history ++ match outcome with
          | .ok o => [.finished id o.processedRows o.failedRows]
          | .error _ => [] }
  | canceled {a : Action ρ T} (taskId : String) :
      Effect s a { s with table := cancelTask taskId s.table }
  | restarted {a : Action ρ T} :
      Effect s a { s with
        runs := fun id => (s.runs id).map fun run => { run with phase := .gone }
        inFlight := [] }

variable {chrono : Chrono T} {share : T → T → Int} {s t : State ρ T}

theorem effect_of_findResumable {a : Action ρ T} {id : String} {run : TaskRun ρ T}
    (hrun : s.runs id = some run) (hphase : run.phase = .spawned) (pick : Option Nat) :
    Effect s a (findResumable s id run pick) :=
  .moved id run _ s.inFlight hrun (.inl (by rw [hphase]; rfl))

theorem effect_of_insertRow {a : Action ρ T} {id : String} {run : TaskRun ρ T}
    {latest : Except String (Option (Option String × Option String))}
    (hrun : s.runs id = some run) (hphase : run.phase = .resuming latest) (now : T)
    (ok : Bool) : Effect s a (insertRow s id run latest now ok) := by
  cases ok with
  | true => exact .inserted id run _ now hrun (by rw [hphase]; rfl) rfl
  | false => exact .moved id run _ s.inFlight hrun (.inr rfl)

theorem effect_of_enterLoop {a : Action ρ T} {id : String} {run : TaskRun ρ T}
    {latest : Except String (Option (Option String × Option String))}
    (hrun : s.runs id = some run) (hphase : run.phase = .opened latest) (setup : Setup)
    (world : World ρ T) : Effect s a (enterLoop chrono s id run latest setup world) := by
  unfold enterLoop
  split
  · exact .moved id run _ s.inFlight hrun (.inl (by rw [hphase]; rfl))
  · exact .moved id run _ s.inFlight hrun (.inl (by rw [hphase]; rfl))

theorem effect_of_poll {id : String} {run : TaskRun ρ T} {loop : Loop ρ T}
    {turn : LoopState ρ} (hrun : s.runs id = some run) (hphase : run.phase = .polling loop turn)
    (pick : Option Nat) :
    Effect s (.statement id (.checkCancel pick)) (poll s id run loop turn pick) := by
  have hlive : run.phase.stage = .live := by rw [hphase]; rfl
  cases pick with
  | none => exact .moved id run _ s.inFlight hrun (.inl hlive.symm)
  | some pick =>
      refine .polled id run _ pick hrun hlive ?_
      rw [hlive]
      cases pollExit turn (some (checkCancel run.taskId s.table pick)) with
      | none => exact .inl rfl
      | some exit => exact leave_stage exit

theorem effect_of_fetch {a : Action ρ T} {id : String} {run : TaskRun ρ T} {loop : Loop ρ T}
    {turn : LoopState ρ} (hrun : s.runs id = some run)
    (hphase : run.phase = .fetching loop turn) :
    Effect s a (fetch chrono s id run loop turn) := by
  have hlive : run.phase.stage = .live := by rw [hphase]; rfl
  unfold fetch
  split
  case h_1 exit _ => exact .moved id run _ s.inFlight hrun (hlive ▸ leave_stage exit)
  case h_2 => exact .moved id run _ s.inFlight hrun (.inl hlive.symm)
  case h_3 => exact .moved id run _ s.inFlight hrun (.inl hlive.symm)

theorem effect_of_save {id : String} {run : TaskRun ρ T} {loop : Loop ρ T}
    {turn : LoopState ρ} {next : String} (hrun : s.runs id = some run)
    (hphase : run.phase = .saving loop turn next) (ok : Bool) :
    Effect s (.statement id (.updateProgress ok))
      (save chrono share s id run loop turn next ok) := by
  have hlive : run.phase.stage = .live := by rw [hphase]; rfl
  cases ok with
  | true => exact .saved id run _ _ hrun hlive (hlive ▸ endTurn_stage loop _)
  | false => exact .moved id run _ s.inFlight hrun (hlive ▸ endTurn_stage loop _)

theorem effect_of_finish {a : Action ρ T} {id : String} {run : TaskRun ρ T}
    {outcome : Except String RunOutcome} (hrun : s.runs id = some run)
    (hphase : run.phase = .closing outcome) (ok : Bool) :
    Effect s a (finish s id run outcome ok) := by
  cases ok with
  | true => exact .finished id run outcome hrun (by rw [hphase]; rfl)
  | false => exact .moved id run _ s.inFlight hrun (.inr rfl)

theorem effect_of_runStep {id : String} {run : TaskRun ρ T} {st : Statement ρ T}
    (hrun : s.runs id = some run) (hstep : runStep chrono share s id run st = some t) :
    Effect s (.statement id st) t := by
  cases st with
  | findResumable pick =>
      simp only [runStep] at hstep
      split at hstep
      case h_1 hphase =>
        cases hstep
        exact effect_of_findResumable hrun hphase pick
      case h_2 => cases hstep
  | insertRow now ok =>
      simp only [runStep] at hstep
      split at hstep
      case h_1 latest hphase =>
        cases hstep
        exact effect_of_insertRow hrun hphase now ok
      case h_2 => cases hstep
  | enter setup world =>
      simp only [runStep] at hstep
      split at hstep
      case h_1 latest hphase =>
        cases hstep
        exact effect_of_enterLoop hrun hphase setup world
      case h_2 => cases hstep
  | checkCancel pick =>
      simp only [runStep] at hstep
      split at hstep
      case h_1 loop turn hphase =>
        cases hstep
        exact effect_of_poll hrun hphase pick
      case h_2 => cases hstep
  | fetch =>
      simp only [runStep] at hstep
      split at hstep
      case h_1 loop turn hphase =>
        cases hstep
        exact effect_of_fetch hrun hphase
      case h_2 => cases hstep
  | updateProgress ok =>
      simp only [runStep] at hstep
      split at hstep
      case h_1 loop turn next hphase =>
        cases hstep
        exact effect_of_save hrun hphase ok
      case h_2 => cases hstep
  | finish ok =>
      simp only [runStep] at hstep
      split at hstep
      case h_1 outcome hphase =>
        cases hstep
        exact effect_of_finish hrun hphase ok
      case h_2 => cases hstep
  | release =>
      simp only [runStep] at hstep
      split at hstep
      case h_1 => 
        cases hstep
        exact .moved id run .gone _ hrun (.inr rfl)
      case h_2 => cases hstep

theorem effect_of_step {a : Action ρ T} (hstep : step chrono share s a = some t) :
    Effect s a t := by
  cases a with
  | dispatch id taskId =>
      simp only [step, dispatch] at hstep
      split_ifs at hstep with hfresh hflight
      cases hstep
      exact .spawned id taskId .scheduler _ hfresh
  | runTaskNow id taskId userId =>
      simp only [step] at hstep
      split_ifs at hstep with hfresh
      cases hstep
      exact .spawned id taskId (.manual userId) s.inFlight hfresh
  | statement id st =>
      simp only [step] at hstep
      split at hstep
      case h_1 run hrun => exact effect_of_runStep hrun hstep
      case h_2 => cases hstep
  | cancelTask taskId =>
      cases hstep
      exact .canceled taskId
  | restart =>
      cases hstep
      exact .restarted

end Effect

/-! ## Where the rows are -/

/-- The ids of the rows are distinct and those of runs; a live run has a row, which
is running, and a run that has not opened its row has none. -/
structure Placed (table : List (RunRow T)) (runs : String → Option (TaskRun ρ T)) : Prop where
  distinct : (table.map RunRow.id).Nodup
  known : ∀ row ∈ table, runs row.id ≠ none
  unopened : ∀ id run, runs id = some run → run.phase.stage = .unopened →
    Absent RunRow.id id table
  hosted : ∀ id run, runs id = some run → run.phase.stage = .live →
    ¬ Absent RunRow.id id table
  running : ∀ id run, runs id = some run → run.phase.stage = .live →
    ∀ row ∈ table, row.id = id → row.runs run.taskId = true

section Placed

variable {table : List (RunRow T)} {runs runs' : String → Option (TaskRun ρ T)}

/-- Every run is past, or as it was. -/
def Follows (runs runs' : String → Option (TaskRun ρ T)) : Prop :=
  (∀ id, runs id ≠ none → runs' id ≠ none) ∧
    ∀ id run', runs' id = some run' → run'.phase.stage = .past ∨
      ∃ run, runs id = some run ∧ run.phase.stage = run'.phase.stage ∧
        run.taskId = run'.taskId

theorem Placed.follow (hfollows : Follows runs runs') (h : Placed table runs) :
    Placed table runs' where
  distinct := h.distinct
  known row hrow := hfollows.1 row.id (h.known row hrow)
  unopened id run' hrun' hstage := by
    rcases hfollows.2 id run' hrun' with hpast | ⟨run, hrun, hsame, -⟩
    · exact absurd (hpast.symm.trans hstage) (by decide)
    · exact h.unopened id run hrun (hsame.trans hstage)
  hosted id run' hrun' hstage := by
    rcases hfollows.2 id run' hrun' with hpast | ⟨run, hrun, hsame, -⟩
    · exact absurd (hpast.symm.trans hstage) (by decide)
    · exact h.hosted id run hrun (hsame.trans hstage)
  running id run' hrun' hstage := by
    rcases hfollows.2 id run' hrun' with hpast | ⟨run, hrun, hsame, htask⟩
    · exact absurd (hpast.symm.trans hstage) (by decide)
    · exact htask ▸ h.running id run hrun (hsame.trans hstage)

theorem update_cases {id id' : String} {run run' : TaskRun ρ T}
    (h : Function.update runs id (some run) id' = some run') :
    (id' = id ∧ run' = run) ∨ (id' ≠ id ∧ runs id' = some run') := by
  rw [Function.update_apply] at h
  split_ifs at h with hid
  · cases h
    exact .inl ⟨hid, rfl⟩
  · exact .inr ⟨hid, h⟩

theorem follows_update {id : String} {run run' : TaskRun ρ T} (hrun : runs id = some run)
    (htask : run'.taskId = run.taskId)
    (hstage : run'.phase.stage = run.phase.stage ∨ run'.phase.stage = .past) :
    Follows runs (Function.update runs id (some run')) := by
  constructor
  · intro id' hid'
    rw [Function.update_apply]
    split_ifs
    · exact Option.some_ne_none run'
    · exact hid'
  · intro id' other hother
    rcases update_cases hother with ⟨rfl, rfl⟩ | ⟨-, hother⟩
    · rcases hstage with hsame | hpast
      · exact .inr ⟨run, hrun, hsame.symm, htask.symm⟩
      · exact .inl hpast
    · exact .inr ⟨other, hother, rfl, rfl⟩

theorem Placed.move {id : String} {run : TaskRun ρ T} {phase : Phase ρ T}
    (hrun : runs id = some run)
    (hstage : phase.stage = run.phase.stage ∨ phase.stage = .past) (h : Placed table runs) :
    Placed table (Function.update runs id (some { run with phase := phase })) :=
  h.follow (follows_update hrun rfl hstage)

theorem follows_restart :
    Follows runs fun id => (runs id).map fun run => { run with phase := .gone } := by
  constructor
  · intro id hid
    rw [ne_eq, Option.map_eq_none_iff]
    exact hid
  · intro id run' hrun'
    obtain ⟨run, -, rfl⟩ := Option.map_eq_some_iff.mp hrun'
    exact .inl rfl

theorem Placed.updateWhere {p : RunRow T → Bool} {f : RunRow T → RunRow T}
    (hid : ∀ row, (f row).id = row.id)
    (hruns : ∀ id run, runs id = some run → run.phase.stage = .live →
      ∀ row, row.id = id → p row = true → (f row).runs run.taskId = row.runs run.taskId)
    (h : Placed table runs) : Placed (updateWhere p f table) runs where
  distinct := by
    rw [map_updateWhere hid]
    exact h.distinct
  known := forall_updateWhere (fun row hrow _ => h.known row hrow)
    fun row hrow _ => by
      rw [hid]
      exact h.known row hrow
  unopened id run hrun hstage := (absent_updateWhere hid).mpr (h.unopened id run hrun hstage)
  hosted id run hrun hstage :=
    fun habsent => h.hosted id run hrun hstage ((absent_updateWhere hid).mp habsent)
  running id run hrun hstage := forall_updateWhere
    (fun row hrow _ => h.running id run hrun hstage row hrow)
    fun row hrow hp hrow' => by
      rw [hid] at hrow'
      rw [hruns id run hrun hstage row hrow' hp]
      exact h.running id run hrun hstage row hrow hrow'

theorem Placed.spawned {id : String} {run : TaskRun ρ T} (hfresh : runs id = none)
    (hstage : run.phase.stage = .unopened) (h : Placed table runs) :
    Placed table (Function.update runs id (some run)) := by
  have habsent : Absent RunRow.id id table := fun row hrow hid => h.known row hrow (hid ▸ hfresh)
  constructor
  · exact h.distinct
  · intro row hrow
    rw [Function.update_of_ne (habsent row hrow)]
    exact h.known row hrow
  · intro id' run' hrun' hunopened
    rcases update_cases hrun' with ⟨rfl, -⟩ | ⟨-, hrun'⟩
    · exact habsent
    · exact h.unopened id' run' hrun' hunopened
  · intro id' run' hrun' hlive
    rcases update_cases hrun' with ⟨-, rfl⟩ | ⟨-, hrun'⟩
    · exact absurd (hstage.symm.trans hlive) (by decide)
    · exact h.hosted id' run' hrun' hlive
  · intro id' run' hrun' hlive
    rcases update_cases hrun' with ⟨-, rfl⟩ | ⟨-, hrun'⟩
    · exact absurd (hstage.symm.trans hlive) (by decide)
    · exact h.running id' run' hrun' hlive

theorem Placed.inserted {id : String} {run run' : TaskRun ρ T} {row : RunRow T}
    (hrun : runs id = some run) (hstage : run.phase.stage = .unopened)
    (hlive : run'.phase.stage = .live) (hrow : row.id = id)
    (hruns : row.runs run'.taskId = true) (h : Placed table runs) :
    Placed (table ++ [row]) (Function.update runs id (some run')) := by
  have habsent := h.unopened id run hrun hstage
  constructor
  · rw [List.map_append, List.map_singleton, hrow, List.nodup_append_comm]
    exact List.nodup_cons.mpr ⟨absent_iff.mp habsent, h.distinct⟩
  · intro other hother
    rw [Function.update_apply]
    rcases List.mem_append.mp hother with hother | hother
    · rw [if_neg (habsent other hother)]
      exact h.known other hother
    · rw [List.mem_singleton.mp hother, if_pos hrow]
      exact Option.some_ne_none run'
  · intro id' other hother hunopened
    rcases update_cases hother with ⟨-, rfl⟩ | ⟨hid, hother⟩
    · exact absurd (hlive.symm.trans hunopened) (by decide)
    · intro row' hrow'
      rcases List.mem_append.mp hrow' with hrow' | hrow'
      · exact h.unopened id' other hother hunopened row' hrow'
      · rw [List.mem_singleton.mp hrow', hrow]
        exact Ne.symm hid
  · intro id' other hother hlive' habsent'
    rcases update_cases hother with ⟨rfl, -⟩ | ⟨hid, hother⟩
    · exact habsent' row List.mem_concat_self hrow
    · exact h.hosted id' other hother hlive' fun row' hrow' =>
        habsent' row' (List.mem_append_left _ hrow')
  · intro id' other hother hlive' row' hrow' hid'
    rcases update_cases hother with ⟨rfl, rfl⟩ | ⟨hid, hother⟩
    · rcases List.mem_append.mp hrow' with hrow' | hrow'
      · exact absurd hid' (habsent row' hrow')
      · rw [List.mem_singleton.mp hrow']
        exact hruns
    · rcases List.mem_append.mp hrow' with hrow' | hrow'
      · exact h.running id' other hother hlive' row' hrow' hid'
      · rw [List.mem_singleton.mp hrow', hrow] at hid'
        exact absurd hid'.symm hid

theorem finish_id (outcome : Except String RunOutcome) (row : RunRow T) :
    (row.finish outcome).id = row.id := by
  cases outcome <;> rfl

theorem Placed.finished {id : String} {run : TaskRun ρ T} (outcome : Except String RunOutcome)
    (hrun : runs id = some run) (h : Placed table runs) :
    Placed (finishRun id outcome table)
      (Function.update runs id (some { run with phase := .closed })) := by
  refine (h.move hrun (.inr rfl)).updateWhere (finish_id outcome) fun id' other hother hlive row hrow hp => ?_
  have hid : id' = id := hrow.symm.trans (of_decide_eq_true hp)
  rw [hid, Function.update_self, Option.some.injEq] at hother
  rw [← hother] at hlive
  cases hlive

variable [LinearOrder T] {s t : State ρ T}

omit [LinearOrder T] in
theorem placed_initial :
    Placed ([] : List (RunRow T)) (fun _ => none : String → Option (TaskRun ρ T)) where
  distinct := List.nodup_nil
  known _ hrow := by cases hrow
  unopened _ _ hrun := by cases hrun
  hosted _ _ hrun := by cases hrun
  running _ _ hrun := by cases hrun

theorem Effect.placed {a : Action ρ T} (heffect : Effect s a t)
    (h : Placed s.table s.runs) : Placed t.table t.runs := by
  cases heffect with
  | spawned id taskId trigger inFlight hfresh => exact h.spawned hfresh rfl
  | moved id run phase inFlight hrun hstage => exact h.move hrun hstage
  | inserted id run phase now hrun hstage hlive =>
      refine h.inserted hrun hstage hlive rfl ?_
      exact decide_eq_true ⟨rfl, rfl⟩
  | polled id run phase pick hrun hlive hstage =>
      exact h.move hrun hstage
  | saved id run phase progress hrun hlive hstage =>
      exact (h.move hrun hstage).updateWhere (fun _ => rfl) fun _ _ _ _ _ _ _ => rfl
  | finished id run outcome hrun hlive => exact h.finished outcome hrun
  | canceled taskId => exact h.updateWhere (fun _ => rfl) fun _ _ _ _ _ _ _ => rfl
  | restarted => exact h.follow follows_restart

end Placed

/-! ## What the rows tell -/

theorem ownProgress_snoc (history : List Event) (e : Event) (id : String) :
    ownProgress (history ++ [e]) id = record id (ownProgress history id) e := by
  rw [ownProgress, List.foldl_append, List.foldl_cons, List.foldl_nil, ← ownProgress]

/-- Beside what the rows and the polls tell: nothing is told of a run without a row. -/
structure Told (table : List (RunRow T)) (history : List Event) : Prop where
  progress : ∀ row ∈ table, row.progress = ownProgress history row.id
  fresh : ∀ id, Absent RunRow.id id table → ownProgress history id = .fresh
  cancel : ∀ id flag observed, .polled id flag observed ∈ history → flag = some observed

section Told

variable {table : List (RunRow T)} {history : List Event} {id : String}

theorem Told.inserted {row : RunRow T} (habsent : Absent RunRow.id row.id table)
    (hrow : row.progress = .fresh) (h : Told table history) :
    Told (table ++ [row]) history where
  progress other hother := by
    rcases List.mem_append.mp hother with hother | hother
    · exact h.progress other hother
    · rw [List.mem_singleton.mp hother, hrow, h.fresh row.id habsent]
  fresh id habsent' := h.fresh id fun other hother =>
    habsent' other (List.mem_append_left _ hother)
  cancel := h.cancel

theorem Told.canceled (taskId : String) (h : Told table history) :
    Told (cancelTask taskId table) history where
  progress := forall_updateWhere (fun row hrow _ => h.progress row hrow)
    fun row hrow _ => h.progress row hrow
  fresh id habsent := h.fresh id ((absent_updateWhere (by intro; rfl)).mp habsent)
  cancel := h.cancel

theorem Told.polled {flag : Option Bool} {observed : Bool} (hflag : flag = some observed)
    (h : Told table history) : Told table (history ++ [.polled id flag observed]) where
  progress row hrow := by
    rw [ownProgress_snoc]
    exact h.progress row hrow
  fresh id habsent := by
    rw [ownProgress_snoc]
    exact h.fresh id habsent
  cancel id' flag' observed' hmem := by
    rcases List.mem_append.mp hmem with hmem | hmem
    · exact h.cancel id' flag' observed' hmem
    · cases List.mem_singleton.mp hmem
      exact hflag

theorem Told.saved {taskId : String} {progress : Progress}
    (hown : ∀ row ∈ table, row.runs taskId = true ↔ row.id = id)
    (hhosted : ¬ Absent RunRow.id id table) (h : Told table history) :
    Told (updateProgress taskId progress table) (history ++ [.saved id progress]) where
  progress := by
    apply forall_updateWhere
    · intro row hrow hp
      have hne : id ≠ row.id := by
        intro hid
        rw [(hown row hrow).mpr hid.symm] at hp
        cases hp
      rw [ownProgress_snoc, record, if_neg hne]
      exact h.progress row hrow
    · intro row hrow hp
      rw [ownProgress_snoc, record, if_pos ((hown row hrow).mp hp).symm]
  fresh id' habsent := by
    have hold := (absent_updateWhere (by intro; rfl)).mp habsent
    have hne : id ≠ id' := fun hid => hhosted (hid ▸ hold)
    rw [ownProgress_snoc, record, if_neg hne]
    exact h.fresh id' hold
  cancel id' flag observed hmem := by
    rcases List.mem_append.mp hmem with hmem | hmem
    · exact h.cancel id' flag observed hmem
    · cases List.mem_singleton.mp hmem

theorem Told.finished (outcome : Except String RunOutcome)
    (hhosted : ¬ Absent RunRow.id id table) (h : Told table history) :
    Told (finishRun id outcome table) (history ++ match outcome with
      | .ok o => [.finished id o.processedRows o.failedRows]
      | .error _ => []) := by
  cases outcome with
  | error message =>
      rw [List.append_nil]
      constructor
      · exact forall_updateWhere (fun row hrow _ => h.progress row hrow)
          fun row hrow _ => h.progress row hrow
      · exact fun id' habsent => h.fresh id' ((absent_updateWhere (by intro; rfl)).mp habsent)
      · exact h.cancel
  | ok o =>
      constructor
      · apply forall_updateWhere
        · intro row hrow hp
          rw [ownProgress_snoc, record, if_neg (Ne.symm (of_decide_eq_false hp))]
          exact h.progress row hrow
        · intro row hrow hp
          have hid : id = row.id := (of_decide_eq_true hp).symm
          rw [ownProgress_snoc, record, finish_id, if_pos hid, ← h.progress row hrow]
          rfl
      · intro id' habsent
        have hold := (absent_updateWhere (by intro; rfl)).mp habsent
        have hne : id ≠ id' := fun hid => hhosted (hid ▸ hold)
        rw [ownProgress_snoc, record, if_neg hne]
        exact h.fresh id' hold
      · intro id' flag observed hmem
        rcases List.mem_append.mp hmem with hmem | hmem
        · exact h.cancel id' flag observed hmem
        · cases List.mem_singleton.mp hmem

end Told

/-! ## Polls -/

section Polls

variable [LinearOrder T] {chrono : Chrono T} {share : T → T → Int} {s t : State ρ T}

theorem recorded_eq_checkCancel {id : String} {run : TaskRun ρ T}
    (hrun : s.runs id = some run) (hlive : run.phase.stage = .live)
    (hlatest : ∀ own ∈ s.table, own.id = id → ∀ row ∈ s.table, row.runs run.taskId = true →
      row.id ≠ id → row.startedAt < own.startedAt)
    (h : Placed s.table s.runs) (pick : Nat) :
    recorded id s.table = some (checkCancel run.taskId s.table pick) := by
  have hhosted := h.hosted id run hrun hlive
  simp only [Absent, not_forall, not_not] at hhosted
  obtain ⟨own, hown, hid⟩ := hhosted
  have hunique : ∀ row ∈ s.table, row.id = id → row = own := fun row hrow hrow' =>
    List.inj_on_of_nodup_map h.distinct hrow hown (hrow'.trans hid.symm)
  have hfetch : fetchLatest RunRow.startedAt (RunRow.runs run.taskId) s.table pick =
      some own := by
    refine fetchLatest_eq hown (h.running id run hrun hlive own hown hid) ?_ pick
    intro row hrow hruns
    by_cases hrow' : row.id = id
    · exact .inl (hunique row hrow hrow')
    · exact .inr (hlatest own hown hid row hrow hruns hrow')
  have hfind : s.table.find? (fun row => decide (row.id = id)) = some own := by
    cases hfound : s.table.find? fun row => decide (row.id = id) with
    | none => exact absurd (decide_eq_true hid) (List.find?_eq_none.mp hfound own hown)
    | some row =>
        have hrow := List.find?_some hfound
        rw [hunique row (List.mem_of_find?_eq_some hfound) (of_decide_eq_true hrow)]
  rw [recorded, hfind, checkCancel, hfetch]
  rfl

theorem Effect.told {a : Action ρ T} (hundisturbed : Undisturbed s a) (heffect : Effect s a t)
    (hplaced : Placed s.table s.runs) (h : Told s.table s.history) :
    Told t.table t.history := by
  cases heffect with
  | spawned | moved | restarted => exact h
  | inserted id run phase now hrun hstage hlive =>
      exact h.inserted (hplaced.unopened id run hrun hstage) rfl
  | polled id run phase pick hrun hlive hstage =>
      exact h.polled (recorded_eq_checkCancel hrun hlive (hundisturbed run hrun) hplaced pick)
  | saved id run phase progress hrun hlive hstage =>
      refine h.saved (fun row hrow => ⟨hundisturbed run hrun row hrow, ?_⟩)
        (hplaced.hosted id run hrun hlive)
      exact hplaced.running id run hrun hlive row hrow
  | finished id run outcome hrun hlive =>
      exact h.finished outcome (hplaced.hosted id run hrun hlive)
  | canceled taskId => exact h.canceled taskId

/-- In every run whose polls and saves are undisturbed, the rows and the flags are kept
apart. -/
theorem keepsApart_of_undisturbed :
    KeepsApart (ρ := ρ) chrono share Undisturbed := by
  intro acts s hrun
  have hinv : Placed s.table s.runs ∧ Told s.table s.history := by
    refine Run.invariant (I := fun s => Placed s.table s.runs ∧ Told s.table s.history)
      (fun s a t hallowed hstep h => ?_) hrun ⟨placed_initial, ?_⟩
    · have heffect := effect_of_step hstep
      exact ⟨heffect.placed h.1, heffect.told hallowed h.1 h.2⟩
    · exact ⟨by simp [State.initial], fun _ _ => rfl, by simp [State.initial]⟩
  exact ⟨hinv.2.progress, hinv.2.cancel⟩

end Polls

/-! ## A run that nothing comes between -/

section Lone

variable {s : State ρ T} {id taskId : String} {trigger : Trigger} {loop : Loop ρ T}
  {t : LoopState ρ}

/-- Only the run itself acts. -/
def Alone (id : String) (_ : State ρ T) : Action ρ T → Prop
  | .statement id' _ => id' = id
  | _ => False

/-- No running row of the task is to be canceled. -/
def Unflagged (taskId : String) (table : List (RunRow T)) : Prop :=
  ∀ row ∈ table, row.runs taskId = true → row.cancelRequested = false

theorem Unflagged.updateProgress {table : List (RunRow T)} (h : Unflagged taskId table)
    (progress : Progress) : Unflagged taskId (updateProgress taskId progress table) := by
  intro row hrow hruns
  obtain ⟨old, hold, heq⟩ := mem_updateWhere.mp hrow
  split_ifs at heq
  · subst heq
    exact h old hold hruns
  · exact h row (heq ▸ hold) hruns

theorem runs_move (s : State ρ T) (id : String) (run : TaskRun ρ T) (phase : Phase ρ T) :
    (s.move id run phase).runs id = some { run with phase := phase } :=
  Function.update_self ..

variable [LinearOrder T] (chrono : Chrono T) (share : T → T → Int)

theorem checkCancel_of_unflagged {table : List (RunRow T)} (h : Unflagged taskId table)
    (pick : Nat) : checkCancel taskId table pick = false := by
  unfold checkCancel
  cases hfetch : fetchLatest RunRow.startedAt (RunRow.runs taskId) table pick with
  | none => rfl
  | some row =>
      obtain ⟨⟨hrow, hruns⟩, -⟩ := mem_latestRows.mp (fetchLatest_mem hfetch)
      exact h row hrow hruns

theorem step_statement {run : TaskRun ρ T} (hrun : s.runs id = some run) (st : Statement ρ T) :
    step chrono share s (.statement id st) = runStep chrono share s id run st := by
  simp only [step, hrun]

variable {chrono share} in
theorem alone_cons {st : Statement ρ T} {acts : List (Action ρ T)} {s' s'' : State ρ T}
    (hstep : step chrono share s (.statement id st) = some s')
    (hrest : Run (step chrono share) (Alone id) s' acts s'') :
    Run (step chrono share) (Alone id) s (.statement id st :: acts) s'' :=
  .cons rfl hstep hrest

/-- The three statements of a turn, one after the other, are the turn. -/
theorem lone_turn (hworld : ∀ k, loop.world.cancelRequested k ≠ some true)
    (hrun : s.runs id = some ⟨taskId, trigger, .polling loop t⟩)
    (hflags : Unflagged taskId s.table) :
    ∃ acts s', Run (step chrono share) (Alone id) s acts s' ∧ Unflagged taskId s'.table ∧
      s'.runs id = some ⟨taskId, trigger,
        endTurn loop (etlTurn chrono loop.world loop.ctx loop.path loop.upper t)⟩ := by
  rw [etlTurn_eq_steps]
  cases hpoll : loop.world.cancelRequested t.turn with
  | none =>
      have hfailed := step_statement chrono share hrun (.checkCancel none)
      exact ⟨_, _, alone_cons hfailed (.nil _), hflags, runs_move s id _ _⟩
  | some canceled =>
      obtain rfl : canceled = false := by
        cases canceled with
        | false => rfl
        | true => exact absurd hpoll (hworld _)
      let polled := poll s id ⟨taskId, trigger, .polling loop t⟩ loop t (some 0)
      have hpolled : polled.runs id = some ⟨taskId, trigger, .fetching loop t⟩ := by
        simp only [polled, poll, checkCancel_of_unflagged hflags]
        exact runs_move ..
      have hpoll : step chrono share s (.statement id (.checkCancel (some 0))) = some polled :=
        step_statement chrono share hrun _
      have hfetch := step_statement chrono share hpolled .fetch
      simp only [runStep, fetch] at hfetch
      simp only [pollExit]
      cases hbatch : fetchBatch chrono loop t with
      | left exit =>
          rw [hbatch] at hfetch
          exact ⟨_, _, alone_cons hpoll (alone_cons hfetch (.nil _)), hflags, runs_move ..⟩
      | skipped t' =>
          rw [hbatch] at hfetch
          exact ⟨_, _, alone_cons hpoll (alone_cons hfetch (.nil _)), hflags, runs_move ..⟩
      | handed t' next =>
          rw [hbatch] at hfetch
          have hsave := step_statement chrono share
            (runs_move polled id ⟨taskId, trigger, .fetching loop t⟩ (.saving loop t' next))
            (.updateProgress (loop.world.savesProgress t.turn))
          refine ⟨_, _, alone_cons hpoll (alone_cons hfetch (alone_cons hsave (.nil _))), ?_, ?_⟩
          · unfold save
            dsimp only
            split
            · exact hflags.updateProgress _
            · exact hflags
          · unfold save
            dsimp only
            split
            · exact runs_move ..
            · exact runs_move ..

theorem lone_turns (hworld : ∀ k, loop.world.cancelRequested k ≠ some true) {exit : Exit}
    (n : Nat) (hrun : s.runs id = some ⟨taskId, trigger, .polling loop t⟩)
    (hflags : Unflagged taskId s.table)
    (hexit : (turns chrono loop.world loop.ctx loop.path loop.upper n t).2 = some exit) :
    ∃ acts s', Run (step chrono share) (Alone id) s acts s' ∧
      s'.runs id = some ⟨taskId, trigger, leave exit⟩ := by
  induction n generalizing s t with
  | zero => cases hexit
  | succ n ih =>
      obtain ⟨acts, s', hacts, hflags', hrun'⟩ := lone_turn chrono share hworld hrun hflags
      rw [turns] at hexit
      cases hturn : etlTurn chrono loop.world loop.ctx loop.path loop.upper t with
      | mk t' left =>
          rw [hturn] at hexit hrun'
          cases left with
          | some exit' =>
              cases hexit
              exact ⟨acts, s', hacts, hrun'⟩
          | none =>
              obtain ⟨later, s'', hlater, hrun''⟩ := ih hrun' hflags' hexit
              exact ⟨acts ++ later, s'', hacts.append hlater, hrun''⟩

/-- A run that nothing comes between leaves as `run_task_inner` does. -/
theorem lone_run (hrun : s.runs id = some ⟨taskId, trigger, .spawned⟩)
    (hflags : Unflagged taskId s.table) (pick : Nat) (now : T) (setup : Setup) (world : World ρ T)
    (hworld : ∀ k, world.cancelRequested k ≠ some true) (n : Nat) {exit : Exit}
    (hexit : (runTaskInner chrono { setup with latestRun := .ok (latestRun taskId s.table pick) }
      world n).2 = some exit) :
    ∃ acts s', Run (step chrono share) (Alone id) s acts s' ∧
      s'.runs id = some ⟨taskId, trigger, leave exit⟩ := by
  let latest : Except String (Option (Option String × Option String)) :=
    .ok (latestRun taskId s.table pick)
  let resumed := findResumable s id ⟨taskId, trigger, .spawned⟩ (some pick)
  let opened := insertRow resumed id ⟨taskId, trigger, .resuming latest⟩ latest now true
  have hresume : step chrono share s (.statement id (.findResumable (some pick))) = some resumed :=
    step_statement chrono share hrun _
  have hinsert : step chrono share resumed (.statement id (.insertRow now true)) = some opened :=
    step_statement chrono share (runs_move s id _ (.resuming latest)) _
  have hrun' : opened.runs id = some ⟨taskId, trigger, .opened latest⟩ :=
    runs_move resumed id _ (.opened latest)
  have henter := step_statement chrono share hrun' (.enter setup world)
  have hopened : Unflagged taskId opened.table := by
    intro row hrow hruns
    rcases List.mem_append.mp hrow with hold | hnew
    · exact hflags row hold hruns
    · rw [List.mem_singleton.mp hnew]
      rfl
  rw [runTaskInner_eq_follow] at hexit
  simp only [runStep, enterLoop] at henter
  cases hloop : enter chrono { setup with latestRun := latest } world with
  | error e =>
      rw [hloop] at hexit henter
      cases hexit
      exact ⟨_, _, alone_cons hresume (alone_cons hinsert (alone_cons henter (.nil _))),
        runs_move opened id _ _⟩
  | ok entered =>
      obtain ⟨loop, t⟩ := entered
      rw [hloop] at hexit henter
      rw [← world_of_enter hloop] at hworld
      obtain ⟨acts, s', hacts, hleft⟩ := lone_turns chrono share hworld n
        (runs_move opened id ⟨taskId, trigger, .opened latest⟩ (.polling loop t)) hopened hexit
      exact ⟨_, s', alone_cons hresume (alone_cons hinsert (alone_cons henter hacts)), hleft⟩

end Lone

/-! ## A manual run beside a scheduled one -/

/-- The scheduled run is canceled; before it polls, a manual run opens its row, inserts
its first batch and saves its progress. -/
def overlap : List (Action Nat Int) :=
  [.dispatch "nightly" "orders",
   .statement "nightly" (.findResumable (some 0)),
   .statement "nightly" (.insertRow 0 true),
   .statement "nightly" (.enter ExactlyOnce.minuteSetup (ExactlyOnce.minuteWorld none)),
   .cancelTask "orders",
   .runTaskNow "byHand" "orders" "7",
   .statement "byHand" (.findResumable (some 0)),
   .statement "byHand" (.insertRow 1 true),
   .statement "nightly" (.checkCancel (some 0)),
   .statement "byHand" (.enter ExactlyOnce.minuteSetup (ExactlyOnce.minuteWorld none)),
   .statement "byHand" (.checkCancel (some 0)),
   .statement "byHand" .fetch,
   .statement "byHand" (.updateProgress true)]

def percent (c m : Int) : Int := 100 * c / m

/-- The row of the run counts a batch it did not insert. -/
def countsAnother (s : State Nat Int) (id : String) : Bool :=
  s.table.any fun row => decide (row.id = id ∧
    row.progress.processedRows ≠ (ownProgress s.history id).processedRows)

/-- The run read that it is to go on, while its row says that it is canceled. -/
def missesCancel (s : State Nat Int) (id : String) : Bool :=
  s.history.any fun
    | .polled id' (some true) false => decide (id' = id)
    | _ => false

/-- The manual run writes its progress to the row of the scheduled one, and hides its
cancellation. -/
theorem overlapping_runs_tangle :
    (∃ s, Run (step civil percent) anyStep .initial overlap s ∧
      countsAnother s "nightly" = true ∧ missesCancel s "nightly" = true) ∧
    ¬ KeepsApart (ρ := Nat) civil percent anyStep := by
  have hexec : ((exec (step civil percent) .initial overlap).map fun s =>
      (countsAnother s "nightly", missesCancel s "nightly")) = some (true, true) := by
    decide +kernel
  obtain ⟨s, hs, htangled⟩ := Option.map_eq_some_iff.mp hexec
  have hcounts : countsAnother s "nightly" = true := congrArg Prod.fst htangled
  have hmisses : missesCancel s "nightly" = true := congrArg Prod.snd htangled
  refine ⟨⟨s, run_of_exec hs, hcounts, hmisses⟩, fun happart => ?_⟩
  obtain ⟨row, hrow, hother⟩ := List.any_eq_true.mp hcounts
  obtain ⟨hid, hne⟩ := of_decide_eq_true hother
  apply hne
  rw [(happart overlap s (run_of_exec hs)).progress row hrow, hid]

end Dbmaster.DataSync.Overlap
