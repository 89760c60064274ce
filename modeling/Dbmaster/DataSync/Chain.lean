import Dbmaster.DataSync.NoLoss
import Dbmaster.Lib.Resume
/-!
# A chain of runs of one task

Every run opens a row of its own and resumes from the row of the run before it.
All runs but the last are canceled between two batches, or their process dies
there; the last one finishes.
-/

namespace Dbmaster.DataSync.Chain

open Dbmaster.Lib.Sweep
open Dbmaster.DataSync.Cursor Dbmaster.DataSync.Config Dbmaster.DataSync.Etl
  Dbmaster.DataSync.NoLoss

variable {ρ T : Type}

/-! ## The row of a run -/

/-- The status of the row after the run; a process that dies leaves it. -/
def statusLabel : Option Exit → String
  | none | some .panicked => "running"
  | some (.ok outcome) => if outcome.canceled then "canceled" else "succeeded"
  | some (.err _) => "failed"

/-- Cursor and status, as `find_resumable_cursor` reads them. -/
abbrev RunRow := Option String × Option String

def runRow (run : LoopState ρ × Option Exit) : RunRow := (run.1.saved, some (statusLabel run.2))

def afterRun (setup : Setup) (latest : Option RunRow) : Setup :=
  { setup with latestRun := .ok latest }

/-! ## The source and the target -/

/-- The databases of one run: the source answers from one content of its table,
the target takes every batch, and the progress is saved. -/
structure Serves [LinearOrder T] (chrono : Chrono T) (world : World ρ T) (path : EtlPath)
    (limit : Nat) (source : Source ρ) (probe : Option String × Option String) : Prop where
  answers : Answers chrono world path limit source
  probes : world.probe path.probeSql = some probe
  inserts : ∀ turn attempt rows, (world.insert turn attempt rows).isSome = true
  saves : ∀ turn, world.savesProgress turn = true

/-- The window of a fresh run: it starts at `start`, and MAX is `top`. -/
structure FreshWindow [LinearOrder T] (chrono : Chrono T) (cfg : DataSyncTaskConfig)
    (source : Source ρ) (probe : Option String × Option String) (start top : T) : Prop where
  starts : ∀ s, (cfg.batching.start <|> probe.1) = some s → parseCursor chrono s = some start
  tops : ∀ s, probe.2 = some s → parseCursor chrono s = some top
  /-- MIN and MAX are those of the table -/
  probed : ∀ r ∈ source.rows, ∀ t, (source.timeline chrono).time r = some t →
    probe.1.isSome = true ∧ probe.2.isSome = true ∧ t ≤ top

/-! ## Legs -/

/-- A run that is cut off after `stop` turns of its loop. -/
structure Leg (ρ T : Type) where
  world : World ρ T
  stop : Nat
  canceled : Bool

/-- The turn that sees the cancellation counts. -/
def Leg.turns (leg : Leg ρ T) : Nat := if leg.canceled then leg.stop + 1 else leg.stop

def Leg.run [LinearOrder T] (leg : Leg ρ T) (chrono : Chrono T) (setup : Setup)
    (latest : Option RunRow) : LoopState ρ × Option Exit :=
  runTaskInner chrono (afterRun setup latest) leg.world leg.turns

def Interrupted (leg : Leg ρ T) (exit : Option Exit) : Prop :=
  if leg.canceled then
    (∀ turn < leg.stop, leg.world.cancelRequested turn = some false) ∧
      ∃ processed failed, exit = some (.ok ⟨processed, failed, true⟩)
  else exit = none

/-- The runs from the latest row on: the legs that were cut off, a run that
finishes, and all they did to the target. -/
inductive TaskRuns [LinearOrder T] (chrono : Chrono T) (setup : Setup)
    (serves : World ρ T → Prop) :
    Option RunRow → List (Leg ρ T) → List (TargetEvent ρ) → Prop
  | finished {latest : Option RunRow} {world : World ρ T} {n processed failed : Nat}
      {s : LoopState ρ} (hserves : serves world)
      (hrun : runTaskInner chrono (afterRun setup latest) world n =
        (s, some (.ok ⟨processed, failed, false⟩))) :
      TaskRuns chrono setup serves latest [] s.events
  | interrupted {latest : Option RunRow} {leg : Leg ρ T} {legs : List (Leg ρ T)}
      {s : LoopState ρ} {exit : Option Exit} {events : List (TargetEvent ρ)}
      (hserves : serves leg.world)
      (hrun : leg.run chrono setup latest = (s, exit))
      (hinterrupted : Interrupted leg exit)
      (hrest : TaskRuns chrono setup serves (some (runRow (s, exit))) legs events) :
      TaskRuns chrono setup serves latest (leg :: legs) (s.events ++ events)

def insertedRows (events : List (TargetEvent ρ)) : List ρ :=
  events.flatMap fun
    | .insert rows (some _) => rows
    | _ => []

@[simp] theorem insertedRows_append (first second : List (TargetEvent ρ)) :
    insertedRows (first ++ second) = insertedRows first ++ insertedRows second :=
  List.flatMap_append

/-! ## One turn -/

section Turn

variable [LinearOrder T] {chrono : Chrono T} {world : World ρ T} {ctx : LoopCtx}
variable {path : EtlPath} {upper : String}

/-- How a turn of a run whose batches all go through can end. -/
inductive TurnEnds (chrono : Chrono T) (world : World ρ T) (batchSize : UInt64)
    (fetchSql upper : String) (s : LoopState ρ) : LoopState ρ × Option Exit → Prop
  | canceled (processed failed : Nat) (hcancel : world.cancelRequested s.turn = some true) :
      TurnEnds chrono world batchSize fetchSql upper s
        (s, some (.ok ⟨processed, failed, true⟩))
  | failed (t : LoopState ρ) (exit : Exit) (hexit : ∀ outcome, exit ≠ .ok outcome) :
      TurnEnds chrono world batchSize fetchSql upper s (t, some exit)
  | finished (t : LoopState ρ) (next : String) (rows : List ρ) (processed failed : Nat)
      (hadvance : advanceCursor chrono s.cursor batchSize = some next)
      (hfetch : world.fetch s.turn fetchSql s.cursor next = .ok rows)
      (hend : cursorGt chrono next upper = true)
      (hinserted : insertedRows t.events = insertedRows s.events ++ rows) :
      TurnEnds chrono world batchSize fetchSql upper s
        (t, some (.ok ⟨processed, failed, false⟩))
  | moved (t : LoopState ρ) (rows : List ρ)
      (hadvance : advanceCursor chrono s.cursor batchSize = some t.cursor)
      (hfetch : world.fetch s.turn fetchSql s.cursor t.cursor = .ok rows)
      (hgo : cursorGt chrono t.cursor upper = false)
      (hturn : t.turn = s.turn + 1)
      (hinserted : insertedRows t.events = insertedRows s.events ++ rows)
      (hsaved : t.saved = if rows.isEmpty then s.saved else some s.cursor) :
      TurnEnds chrono world batchSize fetchSql upper s (t, none)

omit [LinearOrder T] in
theorem retryBatchInsert_of_inserts (ctx : LoopCtx)
    (hinserts : ∀ turn attempt rows, (world.insert turn attempt rows).isSome = true)
    (turn : Nat) (rows : List ρ) :
    ∃ written, retryBatchInsert ctx.batchRetries (world.insert turn) rows =
      ([.insert rows (some written)], some written) := by
  obtain ⟨written, hwritten⟩ := Option.isSome_iff_exists.mp (hinserts turn 1 rows)
  obtain ⟨left, hleft⟩ := Nat.exists_eq_add_of_le' (one_le_attempts ctx.batchRetries)
  refine ⟨written, ?_⟩
  rw [retryBatchInsert, hleft, attemptInsert, hwritten]

omit [LinearOrder T] in
theorem handBatch_of_inserts (ctx : LoopCtx) (path : EtlPath)
    (hinserts : ∀ turn attempt rows, (world.insert turn attempt rows).isSome = true)
    (rows : List ρ) (s : LoopState ρ) :
    ∃ processed written, handBatch world ctx path rows s =
      { s with processed := processed, events := s.events ++ [.insert rows (some written)] } := by
  obtain ⟨written, hretry⟩ := retryBatchInsert_of_inserts ctx hinserts s.turn rows
  refine ⟨s.processed + if path.countsWritten then written else rows.length, written, ?_⟩
  simp only [handBatch, hretry]

theorem etlTurn_ends
    (hinserts : ∀ turn attempt rows, (world.insert turn attempt rows).isSome = true)
    (hsaves : ∀ turn, world.savesProgress turn = true) (s : LoopState ρ) :
    TurnEnds chrono world ctx.batchSize path.fetchSql upper s
      (etlTurn chrono world ctx path upper s) := by
  unfold etlTurn
  split
  case h_1 => exact .failed _ _ nofun
  case h_2 hcancel => exact .canceled _ _ hcancel
  case h_3 =>
    split
    case h_1 => exact .failed _ _ nofun
    case h_2 next hadvance =>
      split
      case h_1 => exact .failed _ _ nofun
      case h_2 hfetch =>
        by_cases hend : cursorGt chrono next upper = true
        · rw [if_pos hend]
          exact .finished s next [] _ _ hadvance hfetch hend (List.append_nil _).symm
        · rw [if_neg hend]
          exact .moved _ [] hadvance hfetch (by simpa [LoopState.advance] using hend) rfl
            (List.append_nil _).symm rfl
      case h_3 row rows hfetch =>
        obtain ⟨processed, written, hbatch⟩ :=
          handBatch_of_inserts ctx path hinserts (row :: rows) s
        have hsave : ¬ world.savesProgress s.turn = false := by
          rw [hsaves]
          exact Bool.true_eq_false.mp
        have hinserted : insertedRows (s.events ++ [.insert (row :: rows) (some written)]) =
            insertedRows s.events ++ row :: rows := by
          rw [insertedRows_append]
          simp [insertedRows]
        simp only [hbatch, if_neg hsave]
        by_cases hend : cursorGt chrono next upper = true
        · rw [if_pos hend]
          exact .finished _ next (row :: rows) _ _ hadvance hfetch hend hinserted
        · rw [if_neg hend]
          exact .moved _ (row :: rows) hadvance hfetch (by simpa [LoopState.advance] using hend)
            rfl hinserted rfl

end Turn

end Dbmaster.DataSync.Chain
