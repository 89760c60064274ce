import Dbmaster.DataSync.Clients
import Dbmaster.Lib.CivilTime
import Dbmaster.Lib.Text
import Dbmaster.Lib.Transition
import Dbmaster.Tasks.Handler
/-!
# Tasks in flight

The schedulers of drift, data sync and health checks: one loop that scans the tasks and
dispatches those that are due, each on a task of its own, and the set `InFlightTasks` between
the loop and the runs.
-/

namespace Dbmaster.Tasks.InFlight

open Dbmaster.Lib Dbmaster.Lib.Text Dbmaster.Lib.Transition
open Dbmaster.Tasks.Handler (ScheduledTask)

/-! ## Due tasks -/

/-- What the three schedulers differ in: the rows that the scan selects, and `is_due`. -/
structure Scheduler where
  scanned : ScheduledTask → Bool
  isDue : ScheduledTask → Int → Bool

/-- The libraries: `parse_from_rfc3339` in nanoseconds, `serde_json`, and a cron expression as
the first tick after a time. -/
structure Libraries where
  parseFromRfc3339 : String → Option Int
  fromStr : String → Option Json
  schedule : List Char → Option (Int → Option Int)

section Due

variable (lib : Libraries)

/-- `v.get("interval_minutes")` within its bounds, else the default. -/
def taskIntervalMinutes (configJson : String) (default : Nat) : Nat :=
  match lib.fromStr configJson with
  | none => default
  | some v =>
      (((v.get "interval_minutes").bind DataSync.Clients.asU64).filter
        fun x => decide (1 ≤ x ∧ x ≤ 1440)).getD default

/-- `is_due` of drift; a task that has never run is due. -/
def isDueInterval (lastRunAt : Option String) (intervalMinutes : Nat) (now : Int) : Bool :=
  match lastRunAt.bind lib.parseFromRfc3339 with
  | none => true
  | some parsed => decide (parsed + max intervalMinutes 1 * 60000000000 ≤ now)

/-- `split_whitespace().count()` -/
def fields (text : List Char) : Nat :=
  ((text.splitOnP isWhitespace).filter fun field => !field.isEmpty).length

/-- An expression of five fields gets one for the seconds. -/
def parseSchedule (expr : String) : Option (Int → Option Int) :=
  let trimmed := trim expr.toList
  lib.schedule (if fields trimmed = 5 then "0 ".toList ++ trimmed else trimmed)

/-- `is_due` of data sync and of health checks. -/
def isDueCron (cronExpr : String) (lastRunAt : Option String) (now : Int) : Bool :=
  match parseSchedule lib cronExpr with
  | none => false
  | some after =>
      match lastRunAt.bind lib.parseFromRfc3339 with
      | none => true
      | some last => (after last).any fun t => decide (t ≤ now)

def drift (defaultIntervalMins : Nat) : Scheduler where
  scanned task := task.taskType == "schema_drift" && task.enabled
  isDue task now :=
    isDueInterval lib task.lastRunAt (taskIntervalMinutes lib task.config defaultIntervalMins) now

def cron (taskType : String) : Scheduler where
  scanned task := task.taskType == taskType && task.enabled && task.cronExpr != ""
  isDue task now := isDueCron lib task.cronExpr task.lastRunAt now

def dataSync : Scheduler := cron lib "data_sync"

def healthCheck : Scheduler := cron lib "health_check"

end Due

/-! ## The set -/

/-- `try_acquire`: whether the id is new, and the set with it. -/
def tryAcquire (inner : List String) (taskId : String) : Bool × List String :=
  if taskId ∈ inner then (false, inner) else (true, taskId :: inner)

def release (inner : List String) (taskId : String) : List String :=
  inner.filter fun id => id != taskId

theorem mem_release {inner : List String} {taskId id : String} :
    id ∈ release inner taskId ↔ id ∈ inner ∧ id ≠ taskId := by
  unfold release
  rw [List.mem_filter, bne_iff_ne]

/-! ## The loop and the runs -/

/-- How far a spawned task is: in `run_task`, behind it, at its end, or ended by a panic. -/
inductive Phase
  | running
  | returned (ok : Bool)
  | released
  | panicked
  deriving DecidableEq

structure SpawnedTask where
  taskId : String
  phase : Phase
  deriving DecidableEq

/-- `rows` are those of the scan that the loop has not come to. -/
structure World where
  inFlight : List String
  rows : List ScheduledTask
  now : Int
  spawned : List SpawnedTask

def World.initial : World := ⟨[], [], 0, []⟩

/-- The rows of a tick are those of the table at that time; there are none when the query
fails. -/
inductive Action
  | tick (tasks : Option (List ScheduledTask)) (now : Int)
  | next
  | finish (k : Nat) (ok : Bool)
  | panic (k : Nat)
  | release (k : Nat)

def World.setPhase (w : World) (k : Nat) (taskId : String) (phase : Phase) : World :=
  { w with spawned := w.spawned.set k ⟨taskId, phase⟩ }

def step (scheduler : Scheduler) (w : World) : Action → Option World
  | .tick tasks now =>
    match w.rows, tasks with
    | [], some tasks => some { w with rows := tasks.filter scheduler.scanned, now := now }
    -- the next tick tries again
    | [], none => some w
    | _ :: _, _ => none
  | .next =>
    match w.rows with
    | [] => none
    | task :: rest =>
      if scheduler.isDue task w.now then
        match tryAcquire w.inFlight task.id with
        | (false, _) => some { w with rows := rest }
        | (true, inFlight) =>
          some { w with
            inFlight := inFlight
            rows := rest
            spawned := w.spawned ++ [⟨task.id, .running⟩] }
      else some { w with rows := rest }
  | .finish k ok =>
    match w.spawned[k]? with
    | some ⟨taskId, .running⟩ => some (w.setPhase k taskId (.returned ok))
    | _ => none
  -- the release is not reached
  | .panic k =>
    match w.spawned[k]? with
    | some ⟨taskId, .running⟩ => some (w.setPhase k taskId .panicked)
    | _ => none
  | .release k =>
    match w.spawned[k]? with
    | some ⟨taskId, .returned _⟩ =>
      some { w.setPhase k taskId .released with
        inFlight := InFlight.release w.inFlight taskId }
    | _ => none

/-! ## What should hold -/

/-- A spawned task that has not come to its end. -/
def Phase.active : Phase → Bool
  | .running => true
  | .returned _ => true
  | .released => false
  | .panicked => false

def World.activeRuns (w : World) (taskId : String) : List SpawnedTask :=
  w.spawned.filter fun run => run.taskId == taskId && run.phase.active

def Exclusive (w : World) : Prop := ∀ taskId, (w.activeRuns taskId).length ≤ 1

/-- A task without an active run is not in the set, and the loop dispatches it once it is due. -/
structure Released (scheduler : Scheduler) (w : World) : Prop where
  free : ∀ taskId, w.activeRuns taskId = [] → taskId ∉ w.inFlight
  dispatched : ∀ task rest, w.rows = task :: rest → scheduler.isDue task w.now = true →
    w.activeRuns task.id = [] →
      ∃ w', step scheduler w .next = some w' ∧
        w'.spawned = w.spawned ++ [⟨task.id, .running⟩]

/-! ## One step -/

/-- A spawned task whose id is in the set on its behalf. -/
def SpawnedTask.holds (taskId : String) (run : SpawnedTask) : Bool :=
  run.taskId == taskId && run.phase != .released

def World.held (w : World) (taskId : String) : Nat := w.spawned.countP (SpawnedTask.holds taskId)

def World.panicked (w : World) : Prop := ∃ run ∈ w.spawned, run.phase = .panicked

def Action.isPanic : Action → Bool
  | .panic _ => true
  | _ => false

/-- All that a step can do to the set and to the spawned tasks. -/
inductive Effect (w : World) (a : Action) (w' : World) : Prop
  | quiet (haction : a.isPanic = false) (hset : w'.inFlight = w.inFlight)
      (hspawned : w'.spawned = w.spawned)
  | acquired (taskId : String) (haction : a.isPanic = false) (hfree : taskId ∉ w.inFlight)
      (hset : w'.inFlight = taskId :: w.inFlight)
      (hspawned : w'.spawned = w.spawned ++ [⟨taskId, .running⟩])
  | moved (k : Nat) (taskId : String) (phase : Phase)
      (haction : a.isPanic = (phase == .panicked)) (hphase : phase ≠ .released)
      (hrun : w.spawned[k]? = some ⟨taskId, .running⟩)
      (hset : w'.inFlight = w.inFlight) (hspawned : w'.spawned = w.spawned.set k ⟨taskId, phase⟩)
  | released (k : Nat) (taskId : String) (ok : Bool) (haction : a.isPanic = false)
      (hrun : w.spawned[k]? = some ⟨taskId, .returned ok⟩)
      (hset : w'.inFlight = InFlight.release w.inFlight taskId)
      (hspawned : w'.spawned = w.spawned.set k ⟨taskId, .released⟩)

variable {scheduler : Scheduler} {w w' : World} {a : Action} {taskId : String}

theorem effect_of_step (h : step scheduler w a = some w') : Effect w a w' := by
  cases a with
  | tick tasks now =>
      simp only [step] at h
      split at h
      case h_3 => cases h
      all_goals
        cases h
        exact .quiet rfl rfl rfl
  | next =>
      simp only [step] at h
      split at h
      case h_1 => cases h
      case h_2 task rest hrows =>
        split at h
        case isFalse =>
          cases h
          exact .quiet rfl rfl rfl
        case isTrue =>
          unfold tryAcquire at h
          split at h
          case h_1 =>
            cases h
            exact .quiet rfl rfl rfl
          case h_2 hacquired =>
            split at hacquired
            case isTrue => cases hacquired
            case isFalse hfree =>
              cases hacquired
              cases h
              exact .acquired task.id rfl hfree rfl rfl
  | finish k ok =>
      simp only [step] at h
      split at h
      case h_1 taskId hrun =>
        cases h
        exact .moved k taskId (.returned ok) rfl nofun hrun rfl rfl
      case h_2 => cases h
  | panic k =>
      simp only [step] at h
      split at h
      case h_1 taskId hrun =>
        cases h
        exact .moved k taskId .panicked rfl nofun hrun rfl rfl
      case h_2 => cases h
  | release k =>
      simp only [step] at h
      split at h
      case h_1 taskId ok hrun =>
        cases h
        exact .released k taskId ok rfl hrun rfl rfl
      case h_2 => cases h

/-! ## Whole runs -/

/-- An id is in the set as often as it is held. -/
def Balanced (w : World) : Prop :=
  ∀ taskId, w.held taskId = if taskId ∈ w.inFlight then 1 else 0

theorem Balanced.initial : Balanced .initial := fun _ => rfl

theorem Balanced.step (h : step scheduler w a = some w') (hinv : Balanced w) : Balanced w' := by
  intro taskId
  have hbefore := hinv taskId
  unfold World.held at hbefore ⊢
  cases effect_of_step h with
  | quiet haction hset hspawned => rw [hset, hspawned, hbefore]
  | acquired newId haction hfree hset hspawned =>
      rw [hset, hspawned, List.countP_append, hbefore, List.countP_singleton]
      by_cases hid : newId = taskId
      · subst hid
        rw [if_neg hfree, if_pos List.mem_cons_self, if_pos (by simp [SpawnedTask.holds])]
      · have hother : SpawnedTask.holds taskId ⟨newId, .running⟩ = false := by
          simp [SpawnedTask.holds, hid]
        simp [hother, Ne.symm hid]
  | moved k oldId phase haction hphase hrun hset hspawned =>
      have hcount := countP_set_of_getElem? ⟨oldId, phase⟩ (SpawnedTask.holds taskId) hrun
      have hsame : SpawnedTask.holds taskId ⟨oldId, phase⟩ =
          SpawnedTask.holds taskId ⟨oldId, .running⟩ := by
        simp [SpawnedTask.holds, bne_iff_ne.mpr hphase]
      rw [hsame] at hcount
      rw [hset, hspawned, ← hbefore]
      omega
  | released k oldId ok haction hrun hset hspawned =>
      have hcount := countP_set_of_getElem? ⟨oldId, .released⟩
        (SpawnedTask.holds taskId) hrun
      have hnew : SpawnedTask.holds taskId ⟨oldId, .released⟩ = false := by
        simp [SpawnedTask.holds]
      rw [hnew, if_neg Bool.false_ne_true, Nat.add_zero, hbefore] at hcount
      simp only [hset, hspawned, mem_release]
      by_cases hid : oldId = taskId
      · subst hid
        have hold : SpawnedTask.holds oldId ⟨oldId, .returned ok⟩ = true := by
          simp [SpawnedTask.holds]
        rw [if_pos hold] at hcount
        rw [if_neg fun hmem => hmem.2 rfl]
        split at hcount <;> omega
      · have hold : SpawnedTask.holds taskId ⟨oldId, .returned ok⟩ = false := by
          simp [SpawnedTask.holds, hid]
        rw [hold, if_neg Bool.false_ne_true, Nat.add_zero] at hcount
        rw [hcount]
        simp only [ne_eq, Ne.symm hid, not_false_iff, and_true]

theorem panicked_set {k : Nat} {old : Phase} (hold : old ≠ .panicked) {phase : Phase}
    (hrun : w.spawned[k]? = some ⟨taskId, old⟩) :
    (∃ run ∈ w.spawned.set k ⟨taskId, phase⟩, run.phase = .panicked) ↔
      w.panicked ∨ phase = .panicked := by
  constructor
  · rintro ⟨run, hmem, hpanicked⟩
    rcases List.mem_or_eq_of_mem_set hmem with hkept | rfl
    · exact Or.inl ⟨run, hkept, hpanicked⟩
    · exact Or.inr hpanicked
  · rintro (⟨run, hmem, hpanicked⟩ | hphase)
    · obtain ⟨j, hj⟩ := List.getElem?_of_mem hmem
      have hjk : k ≠ j := by
        rintro rfl
        rw [hrun] at hj
        cases hj
        exact hold hpanicked
      refine ⟨run, ?_, hpanicked⟩
      rw [← List.getElem?_set_ne hjk] at hj
      exact List.mem_of_getElem? hj
    · obtain ⟨hk, -⟩ := List.getElem?_eq_some_iff.mp hrun
      exact ⟨⟨taskId, phase⟩, List.mem_set hk _, hphase⟩

theorem panicked_step (h : step scheduler w a = some w') :
    w'.panicked ↔ w.panicked ∨ a.isPanic = true := by
  cases effect_of_step h with
  | quiet haction hset hspawned =>
      unfold World.panicked
      rw [haction, hspawned]
      simp
  | acquired newId haction hfree hset hspawned =>
      unfold World.panicked
      rw [haction, hspawned]
      simp [or_and_right, exists_or]
  | moved k oldId phase haction hphase hrun hset hspawned =>
      unfold World.panicked
      rw [haction, hspawned, beq_iff_eq]
      exact panicked_set Phase.noConfusion hrun
  | released k oldId ok haction hrun hset hspawned =>
      unfold World.panicked
      rw [haction, hspawned, panicked_set Phase.noConfusion hrun]
      simp [World.panicked]

theorem panicked_run {acts : List Action} (hrun : Run (step scheduler) anyStep w acts w') :
    w'.panicked ↔ w.panicked ∨ ∃ a ∈ acts, a.isPanic = true := by
  induction hrun with
  | nil _ => simp
  | cons _ hstep _ ih =>
      rw [ih, panicked_step hstep, or_assoc]
      simp only [List.mem_cons, exists_eq_or_imp]

theorem active_or_panicked {run : SpawnedTask} (hholds : run.holds taskId = true) :
    (run.taskId == taskId && run.phase.active) = true ∨ run.phase = .panicked := by
  obtain ⟨id, phase⟩ := run
  cases phase <;> simp_all [SpawnedTask.holds, Phase.active]

theorem holds_of_active {run : SpawnedTask}
    (hactive : (run.taskId == taskId && run.phase.active) = true) : run.holds taskId = true := by
  obtain ⟨id, phase⟩ := run
  cases phase <;> simp_all [SpawnedTask.holds, Phase.active]

theorem Balanced.exclusive (hinv : Balanced w) : Exclusive w := by
  intro taskId
  calc (w.activeRuns taskId).length
      = w.spawned.countP fun run => run.taskId == taskId && run.phase.active :=
        List.countP_eq_length_filter.symm
    _ ≤ w.held taskId := List.countP_mono_left fun _ _ => holds_of_active
    _ ≤ 1 := by
        rw [hinv taskId]
        split <;> omega

theorem Balanced.panicked_of_mem (hinv : Balanced w) (hmem : taskId ∈ w.inFlight)
    (hidle : w.activeRuns taskId = []) : w.panicked := by
  have hheld := hinv taskId
  rw [if_pos hmem] at hheld
  obtain ⟨run, hrun, hholds⟩ := List.countP_pos_iff.mp (hheld ▸ Nat.one_pos)
  rcases active_or_panicked hholds with hactive | hpanicked
  · exact absurd hactive (List.filter_eq_nil_iff.mp hidle run hrun)
  · exact ⟨run, hrun, hpanicked⟩

/-- The id of a run that has panicked stays in the set, and no other run has it. -/
theorem Balanced.stuck (hinv : Balanced w) (hpanicked : w.panicked) :
    ∃ taskId, w.activeRuns taskId = [] ∧ taskId ∈ w.inFlight := by
  obtain ⟨run, hrun, hphase⟩ := hpanicked
  have hholds : run.holds run.taskId = true := by
    simp [SpawnedTask.holds, hphase]
  have hheld := hinv run.taskId
  have hpos : 0 < w.held run.taskId := List.countP_pos_iff.mpr ⟨run, hrun, hholds⟩
  split at hheld
  case isFalse => omega
  case isTrue hmem =>
    refine ⟨run.taskId, ?_, hmem⟩
    -- the run that has panicked is the only one that holds its id
    unfold World.held at hheld
    rw [List.countP_eq_length_filter] at hheld
    obtain ⟨only, honly⟩ := List.length_eq_one_iff.mp hheld
    have hsame : ∀ other ∈ w.spawned, other.holds run.taskId = true → other = only := by
      intro other hother hholds'
      exact List.mem_singleton.mp (honly ▸ List.mem_filter.mpr ⟨hother, hholds'⟩)
    apply List.filter_eq_nil_iff.mpr
    intro other hother hactive
    have heq : other = run :=
      (hsame other hother (holds_of_active hactive)).trans (hsame run hrun hholds).symm
    rw [heq, hphase, Phase.active, Bool.and_false] at hactive
    exact Bool.false_ne_true hactive

theorem dispatched_of_not_mem {task : ScheduledTask} {rest : List ScheduledTask}
    (hrows : w.rows = task :: rest) (hdue : scheduler.isDue task w.now = true)
    (hfree : task.id ∉ w.inFlight) :
    ∃ w', step scheduler w .next = some w' ∧
      w'.spawned = w.spawned ++ [⟨task.id, .running⟩] := by
  refine ⟨⟨task.id :: w.inFlight, rest, w.now, w.spawned ++ [⟨task.id, .running⟩]⟩, ?_, rfl⟩
  simp only [step, hrows, hdue, if_true, tryAcquire, if_neg hfree]

/-- Two runs of a task never overlap, and a task is released as long as no run panics. -/
theorem released_iff (scheduler : Scheduler) (acts : List Action) (w : World)
    (hrun : Run (step scheduler) anyStep .initial acts w) :
    Exclusive w ∧ (Released scheduler w ↔ ∀ k, .panic k ∉ acts) := by
  have hinv : Balanced w :=
    hrun.invariant (fun _ _ _ _ hstep => Balanced.step hstep) Balanced.initial
  have hpanicked : w.panicked ↔ ∃ a ∈ acts, a.isPanic = true := by
    rw [panicked_run hrun, or_iff_right]
    rintro ⟨run, hmem, -⟩
    cases hmem
  refine ⟨hinv.exclusive, ⟨fun hreleased k hmem => ?_, fun hnone => ?_⟩⟩
  · obtain ⟨taskId, hidle, hstuck⟩ := hinv.stuck (hpanicked.mpr ⟨_, hmem, rfl⟩)
    exact hreleased.free taskId hidle hstuck
  · have hfree : ∀ taskId, w.activeRuns taskId = [] → taskId ∉ w.inFlight := by
      intro taskId hidle hmem
      obtain ⟨a, ha, hpanic⟩ := hpanicked.mp (hinv.panicked_of_mem hmem hidle)
      cases a with
      | panic k => exact hnone k ha
      | tick | next | finish | release => cases hpanic
    refine ⟨hfree, fun task rest hrows hdue hidle => ?_⟩
    exact dispatched_of_not_mem hrows hdue (hfree task.id hidle)

/-! ## One task, twice -/

/-- Only the expression for three in the morning is known. -/
def sampleLibraries : Libraries where
  parseFromRfc3339 s := (CivilTime.parse 'T' "+00:00".toList s.toList).map (· * 1000000000)
  fromStr text := if text = "{}" then some (.obj []) else none
  schedule expr :=
    if expr = "0 0 3 * * *".toList then
      some fun t => some (((t - 10800000000000) / 86400000000000 + 1) * 86400000000000 +
        10800000000000)
    else none

def nightly (taskType : String) (lastRunAt : Option String) : ScheduledTask where
  id := "t1"
  name := "nightly"
  taskType := taskType
  cronExpr := "0 3 * * *"
  config := "{}"
  sourceDbId := "c1"
  targetDbId := none
  notifyChannels := "[]"
  enabled := true
  lastRunAt := lastRunAt
  lastStatus := none
  createdAt := "2026-01-01T00:00:00+00:00"
  updatedAt := none

/-- The first run is still going at the second tick, and at the third it has failed. -/
def twoTicks : List Action :=
  [.tick (some [nightly "data_sync" none]) 1767225600000000000, .next,
    .tick (some [nightly "data_sync" (some "2026-01-01T00:00:00+00:00")]) 1767236400000000000,
    .next, .finish 0 false, .release 0,
    .tick (some [nightly "data_sync" (some "2026-01-01T00:00:00+00:00")]) 1767236460000000000,
    .next]

theorem twoTicks_released :
    ∃ w, exec (step (dataSync sampleLibraries)) .initial twoTicks = some w ∧
      w.spawned = [⟨"t1", .released⟩, ⟨"t1", .running⟩] ∧
      Exclusive w ∧ Released (dataSync sampleLibraries) w := by
  have hrun : ((exec (step (dataSync sampleLibraries)) .initial twoTicks).map World.spawned) =
      some [⟨"t1", .released⟩, ⟨"t1", .running⟩] := by
    decide +kernel
  obtain ⟨w, hw, hspawned⟩ := Option.map_eq_some_iff.mp hrun
  obtain ⟨hexclusive, hreleased⟩ := released_iff _ _ w (run_of_exec hw)
  exact ⟨w, hw, hspawned, hexclusive, hreleased.mpr (by simp [twoTicks])⟩

/-- The run of a task that is due panics. -/
def panickedRun (taskType : String) : List Action :=
  [.tick (some [nightly taskType none]) 1767225600000000000, .next, .panic 0]

/-- The schedulers with the types of their tasks. -/
def schedulers : List (String × Scheduler) :=
  [("schema_drift", drift sampleLibraries 60), ("data_sync", dataSync sampleLibraries),
    ("health_check", healthCheck sampleLibraries)]

theorem locked_out_by_panic :
    ¬ ∃ member ∈ schedulers, ∀ acts w, Run (step member.2) anyStep .initial acts w →
      Exclusive w ∧ Released member.2 w := by
  rintro ⟨member, hmember, hall⟩
  have hrun : ∀ member ∈ schedulers, ((exec (step member.2) .initial (panickedRun member.1)).map
      fun w => (w.inFlight, w.spawned)) = some (["t1"], [⟨"t1", .panicked⟩]) := by
    decide +kernel
  obtain ⟨w, hw, hfields⟩ := Option.map_eq_some_iff.mp (hrun member hmember)
  obtain ⟨hset, hspawned⟩ := Prod.mk.inj hfields
  refine (hall _ w (run_of_exec hw)).2.free "t1" ?_ ?_
  · unfold World.activeRuns
    rw [hspawned]
    rfl
  · rw [hset]
    exact List.mem_singleton_self "t1"

end Dbmaster.Tasks.InFlight
