import Dbmaster.DataSync.Etl
/-!
# A run, statement by statement

Between two statements on the control database other runs may act on it, so a turn
of the loop is cut at `check_cancel` and at `update_progress`.  Put together again,
the pieces are the turn, and the loop is what `run_task_inner` enters.
-/

namespace Dbmaster.DataSync.Steps

open Dbmaster.DataSync.Cursor Dbmaster.DataSync.Config Dbmaster.DataSync.Etl

variable {ρ T : Type}

/-! ## Up to the loop -/

/-- What the loop of a run keeps fixed. -/
structure Loop (ρ T : Type) where
  world : World ρ T
  ctx : LoopCtx
  path : EtlPath
  upper : String

def pathOf (ctx : LoopCtx) : DbType → DbType → Except String EtlPath
  | .clickHouse, _ => .error "clickhouse can only be used as data_sync target, not source"
  | .doris, _ => .error "doris can only be used as data_sync target, not source"
  | .mySql, tgt => .ok (pathFor ctx .mySql tgt)
  | .postgres, tgt => .ok (pathFor ctx .postgres tgt)

/-- `run_task_inner` up to its loop. -/
def enter (chrono : Chrono T) (setup : Setup) (world : World ρ T) :
    Except String (Loop ρ T × LoopState ρ) :=
  match setup.config with
  | .error e => .error e
  | .ok cfg =>
  match validate chrono cfg with
  | .error e => .error ("invalid config: " ++ e.text)
  | .ok _ =>
  match setup.connections with
  | .error e => .error e
  | .ok (srcConn, tgtConn) =>
  match DbType.fromDbTypeStr srcConn.dbType with
  | none => .error ("unsupported source db_type: " ++ srcConn.dbType)
  | some src =>
  match DbType.fromDbTypeStr tgtConn.dbType with
  | none => .error ("unsupported target db_type: " ++ tgtConn.dbType)
  | some tgt =>
  match src, setup.pools with
  | .mySql, .error e | .postgres, .error e => .error e
  | _, _ =>
  match pathOf (loopCtx setup cfg srcConn tgtConn) src tgt with
  | .error e => .error e
  | .ok path =>
  match resolveWindow chrono world (loopCtx setup cfg srcConn tgtConn) path with
  | .error e => .error e
  | .ok window =>
      .ok (⟨world, loopCtx setup cfg srcConn tgtConn, path, window.2⟩,
        enterLoop world path window.1)

theorem world_of_enter {chrono : Chrono T} {setup : Setup} {world : World ρ T} {loop : Loop ρ T}
    {s : LoopState ρ} (h : enter chrono setup world = .ok (loop, s)) : loop.world = world := by
  unfold enter at h
  repeat' split at h
  all_goals cases h
  all_goals rfl

def follow [LinearOrder T] (chrono : Chrono T) (n : Nat) :
    Except String (Loop ρ T × LoopState ρ) → LoopState ρ × Option Exit
  | .error e => refused e
  | .ok (loop, s) => turns chrono loop.world loop.ctx loop.path loop.upper n s

theorem dispatch_eq_follow [LinearOrder T] (chrono : Chrono T) (world : World ρ T)
    (ctx : LoopCtx) (n : Nat) (src tgt : DbType) :
    dispatch chrono world ctx n src tgt =
      follow chrono n (match pathOf ctx src tgt with
        | .error e => .error e
        | .ok path =>
          match resolveWindow chrono world ctx path with
          | .error e => .error e
          | .ok window => .ok (⟨world, ctx, path, window.2⟩, enterLoop world path window.1)) := by
  have hetl : ∀ path, etl chrono world ctx path n =
      follow chrono n (match resolveWindow chrono world ctx path with
        | .error e => .error e
        | .ok window => .ok (⟨world, ctx, path, window.2⟩, enterLoop world path window.1)) := by
    intro path
    unfold etl
    cases resolveWindow chrono world ctx path with
    | error e => rfl
    | ok window => rfl
  cases src with
  | mySql =>
      rw [show DbType.mySql = SourceKind.mySql.dbType from rfl, dispatch_eq_etl, hetl]
      rfl
  | postgres =>
      rw [show DbType.postgres = SourceKind.postgres.dbType from rfl, dispatch_eq_etl, hetl]
      rfl
  | clickHouse => cases tgt <;> rfl
  | doris => cases tgt <;> rfl

/-- `run_task_inner` is the loop that `enter` comes to. -/
theorem runTaskInner_eq_follow [LinearOrder T] (chrono : Chrono T) (setup : Setup)
    (world : World ρ T) (n : Nat) :
    runTaskInner chrono setup world n = follow chrono n (enter chrono setup world) := by
  unfold runTaskInner enter
  cases setup.config with
  | error e => rfl
  | ok cfg =>
  dsimp only
  cases validate chrono cfg with
  | error e => rfl
  | ok _ =>
  dsimp only
  cases setup.connections with
  | error e => rfl
  | ok conns =>
  dsimp only
  cases DbType.fromDbTypeStr conns.1.dbType with
  | none => rfl
  | some src =>
  dsimp only
  cases DbType.fromDbTypeStr conns.2.dbType with
  | none => rfl
  | some tgt =>
  dsimp only
  cases setup.pools with
  | error e => cases src <;> rfl
  | ok _ => cases src <;> exact dispatch_eq_follow ..

/-! ## One turn -/

/-- Where the answer of `check_cancel` leaves the function. -/
def pollExit (s : LoopState ρ) : Option Bool → Option Exit
  | none => some (.err "poll cancel_requested")
  | some true => some (.ok ⟨s.processed, s.failed, true⟩)
  | some false => none

/-- A turn between its two statements on the control database. -/
inductive Fetched (ρ : Type) where
  | left (exit : Exit)
  /-- the batch was empty -/
  | skipped (s : LoopState ρ)
  /-- the batch was handed to the target; its progress is to be saved -/
  | handed (s : LoopState ρ) (next : String)

def fetchBatch [LinearOrder T] (chrono : Chrono T) (loop : Loop ρ T) (s : LoopState ρ) :
    Fetched ρ :=
  match advanceCursor chrono s.cursor loop.ctx.batchSize with
  | none => .left .panicked
  | some next =>
    match loop.world.fetch s.turn loop.path.fetchSql s.cursor next with
    | .error e => .left (.err (loop.path.fetchContext.getD e))
    | .ok [] =>
        if cursorGt chrono next loop.upper then .left s.finish
        else .skipped (s.advance next)
    | .ok (row :: rows) => .handed (handBatch loop.world loop.ctx loop.path (row :: rows) s) next

def savedTurn [LinearOrder T] (chrono : Chrono T) (loop : Loop ρ T) (s : LoopState ρ)
    (next : String) (saves : Bool) : LoopState ρ × Option Exit :=
  if saves = false then (s, some (.err "update data_sync_runs progress"))
  else if cursorGt chrono next loop.upper then
    ({ s.advance next with saved := some s.cursor }, some s.finish)
  else ({ s.advance next with saved := some s.cursor }, none)

theorem handBatch_cursor (world : World ρ T) (ctx : LoopCtx) (path : EtlPath) (rows : List ρ)
    (s : LoopState ρ) : (handBatch world ctx path rows s).cursor = s.cursor := by
  unfold handBatch
  dsimp only
  split <;> rfl

/-- The pieces of a turn, with the answers of a `World` between them. -/
theorem etlTurn_eq_steps [LinearOrder T] (chrono : Chrono T) (loop : Loop ρ T)
    (s : LoopState ρ) :
    etlTurn chrono loop.world loop.ctx loop.path loop.upper s =
      match pollExit s (loop.world.cancelRequested s.turn) with
      | some exit => (s, some exit)
      | none =>
        match fetchBatch chrono loop s with
        | .left exit => (s, some exit)
        | .skipped t => (t, none)
        | .handed t next => savedTurn chrono loop t next (loop.world.savesProgress s.turn) := by
  unfold etlTurn fetchBatch
  cases loop.world.cancelRequested s.turn with
  | none => rfl
  | some canceled =>
      cases canceled with
      | true => rfl
      | false =>
          simp only [pollExit]
          cases advanceCursor chrono s.cursor loop.ctx.batchSize with
          | none => rfl
          | some next =>
              dsimp only
              cases loop.world.fetch s.turn loop.path.fetchSql s.cursor next with
              | error e => rfl
              | ok rows =>
                  cases rows with
                  | nil =>
                      dsimp only
                      by_cases hend : cursorGt chrono next loop.upper = true
                      · rw [if_pos hend, if_pos hend]
                      · rw [if_neg hend, if_neg hend]
                  | cons row rows =>
                      dsimp only
                      rw [savedTurn, handBatch_cursor]

end Dbmaster.DataSync.Steps
