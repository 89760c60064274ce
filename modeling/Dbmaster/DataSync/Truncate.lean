import Dbmaster.DataSync.Etl
/-!
# When a run clears its target

Under the strategy `Truncate` the target is to be cleared by the fresh runs and
by no resumed one.  The helpers skip on a flag `is_resume`; three of the paths
pass them the opposite flag, and the Doris path calls none.
-/

namespace Dbmaster.DataSync.Truncate

open Dbmaster.DataSync.Cursor Dbmaster.DataSync.Config Dbmaster.DataSync.Etl

variable {ρ T : Type}

def Clears (events : List (TargetEvent ρ)) : Prop := ∃ sql, .truncate sql true ∈ events

/-- The target is cleared and nothing was inserted before. -/
def ClearsFirst (events : List (TargetEvent ρ)) : Prop :=
  ∃ before sql after, events = before ++ .truncate sql true :: after ∧
    ∀ rows written, .insert rows written ∉ before

/-- What a strategy asks of the target events of a run. -/
def TruncateLaw (strategy : TargetStrategy) (resumed : Bool) (events : List (TargetEvent ρ)) :
    Prop :=
  match strategy with
  | .truncate => (ClearsFirst events ↔ resumed = false) ∧ (resumed = true → ¬ Clears events)
  | .append | .upsert _ => ∀ sql executed, .truncate sql executed ∉ events

/-- The paths that pass `is_resume` as the helper means it. -/
def PassesIsResume : SourceKind → DbType → Bool
  | .mySql, .mySql => true
  | _, .clickHouse => true
  | _, _ => false

def PassesIsFresh : SourceKind → DbType → Bool
  | .postgres, .postgres => true
  | .mySql, .postgres => true
  | .postgres, .mySql => true
  | _, _ => false

def Sends (src : SourceKind) (tgt : DbType) (resumed : Bool) : Bool :=
  if resumed then PassesIsFresh src tgt else PassesIsResume src tgt

/-- Under `Truncate`: a fresh run of a path with the right flag, on a target that
executes the statement; a resumed run of a path without the opposite flag, or on
a target that does not execute the statement. -/
def LawAbiding (src : SourceKind) (tgt : DbType) (strategy : TargetStrategy)
    (resumed truncates : Bool) : Prop :=
  strategy = .truncate →
    if resumed then PassesIsFresh src tgt = false ∨ truncates = false
    else PassesIsResume src tgt = true ∧ truncates = true

/-! ## What is sent -/

theorem maybeTruncate_isSome (sql : String) (cfg : DataSyncTaskConfig) (isResume : Bool) :
    (maybeTruncate sql cfg isResume).isSome = true ↔
      cfg.targetStrategy = .truncate ∧ isResume = false := by
  unfold maybeTruncate
  by_cases hresume : isResume = true
  · simp [hresume]
  · by_cases hstrategy : cfg.targetStrategy = .truncate
    · simp [hresume, hstrategy]
    · simp [hresume, hstrategy]

theorem truncateSql_isSome (ctx : LoopCtx) (src : SourceKind) (tgt : DbType) :
    (pathFor ctx src tgt).truncateSql.isSome = true ↔
      ctx.config.targetStrategy = .truncate ∧ Sends src tgt ctx.resumeCursor.isSome = true := by
  cases src <;> cases tgt <;> cases hcursor : ctx.resumeCursor <;>
    simp [pathFor, mysqlToMysqlPath, pgToPgPath, mysqlToPgPath, pgToMysqlPath, toClickhousePath,
      toDorisPath, sourcePath, maybeTruncateMysql, maybeTruncatePg, maybeTruncateCh,
      maybeTruncate_isSome, Sends, PassesIsResume, PassesIsFresh, hcursor]

/-! ## What the events show -/

variable {sent : Option String} {truncates : Bool} {inserts : List (TargetEvent ρ)}

/-- The events of a run: the TRUNCATE, if one is sent, and then inserts. -/
def runEvents (sent : Option String) (truncates : Bool) (inserts : List (TargetEvent ρ)) :
    List (TargetEvent ρ) :=
  (sent.toList.map fun sql => .truncate sql truncates) ++ inserts

theorem truncate_mem (hinserts : InsertsOnly inserts) {sql : String} {executed : Bool} :
    .truncate sql executed ∈ runEvents sent truncates inserts ↔
      sent = some sql ∧ executed = truncates := by
  have hnot : TargetEvent.truncate sql executed ∉ inserts := by
    intro hmem
    obtain ⟨rows, written, heq⟩ := hinserts _ hmem
    cases heq
  cases sent with
  | none => simp [runEvents, hnot]
  | some text => simp [runEvents, hnot, eq_comm]

theorem clears_iff (hinserts : InsertsOnly inserts) :
    Clears (runEvents sent truncates inserts) ↔ sent.isSome = true ∧ truncates = true := by
  simp only [Clears, truncate_mem hinserts, Option.isSome_iff_exists]
  constructor
  · rintro ⟨sql, hsent, htrue⟩
    exact ⟨⟨sql, hsent⟩, htrue.symm⟩
  · rintro ⟨⟨sql, hsent⟩, htrue⟩
    exact ⟨sql, hsent, htrue.symm⟩

theorem clearsFirst_iff (hinserts : InsertsOnly inserts) :
    ClearsFirst (runEvents sent truncates inserts) ↔
      sent.isSome = true ∧ truncates = true := by
  rw [← clears_iff hinserts]
  constructor
  · rintro ⟨before, sql, after, heq, -⟩
    exact ⟨sql, by rw [heq]; simp⟩
  · rintro ⟨sql, hmem⟩
    obtain ⟨hsent, htrue⟩ := (truncate_mem hinserts).mp hmem
    refine ⟨[], sql, inserts, ?_, by simp⟩
    rw [runEvents, hsent, ← htrue]
    rfl

theorem never_truncates_iff (hinserts : InsertsOnly inserts) :
    (∀ sql executed, .truncate sql executed ∉ runEvents sent truncates inserts) ↔
      sent = none := by
  simp only [truncate_mem hinserts, Option.eq_none_iff_forall_ne_some]
  constructor
  · intro h sql hsent
    exact h sql truncates ⟨hsent, rfl⟩
  · intro h sql executed hboth
    exact h sql hboth.1

/-! ## The law -/

variable [LinearOrder T] {chrono : Chrono T}

theorem etl_events {world : World ρ T} {ctx : LoopCtx} {path : EtlPath}
    (hprobe : (world.probe path.probeSql).isSome = true) (n : Nat) :
    ∃ inserts, InsertsOnly inserts ∧
      (etl chrono world ctx path n).1.events =
        runEvents path.truncateSql world.truncates inserts := by
  obtain ⟨row, hrow⟩ := Option.isSome_iff_exists.mp hprobe
  simp only [etl, resolveWindow, hrow]
  exact turns_events n _

theorem truncateLaw_iff {strategy : TargetStrategy} {resumed : Bool} {src : SourceKind}
    {tgt : DbType} (hinserts : InsertsOnly inserts)
    (hsent : sent.isSome = true ↔ strategy = .truncate ∧ Sends src tgt resumed = true) :
    TruncateLaw strategy resumed (runEvents sent truncates inserts) ↔
      LawAbiding src tgt strategy resumed truncates := by
  have hnone : strategy ≠ .truncate → sent = none := by
    intro hne
    rw [← Option.not_isSome_iff_eq_none, hsent]
    exact fun h => hne h.1
  cases strategy with
  | append =>
      simp only [TruncateLaw, LawAbiding, never_truncates_iff hinserts]
      exact ⟨fun _ => nofun, fun _ => hnone (by simp)⟩
  | upsert key =>
      simp only [TruncateLaw, LawAbiding, never_truncates_iff hinserts]
      exact ⟨fun _ => nofun, fun _ => hnone (by simp)⟩
  | truncate =>
      simp only [TruncateLaw, LawAbiding, clearsFirst_iff hinserts, clears_iff hinserts, hsent,
        true_and, Sends, forall_const]
      cases resumed
      · simp
      · cases PassesIsFresh src tgt <;> cases truncates <;> simp

/-- Once the window is probed, a run of any length keeps the law exactly when its
pair, its start and its strategy are such that the flags are right. -/
theorem truncateLaw_iff_lawAbiding {setup : Setup} {cfg : DataSyncTaskConfig}
    {srcConn tgtConn : ConnectionRow} {src : SourceKind} {tgt : DbType}
    (hloaded : Loaded chrono setup cfg srcConn tgtConn src tgt) (world : World ρ T)
    (hprobe : (world.probe
      (pathFor (loopCtx setup cfg srcConn tgtConn) src tgt).probeSql).isSome = true) (n : Nat) :
    TruncateLaw cfg.targetStrategy setup.resumeCursor.isSome
        (runTaskInner chrono setup world n).1.events ↔
      LawAbiding src tgt cfg.targetStrategy setup.resumeCursor.isSome world.truncates := by
  rw [runTaskInner_eq_etl hloaded]
  obtain ⟨inserts, hinserts, hevents⟩ : ∃ inserts, InsertsOnly inserts ∧
      (etl chrono world (loopCtx setup cfg srcConn tgtConn)
        (pathFor (loopCtx setup cfg srcConn tgtConn) src tgt) n).1.events =
        runEvents (pathFor (loopCtx setup cfg srcConn tgtConn) src tgt).truncateSql
          world.truncates inserts := etl_events hprobe n
  rw [hevents]
  exact truncateLaw_iff hinserts (truncateSql_isSome _ src tgt)

/-! ## A run from PostgreSQL to PostgreSQL -/

def copyOrders : DataSyncTaskConfig where
  source := { database := none, table := "orders" }
  target := { database := none, table := "orders_copy" }
  joinTables := []
  columnMapping := { columns := [{ source := "main.id", target := "id" }], constants := [] }
  batching :=
    { timeField := "created_at", batchSize := some 60, start := none, batchRetries := none }
  targetStrategy := .truncate
  schedule := none

def copySetup : Setup where
  config := .ok copyOrders
  connections := .ok (⟨"postgres", some "shop"⟩, ⟨"postgres", some "archive"⟩)
  pools := .ok ()
  defaultBatchSize := 1000
  latestRun := .ok (some (some "2026-03-01T10:00:00+00:00", some "canceled"))

/-- Two orders from the cursor on; those before it are in the target. -/
def copyWorld : World Nat Int where
  nowMin := 1772400000
  nowMax := 1772400000
  probe _ := some (some "2026-03-01 09:59:00", some "2026-03-01 10:00:30")
  cancelRequested _ := some false
  fetch turn _ _ _ := .ok (if turn = 0 then [2, 3] else [])
  truncates := true
  insert _ _ rows := some rows.length
  savesProgress _ := true

theorem copySetup_loaded :
    Loaded civil copySetup copyOrders ⟨"postgres", some "shop"⟩ ⟨"postgres", some "archive"⟩
      .postgres .postgres where
  config := rfl
  valid := by decide
  connections := rfl
  source := by decide
  target := by decide
  pools := rfl

theorem truncateLaw_iff_lawAbiding_copySetup :
    TruncateLaw copyOrders.targetStrategy copySetup.resumeCursor.isSome
        (runTaskInner civil copySetup copyWorld 5).1.events ↔
      LawAbiding .postgres .postgres copyOrders.targetStrategy copySetup.resumeCursor.isSome
        copyWorld.truncates :=
  truncateLaw_iff_lawAbiding copySetup_loaded copyWorld rfl 5

/-- The resumed run clears the rows that were copied before it. -/
theorem resumed_run_truncates :
    copySetup.resumeCursor = some "2026-03-01T10:00:00+00:00" ∧
      (runTaskInner civil copySetup copyWorld 5).1.events =
        [.truncate "TRUNCATE TABLE \"orders_copy\"" true, .insert [2, 3] (some 2)] ∧
      (runTaskInner civil copySetup copyWorld 5).2 = some (.ok ⟨2, 0, false⟩) ∧
      ¬ TruncateLaw copyOrders.targetStrategy copySetup.resumeCursor.isSome
        (runTaskInner civil copySetup copyWorld 5).1.events := by
  have hevents : (runTaskInner civil copySetup copyWorld 5).1.events =
      [.truncate "TRUNCATE TABLE \"orders_copy\"" true, .insert [2, 3] (some 2)] := by
    decide
  refine ⟨by decide, hevents, by decide, ?_⟩
  rw [hevents]
  intro hlaw
  exact hlaw.2 rfl ⟨_, List.mem_cons_self⟩

end Dbmaster.DataSync.Truncate
