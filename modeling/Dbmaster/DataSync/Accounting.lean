import Dbmaster.DataSync.Clients
import Dbmaster.DataSync.NoLoss
/-!
# The counts of a run

Each batch is counted once, as processed or as failed, and with all its rows: on every path
but that to Doris, and there as long as the loads report what they were sent.
-/

namespace Dbmaster.DataSync.Accounting

open Dbmaster.Lib
open Dbmaster.DataSync.Cursor Dbmaster.DataSync.Config Dbmaster.DataSync.Etl
  Dbmaster.DataSync.NoLoss Dbmaster.DataSync.Clients

variable {ρ T : Type}

/-! ## The turns of a run -/

/-- A turn of the loop: the state before and after it, and the rows it fetched. -/
structure Turn (ρ : Type) where
  before : LoopState ρ
  rows : List ρ
  after : LoopState ρ

section Turns

variable [LinearOrder T] (chrono : Chrono T) (world : World ρ T) (ctx : LoopCtx) (path : EtlPath)

/-- The batch that the turn fetches; none when it does not come to that. -/
def fetchedIn (s : LoopState ρ) : List ρ :=
  match world.cancelRequested s.turn, advanceCursor chrono s.cursor ctx.batchSize with
  | some false, some next =>
      match world.fetch s.turn path.fetchSql s.cursor next with
      | .ok rows => rows
      | .error _ => []
  | _, _ => []

def turnsFrom (upper : String) : Nat → LoopState ρ → List (Turn ρ)
  | 0, _ => []
  | n + 1, s =>
      let r := etlTurn chrono world ctx path upper s
      ⟨s, fetchedIn chrono world ctx path s, r.1⟩ ::
        if r.2.isNone then turnsFrom upper n r.1 else []

def turnsOf (n : Nat) : List (Turn ρ) :=
  match resolveWindow chrono world ctx path with
  | .error _ => []
  | .ok window => turnsFrom chrono world ctx path window.2 n (enterLoop world path window.1)

end Turns

/-! ## What should hold -/

/-- The batch of the turn is counted once, with all its rows. -/
def CountedOnce (turn : Turn ρ) : Prop :=
  (turn.after.processed = turn.before.processed + turn.rows.length ∧
      turn.after.failed = turn.before.failed) ∨
    (turn.after.processed = turn.before.processed ∧
      turn.after.failed = turn.before.failed + turn.rows.length)

/-- The turn hands over its batch in so many attempts. -/
def AttemptedAtMost (attempts : Nat) (turn : Turn ρ) : Prop :=
  ∃ made : List (TargetEvent ρ), turn.after.events = turn.before.events ++ made ∧
    made.length ≤ attempts ∧ ∀ e ∈ made, ∃ written, e = .insert turn.rows written

/-- The accounts of a run of at most `n` turns, which leaves the loop with `exit`. -/
structure Exact (retries : UInt32) (turns : List (Turn ρ)) (exit : Option Exit) : Prop where
  counted : ∀ turn ∈ turns, CountedOnce turn
  attempts : ∀ turn ∈ turns, AttemptedAtMost (max 1 retries.toNat) turn
  total : ∀ processed failed, exit = some (.ok ⟨processed, failed, false⟩) →
    processed + failed = (turns.map (·.rows.length)).sum

/-! ## One turn -/

section Step

variable [LinearOrder T] {chrono : Chrono T} {world : World ρ T} {ctx : LoopCtx} {path : EtlPath}
variable {upper : String}

theorem attemptInsert_length (insert : Nat → List ρ → Option Nat) (rows : List ρ)
    (left attempt : Nat) : (attemptInsert insert rows left attempt).1.length ≤ left := by
  induction left generalizing attempt with
  | zero => exact Nat.le_refl 0
  | succ left ih =>
      unfold attemptInsert
      split
      · exact Nat.succ_le_succ (Nat.zero_le left)
      · exact Nat.succ_le_succ (ih (attempt + 1))

theorem attemptInsert_eq_some {insert : Nat → List ρ → Option Nat} {rows : List ρ}
    {left attempt written : Nat} :
    (attemptInsert insert rows left attempt).2 = some written ↔
      ∃ k < left, insert (attempt + k) rows = some written ∧
        ∀ j < k, insert (attempt + j) rows = none := by
  induction left generalizing attempt with
  | zero =>
      constructor
      · intro h
        cases h
      · rintro ⟨k, hk, -⟩
        omega
  | succ left ih =>
      unfold attemptInsert
      split
      case h_1 first hfirst =>
        constructor
        · intro h
          cases h
          exact ⟨0, by omega, hfirst, fun j hj => by omega⟩
        · rintro ⟨k, -, hk, hbefore⟩
          cases k with
          | zero =>
              rw [Nat.add_zero, hfirst] at hk
              exact hk
          | succ k =>
              have hnone := hbefore 0 (Nat.zero_lt_succ k)
              rw [Nat.add_zero, hfirst] at hnone
              cases hnone
      case h_2 hfirst =>
        simp only [ih]
        constructor
        · rintro ⟨k, hk, hinsert, hbefore⟩
          refine ⟨k + 1, by omega, ?_, ?_⟩
          · rw [← hinsert]
            congr 1
            omega
          · intro j hj
            cases j with
            | zero => exact hfirst
            | succ j =>
                rw [← hbefore j (by omega)]
                congr 1
                omega
        · rintro ⟨k, hk, hinsert, hbefore⟩
          cases k with
          | zero =>
              rw [Nat.add_zero, hfirst] at hinsert
              cases hinsert
          | succ k =>
              refine ⟨k, by omega, ?_, ?_⟩
              · rw [← hinsert]
                congr 1
                omega
              · intro j hj
                rw [← hbefore (j + 1) (by omega)]
                congr 1
                omega

def handed (world : World ρ T) (ctx : LoopCtx) (path : EtlPath) (rows : List ρ)
    (s : LoopState ρ) : LoopState ρ :=
  if rows.isEmpty then s else handBatch world ctx path rows s

theorem etlTurn_handed (s : LoopState ρ) :
    let r := etlTurn chrono world ctx path upper s
    let h := handed world ctx path (fetchedIn chrono world ctx path s) s
    (r.1.processed = h.processed ∧ r.1.failed = h.failed ∧ r.1.events = h.events) ∧
      ∀ processed failed, r.2 = some (.ok ⟨processed, failed, false⟩) →
        processed = h.processed ∧ failed = h.failed := by
  unfold etlTurn fetchedIn
  cases hcancel : world.cancelRequested s.turn with
  | none => simp [handed]
  | some canceled =>
      cases canceled with
      | true => simp [handed]
      | false =>
          cases hadvance : advanceCursor chrono s.cursor ctx.batchSize with
          | none => simp [handed]
          | some next =>
              dsimp only
              cases hfetch : world.fetch s.turn path.fetchSql s.cursor next with
              | error e => simp [handed]
              | ok rows =>
                  cases rows with
                  | nil =>
                      by_cases hgt : cursorGt chrono next upper = true <;>
                        simp [handed, hgt, LoopState.finish, LoopState.advance]
                  | cons row rows =>
                      by_cases hsave : world.savesProgress s.turn = false
                      · simp [handed, hsave]
                      · by_cases hgt : cursorGt chrono next upper = true <;>
                          simp [handed, hsave, hgt, LoopState.finish, LoopState.advance]

omit [LinearOrder T] in
theorem attempted_handed (rows : List ρ) (s t : LoopState ρ)
    (h : t.events = (handed world ctx path rows s).events) :
    AttemptedAtMost (max 1 ctx.batchRetries.toNat) ⟨s, rows, t⟩ := by
  cases rows with
  | nil => exact ⟨[], by rw [h]; simp [handed], by simp, by simp⟩
  | cons row rows =>
      refine ⟨batchEvents world ctx s.turn (row :: rows), ?_, ?_, ?_⟩
      · rw [h]
        exact handBatch_events row rows s
      · rw [← toNat_max_one]
        exact attemptInsert_length _ _ _ _
      · intro e he
        obtain ⟨rows', written, rfl⟩ := batchEvents_insertsOnly s.turn (row :: rows) e he
        exact ⟨written, by rw [mem_of_attempt _ _ _ _ _ _ he]⟩

omit [LinearOrder T] in
theorem countedOnce_handed (rows : List ρ) (s t : LoopState ρ)
    (hprocessed : t.processed = (handed world ctx path rows s).processed)
    (hfailed : t.failed = (handed world ctx path rows s).failed) :
    CountedOnce ⟨s, rows, t⟩ ↔ (rows ≠ [] → path.countsWritten = true → ∀ written,
      (retryBatchInsert ctx.batchRetries (world.insert s.turn) rows).2 = some written →
        written = rows.length) := by
  unfold CountedOnce
  rw [hprocessed, hfailed]
  cases rows with
  | nil => simp [handed]
  | cons row rows =>
      simp only [handed, List.isEmpty_cons, Bool.false_eq_true, if_false, handBatch]
      cases hinserted : (retryBatchInsert ctx.batchRetries (world.insert s.turn) (row :: rows)).2 with
      | none => simp
      | some written =>
          cases hcounts : path.countsWritten with
          | false => simp
          | true => simp

theorem CountedOnce.sum {turn : Turn ρ} (h : CountedOnce turn) :
    turn.after.processed + turn.after.failed =
      turn.before.processed + turn.before.failed + turn.rows.length := by
  rcases h with ⟨hprocessed, hfailed⟩ | ⟨hprocessed, hfailed⟩ <;> omega

/-! ## A run -/

theorem mem_turnsFrom {n : Nat} {s : LoopState ρ} {turn : Turn ρ}
    (h : turn ∈ turnsFrom chrono world ctx path upper n s) :
    turn = ⟨turn.before, fetchedIn chrono world ctx path turn.before,
      (etlTurn chrono world ctx path upper turn.before).1⟩ := by
  induction n generalizing s with
  | zero => cases h
  | succ n ih =>
      rw [turnsFrom] at h
      rcases List.mem_cons.mp h with rfl | hlater
      · rfl
      · split at hlater
        · exact ih hlater
        · cases hlater

theorem total_of_counted (n : Nat) (s : LoopState ρ) {processed failed : Nat}
    (hcounted : ∀ turn ∈ turnsFrom chrono world ctx path upper n s, CountedOnce turn)
    (hexit : (turns chrono world ctx path upper n s).2 = some (.ok ⟨processed, failed, false⟩)) :
    processed + failed = s.processed + s.failed +
      ((turnsFrom chrono world ctx path upper n s).map (·.rows.length)).sum := by
  induction n generalizing s with
  | zero => cases hexit
  | succ n ih =>
      rw [turnsFrom] at hcounted ⊢
      have hturn := (hcounted _ List.mem_cons_self).sum
      obtain ⟨⟨hprocessed, hfailed, -⟩, hreturned⟩ :=
        @etlTurn_handed ρ T _ chrono world ctx path upper s
      cases hgo : (etlTurn chrono world ctx path upper s).2 with
      | none =>
          rw [turns_of_none n hgo] at hexit
          simp only [hgo, Option.isNone_none, if_true] at hcounted ⊢
          have hrest := ih _ (fun turn hin => hcounted turn (List.mem_cons_of_mem _ hin)) hexit
          simp only [List.map_cons, List.sum_cons] at hturn ⊢
          rw [hrest, hturn]
          omega
      | some exit =>
          rw [turns_of_exit n hgo] at hexit
          obtain ⟨hp, hf⟩ := hreturned processed failed hexit
          simp only [Option.isNone_some, Bool.false_eq_true, if_false, List.map_cons,
            List.map_nil, List.sum_cons, List.sum_nil] at hturn ⊢
          omega

theorem mem_turnsOf {n : Nat} {turn : Turn ρ} (h : turn ∈ turnsOf chrono world ctx path n) :
    ∃ upper, turn = ⟨turn.before, fetchedIn chrono world ctx path turn.before,
      (etlTurn chrono world ctx path upper turn.before).1⟩ := by
  unfold turnsOf at h
  split at h
  case h_1 => cases h
  case h_2 window _ => exact ⟨window.2, mem_turnsFrom h⟩

/-- The accounts of a run are exact when every batch is counted once. -/
theorem exact_iff_counted (n : Nat) :
    Exact ctx.batchRetries (turnsOf chrono world ctx path n) (etl chrono world ctx path n).2 ↔
      ∀ turn ∈ turnsOf chrono world ctx path n, turn.rows ≠ [] → path.countsWritten = true →
        ∀ written, (retryBatchInsert ctx.batchRetries (world.insert turn.before.turn)
          turn.rows).2 = some written → written = turn.rows.length := by
  have hturn : ∀ turn ∈ turnsOf chrono world ctx path n, CountedOnce turn ↔
      (turn.rows ≠ [] → path.countsWritten = true → ∀ written,
        (retryBatchInsert ctx.batchRetries (world.insert turn.before.turn) turn.rows).2 =
          some written → written = turn.rows.length) := by
    intro turn hin
    obtain ⟨upper, heq⟩ := mem_turnsOf hin
    obtain ⟨⟨hprocessed, hfailed, -⟩, -⟩ :=
      @etlTurn_handed ρ T _ chrono world ctx path upper turn.before
    rw [heq]
    exact countedOnce_handed _ _ _ hprocessed hfailed
  constructor
  · intro h turn hin
    exact (hturn turn hin).mp (h.counted turn hin)
  · intro h
    have hcounted : ∀ turn ∈ turnsOf chrono world ctx path n, CountedOnce turn :=
      fun turn hin => (hturn turn hin).mpr (h turn hin)
    refine ⟨hcounted, ?_, ?_⟩
    · intro turn hin
      obtain ⟨upper, heq⟩ := mem_turnsOf hin
      obtain ⟨⟨-, -, hevents⟩, -⟩ :=
        @etlTurn_handed ρ T _ chrono world ctx path upper turn.before
      rw [heq]
      exact attempted_handed _ _ _ hevents
    · intro processed failed hexit
      unfold etl at hexit
      unfold turnsOf at hcounted ⊢
      cases hwindow : resolveWindow chrono world ctx path with
      | error e => simp [hwindow, refused] at hexit
      | ok window =>
          simp only [hwindow] at hexit hcounted ⊢
          have htotal := total_of_counted n _ hcounted hexit
          simpa [enterLoop] using htotal

end Step

/-! ## The targets -/

/-- The load of the turn's batch that Doris lets succeed, the first one, says that it loaded
the rows it was sent, or does not say how many. -/
def ReportsAll (target : Target) (retries : UInt32) (turn : Turn ρ) : Prop :=
  ∀ k < max 1 retries.toNat, ∀ body,
    Loaded (target.responds turn.before.turn (k + 1)) body →
    (∀ j < k, ¬ ∃ body, Loaded (target.responds turn.before.turn (j + 1)) body) →
    ∀ loaded, numberLoadedRows body = some loaded → loaded = turn.rows.length

variable [LinearOrder T]

omit [LinearOrder T] in
theorem insert_answering {world : World ρ T} {target : Target} {src : SourceKind} {tgt : DbType}
    {turn attempt written : Nat} {rows : List ρ} :
    (answering world target src tgt).insert turn attempt rows = some written ↔
      insertBatch target src tgt turn attempt rows = .ok written := by
  show (insertBatch target src tgt turn attempt rows).toOption = some written ↔ _
  cases insertBatch target src tgt turn attempt rows with
  | error e => simp [Except.toOption]
  | ok n => simp [Except.toOption]

omit [LinearOrder T] in
theorem retry_answering {world : World ρ T} {target : Target} {src : SourceKind} {tgt : DbType}
    {retries : UInt32} {turn written : Nat} {rows : List ρ} :
    (retryBatchInsert retries ((answering world target src tgt).insert turn) rows).2 =
        some written ↔
      ∃ k < max 1 retries.toNat, insertBatch target src tgt turn (k + 1) rows = .ok written ∧
        ∀ j < k, ∀ w, insertBatch target src tgt turn (j + 1) rows ≠ .ok w := by
  unfold retryBatchInsert
  simp only [attemptInsert_eq_some, toNat_max_one, Nat.add_comm 1, insert_answering,
    Option.eq_none_iff_forall_ne_some, ne_eq]

omit [LinearOrder T] in
theorem reportsAll_iff {world : World ρ T} {target : Target} {src : SourceKind}
    {retries : UInt32} {turn : Turn ρ} (hrows : turn.rows ≠ []) :
    (∀ written, (retryBatchInsert retries
        ((answering world target src .doris).insert turn.before.turn) turn.rows).2 =
          some written → written = turn.rows.length) ↔ ReportsAll target retries turn := by
  simp only [retry_answering, insertBatch, ne_eq, dorisInsertBatch_ok hrows]
  constructor
  · intro h k hk body hloaded hfirst loaded hnumber
    have hwritten := h _ ⟨k, hk, ⟨body, hloaded, rfl⟩, fun j hj w hbefore => ?_⟩
    · rw [hnumber] at hwritten
      exact hwritten
    · obtain ⟨body', hloaded', -⟩ := hbefore
      exact hfirst j hj ⟨body', hloaded'⟩
  · rintro h written ⟨k, hk, ⟨body, hloaded, rfl⟩, hbefore⟩
    cases hnumber : numberLoadedRows body with
    | none => rfl
    | some loaded =>
        refine h k hk body hloaded ?_ loaded hnumber
        rintro j hj ⟨body', hloaded'⟩
        exact hbefore j hj _ ⟨body', hloaded', rfl⟩

/-- Whatever is fetched and whatever the target answers, the accounts of a run are exact when
the target is not Doris, and to Doris exactly when its successful loads report all rows. -/
theorem exact_iff_reportsAll (chrono : Chrono T) (world : World ρ T) (ctx : LoopCtx)
    (target : Target) (src : SourceKind) (tgt : DbType) (n : Nat) :
    let world' := answering world target src tgt
    let turns := turnsOf chrono world' ctx (pathFor ctx src tgt) n
    Exact ctx.batchRetries turns (dispatch chrono world' ctx n src.dbType tgt).2 ↔
      (tgt = .doris → ∀ turn ∈ turns, turn.rows ≠ [] →
        ReportsAll target ctx.batchRetries turn) := by
  intro world' turns
  rw [dispatch_eq_etl, exact_iff_counted]
  constructor
  · rintro h rfl turn hin hrows
    apply (reportsAll_iff hrows).mp
    exact h turn hin hrows (by cases src <;> rfl)
  · intro h turn hin hrows _
    by_cases htgt : tgt = .doris
    · subst htgt
      exact (reportsAll_iff hrows).mpr (h rfl turn hin hrows)
    · intro written hwritten
      obtain ⟨k, -, hinsert, -⟩ := retry_answering.mp hwritten
      exact insertBatch_ok_of_ne_doris htgt hrows hinsert

/-! ## A load that reports one row of two -/

def hourlyOrders : LoopCtx :=
  { oneByOne with
    config := { oneByOne.config with
      batching := { oneByOne.config.batching with batchSize := some 3600 } }
    batchSize := 3600 }

def oneOfTwo : Target where
  executes _ _ := .ok ()
  responds _ _ := .ok ⟨true, .ok (some (.obj
    [("Status", .str "Success"), ("NumberTotalRows", .int 2), ("NumberLoadedRows", .int 1)]))⟩

def twoFetched : World Nat Int where
  nowMin := newYear
  nowMax := newYear
  probe _ := some (some "2026-01-01 00:00:00", some "2026-01-01 00:00:00")
  cancelRequested _ := some false
  fetch _ _ _ _ := .ok [1, 2]
  truncates := true
  insert _ _ _ := none
  savesProgress _ := true

/-- The run returns with one row processed and none failed of the two it fetched. -/
theorem partial_load_miscounted :
    let world := answering twoFetched oneOfTwo .mySql .doris
    let turns := turnsOf civil world hourlyOrders (pathFor hourlyOrders .mySql .doris) 1
    let run := dispatch civil world hourlyOrders 1 .mySql .doris
    validate civil hourlyOrders.config = .ok () ∧ turns.map Turn.rows = [[1, 2]] ∧
      run.2 = some (.ok ⟨1, 0, false⟩) ∧ ¬ Exact hourlyOrders.batchRetries turns run.2 := by
  intro world turns run
  have hrows : turns.map Turn.rows = [[1, 2]] := by decide
  have hrun : run.2 = some (.ok ⟨1, 0, false⟩) := by decide
  refine ⟨by decide, hrows, hrun, ?_⟩
  intro hexact
  have htotal := hexact.total 1 0 hrun
  have hlengths : turns.map (fun turn => turn.rows.length) = [2] := by
    have hmap : turns.map (fun turn => turn.rows.length) =
        (turns.map Turn.rows).map List.length := by rw [List.map_map]; rfl
    rw [hmap, hrows]
    rfl
  rw [hlengths] at htotal
  cases htotal

end Dbmaster.DataSync.Accounting
