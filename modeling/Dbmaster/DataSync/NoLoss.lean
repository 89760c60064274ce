import Dbmaster.DataSync.Etl
import Dbmaster.Lib.Sweep
/-!
# Which rows a run hands over

A fresh run that finishes is a sweep over the time field: its windows are
`advance_cursor` apart, its pages are cut at the row limit, and it ends at the
first cursor beyond the probed MAX.
-/

namespace Dbmaster.DataSync.NoLoss

open Dbmaster.Lib.Sweep
open Dbmaster.DataSync.Cursor Dbmaster.DataSync.Config Dbmaster.DataSync.Etl

variable {ρ T : Type}

/-! ## The source -/

/-- The rows of the FROM clause, with the text of their time field; `none` is NULL. -/
structure Source (ρ : Type) where
  rows : Finset ρ
  timeText : ρ → Option String

/-- The rows with the instants that `parse_cursor` reads. -/
def Source.timeline (source : Source ρ) (chrono : Chrono T) : Timeline ρ T where
  rows := source.rows
  time r := (source.timeText r).bind (parseCursor chrono)

/-- The source database answers from one content of the table. -/
structure Answers [LinearOrder T] (chrono : Chrono T) (world : World ρ T) (path : EtlPath) (limit : Nat)
    (source : Source ρ) : Prop where
  /-- every time value parses -/
  parses : ∀ r ∈ source.rows, ∀ s, source.timeText r = some s → ∃ t, parseCursor chrono s = some t
  /-- MIN and MAX parse, and are printed with the year in front -/
  min_parses : ∀ row s, world.probe path.probeSql = some row → row.1 = some s →
    ∃ t, parseCursor chrono s = some t
  max_parses : ∀ row s, world.probe path.probeSql = some row → row.2 = some s →
    DigitFirst s ∧ ∃ t, parseCursor chrono s = some t
  /-- the clock, when the table is empty, shows a year of four digits -/
  now : DigitFirst (chrono.toRfc3339 world.nowMin) ∧ DigitFirst (chrono.toRfc3339 world.nowMax)
  /-- the SELECT returns the rows of its window in order, cut at its LIMIT -/
  select : ∀ turn lo hi a b rows, parseCursor chrono lo = some a → parseCursor chrono hi = some b →
    world.fetch turn path.fetchSql lo hi = .ok rows →
    (source.timeline chrono).IsPage limit a b rows

/-- The row was part of some attempt to insert. -/
def Handed (events : List (TargetEvent ρ)) (r : ρ) : Prop :=
  ∃ rows written, .insert rows written ∈ events ∧ r ∈ rows

def Finished (exit : Option Exit) : Prop :=
  ∃ processed failed, exit = some (.ok ⟨processed, failed, false⟩)

/-! ## A batch -/

theorem toNat_max_one (retries : UInt32) : (max retries 1).toNat = max 1 retries.toNat := by
  show (if retries ≤ 1 then 1 else retries).toNat = _
  split
  case isTrue hle =>
    have hnat : retries.toNat ≤ 1 := UInt32.le_iff_toNat_le.mp hle
    show 1 = max 1 retries.toNat
    omega
  case isFalse hlt =>
    have hnat : ¬ retries.toNat ≤ 1 := fun h => hlt (UInt32.le_iff_toNat_le.mpr h)
    omega

theorem one_le_attempts (maxRetries : UInt32) : 1 ≤ (max maxRetries 1).toNat := by
  rw [toNat_max_one]
  exact Nat.le_max_left _ _

theorem handed_append {first second : List (TargetEvent ρ)} {r : ρ} :
    Handed (first ++ second) r ↔ Handed first r ∨ Handed second r := by
  simp only [Handed, List.mem_append, or_and_right, exists_or]

theorem mem_of_attempt (insert : Nat → List ρ → Option Nat) (rows rows' : List ρ)
    (written : Option Nat) (left attempt : Nat)
    (h : .insert rows' written ∈ (attemptInsert insert rows left attempt).1) : rows' = rows := by
  induction left generalizing attempt with
  | zero => cases h
  | succ left ih =>
      unfold attemptInsert at h
      split at h
      · rw [List.mem_singleton] at h
        cases h
        rfl
      · rcases List.mem_cons.mp h with heq | hrest
        · cases heq
          rfl
        · exact ih (attempt + 1) hrest

theorem exists_attempt (insert : Nat → List ρ → Option Nat) (rows : List ρ) {left : Nat}
    (hleft : 1 ≤ left) (attempt : Nat) :
    ∃ written, .insert rows written ∈ (attemptInsert insert rows left attempt).1 := by
  obtain ⟨left, rfl⟩ := Nat.exists_eq_add_of_le' hleft
  unfold attemptInsert
  split
  · exact ⟨_, List.mem_cons_self⟩
  · exact ⟨_, List.mem_cons_self⟩

theorem handed_batchEvents {world : World ρ T} {ctx : LoopCtx} {turn : Nat} {rows : List ρ}
    {r : ρ} : Handed (batchEvents world ctx turn rows) r ↔ r ∈ rows := by
  cases rows with
  | nil => simp [Handed, batchEvents]
  | cons row rows =>
      constructor
      · rintro ⟨rows', written, hmem, hr⟩
        rwa [mem_of_attempt _ _ _ _ _ _ hmem] at hr
      · intro hr
        obtain ⟨written, hmem⟩ := exists_attempt (world.insert turn) (row :: rows)
          (one_le_attempts ctx.batchRetries) 1
        exact ⟨row :: rows, written, hmem, hr⟩

/-! ## The loop as a sweep -/

section Loop

variable [LinearOrder T] {chrono : Chrono T} {world : World ρ T} {ctx : LoopCtx} {path : EtlPath}
variable {source : Source ρ} {limit : Nat} {upper : String} {top : T}

/-- How the instant of the cursor moves. -/
def move (chrono : Chrono T) (ctx : LoopCtx) (t : T) : Option T :=
  chrono.addSeconds t (coverageSecs ctx.batchSize)

omit [LinearOrder T] in
theorem advanceCursor_eq_some {cursor next : String} {lo : T}
    (hcursor : parseCursor chrono cursor = some lo)
    (hadvance : advanceCursor chrono cursor ctx.batchSize = some next) :
    ∃ hi, move chrono ctx lo = some hi ∧ chrono.toRfc3339 hi = next := by
  simp only [advanceCursor, hcursor] at hadvance
  exact Option.map_eq_some_iff.mp hadvance

theorem stuck_not_finished (hupper : DigitFirst upper) (n : Nat) (s : LoopState ρ)
    (hcursor : parseCursor chrono s.cursor = none) (hsigned : Signed s.cursor) :
    ¬ Finished (turns chrono world ctx path upper n s).2 := by
  induction n generalizing s with
  | zero =>
      rintro ⟨processed, failed, h⟩
      cases h
  | succ n ih =>
      have hturned : Turned chrono world ctx path upper s
        (etlTurn chrono world ctx path upper s) := etlTurn_cases s
      unfold turns
      split
      case h_1 t hstep =>
        rw [hstep] at hturned
        cases hturned with
        | moved _ next rows _ hadvance hfetch hevents hexit hagain =>
            simp only [advanceCursor, hcursor, Option.some.injEq] at hadvance
            obtain ⟨-, hnext⟩ := hagain rfl
            refine ih t ?_ ?_
            · rw [hnext, ← hadvance]
              exact hcursor
            · rw [hnext, ← hadvance]
              exact hsigned
      case h_2 t exit hstep =>
        rw [hstep] at hturned
        rintro ⟨processed, failed, hfinish⟩
        cases hfinish
        cases hturned with
        | stopped _ hexit => exact hexit _ _ rfl
        | moved _ next rows _ hadvance hfetch hevents hexit hagain =>
            simp only [advanceCursor, hcursor, Option.some.injEq] at hadvance
            rw [← hadvance, cursorGt_signed hcursor hsigned hupper] at hexit
            cases hexit

theorem sweeps_of_finished (hlaw : chrono.Lawful) (hdigit : DigitFirst upper)
    (hupper : parseCursor chrono upper = some top)
    (hselect : ∀ turn lo hi a b rows, parseCursor chrono lo = some a →
      parseCursor chrono hi = some b → world.fetch turn path.fetchSql lo hi = .ok rows →
      (source.timeline chrono).IsPage limit a b rows)
    (n : Nat) (s : LoopState ρ) {lo : T} (hcursor : parseCursor chrono s.cursor = some lo)
    (hfinished : Finished (turns chrono world ctx path upper n s).2) :
    ∃ pages, Sweeps (source.timeline chrono) limit (move chrono ctx) top lo pages ∧
      ∀ r, Handed (turns chrono world ctx path upper n s).1.events r ↔
        Handed s.events r ∨ ∃ page ∈ pages, r ∈ page := by
  induction n generalizing s lo with
  | zero =>
      obtain ⟨processed, failed, h⟩ := hfinished
      cases h
  | succ n ih =>
      have hturned : Turned chrono world ctx path upper s
        (etlTurn chrono world ctx path upper s) := etlTurn_cases s
      unfold turns at hfinished ⊢
      split at hfinished
      case h_1 t hstep =>
        rw [hstep] at hturned
        cases hturned with
        | moved _ next rows _ hadvance hfetch hevents hexit hagain =>
            obtain ⟨hi, hmove, rfl⟩ := advanceCursor_eq_some hcursor hadvance
            obtain ⟨-, hnext⟩ := hagain rfl
            have hparse : parseCursor chrono (chrono.toRfc3339 hi) = some hi := by
              rcases hlaw.prints hi with hback | ⟨hnone, hsigned⟩
              · exact parseCursor_of_rfc3339 hback
              · rw [← hnext] at hnone hsigned
                exact absurd hfinished (stuck_not_finished hdigit n t hnone hsigned)
            have hgo : ¬ top < hi := by
              rw [← cursorGt_of_parse hparse hupper, ← hexit]
              simp
            obtain ⟨pages, hsweeps, hhanded⟩ := ih t (hnext ▸ hparse) hfinished
            have hpage := hselect _ _ _ lo hi rows hcursor hparse hfetch
            refine ⟨rows :: pages, .more hmove hpage hgo hsweeps, fun r => ?_⟩
            rw [hhanded, hevents, handed_append, handed_batchEvents]
            simp only [List.mem_cons, exists_eq_or_imp, or_assoc]
      case h_2 t exit hstep =>
        rw [hstep] at hturned
        obtain ⟨processed, failed, hfinish⟩ := hfinished
        cases hfinish
        cases hturned with
        | stopped _ hexit => exact absurd rfl (hexit _ _)
        | moved _ next rows _ hadvance hfetch hevents hexit hagain =>
            obtain ⟨hi, hmove, rfl⟩ := advanceCursor_eq_some hcursor hadvance
            rcases hlaw.prints hi with hback | ⟨hnone, hsigned⟩
            · have hparse := parseCursor_of_rfc3339 hback
              have hend : top < hi := (cursorGt_of_parse hparse hupper).mp hexit.symm
              have hpage := hselect _ _ _ lo hi rows hcursor hparse hfetch
              refine ⟨[rows], .last hmove hpage hend, fun r => ?_⟩
              rw [hevents, handed_append, handed_batchEvents]
              simp only [List.mem_singleton, exists_eq_left]
            · rw [cursorGt_signed hnone hsigned hdigit] at hexit
              cases hexit

/-! ## The direction of the sweep -/

theorem coverageSecs_ne_zero (batchSize : UInt64) : coverageSecs batchSize ≠ 0 := by
  have hone : 1 ≤ (max batchSize 1).toNat := by
    show 1 ≤ (if batchSize ≤ 1 then 1 else batchSize).toNat
    split
    case isTrue => decide
    case isFalse hlt =>
      have hnat : ¬ batchSize.toNat ≤ 1 := fun h => hlt (UInt64.le_iff_toNat_le.mpr h)
      omega
  have hlt := (max batchSize 1).toNat_lt
  show (max batchSize 1).toBitVec.toInt ≠ 0
  rw [BitVec.toInt_eq_toNat_cond]
  have hcast : (max batchSize 1).toBitVec.toNat = (max batchSize 1).toNat := rfl
  rw [hcast]
  split <;> omega

/-- The pages reach every row up to MAX exactly when every window fits. -/
theorem reaches_iff_everyWindowFits (hlaw : chrono.Lawful) {start : T} {pages : List (List ρ)}
    (hsweeps : Sweeps (source.timeline chrono) limit (move chrono ctx) top start pages) :
    Reaches (source.timeline chrono) top start pages ↔
      EveryWindowFits (source.timeline chrono) limit (move chrono ctx) top start := by
  rcases Int.lt_or_gt_of_ne (coverageSecs_ne_zero ctx.batchSize) with hneg | hpos
  · exact hsweeps.reaches_iff_of_backward fun t u h => hlaw.earlier t _ u hneg h
  · exact hsweeps.reaches_iff_of_forward fun t u h => hlaw.later t _ u hpos h

/-! ## The window -/

/-- The window of the run, as texts and as instants. -/
structure Window (chrono : Chrono T) (world : World ρ T) (ctx : LoopCtx) (path : EtlPath)
    (start top : T) : Prop where
  resolves : ∃ cursor upper, resolveWindow chrono world ctx path = .ok (cursor, upper) ∧
    parseCursor chrono cursor = some start ∧ parseCursor chrono upper = some top ∧
    DigitFirst upper

theorem window_of_answers (hlaw : chrono.Lawful) (hvalid : validate chrono ctx.config = .ok ())
    (hfresh : ctx.resumeCursor = none) (hanswers : Answers chrono world path limit source)
    (hprobe : (world.probe path.probeSql).isSome = true) :
    ∃ start top, Window chrono world ctx path start top := by
  obtain ⟨row, hrow⟩ := Option.isSome_iff_exists.mp hprobe
  have hmin : ∃ t, parseCursor chrono (row.1.getD (chrono.toRfc3339 world.nowMin)) = some t := by
    cases hcol : row.1 with
    | none => exact ⟨_, hlaw.parseCursor_toRfc3339 hanswers.now.1⟩
    | some s => exact hanswers.min_parses row s hrow hcol
  have hmax : DigitFirst (row.2.getD (chrono.toRfc3339 world.nowMax)) ∧
      ∃ t, parseCursor chrono (row.2.getD (chrono.toRfc3339 world.nowMax)) = some t := by
    cases hcol : row.2 with
    | none => exact ⟨hanswers.now.2, _, hlaw.parseCursor_toRfc3339 hanswers.now.2⟩
    | some s => exact hanswers.max_parses row s hrow hcol
  obtain ⟨hdigit, top, htop⟩ := hmax
  have hstart : ∃ t, parseCursor chrono ((ctx.resumeCursor <|> ctx.config.batching.start).getD
      (row.1.getD (chrono.toRfc3339 world.nowMin))) = some t := by
    rw [hfresh]
    show ∃ t, parseCursor chrono (ctx.config.batching.start.getD _) = some t
    cases hcol : ctx.config.batching.start with
    | none => exact hmin
    | some s => exact (validate_iff.mp hvalid).start_parses hcol
  obtain ⟨start, hstart⟩ := hstart
  refine ⟨start, top, ⟨_, _, ?_, hstart, htop, hdigit⟩⟩
  simp only [resolveWindow, hrow]

end Loop

/-! ## The rows of a fresh run -/

variable [LinearOrder T]

/-- A fresh run that finishes has handed over every row between its start and the
probed MAX exactly when in every window these rows fit under the row limit. -/
theorem handed_iff_everyWindowFits {chrono : Chrono T} {world : World ρ T} {ctx : LoopCtx}
    {src : SourceKind} {tgt : DbType} {source : Source ρ} {n processed : Nat} {s : LoopState ρ}
    (hlaw : chrono.Lawful) (hvalid : validate chrono ctx.config = .ok ())
    (hfresh : ctx.resumeCursor = none)
    (hanswers : Answers chrono world (pathFor ctx src tgt) (rowLimit ctx.config) source)
    (hrun : dispatch chrono world ctx n src.dbType tgt = (s, some (.ok ⟨processed, 0, false⟩))) :
    ∃ start top, Window chrono world ctx (pathFor ctx src tgt) start top ∧
      ((∀ r ∈ source.rows, ∀ t, (source.timeline chrono).time r = some t → start ≤ t → t ≤ top →
          Handed s.events r) ↔
        EveryWindowFits (source.timeline chrono) (rowLimit ctx.config) (move chrono ctx)
          top start) := by
  rw [dispatch_eq_etl] at hrun
  have hprobe : (world.probe (pathFor ctx src tgt).probeSql).isSome = true := by
    cases hnone : world.probe (pathFor ctx src tgt).probeSql with
    | some row => rfl
    | none => simp [etl, resolveWindow, hnone, refused] at hrun
  obtain ⟨start, top, hwindow⟩ := window_of_answers hlaw hvalid hfresh hanswers hprobe
  obtain ⟨cursor, upper, hresolve, hcursor, hupper, hdigit⟩ := hwindow.resolves
  simp only [etl, hresolve] at hrun
  have hfinished : Finished (turns chrono world ctx (pathFor ctx src tgt) upper n
      (enterLoop world (pathFor ctx src tgt) cursor)).2 := by
    rw [hrun]
    exact ⟨processed, 0, rfl⟩
  obtain ⟨pages, hsweeps, hhanded⟩ :=
    sweeps_of_finished hlaw hdigit hupper hanswers.select n
      (enterLoop world (pathFor ctx src tgt) cursor) hcursor hfinished
  rw [hrun] at hhanded
  have hpages : ∀ r, Handed s.events r ↔ ∃ page ∈ pages, r ∈ page := by
    intro r
    rw [hhanded]
    simp [Handed, enterLoop]
  refine ⟨start, top, hwindow, ?_⟩
  rw [← reaches_iff_everyWindowFits hlaw hsweeps]
  simp only [hpages]
  exact Iff.rfl


/-! ## Two rows of one second -/

def oneByOne : LoopCtx where
  config :=
    { source := { database := none, table := "orders" }
      target := { database := none, table := "orders_copy" }
      joinTables := []
      columnMapping := { columns := [{ source := "main.id", target := "id" }], constants := [] }
      batching :=
        { timeField := "created_at", batchSize := some 1, start := none, batchRetries := none }
      targetStrategy := .append
      schedule := none }
  srcDatabase := some "shop"
  tgtDatabase := some "archive"
  batchSize := 1
  resumeCursor := none
  batchRetries := 3

def twoOrders : Source Nat where
  rows := {1, 2}
  timeText _ := some "2026-01-01 00:00:00"

/-- The instant of both orders. -/
def newYear : Int := 1767225600

def twoOrdersWorld : World Nat Int where
  nowMin := newYear
  nowMax := newYear
  probe _ := some (some "2026-01-01 00:00:00", some "2026-01-01 00:00:00")
  cancelRequested _ := some false
  fetch _ _ lo hi :=
    match parseCursor civil lo, parseCursor civil hi with
    | some a, some b => .ok (if a ≤ newYear ∧ newYear < b then [1] else [])
    | _, _ => .ok []
  truncates := true
  insert _ _ rows := some rows.length
  savesProgress _ := true

theorem twoOrders_parses : parseCursor civil "2026-01-01 00:00:00" = some newYear := by decide

theorem twoOrders_digitFirst (s : String) (h : s.toList.head? = some '2') : DigitFirst s :=
  ⟨'2', h, by decide, by decide⟩

theorem twoOrders_time (r : Nat) : (twoOrders.timeline civil).time r = some newYear :=
  twoOrders_parses

theorem twoOrders_answers :
    Answers civil twoOrdersWorld (pathFor oneByOne .mySql .mySql) (rowLimit oneByOne.config)
      twoOrders where
  parses r _ s hs := by
    cases hs
    exact ⟨_, twoOrders_parses⟩
  min_parses row s hrow hs := by
    cases hrow
    cases hs
    exact ⟨_, twoOrders_parses⟩
  max_parses row s hrow hs := by
    cases hrow
    cases hs
    exact ⟨twoOrders_digitFirst _ (by decide), _, twoOrders_parses⟩
  now := ⟨twoOrders_digitFirst _ (by decide), twoOrders_digitFirst _ (by decide)⟩
  select turn lo hi a b rows ha hb hfetch := by
    simp only [twoOrdersWorld, ha, hb, Except.ok.injEq] at hfetch
    subst hfetch
    by_cases hin : a ≤ newYear ∧ newYear < b
    · refine ⟨[1, 2], by decide, fun r => ?_, ?_, ?_⟩
      · have hrows : (twoOrders.timeline civil).rows = {1, 2} := rfl
        simp [Timeline.mem_window, twoOrders_time, hin, hrows]
      · simp [twoOrders_time]
      · rw [if_pos hin]
        rfl
    · refine ⟨[], by decide, fun r => ?_, .nil, by simp [hin]⟩
      simp only [List.not_mem_nil, Timeline.mem_window, twoOrders_time, Option.some.injEq,
        exists_eq_left', hin, and_false]

theorem handed_iff_everyWindowFits_twoOrders :
    ∃ start top, Window civil twoOrdersWorld oneByOne (pathFor oneByOne .mySql .mySql) start top ∧
      ((∀ r ∈ twoOrders.rows, ∀ t, (twoOrders.timeline civil).time r = some t → start ≤ t →
          t ≤ top → Handed (dispatch civil twoOrdersWorld oneByOne 2 .mySql .mySql).1.events r) ↔
        EveryWindowFits (twoOrders.timeline civil) (rowLimit oneByOne.config)
          (move civil oneByOne) top start) :=
  handed_iff_everyWindowFits civil_lawful (by decide) rfl twoOrders_answers
    (Prod.ext rfl (show _ = some (Exit.ok ⟨1, 0, false⟩) by decide))

/-- The run succeeds with one row processed and none failed, and the other row of
the same second is never handed over. -/
theorem second_order_lost :
    (validate civil oneByOne.config = .ok () ∧ oneByOne.resumeCursor = none ∧
      Answers civil twoOrdersWorld (pathFor oneByOne .mySql .mySql) (rowLimit oneByOne.config)
        twoOrders) ∧
    (dispatch civil twoOrdersWorld oneByOne 2 .mySql .mySql).2 = some (.ok ⟨1, 0, false⟩) ∧
    Window civil twoOrdersWorld oneByOne (pathFor oneByOne .mySql .mySql) newYear newYear ∧
    (2 ∈ twoOrders.rows ∧ (twoOrders.timeline civil).time 2 = some newYear) ∧
    ¬ Handed (dispatch civil twoOrdersWorld oneByOne 2 .mySql .mySql).1.events 2 := by
  have hevents : (dispatch civil twoOrdersWorld oneByOne 2 .mySql .mySql).1.events =
      [.insert [1] (some 1)] := by
    decide
  refine ⟨⟨by decide, rfl, twoOrders_answers⟩, by decide, ?_, ⟨by decide, twoOrders_time 2⟩, ?_⟩
  · exact ⟨_, _, rfl, twoOrders_parses, twoOrders_parses, twoOrders_digitFirst _ (by decide)⟩
  · rw [hevents]
    rintro ⟨rows, written, hmem, hr⟩
    rw [List.mem_singleton] at hmem
    cases hmem
    simp at hr

end Dbmaster.DataSync.NoLoss
