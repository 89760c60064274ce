import Dbmaster.DataSync.Chain
/-!
# Which rows a chain of runs inserts once

The cursors of all runs of the chain lie on one course, so a run is a walk over
its places, and a place is busy when its window has rows.  The cursor that is
saved is that of the last busy place, whose rows are in the target already.
-/

namespace Dbmaster.DataSync.ExactlyOnce

open Dbmaster.Lib Dbmaster.Lib.Sweep
open Dbmaster.DataSync.Cursor Dbmaster.DataSync.Config Dbmaster.DataSync.Etl
  Dbmaster.DataSync.NoLoss Dbmaster.DataSync.Chain

variable {ρ T : Type}

/-! ## The course of the cursors -/

section Course

variable [LinearOrder T]

/-- The cursors that follow `origin`. -/
def course (chrono : Chrono T) (batchSize : UInt64) (origin : String) : Nat → String
  | 0 => origin
  | j + 1 =>
      (advanceCursor chrono (course chrono batchSize origin j) batchSize).getD
        (course chrono batchSize origin j)

def Passed (chrono : Chrono T) (batchSize : UInt64) (origin upper : String) (j : Nat) : Prop :=
  advanceCursor chrono (course chrono batchSize origin j) batchSize =
      some (course chrono batchSize origin (j + 1)) ∧
    cursorGt chrono (course chrono batchSize origin (j + 1)) upper = false

structure Ends (chrono : Chrono T) (batchSize : UInt64) (origin upper : String) (last : Nat) :
    Prop where
  passed : ∀ j < last, Passed chrono batchSize origin upper j
  advances : advanceCursor chrono (course chrono batchSize origin last) batchSize =
    some (course chrono batchSize origin (last + 1))
  beyond : cursorGt chrono (course chrono batchSize origin (last + 1)) upper = true

variable {chrono : Chrono T} {batchSize : UInt64} {origin upper : String} {last i : Nat}

omit [LinearOrder T] in
theorem course_succ {j : Nat} {next : String}
    (h : advanceCursor chrono (course chrono batchSize origin j) batchSize = some next) :
    course chrono batchSize origin (j + 1) = next := by
  rw [course, h]
  rfl

theorem Ends.le_of_passed (hends : Ends chrono batchSize origin upper last)
    (h : ∀ j < i, Passed chrono batchSize origin upper j) : i ≤ last := by
  by_contra hlt
  have hgo := (h last (by omega)).2
  rw [hends.beyond] at hgo
  cases hgo

theorem Ends.advance (hends : Ends chrono batchSize origin upper last) {j : Nat} (hj : j ≤ last) :
    advanceCursor chrono (course chrono batchSize origin j) batchSize =
      some (course chrono batchSize origin (j + 1)) := by
  rcases Nat.lt_or_eq_of_le hj with hlt | heq
  · exact (hends.passed j hlt).1
  · rw [heq]
    exact hends.advances

omit [LinearOrder T] in
theorem course_stuck {j : Nat} (hnone : parseCursor chrono (course chrono batchSize origin j) = none)
    (k : Nat) : course chrono batchSize origin (j + k) = course chrono batchSize origin j := by
  induction k with
  | zero => rfl
  | succ k ih =>
      rw [← Nat.add_assoc, course, ih]
      simp only [advanceCursor, hnone]
      rfl

theorem Ends.parses (hlaw : chrono.Lawful) (hdigit : DigitFirst upper)
    (hends : Ends chrono batchSize origin upper last)
    (horigin : ∃ t, parseCursor chrono origin = some t) {j : Nat} (hj : j ≤ last + 1) :
    ∃ t, parseCursor chrono (course chrono batchSize origin j) = some t := by
  induction j with
  | zero => exact horigin
  | succ j ih =>
      obtain ⟨t, ht⟩ := ih (by omega)
      have hadvance := @Ends.advance T _ chrono batchSize origin upper last hends j (by omega)
      simp only [advanceCursor, ht] at hadvance
      obtain ⟨u, -, hprint⟩ := Option.map_eq_some_iff.mp hadvance
      rcases hlaw.prints u with hback | ⟨hnone, hsigned⟩
      · rw [← hprint]
        exact ⟨u, parseCursor_of_rfc3339 hback⟩
      · rw [hprint] at hnone hsigned
        have hstay := course_stuck hnone (last - j)
        have hplace : j + 1 + (last - j) = last + 1 := by omega
        rw [hplace] at hstay
        have hbeyond := hends.beyond
        rw [hstay, cursorGt_signed hnone hsigned hdigit] at hbeyond
        cases hbeyond

end Course

/-! ## A run as a walk -/

section Walk

variable [LinearOrder T] {chrono : Chrono T} {world : World ρ T} {batchSize : UInt64}
variable {fetchSql origin upper : String}

/-- Turns of the loop that do not leave it. -/
inductive Walk (chrono : Chrono T) (world : World ρ T) (batchSize : UInt64)
    (fetchSql upper : String) : LoopState ρ → Nat → LoopState ρ → Prop
  | stay (s : LoopState ρ) : Walk chrono world batchSize fetchSql upper s 0 s
  | go {s t u : LoopState ρ} {k : Nat}
      (hturn : TurnEnds chrono world batchSize fetchSql upper s (t, none))
      (hrest : Walk chrono world batchSize fetchSql upper t k u) :
      Walk chrono world batchSize fetchSql upper s (k + 1) u

theorem turns_walk (chrono : Chrono T) (ctx : LoopCtx) (path : EtlPath) (upper : String)
    (hinserts : ∀ turn attempt rows, (world.insert turn attempt rows).isSome = true)
    (hsaves : ∀ turn, world.savesProgress turn = true) (n : Nat) (s : LoopState ρ) :
    ∃ k u, Walk chrono world ctx.batchSize path.fetchSql upper s k u ∧
      (turns chrono world ctx path upper n s = (u, none) ∧ k = n ∨
        k < n ∧ ∃ t exit, turns chrono world ctx path upper n s = (t, some exit) ∧
          TurnEnds chrono world ctx.batchSize path.fetchSql upper u (t, some exit)) := by
  induction n generalizing s with
  | zero => exact ⟨0, s, .stay s, .inl ⟨rfl, rfl⟩⟩
  | succ n ih =>
      have hends : TurnEnds chrono world ctx.batchSize path.fetchSql upper s
        (etlTurn chrono world ctx path upper s) := etlTurn_ends hinserts hsaves s
      unfold turns
      cases hstep : etlTurn chrono world ctx path upper s with
      | mk t exit =>
          rw [hstep] at hends
          cases exit with
          | none =>
              obtain ⟨k, u, hwalk, hend⟩ := ih t
              refine ⟨k + 1, u, .go hends hwalk, ?_⟩
              rcases hend with ⟨heq, hk⟩ | ⟨hk, hexit⟩
              · exact .inl ⟨heq, by omega⟩
              · exact .inr ⟨by omega, hexit⟩
          | some exit => exact ⟨0, s, .stay s, .inr ⟨by omega, t, exit, rfl, hends⟩⟩

theorem Walk.turn {s u : LoopState ρ} {k : Nat}
    (h : Walk chrono world batchSize fetchSql upper s k u) : u.turn = s.turn + k := by
  induction h with
  | stay s => rfl
  | go hturn hrest ih =>
      cases hturn with
      | moved _ rows hadvance hfetch hgo hnext hinserted hsaved =>
          rw [ih, hnext]
          omega

theorem Walk.place {s u : LoopState ρ} {i k : Nat}
    (h : Walk chrono world batchSize fetchSql upper s k u)
    (hcursor : s.cursor = course chrono batchSize origin i) :
    u.cursor = course chrono batchSize origin (i + k) ∧
      ∀ j, i ≤ j → j < i + k → Passed chrono batchSize origin upper j := by
  induction h generalizing i with
  | stay s =>
      refine ⟨hcursor, fun j hle hlt => ?_⟩
      omega
  | @go s t u k hturn hrest ih =>
      cases hturn with
      | moved _ rows hadvance hfetch hgo hnext hinserted hsaved =>
          rw [hcursor] at hadvance
          have hplace := course_succ hadvance
          obtain ⟨hend, hpassed⟩ := ih hplace.symm
          rw [Nat.add_assoc, Nat.add_comm 1 k] at hend
          refine ⟨hend, fun j hle hlt => ?_⟩
          by_cases hj : j = i
          · rw [hj, Passed, hplace]
            exact ⟨hadvance, hgo⟩
          · exact hpassed j (by omega) (by omega)

theorem Walk.saved {s u : LoopState ρ} {i k : Nat}
    (h : Walk chrono world batchSize fetchSql upper s k u)
    (hcursor : s.cursor = course chrono batchSize origin i) :
    u.saved = s.saved ∨
      ∃ j, i ≤ j ∧ j < i + k ∧ u.saved = some (course chrono batchSize origin j) := by
  induction h generalizing i with
  | stay s => exact .inl rfl
  | @go s t u k hturn hrest ih =>
      cases hturn with
      | moved _ rows hadvance hfetch hgo hnext hinserted hsaved =>
          rw [hcursor] at hadvance
          rcases ih (course_succ hadvance).symm with hsame | ⟨j, hle, hlt, hj⟩
          · rw [hsame, hsaved]
            cases rows with
            | nil => exact .inl rfl
            | cons row rows => exact .inr ⟨i, le_rfl, by omega, by rw [← hcursor]; rfl⟩
          · exact .inr ⟨j, by omega, by omega, hj⟩

end Walk

/-! ## A chain as walks -/

structure Entered (s : LoopState ρ) (start : String) : Prop where
  turn : s.turn = 0
  cursor : s.cursor = start
  saved : s.saved = none
  inserted : insertedRows s.events = []

theorem entered_enterLoop (world : World ρ T) (path : EtlPath) (start : String) :
    Entered (enterLoop world path start) start where
  turn := rfl
  cursor := rfl
  saved := rfl
  inserted := by
    unfold enterLoop insertedRows
    cases path.truncateSql <;> rfl

/-- The walks of the runs that start at a cursor: how many places those that
were cut off went over, and the rows that were inserted. -/
inductive Walks [LinearOrder T] (chrono : Chrono T) (batchSize : UInt64)
    (fetchSql origin upper : String) (reads : World ρ T → Prop) :
    String → List Nat → List ρ → Prop
  | finished {start next : String} {world : World ρ T} {s₀ u : LoopState ρ} {k : Nat}
      {rows : List ρ} (hreads : reads world) (hentered : Entered s₀ start)
      (hwalk : Walk chrono world batchSize fetchSql upper s₀ k u)
      (hadvance : advanceCursor chrono u.cursor batchSize = some next)
      (hfetch : world.fetch u.turn fetchSql u.cursor next = .ok rows)
      (hbeyond : cursorGt chrono next upper = true) :
      Walks chrono batchSize fetchSql origin upper reads start []
        (insertedRows u.events ++ rows)
  | interrupted {start : String} {world : World ρ T} {s₀ s : LoopState ρ} {stop : Nat}
      {stops : List Nat} {rows : List ρ} (hreads : reads world) (hentered : Entered s₀ start)
      (hwalk : Walk chrono world batchSize fetchSql upper s₀ stop s)
      (hrest : Walks chrono batchSize fetchSql origin upper reads (s.saved.getD origin) stops
        rows) :
      Walks chrono batchSize fetchSql origin upper reads start (stop :: stops)
        (insertedRows s.events ++ rows)

section Walks

variable [LinearOrder T] {chrono : Chrono T} {batchSize : UInt64}
variable {fetchSql origin upper start : String} {reads : World ρ T → Prop}
variable {stops : List Nat} {rows : List ρ}

theorem Walks.exists_ends (h : Walks chrono batchSize fetchSql origin upper reads start stops rows)
    {i : Nat} (hstart : start = course chrono batchSize origin i)
    (hbefore : ∀ j < i, Passed chrono batchSize origin upper j) :
    ∃ last, Ends chrono batchSize origin upper last := by
  induction h generalizing i with
  | @finished start next world s₀ u k rows hreads hentered hwalk hadvance hfetch hbeyond =>
      obtain ⟨hcursor, hpassed⟩ := hwalk.place (hentered.cursor.trans hstart)
      rw [hcursor] at hadvance
      have hnext := course_succ hadvance
      refine ⟨i + k, ⟨fun j hj => ?_, ?_, ?_⟩⟩
      · by_cases hji : j < i
        · exact hbefore j hji
        · exact hpassed j (by omega) hj
      · rw [hnext]
        exact hadvance
      · rw [hnext]
        exact hbeyond
  | @interrupted start world s₀ s stop stops rows hreads hentered hwalk hrest ih =>
      have hplace := hentered.cursor.trans hstart
      obtain ⟨-, hpassed⟩ := hwalk.place hplace
      rcases hwalk.saved hplace with hsame | ⟨j, hle, hlt, hsaved⟩
      · refine @ih 0 ?_ (fun j hj => absurd hj (Nat.not_lt_zero j))
        rw [hsame, hentered.saved]
        rfl
      · refine @ih j ?_ (fun j' hj' => ?_)
        · rw [hsaved]
          rfl
        · by_cases hji : j' < i
          · exact hbefore j' hji
          · exact hpassed j' (by omega) (by omega)

/-! ## The instants of a course -/

/-- The instants of a course that ends, while time goes forward. -/
structure Schedule (chrono : Chrono T) (batchSize : UInt64) (origin upper : String) (top : T)
    (last : Nat) (inst : Nat → T) : Prop where
  ends : Ends chrono batchSize origin upper last
  parses : ∀ j ≤ last + 1, parseCursor chrono (course chrono batchSize origin j) = some (inst j)
  increases : ∀ j ≤ last, inst j < inst (j + 1)
  beyond : top < inst (last + 1)

/-- The source answers with the pages of the timeline, every window of the
course fits on one, and no row lies beyond `top`. -/
structure Reading (chrono : Chrono T) (fetchSql : String) (reads : World ρ T → Prop)
    (tl : Timeline ρ T) (limit : Nat) (top : T) (last : Nat) (inst : Nat → T) : Prop where
  select : ∀ world, reads world → ∀ turn lo hi a b rows, parseCursor chrono lo = some a →
    parseCursor chrono hi = some b → world.fetch turn fetchSql lo hi = .ok rows →
    tl.IsPage limit a b rows
  fits : ∀ j ≤ last, tl.Fits limit top (inst j) (inst (j + 1))
  top_le : ∀ r ∈ tl.rows, ∀ t, tl.time r = some t → t ≤ top

variable {top : T} {last : Nat} {inst : Nat → T} {tl : Timeline ρ T} {limit : Nat}
variable {world : World ρ T}

def busyAt (tl : Timeline ρ T) (inst : Nat → T) (j : Nat) : Bool :=
  decide (tl.window (inst j) (inst (j + 1))).Nonempty

theorem fetched_at (hschedule : Schedule chrono batchSize origin upper top last inst)
    (hreading : Reading chrono fetchSql reads tl limit top last inst) (hreads : reads world)
    {turn j : Nat} (hj : j ≤ last)
    (hfetch : world.fetch turn fetchSql (course chrono batchSize origin j)
      (course chrono batchSize origin (j + 1)) = .ok rows) :
    rows.Nodup ∧ ∀ r, r ∈ rows ↔ r ∈ tl.window (inst j) (inst (j + 1)) := by
  have hpage := hreading.select world hreads turn _ _ (inst j) (inst (j + 1)) rows
    (hschedule.parses j (by omega)) (hschedule.parses (j + 1) (by omega)) hfetch
  exact hpage.exact (hreading.fits j hj) hreading.top_le

theorem isEmpty_fetched_at (hschedule : Schedule chrono batchSize origin upper top last inst)
    (hreading : Reading chrono fetchSql reads tl limit top last inst) (hreads : reads world)
    {turn j : Nat} (hj : j ≤ last)
    (hfetch : world.fetch turn fetchSql (course chrono batchSize origin j)
      (course chrono batchSize origin (j + 1)) = .ok rows) :
    rows.isEmpty = !busyAt tl inst j := by
  obtain ⟨-, hmem⟩ := fetched_at hschedule hreading hreads hj hfetch
  have hbusy : busyAt tl inst j = true ↔ rows ≠ [] := by
    rw [busyAt, decide_eq_true_eq]
    constructor
    · rintro ⟨r, hr⟩
      exact List.ne_nil_of_mem ((hmem r).mpr hr)
    · intro hne
      obtain ⟨r, hr⟩ := List.exists_mem_of_ne_nil rows hne
      exact ⟨r, (hmem r).mp hr⟩
  cases rows with
  | nil =>
      have hfree : ¬ busyAt tl inst j = true := fun h => hbusy.mp h rfl
      simp [hfree]
  | cons row rows => simp [hbusy.mpr (List.cons_ne_nil row rows)]

theorem count_fetched_at [DecidableEq ρ]
    (hschedule : Schedule chrono batchSize origin upper top last inst)
    (hreading : Reading chrono fetchSql reads tl limit top last inst) (hreads : reads world)
    {turn j : Nat} (hj : j ≤ last)
    (hfetch : world.fetch turn fetchSql (course chrono batchSize origin j)
      (course chrono batchSize origin (j + 1)) = .ok rows) {r : ρ} {w : Nat}
    (hw : ∀ j ≤ last, r ∈ tl.window (inst j) (inst (j + 1)) ↔ j = w) :
    rows.count r = if j = w then 1 else 0 := by
  obtain ⟨hnodup, hmem⟩ := fetched_at hschedule hreading hreads hj hfetch
  have hin : r ∈ rows ↔ j = w := (hmem r).trans (hw j hj)
  by_cases hjw : j = w
  · rw [if_pos hjw, List.count_eq_one_of_mem hnodup (hin.mpr hjw)]
  · rw [if_neg hjw, List.count_eq_zero_of_not_mem fun h => hjw (hin.mp h)]

/-- A row of the window of place `w` only is inserted when the walk is there. -/
theorem Walk.count [DecidableEq ρ] (hschedule : Schedule chrono batchSize origin upper top last inst)
    (hreading : Reading chrono fetchSql reads tl limit top last inst) (hreads : reads world)
    {s u : LoopState ρ} {i k : Nat} (h : Walk chrono world batchSize fetchSql upper s k u)
    (hcursor : s.cursor = course chrono batchSize origin i) (hk : i + k ≤ last) {r : ρ} {w : Nat}
    (hw : ∀ j ≤ last, r ∈ tl.window (inst j) (inst (j + 1)) ↔ j = w) :
    (insertedRows u.events).count r =
      (insertedRows s.events).count r + if i ≤ w ∧ w < i + k then 1 else 0 := by
  induction h generalizing i with
  | stay s =>
      rw [if_neg (by omega)]
      rfl
  | @go s t u k hturn hrest ih =>
      cases hturn with
      | moved _ rows hadvance hfetch hgo hnext hinserted hsaved =>
          rw [hcursor] at hadvance hfetch
          have hplace := course_succ hadvance
          rw [← hplace] at hfetch
          have hrows := count_fetched_at hschedule hreading hreads (by omega) hfetch hw
          rw [ih hplace.symm (by omega), hinserted, List.count_append, hrows, Nat.add_assoc]
          congr 1
          split_ifs <;> omega

theorem Walk.saved_eq (hschedule : Schedule chrono batchSize origin upper top last inst)
    (hreading : Reading chrono fetchSql reads tl limit top last inst) (hreads : reads world)
    {s u : LoopState ρ} {i k : Nat} (h : Walk chrono world batchSize fetchSql upper s k u)
    (hcursor : s.cursor = course chrono batchSize origin i) (hk : i + k ≤ last) :
    u.saved = ((Resume.lastBusy (busyAt tl inst) i k).map (course chrono batchSize origin) <|>
      s.saved) := by
  induction h generalizing i with
  | stay s => rfl
  | @go s t u k hturn hrest ih =>
      cases hturn with
      | moved _ rows hadvance hfetch hgo hnext hinserted hsaved =>
          rw [hcursor] at hadvance hfetch
          have hplace := course_succ hadvance
          rw [← hplace] at hfetch
          have hempty := isEmpty_fetched_at hschedule hreading hreads (by omega) hfetch
          rw [ih hplace.symm (by omega), hsaved, hempty, Resume.lastBusy, hcursor]
          cases Resume.lastBusy (busyAt tl inst) (i + 1) k with
          | some b => rfl
          | none => cases busyAt tl inst i <;> rfl

theorem Walk.resume (hschedule : Schedule chrono batchSize origin upper top last inst)
    (hreading : Reading chrono fetchSql reads tl limit top last inst) (hreads : reads world)
    {s₀ s : LoopState ρ} {i k : Nat} (hentered : Entered s₀ (course chrono batchSize origin i))
    (h : Walk chrono world batchSize fetchSql upper s₀ k s) (hk : i + k ≤ last) :
    s.saved.getD origin =
      course chrono batchSize origin (Resume.resumeAt (busyAt tl inst) i k) := by
  rw [h.saved_eq hschedule hreading hreads hentered.cursor hk, hentered.saved, Resume.resumeAt]
  cases Resume.lastBusy (busyAt tl inst) i k <;> rfl

theorem Walks.within (hschedule : Schedule chrono batchSize origin upper top last inst)
    (hreading : Reading chrono fetchSql reads tl limit top last inst)
    (h : Walks chrono batchSize fetchSql origin upper reads start stops rows) {i : Nat}
    (hstart : start = course chrono batchSize origin i)
    (hbefore : ∀ j < i, Passed chrono batchSize origin upper j) :
    Resume.Within (busyAt tl inst) last i stops := by
  induction h generalizing i with
  | finished => exact hschedule.ends.le_of_passed hbefore
  | @interrupted start world s₀ s stop stops rows hreads hentered hwalk hrest ih =>
      subst hstart
      obtain ⟨-, hpassed⟩ := hwalk.place hentered.cursor
      have hall : ∀ j < i + stop, Passed chrono batchSize origin upper j := by
        intro j hj
        by_cases hji : j < i
        · exact hbefore j hji
        · exact hpassed j (by omega) hj
      have hk := hschedule.ends.le_of_passed hall
      have hnext := hwalk.resume hschedule hreading hreads hentered hk
      have hle := Resume.resumeAt_le (busyAt tl inst) i stop
      exact ⟨hk, ih hnext fun j hj => hall j (by omega)⟩

/-- A row of the window of place `w` only is inserted once for each run that
comes to the place. -/
theorem Walks.count [DecidableEq ρ] (hschedule : Schedule chrono batchSize origin upper top last inst)
    (hreading : Reading chrono fetchSql reads tl limit top last inst)
    (h : Walks chrono batchSize fetchSql origin upper reads start stops rows) {i : Nat}
    (hstart : start = course chrono batchSize origin i)
    (hwithin : Resume.Within (busyAt tl inst) last i stops) {r : ρ} {w : Nat}
    (hw : ∀ j ≤ last, r ∈ tl.window (inst j) (inst (j + 1)) ↔ j = w) :
    rows.count r = Resume.visits (busyAt tl inst) last w i stops := by
  induction h generalizing i with
  | @finished start next world s₀ u k rows hreads hentered hwalk hadvance hfetch hbeyond =>
      subst hstart
      obtain ⟨hcursor, hpassed⟩ := hwalk.place hentered.cursor
      rw [hcursor] at hadvance hfetch
      have hnext := course_succ hadvance
      rw [← hnext] at hfetch hbeyond
      have hend : i + k = last := by
        rcases Nat.lt_trichotomy (i + k) last with hlt | heq | hgt
        · have hgo := (hschedule.ends.passed (i + k) hlt).2
          rw [hbeyond] at hgo
          cases hgo
        · exact heq
        · have hgo := (hpassed last hwithin (by omega)).2
          rw [hschedule.ends.beyond] at hgo
          cases hgo
      have hrows := count_fetched_at hschedule hreading hreads (by omega) hfetch hw
      rw [List.count_append, hrows,
        hwalk.count hschedule hreading hreads hentered.cursor (by omega) hw, hentered.inserted,
        List.count_nil, Resume.visits]
      split_ifs <;> omega
  | @interrupted start world s₀ s stop stops rows hreads hentered hwalk hrest ih =>
      subst hstart
      obtain ⟨hk, hlater⟩ := hwithin
      have hnext := hwalk.resume hschedule hreading hreads hentered hk
      rw [List.count_append, ih hnext hlater,
        hwalk.count hschedule hreading hreads hentered.cursor hk hw, hentered.inserted,
        List.count_nil, Nat.zero_add, Resume.visits]

end Walks

/-! ## The runs of a chain -/

section Runs

variable [LinearOrder T] {chrono : Chrono T} {setup : Setup} {cfg : DataSyncTaskConfig}
variable {srcConn tgtConn : ConnectionRow} {src : SourceKind} {tgt : DbType}
variable {source : Source ρ} {lo upper : String}

/-- The databases of every run of the chain, with MIN `lo` and MAX `upper`. -/
def ServesTask (chrono : Chrono T) (setup : Setup) (cfg : DataSyncTaskConfig)
    (srcConn tgtConn : ConnectionRow) (src : SourceKind) (tgt : DbType) (source : Source ρ)
    (probe : Option String × Option String) (world : World ρ T) : Prop :=
  Serves chrono world (pathFor (loopCtx setup cfg srcConn tgtConn) src tgt) (rowLimit cfg) source
    probe

def startText (cfg : DataSyncTaskConfig) (lo : String) (latest : Option RunRow) : String :=
  (findResumableCursor latest).getD (cfg.batching.start.getD lo)

omit [LinearOrder T] in
theorem loaded_afterRun (hloaded : Loaded chrono setup cfg srcConn tgtConn src tgt)
    (latest : Option RunRow) : Loaded chrono (afterRun setup latest) cfg srcConn tgtConn src tgt :=
  { hloaded with }

theorem runTaskInner_eq_turns (hloaded : Loaded chrono setup cfg srcConn tgtConn src tgt)
    {world : World ρ T}
    (hserves : ServesTask chrono setup cfg srcConn tgtConn src tgt source (some lo, some upper)
      world) (latest : Option RunRow) :
    ∃ ctx path, ctx.batchSize = (loopCtx setup cfg srcConn tgtConn).batchSize ∧
      path.fetchSql = (pathFor (loopCtx setup cfg srcConn tgtConn) src tgt).fetchSql ∧
      ∀ n, runTaskInner chrono (afterRun setup latest) world n =
        turns chrono world ctx path upper n
          (enterLoop world path (startText cfg lo latest)) := by
  refine ⟨loopCtx (afterRun setup latest) cfg srcConn tgtConn,
    pathFor (loopCtx (afterRun setup latest) cfg srcConn tgtConn) src tgt, rfl,
    by cases src <;> cases tgt <;> rfl, fun n => ?_⟩
  have hprobe : world.probe
      (pathFor (loopCtx (afterRun setup latest) cfg srcConn tgtConn) src tgt).probeSql =
        some (some lo, some upper) := by
    rw [← hserves.probes]
    cases src <;> cases tgt <;> rfl
  have hresume : (loopCtx (afterRun setup latest) cfg srcConn tgtConn).resumeCursor =
      findResumableCursor latest := rfl
  have hstart : ((findResumableCursor latest <|> cfg.batching.start).getD lo) =
      startText cfg lo latest := by
    rw [startText]
    cases findResumableCursor latest <;> rfl
  rw [runTaskInner_eq_etl (loaded_afterRun hloaded latest)]
  simp only [etl, resolveWindow, hprobe, hresume, Option.getD_some]
  exact congrArg (fun start => turns chrono world _ _ upper n (enterLoop world _ start)) hstart

theorem walk_of_interrupted (hloaded : Loaded chrono setup cfg srcConn tgtConn src tgt)
    {leg : Leg ρ T} {latest : Option RunRow} {s : LoopState ρ} {exit : Option Exit}
    (hserves : ServesTask chrono setup cfg srcConn tgtConn src tgt source (some lo, some upper)
      leg.world)
    (hrun : leg.run chrono setup latest = (s, exit))
    (hinterrupted : Interrupted leg exit) :
    ∃ s₀, Entered s₀ (startText cfg lo latest) ∧
      Walk chrono leg.world (loopCtx setup cfg srcConn tgtConn).batchSize
        (pathFor (loopCtx setup cfg srcConn tgtConn) src tgt).fetchSql upper s₀ leg.stop s := by
  obtain ⟨ctx, path, hbatch, hfetch, heq⟩ := runTaskInner_eq_turns hloaded hserves latest
  rw [Leg.run, heq] at hrun
  rw [← hbatch, ← hfetch]
  refine ⟨_, entered_enterLoop leg.world path _, ?_⟩
  obtain ⟨k, u, hwalk, hend⟩ := turns_walk chrono ctx path upper hserves.inserts hserves.saves leg.turns
    (enterLoop leg.world path (startText cfg lo latest))
  rw [hrun] at hend
  unfold Interrupted at hinterrupted
  unfold Leg.turns at hend
  cases hcanceled : leg.canceled with
  | false =>
      rw [hcanceled, if_neg Bool.false_ne_true] at hinterrupted hend
      rcases hend with ⟨hsame, hk⟩ | ⟨-, t, e, hexit, -⟩
      · cases hsame
        rw [← hk]
        exact hwalk
      · rw [hinterrupted] at hexit
        cases hexit
  | true =>
      rw [hcanceled, if_pos rfl] at hinterrupted hend
      obtain ⟨hpolls, processed, failed, hexit⟩ := hinterrupted
      rcases hend with ⟨hsame, -⟩ | ⟨hk, t, e, hstop, hturn⟩
      · rw [hexit] at hsame
        cases hsame
      · rw [hexit] at hstop
        cases hstop
        cases hturn with
        | canceled _ _ hcancel =>
            have hat : s.turn = k := by
              rw [hwalk.turn]
              exact Nat.zero_add k
            have hle : leg.stop ≤ k := by
              by_contra hlt
              rw [hat, hpolls k (by omega)] at hcancel
              cases hcancel
            have hsame : k = leg.stop := by omega
            rw [← hsame]
            exact hwalk
        | failed _ _ hok => exact absurd rfl (hok _)

theorem walk_of_finished (hloaded : Loaded chrono setup cfg srcConn tgtConn src tgt)
    {world : World ρ T} {latest : Option RunRow} {n processed failed : Nat} {s : LoopState ρ}
    (hserves : ServesTask chrono setup cfg srcConn tgtConn src tgt source (some lo, some upper)
      world)
    (hrun : runTaskInner chrono (afterRun setup latest) world n =
      (s, some (.ok ⟨processed, failed, false⟩))) :
    ∃ s₀ k u next rows, Entered s₀ (startText cfg lo latest) ∧
      Walk chrono world (loopCtx setup cfg srcConn tgtConn).batchSize
        (pathFor (loopCtx setup cfg srcConn tgtConn) src tgt).fetchSql upper s₀ k u ∧
      advanceCursor chrono u.cursor (loopCtx setup cfg srcConn tgtConn).batchSize = some next ∧
      world.fetch u.turn (pathFor (loopCtx setup cfg srcConn tgtConn) src tgt).fetchSql
        u.cursor next = .ok rows ∧
      cursorGt chrono next upper = true ∧
      insertedRows s.events = insertedRows u.events ++ rows := by
  obtain ⟨ctx, path, hbatch, hfetch, heq⟩ := runTaskInner_eq_turns hloaded hserves latest
  rw [heq] at hrun
  rw [← hbatch, ← hfetch]
  obtain ⟨k, u, hwalk, hend⟩ := turns_walk chrono ctx path upper hserves.inserts hserves.saves n
    (enterLoop world path (startText cfg lo latest))
  rw [hrun] at hend
  rcases hend with ⟨hsame, -⟩ | ⟨-, t, e, hstop, hturn⟩
  · cases hsame
  · cases hstop
    cases hturn with
    | failed _ _ hok => exact absurd rfl (hok _)
    | finished _ next rows _ _ hadvance hrows hbeyond hinserted =>
        exact ⟨_, k, u, next, rows, entered_enterLoop world path _, hwalk, hadvance, hrows,
          hbeyond, hinserted⟩

omit [LinearOrder T] in
theorem startText_runRow {leg : Leg ρ T} {s : LoopState ρ} {exit : Option Exit}
    (hinterrupted : Interrupted leg exit) :
    startText cfg lo (some (runRow (s, exit))) =
      s.saved.getD (cfg.batching.start.getD lo) := by
  have hlabel : statusLabel exit ≠ "succeeded" := by
    unfold Interrupted at hinterrupted
    split at hinterrupted
    · obtain ⟨-, processed, failed, hexit⟩ := hinterrupted
      rw [hexit]
      show "canceled" ≠ "succeeded"
      decide
    · rw [hinterrupted]
      decide
  unfold startText runRow findResumableCursor
  cases s.saved with
  | none => rfl
  | some cursor => simp [hlabel]

/-- The runs of a task are walks on one course. -/
theorem walks_of_taskRuns (hloaded : Loaded chrono setup cfg srcConn tgtConn src tgt)
    {latest : Option RunRow} {legs : List (Leg ρ T)} {events : List (TargetEvent ρ)}
    (h : TaskRuns chrono setup
      (ServesTask chrono setup cfg srcConn tgtConn src tgt source (some lo, some upper))
      latest legs events) :
    Walks chrono (loopCtx setup cfg srcConn tgtConn).batchSize
      (pathFor (loopCtx setup cfg srcConn tgtConn) src tgt).fetchSql
      (cfg.batching.start.getD lo) upper
      (ServesTask chrono setup cfg srcConn tgtConn src tgt source (some lo, some upper))
      (startText cfg lo latest) (legs.map (·.stop)) (insertedRows events) := by
  induction h with
  | finished hserves hrun =>
      obtain ⟨s₀, k, u, next, rows, hentered, hwalk, hadvance, hfetch, hbeyond, hinserted⟩ :=
        walk_of_finished hloaded hserves hrun
      rw [hinserted]
      exact .finished hserves hentered hwalk hadvance hfetch hbeyond
  | interrupted hserves hrun hinterrupted hrest ih =>
      obtain ⟨s₀, hentered, hwalk⟩ := walk_of_interrupted hloaded hserves hrun hinterrupted
      rw [startText_runRow hinterrupted] at ih
      rw [insertedRows_append]
      exact .interrupted hserves hentered hwalk ih

end Runs

/-! ## The schedule of a chain -/

section Schedule

variable [LinearOrder T] {chrono : Chrono T} {ctx : LoopCtx} {origin upper : String}
variable {start top : T} {last : Nat}

/-- The instant `n` windows after `start`. -/
def windowsAfter (chrono : Chrono T) (ctx : LoopCtx) (start : T) : Nat → Option T
  | 0 => some start
  | n + 1 => (windowsAfter chrono ctx start n).bind (move chrono ctx)

theorem exists_instants (hlaw : chrono.Lawful) (hdigit : DigitFirst upper)
    (horigin : parseCursor chrono origin = some start)
    (hends : Ends chrono ctx.batchSize origin upper last) :
    ∃ inst : Nat → T, inst 0 = start ∧
      (∀ j ≤ last + 1, parseCursor chrono (course chrono ctx.batchSize origin j) =
        some (inst j)) ∧
      ∀ j ≤ last, move chrono ctx (inst j) = some (inst (j + 1)) := by
  have hparses : ∀ j ≤ last + 1, parseCursor chrono (course chrono ctx.batchSize origin j) =
      some ((parseCursor chrono (course chrono ctx.batchSize origin j)).getD start) := by
    intro j hj
    obtain ⟨t, ht⟩ := hends.parses hlaw hdigit ⟨start, horigin⟩ hj
    rw [ht]
    rfl
  refine ⟨fun j => (parseCursor chrono (course chrono ctx.batchSize origin j)).getD start, ?_,
    hparses, fun j hj => ?_⟩
  · show (parseCursor chrono origin).getD start = start
    rw [horigin]
    rfl
  · obtain ⟨hi, hmove, hprint⟩ :=
      advanceCursor_eq_some (hparses j (by omega)) (hends.advance hj)
    have hnext := hparses (j + 1) (by omega)
    refine hmove.trans (Eq.trans ?_ hnext)
    rcases hlaw.prints hi with hback | ⟨hnone, -⟩
    · rw [← hprint, parseCursor_of_rfc3339 hback]
    · rw [hprint] at hnone
      rw [hnone] at hnext
      cases hnext

theorem exists_schedule (hlaw : chrono.Lawful) (hdigit : DigitFirst upper)
    (hupper : parseCursor chrono upper = some top)
    (horigin : parseCursor chrono origin = some start) (hle : start ≤ top)
    (hends : Ends chrono ctx.batchSize origin upper last) :
    ∃ inst : Nat → T, inst 0 = start ∧
      Schedule chrono ctx.batchSize origin upper top last inst ∧
      ∀ j ≤ last, move chrono ctx (inst j) = some (inst (j + 1)) := by
  obtain ⟨inst, hzero, hparses, hmoves⟩ := exists_instants hlaw hdigit horigin hends
  have hbeyond : top < inst (last + 1) :=
    (cursorGt_of_parse (hparses (last + 1) le_rfl) hupper).mp hends.beyond
  have hforward : 0 < coverageSecs ctx.batchSize := by
    rcases Int.lt_or_gt_of_ne (coverageSecs_ne_zero ctx.batchSize) with hneg | hpos
    · have hdown : ∀ j ≤ last + 1, inst j ≤ start := by
        intro j hj
        induction j with
        | zero => exact le_of_eq hzero
        | succ j ih =>
            exact le_trans (le_of_lt (hlaw.earlier _ _ _ hneg (hmoves j (by omega))))
              (ih (by omega))
      exact absurd (lt_of_lt_of_le hbeyond (le_trans (hdown (last + 1) le_rfl) hle))
        (lt_irrefl _)
    · exact hpos
  exact ⟨inst, hzero,
    ⟨hends, hparses, fun j hj => hlaw.later _ _ _ hforward (hmoves j hj), hbeyond⟩, hmoves⟩

omit [LinearOrder T] in
theorem windowsAfter_eq {inst : Nat → T} (hzero : inst 0 = start)
    (hmoves : ∀ j ≤ last, move chrono ctx (inst j) = some (inst (j + 1))) {n : Nat}
    (hn : n ≤ last + 1) : windowsAfter chrono ctx start n = some (inst n) := by
  induction n with
  | zero => rw [windowsAfter, hzero]
  | succ n ih =>
      rw [windowsAfter, ih (by omega)]
      exact hmoves n (by omega)

variable {batchSize : UInt64} {inst : Nat → T}

theorem Schedule.le (h : Schedule chrono batchSize origin upper top last inst) {i j : Nat}
    (hij : i ≤ j) (hj : j ≤ last + 1) : inst i ≤ inst j := by
  induction j with
  | zero =>
      obtain rfl : i = 0 := by omega
      exact le_rfl
  | succ j ih =>
      rcases Nat.lt_or_eq_of_le hij with hlt | heq
      · exact le_trans (ih (by omega) (by omega)) (le_of_lt (h.increases j (by omega)))
      · exact le_of_eq (congrArg inst heq)

theorem Schedule.exists_place (h : Schedule chrono batchSize origin upper top last inst) {t : T}
    (hstart : inst 0 ≤ t) (htop : t ≤ top) :
    ∃ w ≤ last, ∀ j ≤ last, (inst j ≤ t ∧ t < inst (j + 1)) ↔ j = w := by
  have hex : ∀ n, n ≤ last + 1 → t < inst n → ∃ w < n, inst w ≤ t ∧ t < inst (w + 1) := by
    intro n
    induction n with
    | zero => exact fun _ hlt => absurd hstart (not_le_of_gt hlt)
    | succ n ih =>
        intro hn hlt
        by_cases hle : inst n ≤ t
        · exact ⟨n, by omega, hle, hlt⟩
        · obtain ⟨w, hw, hin⟩ := ih (by omega) (lt_of_not_ge hle)
          exact ⟨w, by omega, hin⟩
  obtain ⟨w, hw, hlo, hhi⟩ := hex (last + 1) le_rfl (lt_of_le_of_lt htop h.beyond)
  refine ⟨w, by omega, fun j hj => ⟨fun hin => ?_, fun heq => ?_⟩⟩
  · rcases Nat.lt_trichotomy j w with hlt | heq | hgt
    · exact absurd (lt_of_lt_of_le hin.2 (h.le hlt (by omega))) (not_lt_of_ge hlo)
    · exact heq
    · exact absurd (lt_of_lt_of_le hhi (h.le hgt (by omega))) (not_lt_of_ge hin.1)
  · rw [heq]
    exact ⟨hlo, hhi⟩

theorem reading_of_fits {fetchSql : String} {reads : World ρ T → Prop} {tl : Timeline ρ T}
    {limit : Nat} (hschedule : Schedule chrono ctx.batchSize origin upper top last inst)
    (hupper : parseCursor chrono upper = some top) (hle : inst 0 ≤ top)
    (hmoves : ∀ j ≤ last, move chrono ctx (inst j) = some (inst (j + 1)))
    (hfits : EveryWindowFits tl limit (move chrono ctx) top (inst 0))
    (hselect : ∀ world, reads world → ∀ turn lo hi a b rows, parseCursor chrono lo = some a →
      parseCursor chrono hi = some b → world.fetch turn fetchSql lo hi = .ok rows →
      tl.IsPage limit a b rows)
    (htop : ∀ r ∈ tl.rows, ∀ t, tl.time r = some t → t ≤ top) :
    Reading chrono fetchSql reads tl limit top last inst where
  select := hselect
  top_le := htop
  fits := by
    intro j hj
    have hleads : ∀ j ≤ last, Leads (move chrono ctx) (inst 0) (inst j) := by
      intro j hj
      induction j with
      | zero => exact .refl
      | succ j ih => exact .tail (ih (by omega)) (hmoves j (by omega))
    refine hfits (inst j) (inst (j + 1)) (hleads j hj) (hmoves j hj) ?_
    cases j with
    | zero => exact hle
    | succ j =>
        have hgo := (hschedule.ends.passed j (by omega)).2
        rw [← Bool.not_eq_true,
          cursorGt_of_parse (hschedule.parses (j + 1) (by omega)) hupper] at hgo
        exact le_of_not_gt hgo

end Schedule

/-! ## Rows inserted once -/

section Once

variable [LinearOrder T] [DecidableEq ρ] {chrono : Chrono T} {setup : Setup}
variable {cfg : DataSyncTaskConfig} {srcConn tgtConn : ConnectionRow} {src : SourceKind}
variable {tgt : DbType} {source : Source ρ} {probe : Option String × Option String}
variable {start top : T}

omit [DecidableEq ρ] in
theorem exists_serves {serves : World ρ T → Prop} {latest : Option RunRow} {legs : List (Leg ρ T)}
    {events : List (TargetEvent ρ)} (h : TaskRuns chrono setup serves latest legs events) :
    ∃ world, serves world := by
  cases h with
  | finished hserves _ => exact ⟨_, hserves⟩
  | interrupted hserves _ _ _ => exact ⟨_, hserves⟩

omit [DecidableEq ρ] in
theorem exists_window {tl : Timeline ρ T} {batchSize : UInt64} {origin upper : String} {last : Nat}
    {inst : Nat → T} (hschedule : Schedule chrono batchSize origin upper top last inst)
    (htop : ∀ r ∈ tl.rows, ∀ t, tl.time r = some t → t ≤ top) {r : ρ} (hr : r ∈ tl.rows) {t : T}
    (ht : tl.time r = some t) (hle : inst 0 ≤ t) :
    ∃ w ≤ last, (inst w ≤ t ∧ t < inst (w + 1)) ∧
      ∀ j ≤ last, r ∈ tl.window (inst j) (inst (j + 1)) ↔ j = w := by
  obtain ⟨w, hw, hplace⟩ := hschedule.exists_place hle (htop r hr t ht)
  refine ⟨w, hw, (hplace w hw).mpr rfl, fun j hj => ?_⟩
  rw [← hplace j hj, Timeline.mem_window]
  constructor
  · rintro ⟨-, t', ht', hin⟩
    rw [ht, Option.some.injEq] at ht'
    rw [ht']
    exact hin
  · exact fun hin => ⟨hr, t, ht, hin⟩

omit [DecidableEq ρ] in
theorem taskRuns_finished {serves : World ρ T → Prop} {latest : Option RunRow} {world : World ρ T}
    {n processed failed : Nat} (hserves : serves world)
    (hrun : (runTaskInner chrono (afterRun setup latest) world n).2 =
      some (.ok ⟨processed, failed, false⟩)) :
    TaskRuns chrono setup serves latest []
      (runTaskInner chrono (afterRun setup latest) world n).1.events :=
  .finished hserves (Prod.ext rfl hrun)

omit [DecidableEq ρ] in
theorem taskRuns_interrupted {serves : World ρ T → Prop} {latest : Option RunRow} {leg : Leg ρ T}
    {legs : List (Leg ρ T)} {events : List (TargetEvent ρ)} (hserves : serves leg.world)
    (hinterrupted : Interrupted leg (leg.run chrono setup latest).2)
    (hrest : TaskRuns chrono setup serves (some (runRow (leg.run chrono setup latest))) legs
      events) :
    TaskRuns chrono setup serves latest (leg :: legs)
      ((leg.run chrono setup latest).1.events ++ events) :=
  .interrupted hserves rfl hinterrupted hrest

/-- Every row from `start` on was inserted by the chain, and only once. -/
def InsertedOnce (chrono : Chrono T) (source : Source ρ) (start : T)
    (events : List (TargetEvent ρ)) : Prop :=
  ∀ r ∈ source.rows, ∀ t, (source.timeline chrono).time r = some t → start ≤ t →
    (insertedRows events).count r = 1

def CutBeforeRows (chrono : Chrono T) (ctx : LoopCtx) (source : Source ρ) (start : T)
    (leg : Leg ρ T) : Prop :=
  ∀ r ∈ source.rows, ∀ t, (source.timeline chrono).time r = some t → start ≤ t →
    ∀ reached, windowsAfter chrono ctx start leg.stop = some reached → reached ≤ t

omit [DecidableEq ρ] in
theorem busy_of_mem {tl : Timeline ρ T} {inst : Nat → T} {r : ρ} {w : Nat}
    (hr : r ∈ tl.window (inst w) (inst (w + 1))) : busyAt tl inst w = true :=
  decide_eq_true ⟨_, hr⟩

omit [DecidableEq ρ] in
theorem exists_row_of_busy {batchSize : UInt64} {origin upper : String} {last : Nat}
    {inst : Nat → T} (hschedule : Schedule chrono batchSize origin upper top last inst) {w : Nat}
    (hw : w ≤ last) (hbusy : busyAt (source.timeline chrono) inst w = true) :
    ∃ r ∈ source.rows, ∃ t, (source.timeline chrono).time r = some t ∧
      (inst 0 ≤ t ∧ t < inst (w + 1)) ∧
        r ∈ (source.timeline chrono).window (inst w) (inst (w + 1)) := by
  obtain ⟨r, hr⟩ := of_decide_eq_true hbusy
  obtain ⟨hrow, t, ht, hlo, hhi⟩ := Timeline.mem_window.mp hr
  have hstart := le_trans (hschedule.le (Nat.zero_le w) (by omega)) hlo
  exact ⟨r, hrow, t, ht, ⟨hstart, hhi⟩, hr⟩

/-- The rows are inserted once when their places are visited once. -/
theorem insertedOnce_iff_visits {batchSize : UInt64} {origin upper : String} {last : Nat}
    {inst : Nat → T} (hschedule : Schedule chrono batchSize origin upper top last inst)
    (htop : ∀ r ∈ (source.timeline chrono).rows, ∀ t,
      (source.timeline chrono).time r = some t → t ≤ top)
    {events : List (TargetEvent ρ)} {visits : Nat → Nat}
    (hcount : ∀ r w, (∀ j ≤ last,
      r ∈ (source.timeline chrono).window (inst j) (inst (j + 1)) ↔ j = w) →
        (insertedRows events).count r = visits w) :
    InsertedOnce chrono source (inst 0) events ↔
      ∀ w ≤ last, busyAt (source.timeline chrono) inst w = true → visits w = 1 := by
  constructor
  · intro hinserted w hw hbusy
    obtain ⟨r, hrow, t, ht, ⟨hstart, -⟩, hr⟩ := exists_row_of_busy hschedule hw hbusy
    obtain ⟨w', -, -, hplace⟩ := exists_window hschedule htop hrow ht hstart
    obtain rfl := (hplace w hw).mp hr
    rw [← hcount r w hplace]
    exact hinserted r hrow t ht hstart
  · intro hvisits r hrow t ht hstart
    obtain ⟨w, hw, -, hplace⟩ := exists_window hschedule htop hrow ht hstart
    rw [hcount r w hplace]
    exact hvisits w hw (busy_of_mem ((hplace w hw).mpr rfl))

omit [DecidableEq ρ] in
theorem quiet_iff_cutBeforeRows {ctx : LoopCtx} {batchSize : UInt64} {origin upper : String}
    {last : Nat} {inst : Nat → T}
    (hschedule : Schedule chrono batchSize origin upper top last inst)
    (htop : ∀ r ∈ (source.timeline chrono).rows, ∀ t,
      (source.timeline chrono).time r = some t → t ≤ top)
    {leg : Leg ρ T} (hstop : leg.stop ≤ last)
    (hreached : windowsAfter chrono ctx (inst 0) leg.stop = some (inst leg.stop)) :
    (∀ w < leg.stop, busyAt (source.timeline chrono) inst w = false) ↔
      CutBeforeRows chrono ctx source (inst 0) leg := by
  constructor
  · intro hquiet r hrow t ht hstart reached hafter
    obtain rfl : inst leg.stop = reached := Option.some.inj (hreached.symm.trans hafter)
    obtain ⟨w, hw, hin, hplace⟩ := exists_window hschedule htop hrow ht hstart
    by_contra hlt
    have hbefore : w < leg.stop := by
      by_contra hge
      exact hlt (le_trans (hschedule.le (by omega) (by omega)) hin.1)
    have hfree := hquiet w hbefore
    rw [busy_of_mem ((hplace w hw).mpr rfl)] at hfree
    cases hfree
  · intro hcut w hw
    rw [← Bool.not_eq_true]
    intro hbusy
    obtain ⟨r, hrow, t, ht, ⟨hstart, hhi⟩, -⟩ :=
      exists_row_of_busy hschedule (by omega) hbusy
    have hpast := hcut r hrow t ht hstart (inst leg.stop) hreached
    exact absurd (lt_of_lt_of_le hhi (hschedule.le hw (by omega))) (not_lt_of_ge hpast)

/-- A chain of runs in which all but the last are cut off inserts every row
exactly once if and only if those were cut off before the first window with rows. -/
theorem insertedOnce_iff (hlaw : chrono.Lawful)
    (hloaded : Loaded chrono setup cfg srcConn tgtConn src tgt) {latest : Option RunRow}
    (hfresh : findResumableCursor latest = none)
    (hwindow : FreshWindow chrono cfg source probe start top)
    (hfits : EveryWindowFits (source.timeline chrono) (rowLimit cfg)
      (move chrono (loopCtx setup cfg srcConn tgtConn)) top start)
    {legs : List (Leg ρ T)} {events : List (TargetEvent ρ)}
    (hruns : TaskRuns chrono setup
      (ServesTask chrono setup cfg srcConn tgtConn src tgt source probe) latest legs events) :
    InsertedOnce chrono source start events ↔
      ∀ leg ∈ legs,
        CutBeforeRows chrono (loopCtx setup cfg srcConn tgtConn) source start leg := by
  by_cases hrow : ∃ r ∈ source.rows, ∃ t, (source.timeline chrono).time r = some t ∧ start ≤ t
  · obtain ⟨r₀, hr₀, t₀, ht₀, hle₀⟩ := hrow
    obtain ⟨hmin, hmax, htop₀⟩ := hwindow.probed r₀ hr₀ t₀ ht₀
    obtain ⟨lo, hlo⟩ := Option.isSome_iff_exists.mp hmin
    obtain ⟨upper, hupper⟩ := Option.isSome_iff_exists.mp hmax
    obtain rfl : probe = (some lo, some upper) := Prod.ext hlo hupper
    obtain ⟨world, hserves⟩ := exists_serves hruns
    obtain ⟨hdigit, -⟩ := hserves.answers.max_parses _ upper hserves.probes rfl
    have hparse := hwindow.tops upper rfl
    have horigin : parseCursor chrono (cfg.batching.start.getD lo) = some start :=
      hwindow.starts _ (by cases cfg.batching.start <;> rfl)
    have htext : startText cfg lo latest =
        course chrono (loopCtx setup cfg srcConn tgtConn).batchSize
          (cfg.batching.start.getD lo) 0 := by
      rw [startText, hfresh]
      rfl
    have hle : start ≤ top := le_trans hle₀ htop₀
    have hwalks := walks_of_taskRuns hloaded hruns
    have hnone : ∀ j < 0, Passed chrono (loopCtx setup cfg srcConn tgtConn).batchSize
        (cfg.batching.start.getD lo) upper j := fun j hj => absurd hj (Nat.not_lt_zero j)
    obtain ⟨last, hends⟩ := hwalks.exists_ends htext hnone
    obtain ⟨inst, rfl, hschedule, hmoves⟩ :=
      exists_schedule hlaw hdigit hparse horigin hle hends
    have htop : ∀ r ∈ (source.timeline chrono).rows, ∀ t,
        (source.timeline chrono).time r = some t → t ≤ top :=
      fun r hr t ht => (hwindow.probed r hr t ht).2.2
    have hreading := reading_of_fits hschedule hparse hle hmoves hfits
      (fun w (hw : ServesTask chrono setup cfg srcConn tgtConn src tgt source
        (some lo, some upper) w) => hw.answers.select) htop
    have hwithin := hwalks.within hschedule hreading htext hnone
    rw [insertedOnce_iff_visits hschedule htop fun r w hplace =>
        hwalks.count hschedule hreading htext hwithin hplace,
      Resume.visits_once_iff hwithin, List.forall_mem_map]
    refine forall₂_congr fun leg hleg => ?_
    have hstop : leg.stop ≤ last :=
      Resume.le_of_within hwithin leg.stop (List.mem_map_of_mem hleg)
    exact quiet_iff_cutBeforeRows hschedule htop hstop
      (windowsAfter_eq rfl hmoves (by omega))
  · have hnone : ∀ r ∈ source.rows, ∀ t, (source.timeline chrono).time r = some t →
        ¬ start ≤ t := fun r hr t ht hle => hrow ⟨r, hr, t, ht, hle⟩
    constructor
    · intro _ leg _ r hr t ht hle
      exact absurd hle (hnone r hr t ht)
    · intro _ r hr t ht hle
      exact absurd hle (hnone r hr t ht)

end Once

/-! ## Two orders, one canceled run -/

def byMinute : DataSyncTaskConfig where
  source := { database := none, table := "orders" }
  target := { database := none, table := "orders_copy" }
  joinTables := []
  columnMapping := { columns := [{ source := "main.id", target := "id" }], constants := [] }
  batching :=
    { timeField := "created_at", batchSize := some 60, start := none, batchRetries := none }
  targetStrategy := .append
  schedule := none

def minuteSetup : Setup where
  config := .ok byMinute
  connections := .ok (⟨"mysql", some "shop"⟩, ⟨"mysql", some "archive"⟩)
  pools := .ok ()
  defaultBatchSize := 1000
  latestRun := .ok none

def minuteOrders : Source Nat where
  rows := {1, 2}
  timeText r := some (if r = 1 then "2026-01-01 00:00:00" else "2026-01-01 00:01:30")

def minuteTime (r : Nat) : Int := if r = 1 then newYear else newYear + 90

def minuteProbe : Option String × Option String :=
  (some "2026-01-01 00:00:00", some "2026-01-01 00:01:30")

def minuteWorld (cancelAt : Option Nat) : World Nat Int where
  nowMin := newYear
  nowMax := newYear
  probe _ := some minuteProbe
  cancelRequested turn := some (cancelAt = some turn)
  fetch _ _ lo hi :=
    match parseCursor civil lo, parseCursor civil hi with
    | some a, some b => .ok ([1, 2].filter fun r => a ≤ minuteTime r ∧ minuteTime r < b)
    | _, _ => .ok []
  truncates := true
  insert _ _ rows := some rows.length
  savesProgress _ := true

/-- The run is canceled after its first batch. -/
def firstMinute : Leg Nat Int := ⟨minuteWorld (some 1), 1, true⟩

theorem minuteSetup_loaded :
    Loaded civil minuteSetup byMinute ⟨"mysql", some "shop"⟩ ⟨"mysql", some "archive"⟩
      .mySql .mySql where
  config := rfl
  valid := by decide
  connections := rfl
  source := by decide
  target := by decide
  pools := rfl

theorem minuteOrders_time (r : Nat) :
    (minuteOrders.timeline civil).time r = some (minuteTime r) := by
  show parseCursor civil (if r = 1 then _ else _) = some (if r = 1 then _ else _)
  split
  · exact twoOrders_parses
  · show _ = some (1767225690 : Int)
    decide

theorem minuteOrders_le (r : Nat) : minuteTime r ≤ newYear + 90 := by
  unfold minuteTime
  split <;> omega

theorem newYear_digitFirst : DigitFirst (civil.toRfc3339 newYear) :=
  twoOrders_digitFirst _ (by decide)

abbrev ServesMinute : World Nat Int → Prop :=
  ServesTask civil minuteSetup byMinute ⟨"mysql", some "shop"⟩ ⟨"mysql", some "archive"⟩
    .mySql .mySql minuteOrders minuteProbe

theorem minuteWorld_serves (cancelAt : Option Nat) : ServesMinute (minuteWorld cancelAt) where
  probes := rfl
  inserts _ _ _ := rfl
  saves _ := rfl
  answers :=
    { parses := fun r _ s hs => ⟨minuteTime r, by
        have htime := minuteOrders_time r
        simpa [Source.timeline, hs] using htime⟩
      min_parses := fun row s hrow hs => by
        cases hrow
        cases hs
        exact ⟨_, twoOrders_parses⟩
      max_parses := fun row s hrow hs => by
        cases hrow
        cases hs
        exact ⟨twoOrders_digitFirst _ (by decide), newYear + 90, by decide⟩
      now := ⟨newYear_digitFirst, newYear_digitFirst⟩
      select := fun turn lo hi a b rows ha hb hfetch => by
        simp only [minuteWorld, ha, hb, Except.ok.injEq] at hfetch
        subst hfetch
        refine ⟨_, (by decide : [1, 2].Nodup).filter _, fun r => ?_, ?_,
          (List.take_of_length_le (le_trans (List.length_filter_le _ _) (by decide))).symm⟩
        · have hrows : (minuteOrders.timeline civil).rows = {1, 2} := rfl
          simp [Timeline.mem_window, minuteOrders_time, hrows]
        · refine List.Pairwise.filter _ ?_
          simp only [minuteOrders_time]
          refine List.pairwise_pair.mpr fun t t' ht ht' => ?_
          cases ht
          cases ht'
          decide }

theorem minuteOrders_window :
    FreshWindow civil byMinute minuteOrders minuteProbe newYear (newYear + 90) where
  starts s hs := by
    cases hs
    exact twoOrders_parses
  tops s hs := by
    cases hs
    decide
  probed r _ t ht := by
    rw [minuteOrders_time, Option.some.injEq] at ht
    exact ⟨rfl, rfl, ht ▸ minuteOrders_le r⟩

theorem minuteOrders_fit :
    EveryWindowFits (minuteOrders.timeline civil) (rowLimit byMinute)
      (move civil (loopCtx minuteSetup byMinute ⟨"mysql", some "shop"⟩
        ⟨"mysql", some "archive"⟩)) (newYear + 90) newYear := by
  intro lo hi _ _ _
  have hall := Finset.card_le_card ((Finset.filter_subset (fun r =>
    (minuteOrders.timeline civil).upTo (newYear + 90) r = true) _).trans
    (Finset.filter_subset (fun r => ((minuteOrders.timeline civil).time r).any
      fun t => decide (lo ≤ t ∧ t < hi)) (minuteOrders.timeline civil).rows))
  exact le_trans hall (by decide)

theorem minuteRuns :
    TaskRuns civil minuteSetup ServesMinute none [firstMinute]
      ([.insert [1] (some 1)] ++ [.insert [1] (some 1), .insert [2] (some 1)]) := by
  have hexit : (firstMinute.run civil minuteSetup none).2 = some (.ok ⟨1, 0, true⟩) := by
    decide +kernel
  have hevents : (firstMinute.run civil minuteSetup none).1.events = [.insert [1] (some 1)] := by
    decide +kernel
  have hrow : runRow (firstMinute.run civil minuteSetup none) =
      (some "2026-01-01 00:00:00", some "canceled") := by
    decide +kernel
  have hend : (runTaskInner civil (afterRun minuteSetup (some (some "2026-01-01 00:00:00",
      some "canceled"))) (minuteWorld none) 2).2 = some (.ok ⟨2, 0, false⟩) := by
    decide +kernel
  have hlast := taskRuns_finished (minuteWorld_serves none) hend
  have hevents' : (runTaskInner civil (afterRun minuteSetup (some (some "2026-01-01 00:00:00",
      some "canceled"))) (minuteWorld none) 2).1.events =
        [.insert [1] (some 1), .insert [2] (some 1)] := by
    decide +kernel
  rw [hevents', ← hrow] at hlast
  have hinterrupted : Interrupted firstMinute (firstMinute.run civil minuteSetup none).2 := by
    rw [hexit]
    exact ⟨by decide, 1, 0, rfl⟩
  have hall := taskRuns_interrupted (minuteWorld_serves (some 1)) hinterrupted hlast
  rwa [hevents] at hall

/-- The first order is inserted twice, so the run was not cut off before its window. -/
theorem insertedOnce_iff_firstMinute :
    ¬ InsertedOnce civil minuteOrders newYear
        ([.insert [1] (some 1)] ++ [.insert [1] (some 1), .insert [2] (some 1)]) ∧
      ¬ ∀ leg ∈ [firstMinute], CutBeforeRows civil
        (loopCtx minuteSetup byMinute ⟨"mysql", some "shop"⟩ ⟨"mysql", some "archive"⟩)
        minuteOrders newYear leg := by
  have hiff := insertedOnce_iff civil_lawful minuteSetup_loaded rfl minuteOrders_window
    minuteOrders_fit minuteRuns
  have htwice : ¬ InsertedOnce civil minuteOrders newYear
      ([.insert [1] (some 1)] ++ [.insert [1] (some 1), .insert [2] (some 1)]) := by
    intro honce
    exact absurd (honce 1 (by decide) newYear (minuteOrders_time 1) le_rfl) (by decide)
  exact ⟨htwice, fun hcut => htwice (hiff.mpr hcut)⟩

/-- The batch counted by the canceled run is inserted again by the next one. -/
theorem first_order_inserted_twice :
    (TaskRuns civil minuteSetup ServesMinute none [firstMinute]
        ([.insert [1] (some 1)] ++ [.insert [1] (some 1), .insert [2] (some 1)]) ∧
      FreshWindow civil byMinute minuteOrders minuteProbe newYear (newYear + 90) ∧
      EveryWindowFits (minuteOrders.timeline civil) (rowLimit byMinute)
        (move civil (loopCtx minuteSetup byMinute ⟨"mysql", some "shop"⟩
          ⟨"mysql", some "archive"⟩)) (newYear + 90) newYear) ∧
    ¬ InsertedOnce civil minuteOrders newYear
      ([.insert [1] (some 1)] ++ [.insert [1] (some 1), .insert [2] (some 1)]) := by
  refine ⟨⟨minuteRuns, minuteOrders_window, minuteOrders_fit⟩, fun honce => ?_⟩
  have htwice := honce 1 (by decide) newYear (minuteOrders_time 1) le_rfl
  exact absurd htwice (by decide)

end Dbmaster.DataSync.ExactlyOnce
