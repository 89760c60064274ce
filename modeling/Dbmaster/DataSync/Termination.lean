import Dbmaster.DataSync.Etl
import Dbmaster.Lib.Stride
import Mathlib.Tactic.Positivity
import Mathlib.Tactic.Ring
/-!
# When the batch loop ends

In a world that does not cancel, the loop strides from cursor to cursor by
`advance_cursor` and leaves by `cursor_gt`.  A start that is no instant stands
still.  From an instant the cursors are `batch_size` seconds apart; they stay
instants up to the year 9999, and the first one after it stands still again.
-/

namespace Dbmaster.DataSync.Termination

open Dbmaster.Lib.Stride
open Dbmaster.DataSync.Cursor Dbmaster.DataSync.Config Dbmaster.DataSync.Etl

variable {ρ T : Type}

/-! ## Worlds -/

def Uncancelled (world : World ρ T) : Prop := ∀ turn, world.cancelRequested turn ≠ some true

/-- Nobody cancels it, and every query is answered. -/
structure Undisturbed (world : World ρ T) : Prop where
  polls : ∀ turn, world.cancelRequested turn = some false
  fetches : ∀ turn sql lo hi, ∃ rows, world.fetch turn sql lo hi = .ok rows
  saves : ∀ turn, world.savesProgress turn = true

/-- The loop returns, and where it converts the batch size, the conversion is exact. -/
structure LoopEnds [LinearOrder T] (chrono : Chrono T) (world : World ρ T) (ctx : LoopCtx)
    (src : SourceKind) (tgt : DbType) : Prop where
  returns : ∃ n exit, (dispatch chrono world ctx n src.dbType tgt).2 = some exit ∧
    exit ≠ .panicked
  converts : ∀ n s, dispatch chrono world ctx n src.dbType tgt = (s, none) →
    world.cancelRequested s.turn = some false → (parseCursor chrono s.cursor).isSome →
    coverageSecs ctx.batchSize = ctx.batchSize.toNat

/-! ## The loop as a stride -/

section Loop

variable [LinearOrder T] {chrono : Chrono T} {world : World ρ T} {ctx : LoopCtx} {path : EtlPath}
variable {upper next : String} {s : LoopState ρ}

theorem etlTurn_not_panicked (hadvance : advanceCursor chrono s.cursor ctx.batchSize = some next) :
    (etlTurn chrono world ctx path upper s).2 ≠ some .panicked := by
  unfold etlTurn
  rw [hadvance]
  split
  · simp
  · simp
  · dsimp only
    split
    · simp
    · split <;> simp [LoopState.finish]
    · split
      · simp
      · split <;> simp [LoopState.finish]

theorem etlTurn_undisturbed (hquiet : Undisturbed world)
    (hadvance : advanceCursor chrono s.cursor ctx.batchSize = some next) :
    (etlTurn chrono world ctx path upper s).2.isSome = cursorGt chrono next upper := by
  obtain ⟨rows, hrows⟩ := hquiet.fetches s.turn path.fetchSql s.cursor next
  unfold etlTurn
  simp only [hquiet.polls, hadvance, hrows, hquiet.saves]
  by_cases hgt : cursorGt chrono next upper = true
  · cases rows with
    | nil => simp only [hgt, if_true, Option.isSome_some]
    | cons row rows => simp only [hgt, if_true, Bool.true_eq_false, if_false, Option.isSome_some]
  · rw [Bool.not_eq_true] at hgt
    cases rows with
    | nil => simp only [hgt, Bool.false_eq_true, if_false, Option.isSome_none]
    | cons row rows =>
        simp only [hgt, Bool.false_eq_true, Bool.true_eq_false, if_false, Option.isSome_none]

theorem etlTurn_moves (hquiet : Undisturbed world)
    (hadvance : advanceCursor chrono s.cursor ctx.batchSize = some next)
    (hgo : cursorGt chrono next upper = false) :
    (etlTurn chrono world ctx path upper s).2 = none ∧
      (etlTurn chrono world ctx path upper s).1.cursor = next := by
  have hsome := @etlTurn_undisturbed ρ T _ chrono world ctx path upper next s hquiet hadvance
  rw [hgo, Option.isSome_eq_false_iff, Option.isNone_iff_eq_none] at hsome
  obtain ⟨next', hadvance', hmoved, -⟩ := etlTurn_goes_on hsome
  cases hadvance.symm.trans hadvance'
  exact ⟨hsome, hmoved⟩

/-- The cursors that the loop goes through, as far as its exit test. -/
abbrev Stride (chrono : Chrono T) (batchSize : UInt64) (upper : String) : String → Prop :=
  Stops (fun c => advanceCursor chrono c batchSize) (fun c => cursorGt chrono c upper = true)

theorem return_of_exit {exit : Exit}
    (hadvance : advanceCursor chrono s.cursor ctx.batchSize = some next)
    (hturn : (etlTurn chrono world ctx path upper s).2 = some exit) :
    ∃ n exit, (turns chrono world ctx path upper n s).2 = some exit ∧ exit ≠ .panicked := by
  refine ⟨1, exit, ?_, fun heq => etlTurn_not_panicked hadvance (heq ▸ hturn)⟩
  rw [turns_of_exit 0 hturn, hturn]

/-- A loop whose cursors stop returns, whatever else happens. -/
theorem turns_return {c : String} (h : Stride chrono ctx.batchSize upper c) (s : LoopState ρ)
    (hcursor : s.cursor = c) :
    ∃ n exit, (turns chrono world ctx path upper n s).2 = some exit ∧ exit ≠ .panicked := by
  induction h generalizing s with
  | @now c next hstep hexit =>
      subst hcursor
      cases hturn : (etlTurn chrono world ctx path upper s).2 with
      | some exit => exact return_of_exit hstep hturn
      | none =>
          obtain ⟨next', hadvance, -, hgo⟩ := etlTurn_goes_on hturn
          cases hstep.symm.trans hadvance
          exact absurd hexit (by simp [hgo])
  | @later c next hstep hgo hrest ih =>
      subst hcursor
      cases hturn : (etlTurn chrono world ctx path upper s).2 with
      | some exit => exact return_of_exit hstep hturn
      | none =>
          obtain ⟨next', hadvance, hmoved, -⟩ := etlTurn_goes_on hturn
          cases hstep.symm.trans hadvance
          obtain ⟨n, exit, hexit, hsafe⟩ := ih _ hmoved
          exact ⟨n + 1, exit, by rw [turns_of_none n hturn, hexit], hsafe⟩

/-- Undisturbed, a loop returns only if its cursors stop. -/
theorem stride_of_return (hquiet : Undisturbed world) {n : Nat} {exit : Exit}
    (hexit : (turns chrono world ctx path upper n s).2 = some exit) (hsafe : exit ≠ .panicked) :
    Stride chrono ctx.batchSize upper s.cursor := by
  induction n generalizing s with
  | zero => cases hexit
  | succ n ih =>
      cases hadvance : advanceCursor chrono s.cursor ctx.batchSize with
      | none =>
          have hturn : (etlTurn chrono world ctx path upper s).2 = some .panicked := by
            simp only [etlTurn, hquiet.polls, hadvance]
          rw [turns_of_exit n hturn, hturn, Option.some.injEq] at hexit
          exact absurd hexit.symm hsafe
      | some next =>
          cases hgt : cursorGt chrono next upper with
          | true => exact .now hadvance hgt
          | false =>
              obtain ⟨hturn, hmoved⟩ := @etlTurn_moves ρ T _ chrono world ctx path upper next s
                hquiet hadvance hgt
              rw [turns_of_none n hturn] at hexit
              exact .later hadvance (by simp [hgt]) (hmoved ▸ ih hexit)

theorem turns_stand_still (n : Nat) {s' : LoopState ρ}
    (hnone : parseCursor chrono s.cursor = none)
    (hrun : turns chrono world ctx path upper n s = (s', none)) : s'.cursor = s.cursor := by
  induction n generalizing s with
  | zero =>
      cases hrun
      rfl
  | succ n ih =>
      cases hturn : (etlTurn chrono world ctx path upper s).2 with
      | some exit =>
          rw [turns_of_exit n hturn] at hrun
          rw [hrun] at hturn
          cases hturn
      | none =>
          obtain ⟨next, hadvance, hmoved, -⟩ := etlTurn_goes_on hturn
          simp only [advanceCursor, hnone, Option.some.injEq] at hadvance
          rw [turns_of_none n hturn] at hrun
          rw [ih (by rw [hmoved, ← hadvance, hnone]) hrun, hmoved, hadvance]

theorem turns_stuck (hquiet : Undisturbed world) (hnone : parseCursor chrono s.cursor = none)
    (hgo : cursorGt chrono s.cursor upper = false) (n : Nat) :
    (turns chrono world ctx path upper n s).2 = none := by
  have hadvance : advanceCursor chrono s.cursor ctx.batchSize = some s.cursor := by
    simp only [advanceCursor, hnone]
  induction n generalizing s with
  | zero => rfl
  | succ n ih =>
      obtain ⟨hturn, hmoved⟩ := @etlTurn_moves ρ T _ chrono world ctx path upper s.cursor s
        hquiet hadvance hgo
      rw [turns_of_none n hturn]
      exact ih (hmoved ▸ hnone) (hmoved ▸ hgo) (hmoved ▸ hadvance)

end Loop

/-! ## The cursors of a start -/

/-- How many windows of `secs` seconds from a timestamp end in the years 0 to 9999, up
to the first one that does not. -/
def wholeWindows (timestamp secs : Int) : Nat :=
  if firstSecond ≤ timestamp + secs then ((lastSecond - timestamp) / secs).toNat else 0

/-- The instant can be moved by `secs` seconds, and its text then exceeds `upper`. -/
def Passes [LinearOrder T] (chrono : Chrono T) (upper : String) (t : T) (secs : Int) : Prop :=
  ∃ u, chrono.addSeconds t secs = some u ∧ cursorGt chrono (chrono.toRfc3339 u) upper = true

/-- A start that is no instant exceeds `upper` as a text.  From a start that is one,
the last cursor before the year 10000 exceeds it, or the one after that does. -/
def EndsFrom [LinearOrder T] (chrono : Chrono T) (timestamp : T → Int) (batchSize : UInt64)
    (start upper : String) : Prop :=
  match parseCursor chrono start with
  | none => upper.toList < start.toList
  | some t =>
      let windows := wholeWindows (timestamp t) batchSize.toNat
      0 < windows ∧ Passes chrono upper t (windows * batchSize.toNat) ∨
        Passes chrono upper t ((windows + 1 : Nat) * batchSize.toNat)

theorem le_of_le_wholeWindows {timestamp secs : Int} (hsecs : 0 < secs) {k : Nat} (hpos : 0 < k)
    (hk : k ≤ wholeWindows timestamp secs) :
    firstSecond ≤ timestamp + k * secs ∧ timestamp + k * secs ≤ lastSecond := by
  unfold wholeWindows at hk
  split at hk
  case isTrue hfirst =>
    have hle : (k : Int) ≤ (lastSecond - timestamp) / secs := by omega
    have hmul := (Int.le_ediv_iff_mul_le hsecs).mp hle
    have hone : secs ≤ k * secs := le_mul_of_one_le_left (le_of_lt hsecs) (by omega)
    omega
  case isFalse => omega

theorem beyond_wholeWindows {timestamp secs : Int} (hsecs : 0 < secs) :
    timestamp + (wholeWindows timestamp secs + 1 : Nat) * secs < firstSecond ∨
      lastSecond < timestamp + (wholeWindows timestamp secs + 1 : Nat) * secs := by
  unfold wholeWindows
  split
  case isTrue hfirst =>
    right
    have hlt := Int.lt_ediv_add_one_mul_self (lastSecond - timestamp) hsecs
    have hle : (lastSecond - timestamp) / secs + 1 ≤
        (((lastSecond - timestamp) / secs).toNat + 1 : Nat) := by omega
    have hmul := mul_le_mul_of_nonneg_right hle (le_of_lt hsecs)
    omega
  case isFalse hfirst =>
    left
    simpa using hfirst

section Cursors

variable [LinearOrder T] {chrono : Chrono T} {timestamp : T → Int} {batchSize : UInt64}
variable {start upper : String} {t : T}

omit [LinearOrder T] in
theorem add_again (hcal : chrono.Calendar timestamp) {a b : Int} {u : T}
    (hrange : -8334601228800 ≤ timestamp t) (ha : 0 ≤ a) (hb : 0 ≤ b)
    (hu : chrono.addSeconds t a = some u) : chrono.addSeconds u b = chrono.addSeconds t (a + b) := by
  have hstamp := hcal.timestamp_add t a u hu
  have hsome : (chrono.addSeconds u b).isSome ↔ (chrono.addSeconds t (a + b)).isSome := by
    rw [hcal.adds, hcal.adds, hstamp, durationSeconds]
    omega
  cases hv : chrono.addSeconds u b with
  | none =>
      rw [hv] at hsome
      cases hw : chrono.addSeconds t (a + b) with
      | none => rfl
      | some w => simp [hw] at hsome
  | some v =>
      rw [hv] at hsome
      obtain ⟨w, hw⟩ := Option.isSome_iff_exists.mp (hsome.mp rfl)
      rw [hw, hcal.add_add t a u b v w hu hv hw]

def cursorAt (chrono : Chrono T) (start : String) (t : T) (secs : Int) : Nat → String
  | 0 => start
  | k + 1 => ((chrono.addSeconds t ((k + 1 : Nat) * secs)).map chrono.toRfc3339).getD ""

omit [LinearOrder T] in
theorem cursorAt_parses (hcal : chrono.Calendar timestamp)
    (hstart : parseCursor chrono start = some t) {secs : Int} (hsecs : 0 < secs) {k : Nat}
    (hk : k ≤ wholeWindows (timestamp t) secs) :
    ∃ v, chrono.addSeconds t (k * secs) = some v ∧
      parseCursor chrono (cursorAt chrono start t secs k) = some v ∧
      (0 < k → cursorAt chrono start t secs k = chrono.toRfc3339 v) := by
  obtain ⟨hlow, hhigh⟩ := hcal.ranged start t hstart
  cases k with
  | zero =>
      have hsome : (chrono.addSeconds t 0).isSome := by
        rw [hcal.adds, durationSeconds]
        omega
      obtain ⟨v, hv⟩ := Option.isSome_iff_exists.mp hsome
      refine ⟨v, by simpa using hv, ?_, fun h => absurd h (Nat.lt_irrefl 0)⟩
      rw [hcal.add_zero t v hv]
      exact hstart
  | succ k =>
      obtain ⟨hfirst, hlast⟩ : firstSecond ≤ timestamp t + (k + 1 : Nat) * secs ∧
        timestamp t + (k + 1 : Nat) * secs ≤ lastSecond :=
        le_of_le_wholeWindows hsecs k.succ_pos hk
      have hpos : 0 ≤ ((k + 1 : Nat) : Int) * secs := by positivity
      have hsome : (chrono.addSeconds t ((k + 1 : Nat) * secs)).isSome := by
        rw [hcal.adds]
        simp only [firstSecond, lastSecond, durationSeconds] at hfirst hlast ⊢
        omega
      obtain ⟨v, hv⟩ := Option.isSome_iff_exists.mp hsome
      have hstamp := hcal.timestamp_add t _ v hv
      have htext : cursorAt chrono start t secs (k + 1) = chrono.toRfc3339 v := by
        simp only [cursorAt, hv, Option.map_some, Option.getD_some]
      refine ⟨v, hv, ?_, fun _ => htext⟩
      rw [htext]
      exact parseCursor_of_rfc3339 (hcal.prints v (by omega) (by omega))

omit [LinearOrder T] in
theorem advance_cursorAt (hcal : chrono.Calendar timestamp)
    (hstart : parseCursor chrono start = some t) (hsecs : 0 < batchSize.toNat)
    (hcover : coverageSecs batchSize = batchSize.toNat) {k : Nat}
    (hk : k ≤ wholeWindows (timestamp t) batchSize.toNat) :
    advanceCursor chrono (cursorAt chrono start t batchSize.toNat k) batchSize =
      (chrono.addSeconds t ((k + 1 : Nat) * batchSize.toNat)).map chrono.toRfc3339 := by
  obtain ⟨v, hv, hparse, -⟩ := cursorAt_parses hcal hstart (by omega) hk
  have hsum : ((k + 1 : Nat) : Int) * batchSize.toNat = k * batchSize.toNat + batchSize.toNat := by
    push_cast
    ring
  have hagain := add_again hcal (hcal.ranged start t hstart).1 (by positivity)
    (Int.natCast_nonneg batchSize.toNat) hv
  simp only [advanceCursor, hparse, hcover]
  rw [hagain, hsum]

theorem cursorGt_later (hlaw : chrono.Lawful) (hcal : chrono.Calendar timestamp) {u v : T}
    {secs : Int} (hsecs : 0 < secs) (hadd : chrono.addSeconds u secs = some v)
    (hfirst : firstSecond ≤ timestamp u) (hlast : timestamp v ≤ lastSecond)
    (hgt : cursorGt chrono (chrono.toRfc3339 u) upper = true) :
    cursorGt chrono (chrono.toRfc3339 v) upper = true := by
  have hstamp := hcal.timestamp_add u secs v hadd
  have hu := parseCursor_of_rfc3339 (hcal.prints u hfirst (by omega))
  have hv := parseCursor_of_rfc3339 (hcal.prints v (by omega) hlast)
  cases hupper : parseCursor chrono upper with
  | some top =>
      rw [cursorGt_of_parse hu hupper] at hgt
      rw [cursorGt_of_parse hv hupper]
      exact lt_trans hgt (hlaw.later u secs v hsecs hadd)
  | none =>
      simp only [cursorGt, hu, hv, hupper, decide_eq_true_eq] at hgt ⊢
      exact List.lt_trans hgt (hcal.sorts u secs v hsecs hadd hfirst hlast)

theorem stride_iff_of_instant (hlaw : chrono.Lawful) (hcal : chrono.Calendar timestamp)
    (hstart : parseCursor chrono start = some t) (hsecs : 0 < batchSize.toNat)
    (hcover : coverageSecs batchSize = batchSize.toNat) :
    Stride chrono batchSize upper start ↔ EndsFrom chrono timestamp batchSize start upper := by
  have hpos : 0 < (batchSize.toNat : Int) := by omega
  have hparses := fun k hk => @cursorAt_parses T chrono timestamp start t hcal hstart
    batchSize.toNat hpos k hk
  have hadvance := fun k hk => @advance_cursorAt T chrono timestamp batchSize start t hcal hstart
    hsecs hcover k hk
  simp only [EndsFrom, hstart]
  generalize hn : wholeWindows (timestamp t) batchSize.toNat = n at hparses hadvance ⊢
  have hstep : ∀ k < n, advanceCursor chrono (cursorAt chrono start t batchSize.toNat k)
      batchSize = some (cursorAt chrono start t batchSize.toNat (k + 1)) := by
    intro k hk
    obtain ⟨v, hv, -, htext⟩ := hparses (k + 1) hk
    rw [hadvance k (Nat.le_of_lt hk), hv, Option.map_some, htext k.succ_pos]
  have hmono : ∀ k < n, 0 < k →
      cursorGt chrono (cursorAt chrono start t batchSize.toNat k) upper = true →
      cursorGt chrono (cursorAt chrono start t batchSize.toNat (k + 1)) upper = true := by
    intro k hk hkpos hgt
    obtain ⟨u, hu, -, hutext⟩ := hparses k (Nat.le_of_lt hk)
    obtain ⟨v, hv, -, hvtext⟩ := hparses (k + 1) hk
    have hfirst := (le_of_le_wholeWindows hpos hkpos (hn ▸ Nat.le_of_lt hk)).1
    have hlast := (le_of_le_wholeWindows hpos k.succ_pos (hn ▸ hk)).2
    rw [← hcal.timestamp_add t _ u hu] at hfirst
    rw [← hcal.timestamp_add t _ v hv] at hlast
    rw [hutext hkpos] at hgt
    rw [hvtext k.succ_pos]
    refine cursorGt_later hlaw hcal hpos ?_ hfirst hlast hgt
    have hsum : ((k + 1 : Nat) : Int) * batchSize.toNat =
        k * batchSize.toNat + batchSize.toNat := by
      push_cast
      ring
    rw [add_again hcal (hcal.ranged start t hstart).1 (by positivity) (le_of_lt hpos) hu, ← hsum,
      hv]
  obtain ⟨u, hu, hparse, htext⟩ := hparses n le_rfl
  have hlast : 0 < n → (cursorGt chrono (cursorAt chrono start t batchSize.toNat n) upper = true ↔
      Passes chrono upper t (n * batchSize.toNat)) := by
    intro hnpos
    simp only [Passes, hu, htext hnpos, Option.some.injEq, exists_eq_left']
  have hafter : Stride chrono batchSize upper (cursorAt chrono start t batchSize.toNat n) ↔
      Passes chrono upper t ((n + 1 : Nat) * batchSize.toNat) := by
    have hnext := hadvance n le_rfl
    cases hv : chrono.addSeconds t ((n + 1 : Nat) * batchSize.toNat) with
    | none =>
        rw [hv, Option.map_none] at hnext
        simp only [Passes, hv, reduceCtorEq, false_and, exists_false, iff_false]
        exact not_stops_of_none hnext
    | some v =>
        rw [hv, Option.map_some] at hnext
        simp only [Passes, hv, Option.some.injEq, exists_eq_left']
        -- the text of this instant carries a sign
        have hsigned : parseCursor chrono (chrono.toRfc3339 v) = none := by
          refine hcal.prints_signed v ?_
          rw [hcal.timestamp_add t _ v hv, ← hn]
          exact beyond_wholeWindows hpos
        refine stops_into_fixed hnext ?_
        simp only [advanceCursor, hsigned]
  rw [Stride, show start = cursorAt chrono start t batchSize.toNat 0 from rfl,
    stops_chain hstep hmono, ← hafter]
  exact or_congr (and_congr_right hlast) Iff.rfl

end Cursors

/-! ## The batch size -/

theorem coverageSecs_of_le {batchSize : UInt64} (hone : 1 ≤ batchSize)
    (hle : (batchSize.toNat : Int) ≤ durationSeconds) :
    coverageSecs batchSize = batchSize.toNat := by
  have hmax : max batchSize 1 = batchSize := by
    show (if batchSize ≤ 1 then 1 else batchSize) = batchSize
    split
    case isTrue h => exact UInt64.le_antisymm hone h
    case isFalse => rfl
  rw [coverageSecs, hmax]
  show batchSize.toBitVec.toInt = batchSize.toNat
  rw [BitVec.toInt_eq_toNat_cond]
  have hcast : batchSize.toBitVec.toNat = batchSize.toNat := rfl
  rw [hcast]
  rw [durationSeconds] at hle
  split <;> omega

theorem le_of_passes [LinearOrder T] {chrono : Chrono T} {timestamp : T → Int}
    (hcal : chrono.Calendar timestamp) {upper : String} {t : T} {k n : Nat} (hk : 0 < k)
    (h : Passes chrono upper t (k * n)) : (n : Int) ≤ durationSeconds := by
  obtain ⟨u, hu, -⟩ := h
  have hsome := (hcal.adds t (k * n)).mp (Option.isSome_iff_exists.mpr ⟨u, hu⟩)
  have hle : (n : Int) ≤ k * n := le_mul_of_one_le_left (Int.natCast_nonneg n) (by omega)
  omega

/-! ## The pairs from which every run ends -/

def quiet (world : World ρ T) : World ρ T :=
  { world with
    cancelRequested := fun _ => some false
    fetch := fun _ _ _ _ => .ok []
    savesProgress := fun _ => true }

theorem quiet_undisturbed (world : World ρ T) : Undisturbed (quiet world) where
  polls _ := rfl
  fetches _ _ _ _ := ⟨[], rfl⟩
  saves _ := rfl

section Runs

variable [LinearOrder T] {chrono : Chrono T} {timestamp : T → Int} {world : World ρ T}
variable {ctx : LoopCtx} {src : SourceKind} {tgt : DbType} {start upper : String}

theorem dispatch_eq_turns
    (hwindow : resolveWindow chrono world ctx (pathFor ctx src tgt) = .ok (start, upper)) (n : Nat) :
    dispatch chrono world ctx n src.dbType tgt =
      turns chrono world ctx (pathFor ctx src tgt) upper n
        (enterLoop world (pathFor ctx src tgt) start) := by
  rw [dispatch_eq_etl, etl, hwindow]

theorem loopEnds_of_endsFrom (hlaw : chrono.Lawful) (hcal : chrono.Calendar timestamp)
    (hone : 1 ≤ ctx.batchSize)
    (hwindow : resolveWindow chrono world ctx (pathFor ctx src tgt) = .ok (start, upper))
    (h : EndsFrom chrono timestamp ctx.batchSize start upper) :
    LoopEnds chrono world ctx src tgt := by
  have hsecs : 0 < ctx.batchSize.toNat := UInt64.le_iff_toNat_le.mp hone
  cases hstart : parseCursor chrono start with
  | none =>
      have hstride : Stride chrono ctx.batchSize upper start := by
        refine (stops_fixed (by simp only [advanceCursor, hstart])).mpr ?_
        simpa only [cursorGt, EndsFrom, hstart, decide_eq_true_eq] using h
      refine ⟨?_, fun n s hrun _ hparse => ?_⟩
      · simp only [dispatch_eq_turns hwindow]
        exact turns_return hstride _ rfl
      · rw [dispatch_eq_turns hwindow] at hrun
        rw [turns_stand_still n hstart hrun] at hparse
        exact absurd hparse (by simp [enterLoop, hstart])
  | some t =>
      have hle : (ctx.batchSize.toNat : Int) ≤ durationSeconds := by
        simp only [EndsFrom, hstart] at h
        rcases h with ⟨hpos, hpasses⟩ | hpasses
        · exact le_of_passes hcal hpos hpasses
        · exact le_of_passes hcal (Nat.succ_pos _) hpasses
      have hcover := coverageSecs_of_le hone hle
      have hstride := (stride_iff_of_instant hlaw hcal hstart hsecs hcover).mpr h
      refine ⟨?_, fun _ _ _ _ _ => hcover⟩
      simp only [dispatch_eq_turns hwindow]
      exact turns_return hstride _ rfl

theorem endsFrom_of_loopEnds (hlaw : chrono.Lawful) (hcal : chrono.Calendar timestamp)
    (hone : 1 ≤ ctx.batchSize) (hquiet : Undisturbed world)
    (hwindow : resolveWindow chrono world ctx (pathFor ctx src tgt) = .ok (start, upper))
    (h : LoopEnds chrono world ctx src tgt) :
    EndsFrom chrono timestamp ctx.batchSize start upper := by
  obtain ⟨n, exit, hexit, hsafe⟩ := h.returns
  rw [dispatch_eq_turns hwindow] at hexit
  have hstride : Stride chrono ctx.batchSize upper start := stride_of_return hquiet hexit hsafe
  cases hstart : parseCursor chrono start with
  | none =>
      have hgt := (stops_fixed (by simp only [advanceCursor, hstart])).mp hstride
      simpa only [cursorGt, EndsFrom, hstart, decide_eq_true_eq] using hgt
  | some t =>
      have hcover := h.converts 0 _ (dispatch_eq_turns hwindow 0) (hquiet.polls _)
        (by simp [enterLoop, hstart])
      exact (stride_iff_of_instant hlaw hcal hstart (UInt64.le_iff_toNat_le.mp hone) hcover).mp
        hstride

/-- Every run over a window ends unless it is cancelled, exactly when the window and the
batch size meet the condition on their cursors. -/
theorem loopEnds_iff (hlaw : chrono.Lawful) (hcal : chrono.Calendar timestamp)
    (hone : 1 ≤ ctx.batchSize)
    (hwindow : resolveWindow chrono world ctx (pathFor ctx src tgt) = .ok (start, upper)) :
    (∀ world' : World ρ T, Uncancelled world' →
        resolveWindow chrono world' ctx (pathFor ctx src tgt) = .ok (start, upper) →
        LoopEnds chrono world' ctx src tgt) ↔
      EndsFrom chrono timestamp ctx.batchSize start upper := by
  constructor
  · intro h
    have hun : Uncancelled (quiet world) := fun _ => by simp [quiet]
    exact endsFrom_of_loopEnds hlaw hcal hone (quiet_undisturbed world) hwindow
      (h (quiet world) hun hwindow)
  · intro h world' _ hwindow'
    exact loopEnds_of_endsFrom hlaw hcal hone hwindow' h

end Runs

/-! ## A column of dates -/

def daily : LoopCtx where
  config :=
    { source := { database := none, table := "visits" }
      target := { database := none, table := "visits_copy" }
      joinTables := []
      columnMapping := { columns := [{ source := "main.id", target := "id" }], constants := [] }
      batching :=
        { timeField := "day", batchSize := some 86400, start := none, batchRetries := none }
      targetStrategy := .append
      schedule := none }
  srcDatabase := some "shop"
  tgtDatabase := some "archive"
  batchSize := 86400
  resumeCursor := none
  batchRetries := 3

/-- Two days of visits; no row lies between a day and itself. -/
def visits : World Nat Int where
  nowMin := 0
  nowMax := 0
  probe _ := some (some "2026-08-01", some "2026-08-02")
  cancelRequested _ := some false
  fetch _ _ lo hi := .ok (if lo = hi then [] else [1])
  truncates := true
  insert _ _ rows := some rows.length
  savesProgress _ := true

theorem visits_undisturbed : Undisturbed visits where
  polls _ := rfl
  fetches _ _ _ _ := ⟨_, rfl⟩
  saves _ := rfl

/-- The same visits by their instants. -/
def timedVisits : World Nat Int :=
  { visits with probe := fun _ => some (some "2026-08-01 00:00:00", some "2026-08-02 00:00:00") }

/-- Over dates not every run ends, and over instants every one does. -/
theorem loopEnds_iff_visits :
    (¬ ∀ world' : World Nat Int, Uncancelled world' →
        resolveWindow civil world' daily (pathFor daily .mySql .mySql) =
          .ok ("2026-08-01", "2026-08-02") →
        LoopEnds civil world' daily .mySql .mySql) ∧
      ∀ world' : World Nat Int, Uncancelled world' →
        resolveWindow civil world' daily (pathFor daily .mySql .mySql) =
          .ok ("2026-08-01 00:00:00", "2026-08-02 00:00:00") →
        LoopEnds civil world' daily .mySql .mySql := by
  constructor
  · intro hall
    have hends := (@loopEnds_iff Nat Int _ civil id visits daily .mySql .mySql "2026-08-01"
      "2026-08-02" civil_lawful civil_calendar (by decide) rfl).mp hall
    have hnone : parseCursor civil "2026-08-01" = none := by decide +kernel
    rw [EndsFrom, hnone] at hends
    exact absurd hends (by decide)
  · refine (@loopEnds_iff Nat Int _ civil id timedVisits daily .mySql .mySql "2026-08-01 00:00:00"
      "2026-08-02 00:00:00" civil_lawful civil_calendar (by decide) rfl).mpr ?_
    have hstart : parseCursor civil "2026-08-01 00:00:00" = some 1785542400 := by decide +kernel
    rw [EndsFrom, hstart]
    exact .inl ⟨by decide +kernel, _, rfl, by decide +kernel⟩

/-- A date is no instant, so the loop asks for the same empty window for ever. -/
theorem dates_never_end :
    (validate civil daily.config = .ok () ∧ 1 ≤ daily.batchSize) ∧ Uncancelled visits ∧
      resolveWindow civil visits daily (pathFor daily .mySql .mySql) =
        .ok ("2026-08-01", "2026-08-02") ∧
      ∀ n, (dispatch civil visits daily n .mySql .mySql).2 = none := by
  refine ⟨⟨by decide, by decide⟩, fun _ => by simp [visits], rfl, fun n => ?_⟩
  have hwindow : resolveWindow civil visits daily (pathFor daily .mySql .mySql) =
    .ok ("2026-08-01", "2026-08-02") := rfl
  have heq := @dispatch_eq_turns Nat Int _ civil visits daily .mySql .mySql _ _ hwindow n
  have hstuck := @turns_stuck Nat Int _ civil visits daily (pathFor daily .mySql .mySql)
    "2026-08-02" (enterLoop visits (pathFor daily .mySql .mySql) "2026-08-01") visits_undisturbed
    (by decide) (by decide) n
  rw [← hstuck, ← heq]
  rfl

end Dbmaster.DataSync.Termination
