import Dbmaster.Lib.CivilTime
import Mathlib.Order.Defs.LinearOrder
import Mathlib.Data.List.Lex
/-!
# Cursors

A cursor is the text of an instant.  The `chrono` crate is a parameter; what
the run relies on is `Chrono.Lawful`, and `civil` is an instance of it with
whole seconds.
-/

namespace Dbmaster.DataSync.Cursor

open Dbmaster.Lib

/-- The part of `chrono` the runner uses, on instants `T`. -/
structure Chrono (T : Type) where
  parseFromRfc3339 : String → Option T
  /-- `parse_from_str` with `%Y-%m-%d %H:%M:%S`, taken as UTC -/
  parseSeconds : String → Option T
  /-- `parse_from_str` with `%Y-%m-%d %H:%M:%S%.f`, taken as UTC -/
  parseFraction : String → Option T
  toRfc3339 : T → String
  /-- `none` where the addition panics -/
  addSeconds : T → Int → Option T

def parseCursor {T : Type} (chrono : Chrono T) (s : String) : Option T :=
  match chrono.parseFromRfc3339 s with
  | some dt => some dt
  | none =>
    match chrono.parseSeconds s with
    | some ndt => some ndt
    | none => chrono.parseFraction s

/-- Strict greater-than on cursors; on their texts when one is no instant. -/
def cursorGt {T : Type} [LinearOrder T] (chrono : Chrono T) (a b : String) : Bool :=
  match parseCursor chrono a, parseCursor chrono b with
  | some x, some y => decide (y < x)
  | _, _ => decide (b.toList < a.toList)

/-- `batch_size.max(1) as i64` -/
def coverageSecs (batchSize : UInt64) : Int := (max batchSize 1).toInt64.toInt

/-- The next cursor; `none` is a panic of the addition. -/
def advanceCursor {T : Type} (chrono : Chrono T) (cursor : String) (batchSize : UInt64) :
    Option String :=
  match parseCursor chrono cursor with
  | none => some cursor
  | some parsed => (chrono.addSeconds parsed (coverageSecs batchSize)).map chrono.toRfc3339

/-! ## What the runner relies on -/

/-- The text starts with a sign, as that of a year outside 0 to 9999 does. -/
def Signed (s : String) : Prop := s.toList.head? = some '+' ∨ s.toList.head? = some '-'

/-- The text starts with a digit, as a time printed by a database does. -/
def DigitFirst (s : String) : Prop :=
  ∃ c, s.toList.head? = some c ∧ 48 ≤ c.toNat ∧ c.toNat ≤ 57

structure Chrono.Lawful {T : Type} [LinearOrder T] (chrono : Chrono T) : Prop where
  /-- years 0 to 9999 parse back; the other years print a sign and do not -/
  prints : ∀ t, chrono.parseFromRfc3339 (chrono.toRfc3339 t) = some t ∨
    parseCursor chrono (chrono.toRfc3339 t) = none ∧ Signed (chrono.toRfc3339 t)
  later : ∀ t s u, 0 < s → chrono.addSeconds t s = some u → t < u
  earlier : ∀ t s u, s < 0 → chrono.addSeconds t s = some u → u < t

def firstSecond : Int := -62167219200

def lastSecond : Int := 253402300799

def durationSeconds : Int := 9223372036854775

/-- How instants lie on the calendar, by their `timestamp`. -/
structure Chrono.Calendar {T : Type} (chrono : Chrono T) (timestamp : T → Int) : Prop where
  /-- the range of `DateTime` -/
  ranged : ∀ s t, parseCursor chrono s = some t →
    -8334601228800 ≤ timestamp t ∧ timestamp t ≤ 8210266876799
  /-- `Duration::seconds` and the addition panic outside their ranges -/
  adds : ∀ t s, (chrono.addSeconds t s).isSome ↔ s.natAbs ≤ durationSeconds ∧
    -8334601228800 ≤ timestamp t + s ∧ timestamp t + s ≤ 8210266876799
  timestamp_add : ∀ t s u, chrono.addSeconds t s = some u → timestamp u = timestamp t + s
  add_zero : ∀ t u, chrono.addSeconds t 0 = some u → u = t
  add_add : ∀ t a u b v w, chrono.addSeconds t a = some u → chrono.addSeconds u b = some v →
    chrono.addSeconds t (a + b) = some w → v = w
  /-- years 0 to 9999 parse back, and the other years do not -/
  prints : ∀ t, firstSecond ≤ timestamp t → timestamp t ≤ lastSecond →
    chrono.parseFromRfc3339 (chrono.toRfc3339 t) = some t
  prints_signed : ∀ t, timestamp t < firstSecond ∨ lastSecond < timestamp t →
    parseCursor chrono (chrono.toRfc3339 t) = none
  /-- texts of four-digit years sort as their instants -/
  sorts : ∀ t s u, 0 < s → chrono.addSeconds t s = some u → firstSecond ≤ timestamp t →
    timestamp u ≤ lastSecond → (chrono.toRfc3339 t).toList < (chrono.toRfc3339 u).toList

variable {T : Type} [LinearOrder T] {chrono : Chrono T}

omit [LinearOrder T] in
theorem parseCursor_of_rfc3339 {s : String} {t : T}
    (h : chrono.parseFromRfc3339 s = some t) : parseCursor chrono s = some t := by
  simp only [parseCursor, h]

theorem not_signed_of_digitFirst {s : String} (h : DigitFirst s) : ¬ Signed s := by
  obtain ⟨c, hc, hlow, -⟩ := h
  rintro (hplus | hminus)
  · rw [hc, Option.some.injEq] at hplus
    subst hplus
    exact absurd hlow (by decide)
  · rw [hc, Option.some.injEq] at hminus
    subst hminus
    exact absurd hlow (by decide)

theorem Chrono.Lawful.parseCursor_toRfc3339 (hlaw : chrono.Lawful) {t : T}
    (h : DigitFirst (chrono.toRfc3339 t)) :
    parseCursor chrono (chrono.toRfc3339 t) = some t := by
  rcases hlaw.prints t with hparse | ⟨-, hsigned⟩
  · exact parseCursor_of_rfc3339 hparse
  · exact absurd hsigned (not_signed_of_digitFirst h)

theorem cursorGt_of_parse {a b : String} {x y : T} (ha : parseCursor chrono a = some x)
    (hb : parseCursor chrono b = some y) : cursorGt chrono a b = true ↔ y < x := by
  simp only [cursorGt, ha, hb, decide_eq_true_eq]

theorem cursorGt_signed {a b : String} (hnone : parseCursor chrono a = none)
    (ha : Signed a) (hb : DigitFirst b) : cursorGt chrono a b = false := by
  obtain ⟨d, hd, hlow, -⟩ := hb
  obtain ⟨bs, hbs⟩ := List.head?_eq_some_iff.mp hd
  obtain ⟨sign, as, has, hsign⟩ : ∃ sign as, a.toList = sign :: as ∧ sign.toNat < 48 := by
    rcases ha with hplus | hminus
    · obtain ⟨as, has⟩ := List.head?_eq_some_iff.mp hplus
      exact ⟨'+', as, has, by decide⟩
    · obtain ⟨as, has⟩ := List.head?_eq_some_iff.mp hminus
      exact ⟨'-', as, has, by decide⟩
  have htext : ¬ b.toList < a.toList := by
    rw [hbs, has, List.cons_lt_cons_iff]
    rintro (hlt | ⟨heq, -⟩)
    · have : d.toNat < sign.toNat := hlt
      omega
    · rw [heq] at hlow
      omega
  simp only [cursorGt, hnone, decide_eq_false_iff_not]
  exact htext

/-! ## Whole seconds in UTC -/

/-- `chrono` on texts with whole seconds and the zone `+00:00`, over its range of
instants. -/
def civil : Chrono Int where
  parseFromRfc3339 s := CivilTime.parse 'T' "+00:00".toList s.toList
  parseSeconds s := CivilTime.parse ' ' [] s.toList
  parseFraction _ := none
  toRfc3339 t :=
    let year := (CivilTime.dateOfDay (t / 86400)).year
    if 0 ≤ year ∧ year < 10000 then String.ofList (CivilTime.format 'T' "+00:00".toList t)
    else String.ofList ((if year < 0 then '-' else '+') :: (toString year.natAbs).toList ++
      (CivilTime.format 'T' "+00:00".toList t).drop 4)
  addSeconds t s :=
    if s.natAbs ≤ 9223372036854775 ∧ -8334601228800 ≤ t + s ∧ t + s ≤ 8210266876799 then
      some (t + s)
    else none

theorem civil_prints {t : Int} (h0 : 0 ≤ (CivilTime.dateOfDay (t / 86400)).year)
    (h1 : (CivilTime.dateOfDay (t / 86400)).year < 10000) :
    civil.parseFromRfc3339 (civil.toRfc3339 t) = some t := by
  simp only [civil, if_pos (And.intro h0 h1), String.toList_ofList]
  exact CivilTime.parse_format _ _ h0 h1

theorem civil_prints_signed {t : Int} (h : ¬ (0 ≤ (CivilTime.dateOfDay (t / 86400)).year ∧
    (CivilTime.dateOfDay (t / 86400)).year < 10000)) :
    parseCursor civil (civil.toRfc3339 t) = none ∧ Signed (civil.toRfc3339 t) := by
  obtain ⟨sign, text, hsign, htext⟩ : ∃ sign text, (sign = '+' ∨ sign = '-') ∧
      civil.toRfc3339 t = String.ofList (sign :: text) :=
    ⟨if (CivilTime.dateOfDay (t / 86400)).year < 0 then '-' else '+', _,
      by split <;> simp, by simp only [civil, if_neg h]; rfl⟩
  have hval : CivilTime.digitVal sign = none := by
    rcases hsign with rfl | rfl <;> decide
  refine ⟨?_, ?_⟩
  · rw [htext]
    simp only [parseCursor, civil, String.toList_ofList, CivilTime.parse_sign _ _ hval]
  · rw [htext]
    simp only [Signed, String.toList_ofList, List.head?_cons, Option.some.injEq]
    exact hsign

theorem civil_addSeconds {t s u : Int} : civil.addSeconds t s = some u ↔
    (s.natAbs ≤ 9223372036854775 ∧ -8334601228800 ≤ t + s ∧ t + s ≤ 8210266876799) ∧
      u = t + s := by
  show (if _ then some (t + s) else none) = some u ↔ _
  split
  case isTrue h => simp only [h, Option.some.injEq, eq_comm, true_and, and_self]
  case isFalse h => simp only [h, reduceCtorEq, false_and]

theorem civil_lawful : civil.Lawful where
  prints t := by
    by_cases hyear : 0 ≤ (CivilTime.dateOfDay (t / 86400)).year ∧
        (CivilTime.dateOfDay (t / 86400)).year < 10000
    · exact .inl (civil_prints hyear.1 hyear.2)
    · exact .inr (civil_prints_signed hyear)
  later t s u hs h := by
    obtain ⟨-, rfl⟩ := civil_addSeconds.mp h
    omega
  earlier t s u hs h := by
    obtain ⟨-, rfl⟩ := civil_addSeconds.mp h
    omega

theorem civil_fourDigits (t : Int) : (0 ≤ (CivilTime.dateOfDay (t / 86400)).year ∧
    (CivilTime.dateOfDay (t / 86400)).year < 10000) ↔ firstSecond ≤ t ∧ t ≤ lastSecond := by
  rw [CivilTime.four_digit_year_iff, firstSecond, lastSecond]
  omega

theorem civil_calendar : civil.Calendar id where
  ranged s t h := by
    have hparsed : ∃ separator zone, CivilTime.parse separator zone s.toList = some t := by
      unfold parseCursor at h
      split at h
      case h_1 _ hrfc =>
        cases h
        exact ⟨_, _, hrfc⟩
      case h_2 =>
        split at h
        case h_1 _ hseconds =>
          cases h
          exact ⟨_, _, hseconds⟩
        case h_2 => cases h
    obtain ⟨separator, zone, hparse⟩ := hparsed
    have := CivilTime.parse_bounds hparse
    simp only [id]
    omega
  adds t s := by
    rw [Option.isSome_iff_exists]
    simp only [civil_addSeconds, exists_and_left, exists_eq, and_true, durationSeconds, id]
    omega
  timestamp_add t s u h := (civil_addSeconds.mp h).2
  add_zero t u h := by
    have := (civil_addSeconds.mp h).2
    omega
  add_add t a u b v w hu hv hw := by
    have := (civil_addSeconds.mp hu).2
    have := (civil_addSeconds.mp hv).2
    have := (civil_addSeconds.mp hw).2
    omega
  prints t h0 h1 := by
    have hyear := (civil_fourDigits t).mpr ⟨h0, h1⟩
    exact civil_prints hyear.1 hyear.2
  prints_signed t h := by
    refine (civil_prints_signed ?_).1
    rw [civil_fourDigits]
    simp only [id] at h
    omega
  sorts t s u hs hadd h0 h1 := by
    have hsum := (civil_addSeconds.mp hadd).2
    simp only [id] at h0 h1
    have ht := (civil_fourDigits t).mpr (by omega)
    have hu := (civil_fourDigits u).mpr (by omega)
    simp only [civil, if_pos ht, if_pos hu, String.toList_ofList]
    exact CivilTime.format_lt _ _ ht.1 hu.2 (by omega)

example : advanceCursor civil "2026-12-31 23:59:59" 1 = some "2027-01-01T00:00:00+00:00" := by
  decide

end Dbmaster.DataSync.Cursor
