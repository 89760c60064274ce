import Dbmaster.Lib.CivilTime
/-!
# Retention

`rotate` of `query_stats` and `rotate_results` of `health_check_results`.  Both compare the
text of a row with that of SQLite's `datetime('now', '-N days')`, whose separator may be
another one.
-/

namespace Dbmaster.QueryStats.Rotate

open Dbmaster.Lib.CivilTime

/-! ## Timestamps -/

/-- Nanoseconds since the epoch, in a year that both formats can write. -/
structure Instant where
  nanos : Int
  fourDigits : 0 ≤ (dateOfDay (nanos / 1000000000 / 86400)).year ∧
    (dateOfDay (nanos / 1000000000 / 86400)).year < 10000

namespace Instant

def second (t : Instant) : Int := t.nanos / 1000000000

end Instant

def digits : Nat → Int → List Char
  | 0, _ => []
  | k + 1, n => digits k (n / 10) ++ [digit n]

/-- `SecondsFormat::AutoSi`: milliseconds, microseconds or nanoseconds where needed. -/
def fraction (nanos : Int) : List Char :=
  if nanos = 0 then []
  else if nanos % 1000000 = 0 then '.' :: digits 3 (nanos / 1000000)
  else if nanos % 1000 = 0 then '.' :: digits 6 (nanos / 1000)
  else '.' :: digits 9 nanos

/-- `to_rfc3339` of `chrono` in UTC. -/
def toRfc3339 (t : Instant) : List Char :=
  format 'T' (fraction (t.nanos % 1000000000) ++ "+00:00".toList) t.second

/-- How a row was written: by the program, or with SQLite's `datetime('now')`. -/
inductive Writer
  | chrono | sqlite
  deriving DecidableEq

structure Timestamp where
  instant : Instant
  writer : Writer

def Timestamp.text (stamp : Timestamp) : List Char :=
  match stamp.writer with
  | .chrono => toRfc3339 stamp.instant
  | .sqlite => format ' ' [] stamp.instant.second

/-- The days of a modifier that SQLite does not reject. -/
def dayLimit : Nat := 5373485

/-- `datetime('now', '-N days')`; NULL outside the years -4713 to 9999. -/
def datetimeBefore (now : Instant) (days : Nat) : Option (List Char) :=
  let t := now.second - days * 86400
  let year := (dateOfDay (t / 86400)).year
  if dayLimit ≤ days ∨ t < -210866760000 ∨ 253402300800 ≤ t then none
  else if year < 0 then some ('-' :: (four (-year) ++ (format ' ' [] t).drop 4))
  else some (format ' ' [] t)

/-! ## The tables -/

structure QueryStat where
  id : String
  capturedAt : Timestamp

structure HealthCheckResult where
  id : String
  taskId : String
  startedAt : Timestamp

/-- `DELETE … WHERE stamp < threshold`; no text is less than NULL. -/
def before (stamp : Timestamp) (threshold : Option (List Char)) : Bool :=
  threshold.any fun threshold => decide (stamp.text < threshold)

def rotate (now : Instant) (retentionDays : Nat) (rows : List QueryStat) : List QueryStat :=
  rows.filter fun row => !before row.capturedAt (datetimeBefore now retentionDays)

def rotateResults (now : Instant) (taskId : String) (retentionDays : Nat)
    (rows : List HealthCheckResult) : List HealthCheckResult :=
  rows.filter fun row =>
    !(decide (row.taskId = taskId) && before row.startedAt (datetimeBefore now retentionDays))

def age (now : Instant) (stamp : Timestamp) : Int := now.nanos - stamp.instant.nanos

def dayLength : Int := 86400000000000

/-! ## The threshold -/

variable {now : Instant} {stamp : Timestamp} {days : Nat}

theorem digit_not_lt_minus (n : Int) (xs ys : List Char) : ¬ digit n :: xs < '-' :: ys := by
  rw [List.cons_lt_cons_iff, not_or]
  have hdigit := toNat_digit n
  have hminus : '-'.toNat = 45 := rfl
  constructor
  · intro hlt
    have hless : (digit n).toNat < '-'.toNat := hlt
    omega
  · rintro ⟨heq, -⟩
    rw [heq] at hdigit
    omega

theorem datetimeBefore_of_year (h0 : -719528 * 86400 ≤ now.second - days * 86400) :
    datetimeBefore now days = some (format ' ' [] (now.second - days * 86400)) := by
  have hnow := (four_digit_year_iff _).mp now.fourDigits
  have hsecond : now.second = now.nanos / 1000000000 := rfl
  have hyear : 0 ≤ (dateOfDay ((now.second - days * 86400) / 86400)).year ∧
      (dateOfDay ((now.second - days * 86400) / 86400)).year < 10000 := by
    rw [four_digit_year_iff]
    omega
  have hlimit : ¬ (dayLimit ≤ days ∨ now.second - days * 86400 < -210866760000 ∨
      253402300800 ≤ now.second - days * 86400) := by
    unfold dayLimit
    omega
  unfold datetimeBefore
  rw [if_neg hlimit, if_neg (by omega)]

theorem not_text_lt {t : Int} (h0 : 0 ≤ (dateOfDay (t / 86400)).year)
    (h : t ≤ stamp.instant.second) : ¬ stamp.text < format ' ' [] t := by
  have hyear := stamp.instant.fourDigits
  unfold Timestamp.text
  cases stamp.writer with
  | chrono =>
      apply List.lt_asymm
      by_cases hday : t / 86400 < stamp.instant.second / 86400
      · exact format_lt_of_day h0 hyear.2 hday
      · exact format_lt_of_separator (by decide) _ _ (by omega)
  | sqlite =>
      rcases Int.lt_or_eq_of_le h with hlt | heq
      · apply List.lt_asymm
        exact format_lt ' ' [] h0 hyear.2 hlt
      · rw [heq]
        exact List.lt_irrefl _

theorem not_before_of_age (h : age now stamp ≤ days * dayLength) :
    before stamp (datetimeBefore now days) = false := by
  have hage : now.second - days * 86400 ≤ stamp.instant.second := by
    unfold age dayLength at h
    unfold Instant.second
    omega
  unfold datetimeBefore
  simp only []
  split
  case isTrue => rfl
  case isFalse hin =>
    split
    case isTrue =>
      -- a year before 0 is written with a sign, which is less than every digit
      apply decide_eq_false
      unfold Timestamp.text
      cases stamp.writer <;> exact digit_not_lt_minus _ _ _
    case isFalse hsigned =>
      rw [not_lt] at hsigned
      exact decide_eq_false (not_text_lt hsigned hage)

theorem before_of_age (h : days * dayLength + dayLength < age now stamp) :
    before stamp (datetimeBefore now days) = true := by
  have hyear := (four_digit_year_iff _).mp stamp.instant.fourDigits
  have hnow := now.fourDigits
  have hsecond : stamp.instant.second = stamp.instant.nanos / 1000000000 := rfl
  have hage : stamp.instant.second + 86400 ≤ now.second - days * 86400 := by
    unfold age dayLength at h
    unfold Instant.second
    omega
  have hlast : (dateOfDay ((now.second - days * 86400) / 86400)).year < 10000 :=
    lt_of_le_of_lt (year_mono (show _ ≤ now.nanos / 1000000000 / 86400 by
      unfold Instant.second
      omega)) hnow.2
  rw [datetimeBefore_of_year (by omega)]
  apply decide_eq_true
  unfold Timestamp.text
  cases stamp.writer <;>
    exact format_lt_of_day stamp.instant.fourDigits.1 hlast (by omega)

/-! ## Deletion by age -/

/-- A run of either deletes no row up to its retention and every row more than a day
beyond it; of another task none. -/
theorem rotate_by_age (now : Instant) (retentionDays : Nat) :
    (∀ rows : List QueryStat, ∀ row ∈ rows,
      (age now row.capturedAt ≤ retentionDays * dayLength → row ∈ rotate now retentionDays rows) ∧
      (retentionDays * dayLength + dayLength < age now row.capturedAt →
        row ∉ rotate now retentionDays rows)) ∧
    (∀ (taskId : String) (rows : List HealthCheckResult), ∀ row ∈ rows,
      (row.taskId ≠ taskId ∨ age now row.startedAt ≤ retentionDays * dayLength →
        row ∈ rotateResults now taskId retentionDays rows) ∧
      (row.taskId = taskId → retentionDays * dayLength + dayLength < age now row.startedAt →
        row ∉ rotateResults now taskId retentionDays rows)) := by
  refine ⟨fun rows row hrow => ⟨fun hage => ?_, fun hage hmem => ?_⟩,
    fun taskId rows row hrow => ⟨fun hkept => ?_, fun htask hage hmem => ?_⟩⟩
  · apply List.mem_filter.mpr
    rw [not_before_of_age hage]
    exact ⟨hrow, rfl⟩
  · have hkept := (List.mem_filter.mp hmem).2
    rw [before_of_age hage] at hkept
    cases hkept
  · apply List.mem_filter.mpr
    refine ⟨hrow, ?_⟩
    rcases hkept with htask | hage
    · rw [decide_eq_false htask]
      rfl
    · rw [not_before_of_age hage, Bool.and_false]
      rfl
  · have hkept := (List.mem_filter.mp hmem).2
    rw [decide_eq_true htask, before_of_age hage] at hkept
    cases hkept

/-- 2026-02-01T12:00:00Z -/
def february : Instant := ⟨1769947200000000000, by decide⟩

/-- 2026-01-02T23:59:59.999Z -/
def januarySecond : Instant := ⟨1767398399999000000, by decide⟩

/-- 2025-12-31T00:00:00Z -/
def december : Instant := ⟨1767139200000000000, by decide⟩

example : toRfc3339 januarySecond = "2026-01-02T23:59:59.999+00:00".toList := by decide

example : datetimeBefore february 30 = some "2026-01-02 12:00:00".toList := by decide

theorem rotate_by_age_february :
    ⟨"a", januarySecond, .chrono⟩ ∈ rotate february 30
        [⟨"b", december, .sqlite⟩, ⟨"a", januarySecond, .chrono⟩] ∧
      ⟨"b", december, .sqlite⟩ ∉ rotate february 30
        [⟨"b", december, .sqlite⟩, ⟨"a", januarySecond, .chrono⟩] :=
  ⟨((rotate_by_age february 30).1 _ _ (by simp)).1 (by decide),
    ((rotate_by_age february 30).1 _ _ (by simp)).2 (by decide)⟩

end Dbmaster.QueryStats.Rotate
