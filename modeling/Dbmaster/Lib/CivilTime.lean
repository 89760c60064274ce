import Mathlib.Data.Int.Order.Basic
import Mathlib.Data.List.Lex
import Mathlib.Tactic.IntervalCases
/-!
# Civil time in UTC

Instants are seconds since 1970-01-01T00:00:00Z in the proleptic Gregorian
calendar.  The year of the calculation starts on 1 March, so that the leap day
is its last one, and an era is 400 of these years or 146097 days.
-/

namespace Dbmaster.Lib.CivilTime

/-! ## Days and dates -/

structure Date where
  year : Int
  month : Int
  day : Int
deriving DecidableEq

/-- The year of the era that contains the day `doe` of it. -/
def yearOfEra (doe : Int) : Int :=
  (doe - doe / 1460 + doe / 36524 - doe / 146096) / 365

def dayOfYear (doe : Int) : Int :=
  doe - (365 * yearOfEra doe + yearOfEra doe / 4 - yearOfEra doe / 100)

/-- The date of the day `doy` of the year that starts on 1 March of `year`. -/
def dateOfYear (year doy : Int) : Date :=
  let mp := (5 * doy + 2) / 153
  let month := if mp < 10 then mp + 3 else mp - 9
  { year := if month ≤ 2 then year + 1 else year
    month := month
    day := doy - (153 * mp + 2) / 5 + 1 }

/-- The date of a day, counted from 1970-01-01. -/
def dateOfDay (n : Int) : Date :=
  let doe := (n + 719468) % 146097
  dateOfYear (yearOfEra doe + (n + 719468) / 146097 * 400) (dayOfYear doe)

def dayOfDate (date : Date) : Int :=
  let year := if date.month ≤ 2 then date.year - 1 else date.year
  let yoe := year % 400
  let mp := (date.month + 9) % 12
  let doy := (153 * mp + 2) / 5 + date.day - 1
  year / 400 * 146097 + (yoe * 365 + yoe / 4 - yoe / 100 + doy) - 719468

theorem yearOfEra_bounds {doe : Int} (h0 : 0 ≤ doe) (h1 : doe < 146097) :
    0 ≤ yearOfEra doe ∧ yearOfEra doe ≤ 399 := by
  unfold yearOfEra
  omega

/-- Within one century the day of the year comes out right. -/
theorem dayOfYear_century {r : Int} (h0 : 0 ≤ r) (h1 : r < 36524) (c : Int)
    (hc0 : 0 ≤ c) (hc3 : c ≤ 3) :
    0 ≤ dayOfYear (36524 * c + r) ∧ dayOfYear (36524 * c + r) ≤ 365 := by
  have hcentury : yearOfEra (36524 * c + r) / 100 = c := by
    unfold yearOfEra
    interval_cases c <;> omega
  unfold dayOfYear
  rw [hcentury]
  unfold yearOfEra
  interval_cases c <;> constructor <;> omega

theorem dayOfYear_bounds {doe : Int} (h0 : 0 ≤ doe) (h1 : doe < 146097) :
    0 ≤ dayOfYear doe ∧ dayOfYear doe ≤ 365 := by
  by_cases hlast : doe = 146096
  · subst hlast
    decide
  · have hsplit : 36524 * (doe / 36524) + doe % 36524 = doe := by omega
    have h : 0 ≤ doe % 36524 ∧ doe % 36524 < 36524 := by omega
    have hcentury := dayOfYear_century h.1 h.2 (doe / 36524) (by omega) (by omega)
    rwa [hsplit] at hcentury

theorem dateOfDay_bounds (n : Int) :
    1 ≤ (dateOfDay n).month ∧ (dateOfDay n).month ≤ 12 ∧
      1 ≤ (dateOfDay n).day ∧ (dateOfDay n).day ≤ 31 := by
  have hday : 0 ≤ dayOfYear ((n + 719468) % 146097) ∧ dayOfYear ((n + 719468) % 146097) ≤ 365 :=
    dayOfYear_bounds (by omega) (by omega)
  simp only [dateOfDay, dateOfYear]
  generalize dayOfYear ((n + 719468) % 146097) = doy at hday
  split <;> omega

theorem dayOfDate_dateOfYear (year : Int) {doy : Int} (h0 : 0 ≤ doy) (h1 : doy ≤ 365) :
    dayOfDate (dateOfYear year doy) =
      year / 400 * 146097 + (year % 400 * 365 + year % 400 / 4 - year % 400 / 100 + doy) -
        719468 := by
  have hmp : 0 ≤ (5 * doy + 2) / 153 ∧ (5 * doy + 2) / 153 ≤ 11 := by omega
  simp only [dateOfYear, dayOfDate]
  by_cases hlt : (5 * doy + 2) / 153 < 10
  · have hmonth : ¬ (5 * doy + 2) / 153 + 3 ≤ 2 := by omega
    have hback : ((5 * doy + 2) / 153 + 3 + 9) % 12 = (5 * doy + 2) / 153 := by omega
    simp only [if_pos hlt, if_neg hmonth, hback]
    omega
  · have hmonth : (5 * doy + 2) / 153 - 9 ≤ 2 := by omega
    have hback : ((5 * doy + 2) / 153 - 9 + 9) % 12 = (5 * doy + 2) / 153 := by omega
    have hyear : year + 1 - 1 = year := by omega
    simp only [if_neg hlt, if_pos hmonth, hback, hyear]
    omega

/-- The date determines the day. -/
theorem dayOfDate_dateOfDay (n : Int) : dayOfDate (dateOfDay n) = n := by
  have hyear : 0 ≤ yearOfEra ((n + 719468) % 146097) ∧
      yearOfEra ((n + 719468) % 146097) ≤ 399 :=
    yearOfEra_bounds (by omega) (by omega)
  have hday : 0 ≤ dayOfYear ((n + 719468) % 146097) ∧ dayOfYear ((n + 719468) % 146097) ≤ 365 :=
    dayOfYear_bounds (by omega) (by omega)
  rw [dateOfDay, dayOfDate_dateOfYear _ hday.1 hday.2, dayOfYear]
  generalize yearOfEra ((n + 719468) % 146097) = yoe at hyear
  have hquot : (yoe + (n + 719468) / 146097 * 400) / 400 = (n + 719468) / 146097 := by omega
  have hrem : (yoe + (n + 719468) / 146097 * 400) % 400 = yoe := by omega
  rw [hquot, hrem]
  omega

/-! ## The order of dates -/

def Date.Before (a b : Date) : Prop :=
  a.year < b.year ∨ a.year = b.year ∧ (a.month < b.month ∨ a.month = b.month ∧ a.day < b.day)

theorem yearOfEra_mono {doe doe' : Int} (h : doe ≤ doe') :
    yearOfEra doe ≤ yearOfEra doe' := by
  have hday : doe - doe / 1460 + doe / 36524 - doe / 146096 ≤
      doe' - doe' / 1460 + doe' / 36524 - doe' / 146096 := by omega
  exact Int.ediv_le_ediv (by decide) hday

/-- Later in one year that starts on 1 March. -/
theorem dateOfYear_before_of_doy (year : Int) {doy doy' : Int} (h0 : 0 ≤ doy) (h : doy < doy')
    (h1 : doy' ≤ 365) : (dateOfYear year doy).Before (dateOfYear year doy') := by
  simp only [Date.Before, dateOfYear]
  split <;> split <;> split <;> split <;> omega

/-- In a later one of these years. -/
theorem dateOfYear_before_of_year {year year' doy doy' : Int} (h : year < year')
    (h0 : 0 ≤ doy) (h1 : doy ≤ 365) (h0' : 0 ≤ doy') (h1' : doy' ≤ 365) :
    (dateOfYear year doy).Before (dateOfYear year' doy') := by
  simp only [Date.Before, dateOfYear]
  split <;> split <;> split <;> split <;> omega

theorem dateOfDay_before {n m : Int} (h : n < m) : (dateOfDay n).Before (dateOfDay m) := by
  have hdoe : 0 ≤ (n + 719468) % 146097 ∧ (n + 719468) % 146097 < 146097 := by omega
  have hdoe' : 0 ≤ (m + 719468) % 146097 ∧ (m + 719468) % 146097 < 146097 := by omega
  have hday := dayOfYear_bounds hdoe.1 hdoe.2
  have hday' := dayOfYear_bounds hdoe'.1 hdoe'.2
  have hyoe := yearOfEra_bounds hdoe.1 hdoe.2
  have hyoe' := yearOfEra_bounds hdoe'.1 hdoe'.2
  simp only [dateOfDay]
  by_cases hera : (n + 719468) / 146097 < (m + 719468) / 146097
  · exact dateOfYear_before_of_year (by omega) hday.1 hday.2 hday'.1 hday'.2
  · have hsame : (n + 719468) / 146097 = (m + 719468) / 146097 := by omega
    have hlt : (n + 719468) % 146097 < (m + 719468) % 146097 := by omega
    have hmono := yearOfEra_mono (Int.le_of_lt hlt)
    by_cases hyear : yearOfEra ((n + 719468) % 146097) < yearOfEra ((m + 719468) % 146097)
    · exact dateOfYear_before_of_year (by omega) hday.1 hday.2 hday'.1 hday'.2
    · have heq : yearOfEra ((n + 719468) % 146097) = yearOfEra ((m + 719468) % 146097) := by omega
      rw [hsame, heq]
      refine dateOfYear_before_of_doy _ hday.1 ?_ hday'.2
      rw [dayOfYear, dayOfYear, heq]
      omega

theorem year_mono {n m : Int} (h : n ≤ m) : (dateOfDay n).year ≤ (dateOfDay m).year := by
  rcases Int.lt_or_eq_of_le h with hlt | rfl
  · rcases dateOfDay_before hlt with hyear | ⟨hyear, -⟩ <;> omega
  · exact le_rfl

/-- The days of the years 0 to 9999. -/
theorem four_digit_year_iff (n : Int) :
    (0 ≤ (dateOfDay n).year ∧ (dateOfDay n).year < 10000) ↔ -719528 ≤ n ∧ n ≤ 2932896 := by
  have hfirst : (dateOfDay (-719528)).year = 0 := by decide
  have hbefore : (dateOfDay (-719529)).year = -1 := by decide
  have hlast : (dateOfDay 2932896).year = 9999 := by decide
  have hafter : (dateOfDay 2932897).year = 10000 := by decide
  constructor
  · rintro ⟨h0, h1⟩
    constructor
    · by_contra hlt
      have := year_mono (show n ≤ -719529 by omega)
      omega
    · by_contra hlt
      have := year_mono (show 2932897 ≤ n by omega)
      omega
  · rintro ⟨h0, h1⟩
    have hlow := year_mono h0
    have hhigh := year_mono h1
    omega

/-! ## Texts -/

def digit (n : Int) : Char := Char.ofNat (48 + (n % 10).toNat)

def digitVal (c : Char) : Option Int :=
  if 48 ≤ c.toNat ∧ c.toNat ≤ 57 then some (c.toNat - 48 : Int) else none

def two (n : Int) : List Char := [digit (n / 10), digit n]

def four (n : Int) : List Char := [digit (n / 1000), digit (n / 100), digit (n / 10), digit n]

theorem digitVal_digit (n : Int) : digitVal (digit n) = some (n % 10) := by
  have hall : ∀ k < 10, digitVal (Char.ofNat (48 + k)) = some (k : Int) := by decide
  have hk := hall (n % 10).toNat (by omega)
  rw [digit, hk]
  congr 1
  omega

def number (cs : List Char) : Option Int :=
  cs.foldl (fun acc c => acc.bind fun n => (digitVal c).map (10 * n + ·)) (some 0)

theorem number_two {n : Int} (h0 : 0 ≤ n) (h1 : n < 100) : number (two n) = some n := by
  simp only [number, two, List.foldl, digitVal_digit, Option.bind_some, Option.map_some]
  congr 1
  omega

theorem number_four {n : Int} (h0 : 0 ≤ n) (h1 : n < 10000) : number (four n) = some n := by
  simp only [number, four, List.foldl, digitVal_digit, Option.bind_some, Option.map_some]
  congr 1
  omega

/-- The text of an instant whose year has four digits, with the given
separator before the time and zone after it. -/
def format (separator : Char) (zone : List Char) (t : Int) : List Char :=
  let date := dateOfDay (t / 86400)
  let sod := t % 86400
  four date.year ++ '-' :: two date.month ++ '-' :: two date.day ++ separator ::
    two (sod / 3600) ++ ':' :: two (sod / 60 % 60) ++ ':' :: two (sod % 60) ++ zone

/-- The instant a text denotes, if it is exactly the text of one. -/
def parse (separator : Char) (zone : List Char) (text : List Char) : Option Int := do
  let year ← number (text.take 4)
  let month ← number ((text.drop 5).take 2)
  let day ← number ((text.drop 8).take 2)
  let hour ← number ((text.drop 11).take 2)
  let minute ← number ((text.drop 14).take 2)
  let second ← number ((text.drop 17).take 2)
  let t := dayOfDate ⟨year, month, day⟩ * 86400 + hour * 3600 + minute * 60 + second
  if format separator zone t = text then some t else none

theorem parse_format (separator : Char) (zone : List Char) {t : Int}
    (h0 : 0 ≤ (dateOfDay (t / 86400)).year) (h1 : (dateOfDay (t / 86400)).year < 10000) :
    parse separator zone (format separator zone t) = some t := by
  obtain ⟨hm0, hm1, hd0, hd1⟩ := dateOfDay_bounds (t / 86400)
  have hyear : number ((format separator zone t).take 4) =
      some (dateOfDay (t / 86400)).year := number_four h0 h1
  have hmonth : number (((format separator zone t).drop 5).take 2) =
      some (dateOfDay (t / 86400)).month := number_two (by omega) (by omega)
  have hday : number (((format separator zone t).drop 8).take 2) =
      some (dateOfDay (t / 86400)).day := number_two (by omega) (by omega)
  have hhour : number (((format separator zone t).drop 11).take 2) =
      some (t % 86400 / 3600) := number_two (by omega) (by omega)
  have hminute : number (((format separator zone t).drop 14).take 2) =
      some (t % 86400 / 60 % 60) := number_two (by omega) (by omega)
  have hsecond : number (((format separator zone t).drop 17).take 2) =
      some (t % 86400 % 60) := number_two (by omega) (by omega)
  have hback : dayOfDate (dateOfDay (t / 86400)) * 86400 + t % 86400 / 3600 * 3600 +
      t % 86400 / 60 % 60 * 60 + t % 86400 % 60 = t := by
    rw [dayOfDate_dateOfDay]
    omega
  simp only [parse, hyear, hmonth, hday, hhour, hminute, hsecond, Option.bind_eq_bind,
    Option.bind_some, hback, if_true]

/-- After a character that is no digit there is no number. -/
theorem number_none (cs : List Char) : cs.foldl (fun acc c => acc.bind fun n =>
    (digitVal c).map (10 * n + ·)) (none : Option Int) = none := by
  induction cs with
  | nil => rfl
  | cons c cs ih => exact ih

/-- A text with a sign in front denotes nothing. -/
theorem parse_sign (separator : Char) (zone : List Char) {c : Char} {text : List Char}
    (hc : digitVal c = none) : parse separator zone (c :: text) = none := by
  have hyear : number ((c :: text).take 4) = none := by
    rw [List.take_succ_cons, number, List.foldl_cons, Option.bind_some, hc]
    exact number_none _
  simp only [parse, hyear, Option.bind_eq_bind, Option.bind_none]

example : parse 'T' "+00:00".toList "2026-02-28T23:59:59+00:00".toList = some 1772323199 := by
  decide

/-! ## The order of texts -/

theorem toNat_digit (n : Int) : (digit n).toNat = 48 + (n % 10).toNat := by
  have hall : ∀ k < 10, (Char.ofNat (48 + k)).toNat = 48 + k := by decide
  exact hall (n % 10).toNat (by omega)

theorem digit_lt {a b : Int} (h : a % 10 < b % 10) : digit a < digit b := by
  show (digit a).toNat < (digit b).toNat
  rw [toNat_digit, toNat_digit]
  omega

theorem digit_congr {a b : Int} (h : a % 10 = b % 10) : digit a = digit b := by
  rw [digit, digit, h]

theorem digit_cons_lt {a b : Int} {xs ys : List Char} (h : a % 10 < b % 10 ∨
    a % 10 = b % 10 ∧ xs < ys) : digit a :: xs < digit b :: ys := by
  rw [List.cons_lt_cons_iff]
  rcases h with hlt | ⟨heq, hrest⟩
  · exact .inl (digit_lt hlt)
  · exact .inr ⟨digit_congr heq, hrest⟩

theorem two_append_lt {a b : Int} {xs ys : List Char} (h0 : 0 ≤ a) (h1 : b < 100)
    (h : a < b ∨ a = b ∧ xs < ys) : two a ++ xs < two b ++ ys := by
  apply digit_cons_lt
  rcases h with hlt | ⟨rfl, hrest⟩
  · by_cases htens : a / 10 < b / 10
    · left
      omega
    · right
      exact ⟨by omega, digit_cons_lt (.inl (by omega))⟩
  · exact .inr ⟨rfl, digit_cons_lt (.inr ⟨rfl, hrest⟩)⟩

theorem four_append_lt {a b : Int} {xs ys : List Char} (h0 : 0 ≤ a) (h1 : b < 10000)
    (h : a < b ∨ a = b ∧ xs < ys) : four a ++ xs < four b ++ ys := by
  have hfour : ∀ (n : Int) (zs : List Char),
      four n ++ zs = two (n / 100) ++ (two (n % 100) ++ zs) := by
    intro n zs
    simp only [four, two, digit, List.cons_append, List.nil_append]
    rw [show n / 100 / 10 = n / 1000 by omega, show n % 100 / 10 % 10 = n / 10 % 10 by omega,
      show n % 100 % 10 = n % 10 by omega]
  rw [hfour, hfour]
  rcases h with hlt | ⟨rfl, hrest⟩
  · by_cases hcentury : a / 100 < b / 100
    · exact two_append_lt (by omega) (by omega) (.inl hcentury)
    · refine two_append_lt (by omega) (by omega) (.inr ⟨by omega, ?_⟩)
      exact two_append_lt (by omega) (by omega) (.inl (by omega))
  · refine two_append_lt (by omega) (by omega) (.inr ⟨rfl, ?_⟩)
    exact two_append_lt (by omega) (by omega) (.inr ⟨rfl, hrest⟩)

theorem cons_lt_of_lt (c : Char) {xs ys : List Char} (h : xs < ys) : c :: xs < c :: ys :=
  List.cons_lt_cons_iff.mpr (.inr ⟨rfl, h⟩)

/-- The text of an earlier day is less, whatever follows the date. -/
theorem format_lt_of_day {separator separator' : Char} {zone zone' : List Char} {t u : Int}
    (h0 : 0 ≤ (dateOfDay (t / 86400)).year) (h1 : (dateOfDay (u / 86400)).year < 10000)
    (h : t / 86400 < u / 86400) : format separator zone t < format separator' zone' u := by
  obtain ⟨hm0, -, hd0, -⟩ := dateOfDay_bounds (t / 86400)
  obtain ⟨-, hm1, -, hd1⟩ := dateOfDay_bounds (u / 86400)
  simp only [format, List.append_assoc, List.cons_append]
  rcases dateOfDay_before h with hyear | ⟨hyear, hmonth | ⟨hmonth, hday⟩⟩
  · exact four_append_lt h0 h1 (.inl hyear)
  · refine four_append_lt h0 h1 (.inr ⟨hyear, cons_lt_of_lt _ ?_⟩)
    exact two_append_lt (by omega) (by omega) (.inl hmonth)
  · refine four_append_lt h0 h1 (.inr ⟨hyear, cons_lt_of_lt _ ?_⟩)
    refine two_append_lt (by omega) (by omega) (.inr ⟨hmonth, cons_lt_of_lt _ ?_⟩)
    exact two_append_lt (by omega) (by omega) (.inl hday)

/-- On one day the separators decide. -/
theorem format_lt_of_separator {separator separator' : Char} (hsep : separator < separator')
    (zone zone' : List Char) {t u : Int} (h : t / 86400 = u / 86400) :
    format separator zone t < format separator' zone' u := by
  simp only [format, List.append_assoc, List.cons_append, h]
  refine List.append_left_lt (cons_lt_of_lt _ (List.append_left_lt (cons_lt_of_lt _ ?_)))
  refine List.append_left_lt ?_
  exact List.cons_lt_cons_iff.mpr (.inl hsep)

/-- The texts of one zone sort as their instants. -/
theorem format_lt (separator : Char) (zone : List Char) {t u : Int}
    (h0 : 0 ≤ (dateOfDay (t / 86400)).year) (h1 : (dateOfDay (u / 86400)).year < 10000)
    (h : t < u) : format separator zone t < format separator zone u := by
  by_cases hday : t / 86400 < u / 86400
  · exact format_lt_of_day h0 h1 hday
  · have hsame : t / 86400 = u / 86400 := by omega
    simp only [format, List.append_assoc, List.cons_append]
    rw [hsame]
    refine List.append_left_lt (cons_lt_of_lt _ (List.append_left_lt (cons_lt_of_lt _ ?_)))
    refine List.append_left_lt (cons_lt_of_lt _ ?_)
    by_cases hhour : t % 86400 / 3600 < u % 86400 / 3600
    · exact two_append_lt (by omega) (by omega) (.inl hhour)
    · refine two_append_lt (by omega) (by omega) (.inr ⟨by omega, cons_lt_of_lt _ ?_⟩)
      by_cases hminute : t % 86400 / 60 % 60 < u % 86400 / 60 % 60
      · exact two_append_lt (by omega) (by omega) (.inl hminute)
      · refine two_append_lt (by omega) (by omega) (.inr ⟨by omega, cons_lt_of_lt _ ?_⟩)
        exact two_append_lt (by omega) (by omega) (.inl (by omega))

/-! ## The range of a text -/

/-- The digits of a number bound it. -/
theorem number_bounds {cs : List Char} {n : Int} (h : number cs = some n) :
    0 ≤ n ∧ n < 10 ^ cs.length := by
  have hfold : ∀ (cs : List Char) (acc bound k : Int), 0 ≤ acc → acc < bound →
      cs.foldl (fun acc c => acc.bind fun n => (digitVal c).map (10 * n + ·)) (some acc) =
        some k → 0 ≤ k ∧ k < bound * 10 ^ cs.length := by
    intro cs
    induction cs with
    | nil =>
        intro acc bound k h0 h1 hk
        cases hk
        simpa using ⟨h0, h1⟩
    | cons c cs ih =>
        intro acc bound k h0 h1 hk
        rw [List.foldl_cons, Option.bind_some] at hk
        cases hval : digitVal c with
        | none =>
            rw [hval, Option.map_none, number_none] at hk
            cases hk
        | some d =>
            have hd : 0 ≤ d ∧ d ≤ 9 := by
              unfold digitVal at hval
              split at hval
              · cases hval
                omega
              · cases hval
            rw [hval, Option.map_some] at hk
            have := ih (10 * acc + d) (bound * 10) k (by omega) (by omega) hk
            rw [List.length_cons, pow_succ', ← mul_assoc]
            exact this
  simpa using hfold cs 0 1 n (by decide) (by decide) h

theorem number_take_bounds {cs : List Char} {k : Nat} {n : Int}
    (h : number (cs.take k) = some n) : 0 ≤ n ∧ n < 10 ^ k := by
  obtain ⟨h0, h1⟩ := number_bounds h
  refine ⟨h0, lt_of_lt_of_le h1 ?_⟩
  exact pow_le_pow_right₀ (by decide) (List.length_take_le k cs)

theorem parse_bounds {separator : Char} {zone text : List Char} {t : Int}
    (h : parse separator zone text = some t) : -100000000000 ≤ t ∧ t ≤ 400000000000 := by
  simp only [parse, Option.bind_eq_bind, Option.bind_eq_some_iff] at h
  obtain ⟨year, hyear, month, hmonth, day, hday, hour, hhour, minute, hminute, second, hsecond,
    hback⟩ := h
  have hy := number_take_bounds hyear
  have hmo := number_take_bounds hmonth
  have hd := number_take_bounds hday
  have hh := number_take_bounds hhour
  have hmi := number_take_bounds hminute
  have hs := number_take_bounds hsecond
  split at hback
  · cases hback
    simp only [dayOfDate]
    split <;> omega
  · cases hback

end Dbmaster.Lib.CivilTime
