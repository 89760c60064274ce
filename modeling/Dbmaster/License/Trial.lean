import Dbmaster.License.Entitlement
import Dbmaster.Lib.CivilTime
/-!
# The trial window

`get_or_create_instance` and `ensure_trial_status` on the table `instance_meta`, one call
after the other, each at the time that its clock shows.
-/

namespace Dbmaster.License.Trial

open Dbmaster.Lib Dbmaster.License.Format Dbmaster.License.Entitlement

structure InstanceMeta where
  installUuid : String
  createdAt : List Char
  trialStartedAt : Option (List Char)
  trialExpiresAt : Option (List Char)

def trialDays : Int := 14

def trialLength : Int := trialDays * 86400000000000

/-- The `chrono` library; `checkedAdd` has no value where the sum is out of its range. -/
structure Chrono where
  checkedAdd : Int → Int → Option Int
  toRfc3339 : Int → List Char
  parseFromRfc3339 : List Char → Option Int

/-- Years with more than four digits are printed but not read. -/
structure Chrono.Lawful (chrono : Chrono) : Prop where
  adds : ∀ t d u, chrono.checkedAdd t d = some u → u = t + d
  prints : ∀ t, chrono.parseFromRfc3339 (chrono.toRfc3339 t) = some t ∨
    chrono.parseFromRfc3339 (chrono.toRfc3339 t) = none

section Calls

variable (chrono : Chrono)

def classify (startedRaw expiresRaw : List Char) (now : Int) : Option TrialStatus := do
  let expires ← chrono.parseFromRfc3339 expiresRaw
  let _ ← chrono.parseFromRfc3339 startedRaw
  if now < expires then some (.active expires) else some .expired

/-- There is no status where the call fails. -/
def startTrial (table : List InstanceMeta) (now : Int) :
    Option TrialStatus × List InstanceMeta :=
  match chrono.checkedAdd now trialLength with
  | none => (none, table)
  | some expires =>
      if table.isEmpty then (none, table)
      else
        (some (.active expires), table.map fun row =>
          { row with
            trialStartedAt := some (chrono.toRfc3339 now)
            trialExpiresAt := some (chrono.toRfc3339 expires) })

def ensureTrialStatus (table : List InstanceMeta) (now : Int) :
    Option TrialStatus × List InstanceMeta :=
  match table.head? with
  | none => (some .notStarted, table)
  | some row =>
      match row.trialStartedAt, row.trialExpiresAt with
      | some startedRaw, some expiresRaw => (classify chrono startedRaw expiresRaw now, table)
      | none, none => startTrial chrono table now
      -- a partly written row is initialised again
      | _, _ => startTrial chrono table now

def getOrCreateInstance (table : List InstanceMeta) (installUuid : String) (now : Int) :
    List InstanceMeta :=
  match table.head? with
  | some _ => table
  | none => table ++ [⟨installUuid, chrono.toRfc3339 now, none, none⟩]

inductive Call where
  | getOrCreateInstance (installUuid : String) (now : Int)
  | ensureTrialStatus (now : Int)

abbrev Report := Int × Option TrialStatus

/-- The reports of `ensure_trial_status`, each with its time, and the table at the end. -/
def run : List InstanceMeta → List Call → List Report × List InstanceMeta
  | table, [] => ([], table)
  | table, .getOrCreateInstance installUuid now :: calls =>
      run (getOrCreateInstance chrono table installUuid now) calls
  | table, .ensureTrialStatus now :: calls =>
      let called := ensureTrialStatus chrono table now
      let rest := run called.2 calls
      ((now, called.1) :: rest.1, rest.2)

end Calls

/-! ## What should hold -/

def trialTimes (reports : List Report) : List Int :=
  reports.filterMap fun report =>
    match report.2 with
    | some (.active _) => some report.1
    | _ => none

/-- No two of the times lie further apart. -/
def Within (length : Int) (times : List Int) : Prop :=
  ∀ t ∈ times, ∀ u ∈ times, u - t ≤ length

/-- The trial columns hold the window that starts at this instant. -/
def WindowAt (chrono : Chrono) (table : List InstanceMeta) (start : Int) : Prop :=
  ∃ row, table = [row] ∧ row.trialStartedAt = some (chrono.toRfc3339 start) ∧
    row.trialExpiresAt = some (chrono.toRfc3339 (start + trialLength))

/-- After the reports, a window that has been written stays as it is and decides with the
time alone what is reported; the trial is reported before its end only. -/
structure Kept (chrono : Chrono) (start : Int) (reports : List Report)
    (table : List InstanceMeta) : Prop where
  stays : ∀ later, (run chrono table later).2 = table
  decides : ∀ later now status, (now, status) ∈ (run chrono table later).1 →
    status = classify chrono (chrono.toRfc3339 start) (chrono.toRfc3339 (start + trialLength)) now
  ends : ∀ t ∈ trialTimes reports, t < start + trialLength
  within : Within trialLength ((trialTimes reports).filter fun t => start ≤ t)

/-! ## One call -/

variable {chrono : Chrono} {table : List InstanceMeta} {start now : Int}

theorem mem_trialTimes {reports : List Report} {t : Int} :
    t ∈ trialTimes reports ↔ ∃ expires, (t, some (.active expires)) ∈ reports := by
  rw [trialTimes, List.mem_filterMap]
  constructor
  · rintro ⟨⟨u, status⟩, hmem, hactive⟩
    split at hactive
    case h_1 expires hstatus =>
      cases hactive
      cases hstatus
      exact ⟨expires, hmem⟩
    case h_2 => cases hactive
  · rintro ⟨expires, hmem⟩
    exact ⟨_, hmem, rfl⟩

def Unset (table : List InstanceMeta) : Prop :=
  table = [] ∨ ∃ row, table = [row] ∧ row.trialStartedAt = none ∧ row.trialExpiresAt = none

theorem ensureTrialStatus_of_window (h : WindowAt chrono table start) (now : Int) :
    ensureTrialStatus chrono table now =
      (classify chrono (chrono.toRfc3339 start) (chrono.toRfc3339 (start + trialLength)) now,
        table) := by
  obtain ⟨row, rfl, hstarted, hexpires⟩ := h
  simp only [ensureTrialStatus, List.head?_cons, hstarted, hexpires]

theorem getOrCreateInstance_of_window (h : WindowAt chrono table start) (installUuid : String)
    (now : Int) : getOrCreateInstance chrono table installUuid now = table := by
  obtain ⟨row, rfl, -, -⟩ := h
  rfl

theorem getOrCreateInstance_of_unset (h : Unset table) (installUuid : String) (now : Int) :
    Unset (getOrCreateInstance chrono table installUuid now) := by
  rcases h with rfl | ⟨row, rfl, hnone⟩
  · exact Or.inr ⟨_, rfl, rfl, rfl⟩
  · exact Or.inr ⟨row, rfl, hnone⟩

theorem ensureTrialStatus_of_unset (hlaw : chrono.Lawful) (h : Unset table) (now : Int) :
    (ensureTrialStatus chrono table now).1 = some (.active (now + trialLength)) ∧
        WindowAt chrono (ensureTrialStatus chrono table now).2 now ∨
      (∀ expires, (ensureTrialStatus chrono table now).1 ≠ some (.active expires)) ∧
        Unset (ensureTrialStatus chrono table now).2 := by
  rcases h with rfl | ⟨row, rfl, hstarted, hexpires⟩
  · exact Or.inr ⟨nofun, Or.inl rfl⟩
  · have hcall : ensureTrialStatus chrono [row] now = startTrial chrono [row] now := by
      simp only [ensureTrialStatus, List.head?_cons, hstarted, hexpires]
    rw [hcall, startTrial]
    cases hadd : chrono.checkedAdd now trialLength with
    | none => exact Or.inr ⟨nofun, Or.inr ⟨row, rfl, hstarted, hexpires⟩⟩
    | some expires =>
        obtain rfl := hlaw.adds _ _ _ hadd
        exact Or.inl ⟨rfl, _, rfl, rfl, rfl⟩

theorem lt_of_classify (hlaw : chrono.Lawful) {startedRaw : List Char} {expires e : Int}
    (h : classify chrono startedRaw (chrono.toRfc3339 expires) now = some (.active e)) :
    now < expires := by
  unfold classify at h
  obtain ⟨read, hread, hrest⟩ := Option.bind_eq_some_iff.mp h
  obtain ⟨_, -, hstatus⟩ := Option.bind_eq_some_iff.mp hrest
  have hsame : read = expires := by
    rcases hlaw.prints expires with hprint | hprint
    · exact Option.some.inj (hread.symm.trans hprint)
    · rw [hprint] at hread
      cases hread
  split at hstatus
  case isTrue hlt => rwa [hsame] at hlt
  case isFalse => cases hstatus

/-! ## Sequences of calls -/

theorem run_of_window (h : WindowAt chrono table start) (calls : List Call) :
    (run chrono table calls).2 = table ∧
      ∀ now status, (now, status) ∈ (run chrono table calls).1 →
        status = classify chrono (chrono.toRfc3339 start)
          (chrono.toRfc3339 (start + trialLength)) now := by
  induction calls with
  | nil => exact ⟨rfl, nofun⟩
  | cons call calls ih =>
      cases call with
      | getOrCreateInstance installUuid now =>
          rw [run, getOrCreateInstance_of_window h]
          exact ih
      | ensureTrialStatus now =>
          simp only [run, ensureTrialStatus_of_window h]
          refine ⟨ih.1, ?_⟩
          intro t status hmem
          rcases List.mem_cons.mp hmem with heq | hlater
          · cases heq
            rfl
          · exact ih.2 t status hlater

theorem lt_of_window (hlaw : chrono.Lawful) (h : WindowAt chrono table start)
    (calls : List Call) : ∀ t ∈ trialTimes (run chrono table calls).1, t < start + trialLength := by
  intro t ht
  obtain ⟨expires, hmem⟩ := mem_trialTimes.mp ht
  exact lt_of_classify hlaw ((run_of_window h calls).2 t _ hmem).symm

theorem run_of_unset (hlaw : chrono.Lawful) (h : Unset table) (calls : List Call) :
    trialTimes (run chrono table calls).1 = [] ∧ Unset (run chrono table calls).2 ∨
      ∃ start, WindowAt chrono (run chrono table calls).2 start ∧
        ∀ t ∈ trialTimes (run chrono table calls).1, t < start + trialLength := by
  induction calls generalizing table with
  | nil => exact Or.inl ⟨rfl, h⟩
  | cons call calls ih =>
      cases call with
      | getOrCreateInstance installUuid now =>
          rw [run]
          exact ih (getOrCreateInstance_of_unset h installUuid now)
      | ensureTrialStatus now =>
          simp only [run]
          rcases ensureTrialStatus_of_unset hlaw h now with ⟨hactive, hwindow⟩ | ⟨hnone, hunset⟩
          · right
            refine ⟨now, ?_, ?_⟩
            · rw [(run_of_window hwindow calls).1]
              exact hwindow
            · intro t ht
              obtain ⟨expires, hmem⟩ := mem_trialTimes.mp ht
              rcases List.mem_cons.mp hmem with heq | hlater
              · have hlength : 0 < trialLength := by decide
                have hnow : t = now := (Prod.mk.inj heq).1
                omega
              · exact lt_of_window hlaw hwindow calls t (mem_trialTimes.mpr ⟨expires, hlater⟩)
          · have hskip : trialTimes ((now, (ensureTrialStatus chrono table now).1) ::
                (run chrono (ensureTrialStatus chrono table now).2 calls).1) =
                trialTimes (run chrono (ensureTrialStatus chrono table now).2 calls).1 := by
              cases hstatus : (ensureTrialStatus chrono table now).1 with
              | none => rfl
              | some status =>
                  cases status with
                  | active expires => exact absurd hstatus (hnone expires)
                  | expired => rfl
                  | notStarted => rfl
            rw [hskip]
            exact ih hunset

theorem within_of_lt {times : List Int} (h : ∀ t ∈ times, t < start + trialLength) :
    Within trialLength (times.filter fun t => start ≤ t) := by
  intro t ht u hu
  have hstart := of_decide_eq_true (List.mem_filter.mp ht).2
  have hend := h u (List.mem_filter.mp hu).1
  omega

/-- The window of an instance that started without one. -/
theorem trial_window_kept (hlaw : chrono.Lawful) (calls : List Call) :
    (trialTimes (run chrono [] calls).1 = [] ∧ Unset (run chrono [] calls).2) ∨
      ∃ start, WindowAt chrono (run chrono [] calls).2 start ∧
        Kept chrono start (run chrono [] calls).1 (run chrono [] calls).2 := by
  rcases run_of_unset hlaw (Or.inl rfl) calls with hnever | ⟨start, hwindow, hlt⟩
  · exact Or.inl hnever
  · right
    refine ⟨start, hwindow, ?_⟩
    constructor
    case stays => exact fun later => (run_of_window hwindow later).1
    case decides => exact fun later => (run_of_window hwindow later).2
    case ends => exact hlt
    case within => exact within_of_lt hlt

/-! ## A clock that is set back -/

/-- The calendar of UTC on whole seconds; no other instant has a text that is read. -/
def civil : Chrono where
  checkedAdd t d := some (t + d)
  toRfc3339 t :=
    let year := (CivilTime.dateOfDay (t / 1000000000 / 86400)).year
    if t % 1000000000 = 0 ∧ 0 ≤ year ∧ year < 10000 then
      CivilTime.format 'T' "+00:00".toList (t / 1000000000)
    else ['?']
  parseFromRfc3339 text := (CivilTime.parse 'T' "+00:00".toList text).map (· * 1000000000)

theorem civil_lawful : civil.Lawful where
  adds t d u h := (Option.some.inj h).symm
  prints t := by
    simp only [civil]
    split
    case isTrue h =>
      left
      rw [CivilTime.parse_format _ _ h.2.1 h.2.2, Option.map_some]
      congr 1
      omega
    case isFalse =>
      right
      rw [CivilTime.parse_sign _ _ (by decide), Option.map_none]

def january : Int := 1768953600000000000

/-- A start on 21 January, and a call with the clock set back to the first. -/
def setBack : List Call :=
  [.getOrCreateInstance "u" january, .ensureTrialStatus january,
    .ensureTrialStatus (january - 20 * 86400000000000)]

theorem trial_reported_before_start :
    ¬ ∀ calls, Within trialLength (trialTimes (run civil [] calls).1) := by
  intro hall
  have hspan : january - (january - 20 * 86400000000000) ≤ trialLength :=
    hall setBack _ (by decide +kernel) january (by decide +kernel)
  exact absurd hspan (by decide)

/-- Both calls report the trial, and the window stays the one that the first of them wrote. -/
theorem trial_window_kept_setBack :
    trialTimes (run civil [] setBack).1 = [january, january - 20 * 86400000000000] ∧
      ∃ start, WindowAt civil (run civil [] setBack).2 start ∧
        civil.toRfc3339 start = "2026-01-21T00:00:00+00:00".toList ∧
        Kept civil start (run civil [] setBack).1 (run civil [] setBack).2 := by
  have htimes : trialTimes (run civil [] setBack).1 =
      [january, january - 20 * 86400000000000] := by decide +kernel
  rcases trial_window_kept civil_lawful setBack with ⟨hnone, -⟩ | ⟨start, hwindow, hkept⟩
  · rw [htimes] at hnone
    cases hnone
  · refine ⟨htimes, start, hwindow, ?_, hkept⟩
    obtain ⟨row, htable, hstart, -⟩ := hwindow
    have hwritten : (run civil [] setBack).2.map InstanceMeta.trialStartedAt =
        [some "2026-01-21T00:00:00+00:00".toList] := by decide +kernel
    rw [htable, List.map_singleton, List.singleton_inj, hstart] at hwritten
    exact Option.some.inj hwritten

end Dbmaster.License.Trial
