import Mathlib.Tactic.ByContra
import Mathlib.Data.Option.Basic
/-!
# Walks that resume

A walk goes through the places `0, 1, …`; at the `busy` ones it does some work.
A leg that is cut off leaves the last busy place it was at, and the next leg
starts there; without such a place it starts over.  The last leg goes on to the
end.  Work is done once exactly when no leg that was cut off did any.
-/

namespace Dbmaster.Lib.Resume

variable {busy : Nat → Bool}

/-- The last busy place of `n` places from `i` on. -/
def lastBusy (busy : Nat → Bool) : Nat → Nat → Option Nat
  | _, 0 => none
  | i, n + 1 => lastBusy busy (i + 1) n <|> if busy i then some i else none

/-- Where the leg after a leg of `n` places from `i` on starts. -/
def resumeAt (busy : Nat → Bool) (i n : Nat) : Nat := (lastBusy busy i n).getD 0

/-- How many legs come to place `w`: legs of the given lengths, the first one
from `i` on, and a last leg up to the end. -/
def visits (busy : Nat → Bool) (last w : Nat) : Nat → List Nat → Nat
  | i, [] => if i ≤ w ∧ w ≤ last then 1 else 0
  | i, n :: legs =>
      (if i ≤ w ∧ w < i + n then 1 else 0) + visits busy last w (resumeAt busy i n) legs

/-- No leg goes beyond the end. -/
def Within (busy : Nat → Bool) (last : Nat) : Nat → List Nat → Prop
  | i, [] => i ≤ last
  | i, n :: legs => i + n ≤ last ∧ Within busy last (resumeAt busy i n) legs

/-- No leg that was cut off came to a busy place. -/
def Quiet (busy : Nat → Bool) : Nat → List Nat → Prop
  | _, [] => True
  | i, n :: legs =>
      (∀ w, i ≤ w → w < i + n → busy w = false) ∧ Quiet busy (resumeAt busy i n) legs

/-! ## The last busy place -/

theorem lastBusy_some {i n b : Nat} (h : lastBusy busy i n = some b) :
    i ≤ b ∧ b < i + n ∧ busy b = true := by
  induction n generalizing i with
  | zero => cases h
  | succ n ih =>
      rw [lastBusy, Option.orElse_eq_some] at h
      rcases h with hlater | ⟨-, hhere⟩
      · obtain ⟨hle, hlt, hbusy⟩ := ih hlater
        exact ⟨by omega, by omega, hbusy⟩
      · split at hhere
        case isTrue hbusy =>
          cases hhere
          exact ⟨Nat.le_refl _, by omega, hbusy⟩
        case isFalse => cases hhere

theorem lastBusy_none {i n : Nat} :
    lastBusy busy i n = none ↔ ∀ w, i ≤ w → w < i + n → busy w = false := by
  induction n generalizing i with
  | zero =>
      refine ⟨fun _ w hle hlt => ?_, fun _ => rfl⟩
      omega
  | succ n ih =>
      rw [lastBusy, Option.orElse_eq_none, ih]
      constructor
      · rintro ⟨hlater, hhere⟩ w hle hlt
        by_cases hw : w = i
        · rw [hw]
          simpa using hhere
        · exact hlater w (by omega) (by omega)
      · intro h
        refine ⟨fun w hle hlt => h w (by omega) (by omega), ?_⟩
        rw [h i (Nat.le_refl i) (by omega)]
        rfl

theorem resumeAt_of_none {i n : Nat} (h : ∀ w, i ≤ w → w < i + n → busy w = false) :
    resumeAt busy i n = 0 := by
  rw [resumeAt, lastBusy_none.mpr h]
  rfl

theorem resumeAt_le (busy : Nat → Bool) (i n : Nat) : resumeAt busy i n ≤ i + n := by
  unfold resumeAt
  cases hlast : lastBusy busy i n with
  | none => exact Nat.zero_le _
  | some b => exact Nat.le_of_lt (lastBusy_some hlast).2.1

/-! ## Quiet legs -/

/-- After quiet legs the last one still comes to every place from the first on. -/
theorem visits_pos_of_quiet {last w i : Nat} {legs : List Nat} (hquiet : Quiet busy i legs)
    (hle : i ≤ w) (hlast : w ≤ last) : 1 ≤ visits busy last w i legs := by
  induction legs generalizing i with
  | nil => exact Nat.le_of_eq (if_pos ⟨hle, hlast⟩).symm
  | cons n legs ih =>
      obtain ⟨hnone, hrest⟩ := hquiet
      have hzero := resumeAt_of_none hnone
      have hlater := ih hrest (by rw [hzero]; exact Nat.zero_le w)
      rw [visits]
      omega

theorem visits_of_quiet {last w : Nat} {legs : List Nat} (hquiet : Quiet busy 0 legs)
    (hbusy : busy w = true) (hlast : w ≤ last) : visits busy last w 0 legs = 1 := by
  induction legs with
  | nil => rw [visits, if_pos ⟨Nat.zero_le w, hlast⟩]
  | cons n legs ih =>
      obtain ⟨hnone, hrest⟩ := hquiet
      have haway : ¬ (0 ≤ w ∧ w < 0 + n) := by
        rintro ⟨hle, hlt⟩
        rw [hnone w hle hlt] at hbusy
        cases hbusy
      rw [resumeAt_of_none hnone] at hrest
      rw [visits, if_neg haway, resumeAt_of_none hnone, ih hrest]

theorem quiet_iff {legs : List Nat} :
    Quiet busy 0 legs ↔ ∀ n ∈ legs, ∀ w < n, busy w = false := by
  induction legs with
  | nil => simp [Quiet]
  | cons n legs ih =>
      rw [Quiet, List.forall_mem_cons]
      constructor
      · rintro ⟨hnone, hrest⟩
        rw [resumeAt_of_none hnone, ih] at hrest
        exact ⟨fun w hw => hnone w (Nat.zero_le w) (by omega), hrest⟩
      · rintro ⟨hnone, hrest⟩
        have hnone' : ∀ w, 0 ≤ w → w < 0 + n → busy w = false :=
          fun w _ hw => hnone w (by omega)
        refine ⟨hnone', ?_⟩
        rw [resumeAt_of_none hnone', ih]
        exact hrest

theorem le_of_within {last i : Nat} {legs : List Nat} (hwithin : Within busy last i legs) :
    ∀ n ∈ legs, n ≤ last := by
  induction legs generalizing i with
  | nil => simp
  | cons n legs ih =>
      obtain ⟨hfits, hrest⟩ := hwithin
      rw [List.forall_mem_cons]
      exact ⟨by omega, ih hrest⟩

/-- Legs that were not quiet came to some busy place that is visited again. -/
theorem visited_twice {last i : Nat} {legs : List Nat} (hwithin : Within busy last i legs)
    (h : ¬ Quiet busy i legs) :
    ∃ w ≤ last, busy w = true ∧ 2 ≤ visits busy last w i legs := by
  induction legs generalizing i with
  | nil => exact absurd trivial h
  | cons n legs ih =>
      obtain ⟨hfits, hrest⟩ := hwithin
      by_cases hlater : Quiet busy (resumeAt busy i n) legs
      · cases hlast : lastBusy busy i n with
        | none => exact absurd ⟨lastBusy_none.mp hlast, hlater⟩ h
        | some b =>
            obtain ⟨hle, hlt, hbusy⟩ := lastBusy_some hlast
            have hstart : resumeAt busy i n = b := by
              rw [resumeAt, hlast]
              rfl
            have hagain : 1 ≤ visits busy last b (resumeAt busy i n) legs :=
              visits_pos_of_quiet hlater (Nat.le_of_eq hstart) (by omega)
            refine ⟨b, by omega, hbusy, ?_⟩
            rw [visits, if_pos ⟨hle, hlt⟩]
            omega
      · obtain ⟨w, hw, hbusy, htwice⟩ := ih hrest hlater
        refine ⟨w, hw, hbusy, ?_⟩
        rw [visits]
        omega

/-- Every busy place is visited once exactly when the legs that were cut off
came to none. -/
theorem visits_once_iff {last : Nat} {legs : List Nat} (hwithin : Within busy last 0 legs) :
    (∀ w ≤ last, busy w = true → visits busy last w 0 legs = 1) ↔
      ∀ n ∈ legs, ∀ w < n, busy w = false := by
  rw [← quiet_iff]
  constructor
  · intro honce
    by_contra hloud
    obtain ⟨w, hw, hbusy, htwice⟩ := visited_twice hwithin hloud
    rw [honce w hw hbusy] at htwice
    omega
  · intro hquiet w hw hbusy
    exact visits_of_quiet hquiet hbusy hw

end Dbmaster.Lib.Resume
