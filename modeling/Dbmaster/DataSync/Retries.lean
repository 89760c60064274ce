import Dbmaster.DataSync.Clients
import Dbmaster.DataSync.NoLoss
/-!
# Batches that are sent again

An attempt may have been applied although its client saw an error.  What the retries then
leave in a target to which rows are appended.
-/

namespace Dbmaster.DataSync.Retries

open Dbmaster.DataSync.Etl Dbmaster.DataSync.NoLoss

variable {ρ : Type}

/-! ## The target -/

/-- What becomes of an attempt: it is applied and acknowledged, or the client sees an error
and the attempt has been applied or not. -/
inductive Outcome
  | acknowledged
  | failed (applied : Bool)
deriving DecidableEq

def Outcome.applied : Outcome → Bool
  | .acknowledged => true
  | .failed applied => applied

/-- A table to which rows are appended, and the labels of the loads that Doris knows. -/
structure TargetTable (ρ : Type) where
  rows : List ρ
  labels : List String

def streamLoadLabel (millis : Int) (seq : UInt64) : String :=
  "dbmaster_sync_" ++ toString millis ++ "_" ++ Nat.repr seq.toNat

def Refused (t : TargetTable ρ) : Option String → Prop
  | none => False
  | some label => label ∈ t.labels

instance (t : TargetTable ρ) (label : Option String) : Decidable (Refused t label) := by
  cases label <;> unfold Refused <;> infer_instance

/-- One attempt; the client sees a success or an error. -/
def attemptOn (label : Option String) (rows : List ρ) (outcome : Outcome) (t : TargetTable ρ) :
    TargetTable ρ × Bool :=
  if Refused t label then (t, false)
  else if outcome.applied then
    (⟨t.rows ++ rows, label.toList ++ t.labels⟩, outcome = .acknowledged)
  else (t, false)

/-! ## The retries -/

/-- How the attempts of a batch are labelled and what becomes of them; `seq` is `label_seq`
before the first one. -/
structure Attempts where
  tgt : DbType
  millis : Nat → Int
  seq : UInt64
  outcome : Nat → Outcome

/-- The inserts in SQL and the one of ClickHouse carry no key; each load of Doris takes the
next number for its label. -/
def Attempts.label (a : Attempts) (k : Nat) : Option String :=
  match a.tgt with
  | .doris => some (streamLoadLabel (a.millis k) (a.seq + UInt64.ofNat k))
  | _ => none

/-- The attempts of `retry_batch_insert` on the target, `left` of them at most. -/
def attemptsOn (a : Attempts) (rows : List ρ) : Nat → Nat → TargetTable ρ → TargetTable ρ × Bool
  | 0, _, t => (t, false)
  | left + 1, k, t =>
      match attemptOn (a.label k) rows (a.outcome k) t with
      | (t', true) => (t', true)
      | (t', false) => attemptsOn a rows left (k + 1) t'

def retryOn (a : Attempts) (maxRetries : UInt32) (rows : List ρ) (t : TargetTable ρ) :
    TargetTable ρ × Bool :=
  attemptsOn a rows (max maxRetries 1).toNat 0 t

/-! ## Labels -/

theorem toList_streamLoadLabel (millis : Int) (seq : UInt64) :
    (streamLoadLabel millis seq).toList =
      "dbmaster_sync_".toList ++ (toString millis).toList ++ ['_'] ++
        Nat.toDigits 10 seq.toNat := by
  change ("dbmaster_sync_" ++ toString millis ++ "_" ++ Nat.repr seq.toNat).toList = _
  simp only [String.toList_append, Nat.toList_repr, String.reduceToList]

theorem streamLoadLabel_seq {millis millis' : Int} {seq seq' : UInt64}
    (h : streamLoadLabel millis seq = streamLoadLabel millis' seq') : seq = seq' := by
  have hlists := congrArg String.toList h
  rw [toList_streamLoadLabel, toList_streamLoadLabel] at hlists
  -- the digits behind the last underscore are those of the number
  have hlast : ∀ (front : List Char) (n : Nat),
      ((front ++ ['_'] ++ Nat.toDigits 10 n).reverse.takeWhile fun c => c ≠ '_') =
        (Nat.toDigits 10 n).reverse := by
    intro front n
    rw [List.reverse_append, List.takeWhile_append_of_pos]
    · simp
    · intro c hc
      have hne : c ≠ '_' := by
        rintro rfl
        exact Nat.underscore_not_in_toDigits (List.mem_reverse.mp hc)
      exact decide_eq_true hne
  have hdigits : (Nat.toDigits 10 seq.toNat).reverse = (Nat.toDigits 10 seq'.toNat).reverse := by
    rw [← hlast _ seq.toNat, ← hlast _ seq'.toNat]
    exact congrArg (fun l => (List.reverse l).takeWhile fun c => c ≠ '_') hlists
  have hnat := congrArg (Nat.ofDigitChars 10 · 0) (List.reverse_injective hdigits)
  simp only [Nat.ofDigitChars_toDigits (by omega : 1 < 10) (Nat.le_refl 10)] at hnat
  exact UInt64.toNat_inj.mp hnat

theorem Attempts.label_inj {a : Attempts} {j k : Nat} {label : String} (hj : j < 2 ^ 64)
    (hk : k < 2 ^ 64) (hlabel : a.label j = some label) (hlabel' : a.label k = some label) :
    j = k := by
  unfold Attempts.label at hlabel hlabel'
  split at hlabel
  case h_2 => cases hlabel
  case h_1 htgt =>
    simp only [htgt, Option.some.injEq] at hlabel hlabel'
    have hseq := streamLoadLabel_seq (hlabel.trans hlabel'.symm)
    have hcount : UInt64.ofNat j = UInt64.ofNat k := (UInt64.add_right_inj a.seq).mp hseq
    have hnat := congrArg UInt64.toNat hcount
    rw [UInt64.toNat_ofNat', UInt64.toNat_ofNat', Nat.mod_eq_of_lt hj, Nat.mod_eq_of_lt hk] at hnat
    exact hnat

/-! ## What should hold -/

/-- The row stands in the target no more often than before and in the batch together. -/
def NoDuplicates [DecidableEq ρ] (rows : List ρ) (before after : TargetTable ρ) : Prop :=
  ∀ row, after.rows.count row ≤ before.rows.count row + rows.count row

section Effects

variable (a : Attempts) (t : TargetTable ρ)

/-- The attempt, if it is made, is applied. -/
def TakesEffect (k : Nat) : Prop := (a.outcome k).applied = true ∧ ¬ Refused t (a.label k)

/-- The attempt, if it is made, is the last one. -/
def Acknowledged (k : Nat) : Prop := a.outcome k = .acknowledged ∧ ¬ Refused t (a.label k)

instance (k : Nat) : Decidable (TakesEffect a t k) := inferInstanceAs (Decidable (_ ∧ _))

instance (k : Nat) : Decidable (Acknowledged a t k) := inferInstanceAs (Decidable (_ ∧ _))

/-- No second attempt that takes effect follows one whose effect the client did not see. -/
def OneTakesEffect (retries : UInt32) : Prop :=
  ∀ i j, i < j → j < max 1 retries.toNat → (∀ k < j, ¬ Acknowledged a t k) →
    TakesEffect a t i → ¬ TakesEffect a t j

def clientSees (attempt : Nat) (rows : List ρ) : Option Nat :=
  if Acknowledged a t (attempt - 1) then some rows.length else none

def effects : Nat → Nat → Nat
  | 0, _ => 0
  | left + 1, k =>
      (if TakesEffect a t k then 1 else 0) +
        if Acknowledged a t k then 0 else effects left (k + 1)

end Effects

/-! ## One batch -/

section Batch

variable {a : Attempts} {t : TargetTable ρ} {rows : List ρ}

/-- The labels to come are refused as they were before the batch. -/
def SameRefusals (a : Attempts) (t t' : TargetTable ρ) (left k : Nat) : Prop :=
  ∀ j, k ≤ j → j < k + left → (Refused t' (a.label j) ↔ Refused t (a.label j))

theorem sameRefusals_append {t' : TargetTable ρ} {left k : Nat} (hroom : k + (left + 1) ≤ 2 ^ 64)
    (h : SameRefusals a t t' (left + 1) k) (more : List ρ) :
    SameRefusals a t ⟨t'.rows ++ more, (a.label k).toList ++ t'.labels⟩ left (k + 1) := by
  intro j hlow hhigh
  rw [← h j (by omega) (by omega)]
  cases hj : a.label j with
  | none => exact Iff.rfl
  | some label =>
      have hnew : label ∉ (a.label k).toList := by
        intro hin
        have heq := Attempts.label_inj (by omega) (by omega) hj (Option.mem_toList.mp hin)
        omega
      simp only [Refused, List.mem_append, hnew, false_or]

/-- The retries are those of the client, and each attempt that takes effect adds the batch. -/
theorem attemptsOn_eq {left k : Nat} (hroom : k + left ≤ 2 ^ 64) {t' : TargetTable ρ}
    (h : SameRefusals a t t' left k) :
    (attemptsOn a rows left k t').1.rows =
        t'.rows ++ (List.replicate (effects a t left k) rows).flatten ∧
      (attemptsOn a rows left k t').2 =
        (attemptInsert (clientSees a t) rows left (k + 1)).2.isSome := by
  induction left generalizing k t' with
  | zero => simp [attemptsOn, effects, attemptInsert]
  | succ left ih =>
      have hrefused := h k (Nat.le_refl k) (by omega)
      have hkept : SameRefusals a t t' left (k + 1) :=
        fun j hlow hhigh => h j (by omega) (by omega)
      have hsees : clientSees a t (k + 1) rows =
          if Acknowledged a t k then some rows.length else none := rfl
      rw [attemptsOn, effects, attemptInsert, hsees]
      by_cases hr : Refused t (a.label k)
      · have hno : ¬ TakesEffect a t k := fun he => he.2 hr
        have hna : ¬ Acknowledged a t k := fun he => he.2 hr
        rw [if_neg hno, if_neg hna, attemptOn, if_pos (hrefused.mpr hr), Nat.zero_add]
        simpa [hna] using ih (by omega) hkept
      · rw [attemptOn, if_neg (fun hr' => hr (hrefused.mp hr'))]
        cases houtcome : a.outcome k with
        | acknowledged =>
            have hyes : TakesEffect a t k := ⟨by rw [houtcome]; rfl, hr⟩
            have hack : Acknowledged a t k := ⟨houtcome, hr⟩
            simp [hyes, hack, Outcome.applied]
        | failed applied =>
            have hna : ¬ Acknowledged a t k := by
              rintro ⟨hack, -⟩
              rw [houtcome] at hack
              cases hack
            cases applied with
            | false =>
                have hno : ¬ TakesEffect a t k := by
                  rintro ⟨happlied, -⟩
                  rw [houtcome] at happlied
                  cases happlied
                simpa [Outcome.applied, hno, hna] using ih (by omega) hkept
            | true =>
                have hyes : TakesEffect a t k := ⟨by rw [houtcome]; rfl, hr⟩
                have hrest := ih (by omega) (sameRefusals_append hroom h rows)
                rw [if_pos hyes, if_neg hna, Nat.add_comm 1, List.replicate_succ,
                  List.flatten_cons, ← List.append_assoc]
                simpa [Outcome.applied, hna] using hrest

theorem one_le_effects {left k : Nat} :
    1 ≤ effects a t left k ↔ ∃ j, k ≤ j ∧ j < k + left ∧ TakesEffect a t j ∧
      ∀ l, k ≤ l → l < j → ¬ Acknowledged a t l := by
  induction left generalizing k with
  | zero =>
      constructor
      · intro h
        cases h
      · rintro ⟨j, hlow, hhigh, -⟩
        omega
  | succ left ih =>
      rw [effects]
      by_cases heffect : TakesEffect a t k
      · rw [if_pos heffect]
        constructor
        · intro _
          exact ⟨k, Nat.le_refl k, by omega, heffect, fun l hlow hhigh => by omega⟩
        · intro _
          omega
      · rw [if_neg heffect, Nat.zero_add]
        have hgo : ¬ Acknowledged a t k := by
          rintro ⟨hack, hr⟩
          exact heffect ⟨by rw [hack]; rfl, hr⟩
        rw [if_neg hgo, ih]
        constructor
        · rintro ⟨j, hlow, hhigh, hj, hbefore⟩
          refine ⟨j, by omega, by omega, hj, fun l hl hlj => ?_⟩
          rcases Nat.eq_or_lt_of_le hl with rfl | hlt
          · exact hgo
          · exact hbefore l hlt hlj
        · rintro ⟨j, hlow, hhigh, hj, hbefore⟩
          have hne : j ≠ k := by
            rintro rfl
            exact heffect hj
          exact ⟨j, by omega, by omega, hj, fun l hl hlj => hbefore l (by omega) hlj⟩

theorem two_le_effects {left k : Nat} :
    2 ≤ effects a t left k ↔ ∃ i j, k ≤ i ∧ i < j ∧ j < k + left ∧ TakesEffect a t i ∧
      TakesEffect a t j ∧ ∀ l, k ≤ l → l < j → ¬ Acknowledged a t l := by
  induction left generalizing k with
  | zero =>
      constructor
      · intro h
        cases h
      · rintro ⟨i, j, hlow, hij, hhigh, -⟩
        omega
  | succ left ih =>
      rw [effects]
      by_cases hack : Acknowledged a t k
      · rw [if_pos hack]
        constructor
        · intro h
          split at h <;> omega
        · rintro ⟨i, j, hlow, hij, -, -, -, hbefore⟩
          exact absurd hack (hbefore k (Nat.le_refl k) (by omega))
      · rw [if_neg hack]
        by_cases heffect : TakesEffect a t k
        · rw [if_pos heffect]
          constructor
          · intro h
            have hlater : 1 ≤ effects a t left (k + 1) := by omega
            obtain ⟨j, hlow, hhigh, hj, hbefore⟩ := one_le_effects.mp hlater
            refine ⟨k, j, Nat.le_refl k, by omega, by omega, heffect, hj, fun l hl hlj => ?_⟩
            rcases Nat.eq_or_lt_of_le hl with rfl | hlt
            · exact hack
            · exact hbefore l hlt hlj
          · rintro ⟨i, j, hlow, hij, hhigh, -, hj, hbefore⟩
            have hlater : 1 ≤ effects a t left (k + 1) := one_le_effects.mpr
              ⟨j, by omega, by omega, hj, fun l hl hlj => hbefore l (by omega) hlj⟩
            omega
        · rw [if_neg heffect, Nat.zero_add, ih]
          constructor
          · rintro ⟨i, j, hlow, hij, hhigh, hi, hj, hbefore⟩
            refine ⟨i, j, by omega, hij, by omega, hi, hj, fun l hl hlj => ?_⟩
            rcases Nat.eq_or_lt_of_le hl with rfl | hlt
            · exact hack
            · exact hbefore l hlt hlj
          · rintro ⟨i, j, hlow, hij, hhigh, hi, hj, hbefore⟩
            have hne : i ≠ k := by
              rintro rfl
              exact heffect hi
            exact ⟨i, j, by omega, hij, by omega, hi, hj,
              fun l hl hlj => hbefore l (by omega) hlj⟩

theorem count_flatten_replicate [DecidableEq ρ] (n : Nat) (row : ρ) :
    (List.replicate n rows).flatten.count row = n * rows.count row := by
  induction n with
  | zero => simp
  | succ n ih =>
      rw [List.replicate_succ, List.flatten_cons, List.count_append, ih, Nat.succ_mul,
        Nat.add_comm]

theorem retryOn_eq (a : Attempts) (retries : UInt32) (rows : List ρ) (t : TargetTable ρ) :
    (retryOn a retries rows t).1.rows =
        t.rows ++ (List.replicate (effects a t (max 1 retries.toNat) 0) rows).flatten ∧
      (retryOn a retries rows t).2 =
        (retryBatchInsert retries (clientSees a t) rows).2.isSome := by
  unfold retryOn retryBatchInsert
  rw [toNat_max_one]
  have hlt := retries.toNat_lt
  exact attemptsOn_eq (by omega) fun j _ _ => Iff.rfl

/-- Whatever becomes of the attempts, the retries of a batch leave none of its rows twice
exactly when no second attempt takes effect after one whose effect the client did not see. -/
theorem noDuplicates_iff [DecidableEq ρ] (a : Attempts) (retries : UInt32) (rows : List ρ)
    (t : TargetTable ρ) :
    NoDuplicates rows t (retryOn a retries rows t).1 ↔
      rows = [] ∨ OneTakesEffect a t retries := by
  have htwo := @two_le_effects ρ a t (max 1 retries.toNat) 0
  unfold NoDuplicates
  simp only [(retryOn_eq a retries rows t).1, List.count_append, count_flatten_replicate]
  have hone : OneTakesEffect a t retries ↔ ¬ 2 ≤ effects a t (max 1 retries.toNat) 0 := by
    rw [htwo]
    constructor
    · rintro h ⟨i, j, -, hij, hj, hi, hje, hbefore⟩
      exact h i j hij (by omega) (fun k hk => hbefore k (Nat.zero_le k) hk) hi hje
    · intro h i j hij hj hbefore hi hje
      exact h ⟨i, j, Nat.zero_le i, hij, by omega, hi, hje, fun k _ hk => hbefore k hk⟩
  rw [hone]
  cases rows with
  | nil => simp
  | cons row rows =>
      simp only [reduceCtorEq, false_or]
      constructor
      · intro h hmany
        have hrow := h row
        rw [List.count_cons_self] at hrow
        have hmul := Nat.mul_le_mul_right (rows.count row + 1) hmany
        omega
      · intro hfew other
        have hmul := Nat.mul_le_mul_right ((row :: rows).count other)
          (by omega : effects a t (max 1 retries.toNat) 0 ≤ 1)
        omega

/-! ## A lost acknowledgement -/

/-- The first load is applied and its answer lost; the second one succeeds. -/
def lostAnswer (tgt : DbType) : Attempts where
  tgt := tgt
  millis k := 1767225600000 + 1000 * k
  seq := 0
  outcome k := if k = 0 then .failed true else .acknowledged

theorem noDuplicates_false {after : TargetTable Nat} (h : after.rows = [7, 7]) :
    ¬ NoDuplicates [7] ⟨[], []⟩ after := by
  intro hno
  have hrow := hno 7
  rw [h] at hrow
  exact absurd hrow (by decide)

/-- The row is in the target twice, and in Doris, where the second load has a new label, as
well. -/
theorem row_twice :
    ¬ NoDuplicates [7] ⟨[], []⟩ (retryOn (lostAnswer .mySql) 3 [7] ⟨[], []⟩).1 ∧
      ¬ NoDuplicates [7] ⟨[], []⟩ (retryOn (lostAnswer .doris) 3 [7] ⟨[], []⟩).1 :=
  ⟨noDuplicates_false (by decide), noDuplicates_false (by decide)⟩

end Batch

end Dbmaster.DataSync.Retries
