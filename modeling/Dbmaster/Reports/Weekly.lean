import Dbmaster.Reports.Writer
import Dbmaster.Lib.Transition
/-!
# One report a week

A call looks for a report of the last seven days before it computes one and does not look
again before it stores it: reports are a week apart where none is stored in between.
-/

namespace Dbmaster.Reports.Weekly

open Dbmaster.Lib.Transition Dbmaster.Reports.Writer

/-! ## What should hold -/

/-- No seven days hold both. -/
def Apart (a b : Report) : Prop :=
  a.generatedAt + window ≤ b.generatedAt ∨ b.generatedAt + window ≤ a.generatedAt

instance (a b : Report) : Decidable (Apart a b) :=
  inferInstanceAs (Decidable (_ ∨ _))

def OnePerWeek (s : State) : Prop := s.reports.Pairwise Apart

instance (s : State) : Decidable (OnePerWeek s) :=
  inferInstanceAs (Decidable (s.reports.Pairwise Apart))

/-- When a call stores its report, the reports stored since it looked for one are a week or
more from it. -/
def Unraced (s : State) : Action → Prop
  | .advance call true _ => ∀ w r, s.calls[call]? = some (.store w r) →
      ∀ rep ∈ s.reports.drop w.seen,
        w.windowTo + window ≤ rep.generatedAt ∨ rep.generatedAt + window ≤ w.windowTo
  | _ => True

/-! ## The report that is looked for -/

theorem foldl_later (reports : List Report) (a : Report) :
    ∃ l, reports.foldl later (some a) = some l ∧ a.generatedAt ≤ l.generatedAt ∧
      ∀ r ∈ reports, r.generatedAt ≤ l.generatedAt := by
  induction reports generalizing a with
  | nil => exact ⟨a, rfl, le_refl _, fun r hr => absurd hr List.not_mem_nil⟩
  | cons r reports ih =>
      by_cases hlt : a.generatedAt < r.generatedAt
      · obtain ⟨l, hl, hr, hall⟩ := ih r
        refine ⟨l, ?_, hlt.le.trans hr, List.forall_mem_cons.mpr ⟨hr, hall⟩⟩
        rw [List.foldl_cons, later, if_pos hlt, hl]
      · obtain ⟨l, hl, ha, hall⟩ := ih a
        refine ⟨l, ?_, ha, List.forall_mem_cons.mpr ⟨(not_lt.mp hlt).trans ha, hall⟩⟩
        rw [List.foldl_cons, later, if_neg hlt, hl]

theorem le_latestReport {reports : List Report} {l r : Report}
    (h : latestReport reports = some l) (hr : r ∈ reports) : r.generatedAt ≤ l.generatedAt := by
  cases reports with
  | nil => cases h
  | cons a reports =>
      obtain ⟨l', hl', ha, hall⟩ := foldl_later reports a
      cases h.symm.trans hl'
      exact (List.forall_mem_cons.mpr ⟨ha, hall⟩ : ∀ r ∈ a :: reports, _) r hr

theorem eq_nil_of_latestReport {reports : List Report} (h : latestReport reports = none) :
    reports = [] := by
  cases reports with
  | nil => rfl
  | cons a reports =>
      obtain ⟨l, hl, -, -⟩ := foldl_later reports a
      cases h.symm.trans hl

/-! ## Calls past their check -/

/-- The time of a call that has looked for a report, and how many there were. -/
def looked : Phase → Option (Int × Nat)
  | .oldest now seen => some (now, seen)
  | .total w | .previous w _ | .top w _ | .connections w _ | .days w _ | .store w _ =>
      some (w.windowTo, w.seen)
  | _ => none

/-- The reports that a call has seen are a week older than itself. -/
def Clear (reports : List Report) (now : Int) (seen : Nat) : Prop :=
  seen ≤ reports.length ∧ ∀ rep ∈ reports.take seen, rep.generatedAt + window ≤ now

def Checked (s : State) : Prop :=
  ∀ (k : Nat) (phase : Phase), s.calls[k]? = some phase → ∀ now seen, looked phase = some (now, seen) →
    Clear s.reports now seen

theorem clear_of_prefix {reports reports' : List Report} {now : Int} {seen : Nat}
    (hpre : reports <+: reports') (h : Clear reports now seen) : Clear reports' now seen := by
  obtain ⟨tail, rfl⟩ := hpre
  refine ⟨h.1.trans (by simp), fun rep hrep => h.2 rep ?_⟩
  rwa [List.take_append_of_le_length h.1] at hrep

theorem looked_windowOf (samples : List Sample) (now : Int) (ok : Bool) (seen : Nat) :
    looked (.total (windowOf samples now ok seen)) = some (now, seen) := by
  unfold windowOf
  dsimp only
  split
  · split_ifs <;> rfl
  · rfl

/-- A call looks for a report once, and finds none of the last seven days. -/
theorem looked_advance {s : State} {phase : Phase} {ok : Bool} {clock now : Int} {seen : Nat}
    (h : looked (advance s phase ok clock).1 = some (now, seen)) :
    looked phase = some (now, seen) ∨ Clear s.reports now seen := by
  cases phase with
  | due horizon =>
      simp only [advance] at h
      split_ifs at h
      · cases h
      · split at h
        · dsimp only at h
          split_ifs at h <;> cases h
        · cases h
  | dueSamples horizon =>
      simp only [advance] at h
      split_ifs at h <;> cases h
  | latest t =>
      right
      simp only [advance] at h
      split_ifs at h
      · cases h
      · split at h
        case h_1 l hl =>
          dsimp only at h
          split_ifs at h with hlate
          · cases h
          · cases h
            refine ⟨le_refl _, fun rep hrep => ?_⟩
            have hle := le_latestReport hl (List.mem_of_mem_take hrep)
            omega
        case h_2 hnone =>
          cases h
          rw [eq_nil_of_latestReport hnone]
          exact ⟨le_refl _, fun rep hrep => absurd hrep List.not_mem_nil⟩
  | oldest t seen' =>
      left
      rw [advance, looked_windowOf] at h
      exact h
  | previous w r => exact .inl h
  | total w | top w r | connections w r | days w r =>
      left
      simp only [advance] at h
      split_ifs at h
      · exact h
      · cases h
  | store w r =>
      simp only [advance] at h
      split_ifs at h <;> cases h
  | done outcome => exact .inl h

/-- Only a call that stores its report changes the reports. -/
theorem reports_advance (s : State) (phase : Phase) (ok : Bool) (clock : Int) :
    (advance s phase ok clock).2 = s.reports ∨
      ∃ w r, phase = .store w r ∧ ok = true ∧
        (advance s phase ok clock).2 = s.reports ++ [⟨w.windowTo, contentOf w r, r⟩] := by
  cases phase with
  | store w r =>
      cases ok with
      | true => exact .inr ⟨w, r, rfl, rfl, rfl⟩
      | false => exact .inl rfl
  | due horizon =>
      left
      simp only [advance]
      split_ifs
      · rfl
      · split <;> rfl
  | latest t =>
      left
      simp only [advance]
      split_ifs
      · rfl
      · split <;> rfl
  | dueSamples | oldest | total | previous | top | connections | days | done => exact .inl rfl

/-! ## Steps and runs -/

theorem reports_step {s t : State} {a : Action} (h : step s a = some t) :
    s.reports <+: t.reports := by
  cases a with
  | advance call ok clock =>
      obtain ⟨phase, -, rfl⟩ := Option.map_eq_some_iff.mp h
      rcases reports_advance s phase ok clock with hsame | ⟨w, r, -, -, hmore⟩
      · exact hsame ▸ List.prefix_refl _
      · exact hmore ▸ List.prefix_append _ _
  | insertSample | rotate | tick | generate =>
      cases h
      exact List.prefix_refl _

theorem reports_run {allowed : State → Action → Prop} {s t : State} {acts : List Action}
    (h : Run step allowed s acts t) : s.reports <+: t.reports := by
  induction h with
  | nil _ => exact List.prefix_refl _
  | cons _ hstep _ ih => exact (reports_step hstep).trans ih

theorem checked_step {s t : State} {a : Action} (h : step s a = some t) (hs : Checked s) :
    Checked t := by
  have hpre := reports_step h
  cases a with
  | insertSample | rotate =>
      cases h
      exact hs
  | tick | generate =>
      cases h
      intro k phase hk now seen hlooked
      rcases of_getElem?_concat hk with ⟨-, rfl⟩ | hkept
      · cases hlooked
      · exact hs k phase hkept now seen hlooked
  | advance call ok clock =>
      obtain ⟨phase, hphase, rfl⟩ := Option.map_eq_some_iff.mp h
      intro k new hk now seen hlooked
      rcases of_getElem?_set hk with ⟨rfl, rfl⟩ | ⟨-, hkept⟩
      · rcases looked_advance hlooked with hbefore | hclear
        · exact clear_of_prefix hpre (hs _ phase hphase now seen hbefore)
        · exact clear_of_prefix hpre hclear
      · exact clear_of_prefix hpre (hs k new hkept now seen hlooked)

/-- A step keeps the reports a week apart just where no report came in between. -/
theorem onePerWeek_step {s t : State} {a : Action} (h : step s a = some t) (hchecked : Checked s)
    (hs : OnePerWeek s) : OnePerWeek t ↔ Unraced s a := by
  cases a with
  | insertSample | rotate | tick | generate =>
      cases h
      exact iff_of_true hs trivial
  | advance call ok clock =>
      obtain ⟨phase, hphase, rfl⟩ := Option.map_eq_some_iff.mp h
      rcases reports_advance s phase ok clock with hsame | ⟨w, r, rfl, rfl, hmore⟩
      · refine iff_of_true (by rw [OnePerWeek, hsame]; exact hs) ?_
        cases ok with
        | false => trivial
        | true =>
            intro w r hstore
            cases hphase.symm.trans hstore
            exact absurd hsame (by simp [advance])
      · obtain ⟨hseen, hold⟩ := hchecked call _ hphase w.windowTo w.seen rfl
        have hall : OnePerWeek { s with
            calls := s.calls.set call (advance s (.store w r) true clock).1
            reports := (advance s (.store w r) true clock).2 } ↔
            ∀ rep ∈ s.reports, rep.generatedAt + window ≤ w.windowTo ∨
              w.windowTo + window ≤ rep.generatedAt := by
          rw [OnePerWeek, hmore, List.pairwise_append]
          constructor
          · exact fun hpair rep hrep => hpair.2.2 rep hrep _ (List.mem_singleton.mpr rfl)
          · intro hnew
            refine ⟨hs, List.pairwise_singleton _ _, fun rep hrep new hmem => ?_⟩
            cases List.mem_singleton.mp hmem
            exact hnew rep hrep
        rw [hall]
        constructor
        · intro hnew w' r' hstore rep hrep
          cases hphase.symm.trans hstore
          exact (hnew rep (List.mem_of_mem_drop hrep)).symm
        · intro hunraced rep hrep
          rw [← List.take_append_drop w.seen s.reports] at hrep
          rcases List.mem_append.mp hrep with hbefore | hsince
          · exact .inl (hold rep hbefore)
          · exact (hunraced w r hphase rep hsince).symm

theorem onePerWeek_run {s t : State} {acts : List Action} (h : Run step anyStep s acts t)
    (hchecked : Checked s) (hs : OnePerWeek s) :
    OnePerWeek t ↔ Run step Unraced s acts t := by
  induction h with
  | nil s => exact iff_of_true hs (.nil s)
  | cons _ hstep htail ih =>
      have hnext := checked_step hstep hchecked
      constructor
      · intro hend
        have hmid := hend.sublist (reports_run htail).sublist
        exact .cons ((onePerWeek_step hstep hchecked hs).mp hmid) hstep ((ih hnext hmid).mp hend)
      · rintro (⟨⟩ | ⟨hunraced, hstep', htail'⟩)
        cases hstep.symm.trans hstep'
        have hmid := (onePerWeek_step hstep hchecked hs).mpr hunraced
        exact (ih hnext hmid).mpr htail'

/-- In every run the stored reports are a week apart if and only if no report was stored
within a week of one between its check and its own insert. -/
theorem onePerWeek_iff (samples : List Sample) (acts : List Action) (s : State)
    (h : Run step anyStep (.initial samples) acts s) :
    OnePerWeek s ↔ Run step Unraced (.initial samples) acts s :=
  onePerWeek_run h (fun _ _ hk => by cases hk) List.Pairwise.nil

/-! ## Two calls at once -/

/-- The ticker finds no report but a sample; it and a call by hand then both look for a report
before either stores one. -/
def race : List Action :=
  [.insertSample ⟨"SELECT ?", "mysql", "c", 5, none, "ok", 50⟩, .tick 100, .generate 200,
    .advance 0 true 100, .advance 0 true 100, .advance 0 true 0, .advance 1 true 0] ++
  List.replicate 7 (.advance 0 true 0) ++ List.replicate 7 (.advance 1 true 0)

theorem race_stores :
    ∃ s, exec step (.initial []) race = some s ∧ ¬ OnePerWeek s := by
  have hall : ((exec step (.initial []) race).map fun s => decide (OnePerWeek s)) = some false := by
    decide +kernel
  obtain ⟨s, hexec, hs⟩ := Option.map_eq_some_iff.mp hall
  exact ⟨s, hexec, of_decide_eq_false hs⟩

theorem race_not_onePerWeek :
    ¬ ∀ samples acts s, Run step anyStep (.initial samples) acts s → OnePerWeek s := by
  intro hweekly
  obtain ⟨s, hexec, hnot⟩ := race_stores
  exact hnot (hweekly [] race s (run_of_exec hexec))

theorem race_not_unraced :
    ∃ s, exec step (.initial []) race = some s ∧ ¬ Run step Unraced (.initial []) race s := by
  obtain ⟨s, hexec, hnot⟩ := race_stores
  exact ⟨s, hexec, fun hrun => hnot ((onePerWeek_iff [] race s (run_of_exec hexec)).mpr hrun)⟩

end Dbmaster.Reports.Weekly
