import Dbmaster.Reports.Writer
import Dbmaster.Lib.Transition
/-!
# The breakdowns of a report

The total, the connections and the days of a report are counted by queries of their own:
they agree where the samples of the window stay the same from the first of these queries
to the last.
-/

namespace Dbmaster.Reports.Breakdowns

open Dbmaster.Lib Dbmaster.Lib.Transition Dbmaster.Reports.Writer

/-! ## What should hold -/

/-- The connections and the days add up to the total, and what was counted lies in the
window. -/
structure Agrees (rep : Report) : Prop where
  connections : (rep.content.byConnection.map ConnectionRow.count).sum =
    rep.content.summary.totalSamples
  days : (rep.content.byDay.map DayRow.count).sum = rep.content.summary.totalSamples
  counted : ∀ x ∈ rep.reads.total ++ rep.reads.connections ++ rep.reads.days,
    rep.content.windowFrom ≤ x.capturedAt ∧ x.capturedAt ≤ rep.content.windowTo

def AllAgree (s : State) : Prop := ∀ rep ∈ s.reports, Agrees rep

/-- The window of a call that is about to count its total. -/
def totalling : Phase → Option Window
  | .total w => some w
  | _ => none

/-- The window of a call that has counted its total, and has its days still to count. -/
def counting : Phase → Option Window
  | .previous w _ | .top w _ | .connections w _ | .days w _ => some w
  | _ => none

/-- No sample of the window of a call comes or goes while the call counts, and when it
counts its total no sample is later than its window. -/
def Undisturbed (s : State) : Action → Prop
  | .insertSample x => ∀ phase ∈ s.calls, ∀ w ∈ counting phase, x.capturedAt < w.windowFrom
  | .rotate threshold => ∀ phase ∈ s.calls, ∀ w ∈ counting phase,
      ∀ x ∈ s.samples, w.windowFrom ≤ x.capturedAt → threshold ≤ x.capturedAt
  | .advance call true _ => ∀ w ∈ s.calls[call]?.bind totalling,
      ∀ x ∈ s.samples, w.windowFrom ≤ x.capturedAt → x.capturedAt ≤ w.windowTo
  | _ => True

instance (s : State) (a : Action) : Decidable (Undisturbed s a) := by
  unfold Undisturbed
  split <;> infer_instance

/-! ## Counting by groups -/

theorem sum_connectionRows (rows : List Sample) :
    ((connectionRows rows).map ConnectionRow.count).sum = countOf rows := by
  unfold connectionRows
  rw [((List.perm_insertionSort _ _).map ConnectionRow.count).sum_eq, List.map_map]
  exact Fibers.sum_groups _ Sample.count rows

theorem sum_dayRows (rows : List Sample) :
    ((dayRows rows).map DayRow.count).sum = countOf rows := by
  unfold dayRows
  rw [((List.perm_insertionSort _ _).map DayRow.count).sum_eq, List.map_map]
  exact Fibers.sum_groups _ Sample.count rows

/-! ## Calls that count -/

/-- All the queries found these rows, which lie in the window. -/
structure SameRows (w : Window) (r : Reads) : Prop where
  connections : r.connections = r.total
  days : r.days = r.total
  within : ∀ x ∈ r.total, w.windowFrom ≤ x.capturedAt ∧ x.capturedAt ≤ w.windowTo

theorem agrees_of_sameRows {w : Window} {r : Reads} (h : SameRows w r) :
    Agrees ⟨w.windowTo, contentOf w r, r⟩ where
  connections := by
    show ((connectionRows r.connections).map ConnectionRow.count).sum = countOf r.total
    rw [sum_connectionRows, h.connections]
  days := by
    show ((dayRows r.days).map DayRow.count).sum = countOf r.total
    rw [sum_dayRows, h.days]
  counted x hx := by
    have hmem : x ∈ r.total := by
      rcases List.mem_append.mp hx with hx | hx
      · rcases List.mem_append.mp hx with hx | hx
        · exact hx
        · exact h.connections ▸ hx
      · exact h.days ▸ hx
    exact h.within x hmem

/-- The rows of the total are still those of the window. -/
def StillThere (s : State) (w : Window) (r : Reads) : Prop :=
  r.total = rowsFrom s.samples w.windowFrom ∧ ∀ x ∈ r.total, x.capturedAt ≤ w.windowTo

def Consistent (s : State) : Phase → Prop
  | .previous w r | .top w r | .connections w r => StillThere s w r
  | .days w r => StillThere s w r ∧ r.connections = r.total
  | .store w r => SameRows w r
  | _ => True

structure Sound (s : State) : Prop where
  calls : ∀ phase ∈ s.calls, Consistent s phase
  reports : AllAgree s

theorem within_of_stillThere {s : State} {w : Window} {r : Reads} (h : StillThere s w r) :
    ∀ x ∈ r.total, w.windowFrom ≤ x.capturedAt ∧ x.capturedAt ≤ w.windowTo := by
  intro x hx
  have hfrom := h.1 ▸ hx
  rw [rowsFrom, List.mem_filter, decide_eq_true_eq] at hfrom
  exact ⟨hfrom.2, h.2 x hx⟩

theorem consistent_of_rows {s t : State} {phase : Phase} (h : Consistent s phase)
    (hrows : ∀ w ∈ counting phase,
      rowsFrom t.samples w.windowFrom = rowsFrom s.samples w.windowFrom) :
    Consistent t phase := by
  cases phase with
  | previous w r | top w r | connections w r => exact ⟨h.1.trans (hrows w rfl).symm, h.2⟩
  | days w r => exact ⟨⟨h.1.1.trans (hrows w rfl).symm, h.1.2⟩, h.2⟩
  | store w r => exact h
  | due | dueSamples | latest | oldest | total | done => trivial

theorem consistent_advance {s : State} {phase : Phase} {ok : Bool} (clock : Int)
    (h : Consistent s phase)
    (htotal : ok = true → ∀ w ∈ totalling phase,
      ∀ x ∈ s.samples, w.windowFrom ≤ x.capturedAt → x.capturedAt ≤ w.windowTo) :
    Consistent s (advance s phase ok clock).1 := by
  cases phase with
  | due horizon =>
      simp only [advance]
      split_ifs
      · trivial
      · split
        · dsimp only
          split_ifs <;> trivial
        · trivial
  | dueSamples horizon =>
      simp only [advance]
      split_ifs <;> trivial
  | latest t =>
      simp only [advance]
      split_ifs
      · trivial
      · split
        · dsimp only
          split_ifs <;> trivial
        · trivial
  | oldest t seen => trivial
  | total w =>
      simp only [advance]
      split_ifs with hok
      · refine ⟨rfl, fun x hx => ?_⟩
        have hmem : x ∈ rowsFrom s.samples w.windowFrom := hx
        rw [rowsFrom, List.mem_filter, decide_eq_true_eq] at hmem
        exact htotal hok w rfl x hmem.1 hmem.2
      · trivial
  | previous w r => exact h
  | top w r =>
      simp only [advance]
      split_ifs
      · exact h
      · trivial
  | connections w r =>
      simp only [advance]
      split_ifs
      · exact ⟨h, h.1.symm⟩
      · trivial
  | days w r =>
      simp only [advance]
      split_ifs
      · exact ⟨h.2, h.1.1.symm, within_of_stillThere h.1⟩
      · trivial
  | store w r =>
      simp only [advance]
      split_ifs <;> trivial
  | done outcome => trivial

theorem reports_advance {s : State} {phase : Phase} (ok : Bool) (clock : Int)
    (h : Consistent s phase) (hs : AllAgree s) :
    ∀ rep ∈ (advance s phase ok clock).2, Agrees rep := by
  cases phase with
  | store w r =>
      simp only [advance]
      split_ifs
      · intro rep hrep
        rcases List.mem_append.mp hrep with hold | hnew
        · exact hs rep hold
        · rw [List.mem_singleton.mp hnew]
          exact agrees_of_sameRows h
      · exact hs
  | due horizon | latest now =>
      simp only [advance]
      split_ifs
      · exact hs
      · split <;> exact hs
  | dueSamples | oldest | total | previous | top | connections | days | done => exact hs

/-! ## Steps and runs -/

theorem rowsFrom_append (samples : List Sample) {x : Sample} {start : Int}
    (h : x.capturedAt < start) : rowsFrom (samples ++ [x]) start = rowsFrom samples start := by
  have hlate : ¬ start ≤ x.capturedAt := by omega
  rw [rowsFrom, List.filter_append, List.filter_cons_of_neg (by simpa using hlate),
    List.filter_nil, List.append_nil]
  rfl

theorem rowsFrom_rotate {samples : List Sample} {threshold start : Int}
    (h : ∀ x ∈ samples, start ≤ x.capturedAt → threshold ≤ x.capturedAt) :
    rowsFrom (rowsFrom samples threshold) start = rowsFrom samples start := by
  unfold rowsFrom
  rw [List.filter_filter]
  apply List.filter_congr
  intro x hx
  rw [← Bool.decide_and, decide_eq_decide]
  exact and_iff_left_of_imp (h x hx)

theorem sound_step {s t : State} {a : Action} (hallowed : Undisturbed s a)
    (h : step s a = some t) (hs : Sound s) : Sound t := by
  cases a with
  | insertSample x =>
      cases h
      refine ⟨fun phase hphase => ?_, hs.reports⟩
      exact consistent_of_rows (hs.calls phase hphase)
        fun w hw => rowsFrom_append s.samples (hallowed phase hphase w hw)
  | rotate threshold =>
      cases h
      refine ⟨fun phase hphase => ?_, hs.reports⟩
      exact consistent_of_rows (hs.calls phase hphase)
        fun w hw => rowsFrom_rotate (hallowed phase hphase w hw)
  | tick now | generate now =>
      cases h
      refine ⟨fun phase hphase => ?_, hs.reports⟩
      rcases List.mem_append.mp hphase with hold | hnew
      · exact consistent_of_rows (hs.calls phase hold) fun _ _ => rfl
      · rw [List.mem_singleton.mp hnew]
        trivial
  | advance call ok clock =>
      obtain ⟨phase, hphase, rfl⟩ := Option.map_eq_some_iff.mp h
      have hconsistent := hs.calls phase (List.mem_of_getElem? hphase)
      refine ⟨fun new hnew => ?_, reports_advance ok clock hconsistent hs.reports⟩
      rcases List.mem_or_eq_of_mem_set hnew with hold | rfl
      · exact consistent_of_rows (hs.calls new hold) fun _ _ => rfl
      · refine consistent_of_rows (s := s) ?_ fun _ _ => rfl
        refine consistent_advance clock hconsistent fun hok w hw => ?_
        subst hok
        exact hallowed w (by rw [hphase]; exact hw)

/-- Where the samples of its window do not change while a call counts, its report agrees
with itself. -/
theorem allAgree_of_undisturbed (samples : List Sample) (acts : List Action) (s : State)
    (h : Run step Undisturbed (.initial samples) acts s) : AllAgree s := by
  have hstart : Sound (.initial samples) :=
    ⟨fun _ hphase => absurd hphase List.not_mem_nil, fun _ hrep => absurd hrep List.not_mem_nil⟩
  exact (h.invariant (fun _ _ _ hallowed hstep hs => sound_step hallowed hstep hs) hstart).reports

/-! ## A sample in between -/

/-- The only sample is written after the total over an empty window is counted. -/
def interruption : List Action :=
  [.generate 100] ++
  List.replicate 3 (.advance 0 true 0) ++
  [.insertSample ⟨"SELECT ?", "mysql", "c", 5, none, "ok", 60⟩] ++
  List.replicate 5 (.advance 0 true 0)

theorem interruption_disagrees : ¬ ∀ samples acts s,
    Run step anyStep (.initial samples) acts s → AllAgree s := by
  intro hagree
  have hcounts : ((exec step (.initial []) interruption).map fun s => s.reports.map fun rep =>
      (rep.content.summary.totalSamples, (rep.content.byDay.map DayRow.count).sum)) =
        some [(0, 1)] := by
    decide +kernel
  obtain ⟨s, hexec, hs⟩ := Option.map_eq_some_iff.mp hcounts
  obtain ⟨rep, hreports, hrep⟩ := List.map_eq_singleton_iff.mp hs
  have hagrees := hagree [] interruption s (run_of_exec hexec) rep (by rw [hreports]; simp)
  have hdays := hagrees.days
  rw [(Prod.mk.inj hrep).1, (Prod.mk.inj hrep).2] at hdays
  exact absurd hdays (by decide)

/-- The second sample is older than the window that starts at the first one. -/
def calm : List Action :=
  [.insertSample ⟨"SELECT ?", "mysql", "c", 5, some 3, "ok", 50⟩, .generate 100] ++
  List.replicate 3 (.advance 0 true 0) ++
  [.insertSample ⟨"SELECT ?", "mysql", "c", 5, none, "ok", 40⟩] ++
  List.replicate 5 (.advance 0 true 0)

theorem calm_agrees : ∃ s,
    Run step Undisturbed (.initial []) calm s ∧ s.reports.length = 1 ∧ AllAgree s := by
  have hone : ((execChecked step (fun s a => decide (Undisturbed s a)) (.initial []) calm).map
      fun s => s.reports.length) = some 1 := by
    decide +kernel
  obtain ⟨s, hexec, hs⟩ := Option.map_eq_some_iff.mp hone
  have hrun : Run step Undisturbed (.initial []) calm s :=
    run_of_execChecked (fun _ _ h => of_decide_eq_true h) hexec
  exact ⟨s, hrun, hs, allAgree_of_undisturbed [] calm s hrun⟩

end Dbmaster.Reports.Breakdowns
