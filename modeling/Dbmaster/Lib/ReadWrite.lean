import Dbmaster.Lib.Transition
/-!
# Jobs that read first and write later

Threads that share a state.  A job reads a part of the state in one step, and in a later one
writes what it makes of it.  Where every write still meets what its job has read, a run of
the threads is one of whole jobs, one after the other.
-/

namespace Dbmaster.Lib.ReadWrite

open Dbmaster.Lib.Transition

variable {σ τ ε ι : Type*}

/-! ## Threads -/

/-- What a job reads, and what it puts out and writes after that; without a write it ends
at its read. -/
structure Job (σ τ ε : Type*) where
  view : σ → τ
  run : τ → List ε × Option (σ → σ)

/-- `seen` is what the first job of the rest has read. -/
structure Thread (τ ε ι : Type*) where
  output : List ε
  seen : Option τ
  rest : List ι

structure World (σ τ ε ι : Type*) where
  state : σ
  threads : List (Thread τ ε ι)

inductive Action
  | read (i : Nat)
  | write (i : Nat)

def World.initial (state : σ) (programs : List (List ι)) : World σ τ ε ι :=
  ⟨state, programs.map fun program => ⟨[], none, program⟩⟩

section Steps

-- the jobs that the labels stand for
variable (job : ι → Job σ τ ε)

def step (w : World σ τ ε ι) : Action → Option (World σ τ ε ι)
  | .read i =>
    match w.threads[i]? with
    | some ⟨output, none, label :: rest⟩ =>
      let seen := (job label).view w.state
      match (job label).run seen with
      | (new, none) => some { w with threads := w.threads.set i ⟨output ++ new, none, rest⟩ }
      | (_, some _) =>
        some { w with threads := w.threads.set i ⟨output, some seen, label :: rest⟩ }
    | _ => none
  | .write i =>
    match w.threads[i]? with
    | some ⟨output, some seen, label :: rest⟩ =>
      match (job label).run seen with
      | (new, some write) =>
        some ⟨write w.state, w.threads.set i ⟨output ++ new, none, rest⟩⟩
      | (_, none) => none
    | _ => none

/-- A write still meets what its job has read. -/
def Fresh (w : World σ τ ε ι) : Action → Prop
  | .read _ => True
  | .write i => ∀ thread seen label rest, w.threads[i]? = some thread → thread.seen = some seen →
      thread.rest = label :: rest → (job label).view w.state = seen

/-- The same, to be evaluated. -/
def fresh [DecidableEq τ] (w : World σ τ ε ι) : Action → Bool
  | .read _ => true
  | .write i =>
    match w.threads[i]? with
    | some ⟨_, some seen, label :: _⟩ => decide ((job label).view w.state = seen)
    | _ => true

end Steps

/-! ## Whole jobs, one after the other -/

def Job.apply (job : Job σ τ ε) (s : σ) : σ :=
  match (job.run (job.view s)).2 with
  | none => s
  | some write => write s

def Job.output (job : Job σ τ ε) (s : σ) : List ε := (job.run (job.view s)).1

section Orders

variable (job : ι → Job σ τ ε)

def after : List (Nat × ι) → σ → σ
  | [], s => s
  | (_, label) :: order, s => after order ((job label).apply s)

/-- What a thread puts out. -/
def outputs (i : Nat) : List (Nat × ι) → σ → List ε
  | [], _ => []
  | (k, label) :: order, s =>
      (if k = i then (job label).output s else []) ++ outputs i order ((job label).apply s)

def labels (i : Nat) (order : List (Nat × ι)) : List ι :=
  (order.filter fun entry => entry.1 = i).map Prod.snd

theorem after_append (xs ys : List (Nat × ι)) (s : σ) :
    after job (xs ++ ys) s = after job ys (after job xs s) := by
  induction xs generalizing s with
  | nil => rfl
  | cons x xs ih => exact ih _

theorem outputs_append (i : Nat) (xs ys : List (Nat × ι)) (s : σ) :
    outputs job i (xs ++ ys) s = outputs job i xs s ++ outputs job i ys (after job xs s) := by
  induction xs generalizing s with
  | nil => rfl
  | cons x xs ih =>
      rw [List.cons_append, outputs, outputs, ih, List.append_assoc]
      rfl

theorem outputs_concat (i k : Nat) (label : ι) (order : List (Nat × ι)) (s : σ) :
    outputs job i (order ++ [(k, label)]) s =
      outputs job i order s ++ if k = i then (job label).output (after job order s) else [] := by
  rw [outputs_append]
  simp only [outputs, List.append_nil]

@[simp] theorem labels_cons_self (i : Nat) (label : ι) (order : List (Nat × ι)) :
    labels i ((i, label) :: order) = label :: labels i order := by
  simp [labels]

theorem labels_cons_of_ne {i k : Nat} (h : k ≠ i) (label : ι) (order : List (Nat × ι)) :
    labels i ((k, label) :: order) = labels i order := by
  simp [labels, h]

theorem labels_concat_self (i : Nat) (label : ι) (order : List (Nat × ι)) :
    labels i (order ++ [(i, label)]) = labels i order ++ [label] := by
  unfold labels
  rw [List.filter_append, List.map_append]
  simp

theorem labels_concat_of_ne {i k : Nat} (h : k ≠ i) (label : ι) (order : List (Nat × ι)) :
    labels i (order ++ [(k, label)]) = labels i order := by
  unfold labels
  rw [List.filter_append, List.map_append]
  simp [h]

theorem mem_labels {i : Nat} {label : ι} {order : List (Nat × ι)} :
    label ∈ labels i order ↔ (i, label) ∈ order := by
  unfold labels
  rw [List.mem_map]
  constructor
  · rintro ⟨⟨k, other⟩, hmem, rfl⟩
    obtain ⟨hentry, hk⟩ := List.mem_filter.mp hmem
    rw [← show k = i from of_decide_eq_true hk]
    exact hentry
  · intro hentry
    exact ⟨(i, label), List.mem_filter.mpr ⟨hentry, decide_eq_true rfl⟩, rfl⟩

/-! ## One step -/

/-- The world is the one after the jobs of `order`, and those of a thread are the first ones
of its program. -/
structure Serial (programs : List (List ι)) (s : σ) (order : List (Nat × ι))
    (w : World σ τ ε ι) : Prop where
  state : w.state = after job order s
  length : w.threads.length = programs.length
  bound : ∀ entry ∈ order, entry.1 < programs.length
  output : ∀ (i : Nat) (thread : Thread τ ε ι), w.threads[i]? = some thread →
    thread.output = outputs job i order s
  labels : ∀ (i : Nat) (thread : Thread τ ε ι), w.threads[i]? = some thread →
    programs[i]? = some (labels i order ++ thread.rest)

/-- A step only reads, or it completes a job. -/
inductive Effect (w : World σ τ ε ι) (w' : World σ τ ε ι) : Prop
  | read (i : Nat) (thread : Thread τ ε ι) (seen : Option τ) (hstate : w'.state = w.state)
      (hthread : w.threads[i]? = some thread)
      (hthreads : w'.threads = w.threads.set i { thread with seen := seen })
  | completed (i : Nat) (thread : Thread τ ε ι) (label : ι) (rest : List ι)
      (hthread : w.threads[i]? = some thread) (hrest : thread.rest = label :: rest)
      (hstate : w'.state = (job label).apply w.state)
      (hthreads : w'.threads = w.threads.set i
        ⟨thread.output ++ (job label).output w.state, none, rest⟩)

end Orders

variable {job : ι → Job σ τ ε} {w w' : World σ τ ε ι} {a : Action}
variable {programs : List (List ι)} {s : σ} {order : List (Nat × ι)}

theorem fresh_sound [DecidableEq τ] (h : fresh job w a = true) : Fresh job w a := by
  cases a with
  | read i => trivial
  | write i =>
      rintro ⟨output, seen, rest⟩ _ label _ hthread rfl rfl
      simpa only [fresh, hthread, decide_eq_true_eq] using h

theorem effect_of_step (hfresh : Fresh job w a) (h : step job w a = some w') :
    Effect job w w' := by
  cases a with
  | read i =>
      simp only [step] at h
      split at h
      case h_2 => cases h
      case h_1 output label rest hthread =>
        split at h
        case h_1 new hrun =>
          cases h
          refine .completed i _ label rest hthread rfl ?_ ?_
          · rw [Job.apply, hrun]
          · rw [Job.output, hrun]
        case h_2 new write hrun =>
          cases h
          exact .read i _ (some _) rfl hthread rfl
  | write i =>
      simp only [step] at h
      split at h
      case h_2 => cases h
      case h_1 output seen label rest hthread =>
        split at h
        case h_2 => cases h
        case h_1 new write hrun =>
          cases h
          have hseen : (job label).view w.state = seen := hfresh _ _ _ _ hthread rfl rfl
          refine .completed i _ label rest hthread rfl ?_ ?_
          · rw [Job.apply, hseen, hrun]
          · rw [Job.output, hseen, hrun]

theorem Serial.initial (job : ι → Job σ τ ε) (programs : List (List ι)) (s : σ) :
    Serial job programs s [] (World.initial s programs) where
  state := rfl
  length := List.length_map _
  bound := nofun
  output := by
    intro i thread hthread
    obtain ⟨program, -, rfl⟩ := Option.map_eq_some_iff.mp (List.getElem?_map ▸ hthread)
    rfl
  labels := by
    intro i thread hthread
    obtain ⟨program, hprogram, rfl⟩ := Option.map_eq_some_iff.mp (List.getElem?_map ▸ hthread)
    exact hprogram

theorem Serial.exists_thread (hserial : Serial job programs s order w) {i : Nat}
    {program : List ι} (hprogram : programs[i]? = some program) :
    ∃ thread, w.threads[i]? = some thread ∧ program = ReadWrite.labels i order ++ thread.rest := by
  obtain ⟨hi, -⟩ := List.getElem?_eq_some_iff.mp hprogram
  rw [← hserial.length] at hi
  have hthread := List.getElem?_eq_getElem hi
  refine ⟨_, hthread, ?_⟩
  have hlabels := hserial.labels i _ hthread
  rw [hprogram] at hlabels
  exact Option.some.inj hlabels

theorem Serial.effect (h : Effect job w w') (hserial : Serial job programs s order w) :
    ∃ later, Serial job programs s (order ++ later) w' := by
  cases h with
  | read i old seen hstate hthread hthreads =>
      refine ⟨[], ?_⟩
      rw [List.append_nil]
      constructor
      · rw [hstate, hserial.state]
      · rw [hthreads, List.length_set, hserial.length]
      · exact hserial.bound
      · intro k thread hk
        rw [hthreads] at hk
        rcases of_getElem?_set hk with ⟨rfl, rfl⟩ | ⟨-, hkept⟩
        · exact hserial.output k old hthread
        · exact hserial.output k thread hkept
      · intro k thread hk
        rw [hthreads] at hk
        rcases of_getElem?_set hk with ⟨rfl, rfl⟩ | ⟨-, hkept⟩
        · exact hserial.labels k old hthread
        · exact hserial.labels k thread hkept
  | completed i old label rest hthread hrest hstate hthreads =>
      refine ⟨[(i, label)], ?_⟩
      constructor
      · rw [after_append, hstate, hserial.state]
        rfl
      · rw [hthreads, List.length_set, hserial.length]
      · intro entry hentry
        rcases List.mem_append.mp hentry with hold | hnew
        · exact hserial.bound entry hold
        · obtain ⟨hi, -⟩ := List.getElem?_eq_some_iff.mp hthread
          rw [List.mem_singleton.mp hnew, ← hserial.length]
          exact hi
      · intro k thread hk
        rw [hthreads] at hk
        rw [outputs_concat]
        rcases of_getElem?_set hk with ⟨rfl, rfl⟩ | ⟨hne, hkept⟩
        · rw [if_pos rfl, ← hserial.output k old hthread, hserial.state]
        · rw [if_neg (Ne.symm hne), List.append_nil, hserial.output k thread hkept]
      · intro k thread hk
        rw [hthreads] at hk
        rcases of_getElem?_set hk with ⟨rfl, rfl⟩ | ⟨hne, hkept⟩
        · rw [labels_concat_self, List.append_assoc, hserial.labels k old hthread, hrest]
          rfl
        · rw [labels_concat_of_ne (Ne.symm hne)]
          exact hserial.labels k thread hkept

/-! ## Whole runs -/

/-- A run whose writes meet what their jobs have read is one of whole jobs. -/
theorem serial_of_fresh {acts : List Action}
    (hrun : Run (step job) (Fresh job) (.initial s programs) acts w) :
    ∃ order, Serial job programs s order w := by
  refine hrun.invariant (I := fun w => ∃ order, Serial job programs s order w) ?_
    ⟨[], .initial job programs s⟩
  rintro w a w' hfresh hstep ⟨order, hserial⟩
  obtain ⟨later, hlater⟩ := hserial.effect (effect_of_step hfresh hstep)
  exact ⟨order ++ later, hlater⟩

/-! ## Every order is that of a run -/

theorem run_job {i : Nat} {output : List ε} {label : ι} {rest : List ι}
    (hthread : w.threads[i]? = some ⟨output, none, label :: rest⟩) :
    ∃ acts, Run (step job) (Fresh job) w acts
      ⟨(job label).apply w.state,
        w.threads.set i ⟨output ++ (job label).output w.state, none, rest⟩⟩ := by
  obtain ⟨hi, -⟩ := List.getElem?_eq_some_iff.mp hthread
  obtain ⟨new, write, hrun⟩ : ∃ new write, (job label).run ((job label).view w.state) = (new, write) :=
    ⟨_, _, rfl⟩
  unfold Job.apply Job.output
  rw [hrun]
  cases write with
  | none =>
      refine ⟨[.read i], .cons trivial ?_ (.nil _)⟩
      simp only [step, hthread, hrun]
  | some write =>
      let seen := (job label).view w.state
      let middle : World σ τ ε ι :=
        ⟨w.state, w.threads.set i ⟨output, some seen, label :: rest⟩⟩
      have hmiddle : middle.threads[i]? = some ⟨output, some seen, label :: rest⟩ :=
        List.getElem?_set_self hi
      refine ⟨[.read i, .write i], .cons (t := middle) trivial ?_ (.cons ?_ ?_ (.nil _))⟩
      · simp only [step, hthread, hrun]
        rfl
      · rintro _ _ _ _ hsame hseen hrest
        rw [hmiddle] at hsame
        cases hsame
        cases hseen
        cases hrest
        rfl
      · simp only [step, hmiddle]
        rw [show (job label).run seen = (new, some write) from hrun]
        simp only [middle, List.set_set]

/-- The world in which the jobs of `ran` are done, and those of `left` are left. -/
def World.between (job : ι → Job σ τ ε) (n : Nat) (s : σ) (ran left : List (Nat × ι)) :
    World σ τ ε ι :=
  ⟨after job ran s, (List.range n).map fun i => ⟨outputs job i ran s, none, labels i left⟩⟩

theorem getElem?_between (job : ι → Job σ τ ε) (s : σ) {n i : Nat} (hi : i < n)
    (ran left : List (Nat × ι)) :
    (World.between job n s ran left).threads[i]? =
      some ⟨outputs job i ran s, none, labels i left⟩ := by
  show ((List.range n).map _)[i]? = _
  rw [List.getElem?_map, List.getElem?_range hi]
  rfl

theorem between_concat {n i : Nat} (s : σ) (ran left : List (Nat × ι)) (label : ι) :
    World.mk ((job label).apply (after job ran s))
        ((World.between job n s ran ((i, label) :: left)).threads.set i
          ⟨outputs job i ran s ++ (job label).output (after job ran s), none, labels i left⟩) =
      World.between job n s (ran ++ [(i, label)]) left := by
  apply (World.mk.injEq ..).mpr
  refine ⟨(after_append job ran [(i, label)] s).symm, ?_⟩
  apply List.ext_getElem?
  intro k
  by_cases hk : k < n
  · have hold := getElem?_between job s hk ran ((i, label) :: left)
    have hnew := getElem?_between job s hk (ran ++ [(i, label)]) left
    refine Eq.trans ?_ hnew.symm
    rw [outputs_concat]
    by_cases hik : i = k
    · subst hik
      rw [if_pos rfl, List.getElem?_set_self']
      rw [hold]
      rfl
    · rw [List.getElem?_set_ne hik, if_neg hik, List.append_nil, hold, labels_cons_of_ne hik]
  · have hlength : (World.between job n s ran ((i, label) :: left)).threads.length = n := by
      rw [World.between, List.length_map, List.length_range]
    rw [List.getElem?_eq_none, List.getElem?_eq_none]
    · rw [List.length_map, List.length_range]
      exact Nat.le_of_not_lt hk
    · rw [List.length_set, hlength]
      exact Nat.le_of_not_lt hk

theorem run_between (job : ι → Job σ τ ε) (n : Nat) (s : σ) (ran left : List (Nat × ι))
    (hbound : ∀ entry ∈ left, entry.1 < n) :
    ∃ acts, Run (step job) (Fresh job) (.between job n s ran left) acts
      (.between job n s (ran ++ left) []) := by
  induction left generalizing ran with
  | nil =>
      rw [List.append_nil]
      exact ⟨[], .nil _⟩
  | cons entry left ih =>
      obtain ⟨i, label⟩ := entry
      have hi : i < n := hbound _ List.mem_cons_self
      have hthread := getElem?_between job s hi ran ((i, label) :: left)
      rw [labels_cons_self] at hthread
      obtain ⟨first, hfirst⟩ := run_job hthread
      obtain ⟨later, hlater⟩ := ih (ran ++ [(i, label)]) fun entry hentry =>
        hbound entry (.tail _ hentry)
      rw [List.append_assoc, List.singleton_append, ← between_concat] at hlater
      exact ⟨first ++ later, hfirst.append hlater⟩

/-- The jobs of the programs, in any order of the threads, are those of a run. -/
theorem exists_run (job : ι → Job σ τ ε) (s : σ) {programs : List (List ι)}
    (hbound : ∀ entry ∈ order, entry.1 < programs.length)
    (hlabels : ∀ i program, programs[i]? = some program → labels i order = program) :
    ∃ acts, Run (step job) (Fresh job) (.initial s programs) acts
      (.between job programs.length s order []) := by
  have hinitial : World.initial s programs = World.between job programs.length s [] order := by
    rw [World.initial, World.between, World.mk.injEq]
    refine ⟨rfl, ?_⟩
    apply List.ext_getElem?
    intro i
    rw [List.getElem?_map, List.getElem?_map]
    by_cases hi : i < programs.length
    · have hprogram := List.getElem?_eq_getElem hi
      rw [List.getElem?_range hi, hprogram, Option.map_some, Option.map_some,
        hlabels i _ hprogram]
      rfl
    · have hnone : programs[i]? = none := List.getElem?_eq_none (Nat.le_of_not_lt hi)
      have hrange : (List.range programs.length)[i]? = none := by
        rw [List.getElem?_eq_none]
        rw [List.length_range]
        exact Nat.le_of_not_lt hi
      rw [hnone, hrange]
      rfl
  obtain ⟨acts, hrun⟩ := run_between job programs.length s [] order hbound
  rw [hinitial]
  exact ⟨acts, hrun⟩

/-! ## Two threads -/

theorem labels_filter (i : Nat) (p : ι → Bool) (order : List (Nat × ι)) :
    labels i (order.filter fun entry => p entry.2) = (labels i order).filter p := by
  unfold labels
  rw [List.filter_map, List.filter_filter, List.filter_filter]
  congr 2
  funext entry
  exact Bool.and_comm _ _

/-- The jobs of one thread alone. -/
theorem eq_map_labels {i : Nat} (h : ∀ entry ∈ order, entry.1 = i) :
    order = (labels i order).map fun label => (i, label) := by
  induction order with
  | nil => rfl
  | cons entry order ih =>
      obtain ⟨k, label⟩ := entry
      obtain rfl : k = i := h _ List.mem_cons_self
      rw [labels_cons_self, List.map_cons, ← ih fun entry hmem => h entry (.tail _ hmem)]

/-- Two threads with one job each. -/
theorem two_orders {x y : ι} (order : List (Nat × ι)) (hbound : ∀ entry ∈ order, entry.1 < 2)
    (hfirst : labels 0 order = [x]) (hsecond : labels 1 order = [y]) :
    order = [(0, x), (1, y)] ∨ order = [(1, y), (0, x)] := by
  -- what follows a job of thread `i` belongs to the other thread
  have hrest : ∀ {i j : Nat} {z : ι} {rest : List (Nat × ι)}, labels i rest = [] →
      labels j rest = [z] → (∀ entry ∈ rest, entry.1 = i ∨ entry.1 = j) → rest = [(j, z)] := by
    intro i j z rest hnone hone hthreads
    have hall : ∀ entry ∈ rest, entry.1 = j := by
      rintro ⟨k, label⟩ hentry
      rcases hthreads _ hentry with rfl | hj
      · have hlabel := mem_labels.mpr hentry
        rw [hnone] at hlabel
        cases hlabel
      · exact hj
    rw [eq_map_labels hall, hone]
    rfl
  cases order with
  | nil => cases hfirst
  | cons entry rest =>
      obtain ⟨k, label⟩ := entry
      have hk : k = 0 ∨ k = 1 := by
        have hlt := hbound _ List.mem_cons_self
        simp only at hlt
        omega
      have hthreads : ∀ entry ∈ rest, entry.1 = 0 ∨ entry.1 = 1 := by
        intro entry hentry
        have hlt := hbound entry (.tail _ hentry)
        omega
      rcases hk with rfl | rfl
      · left
        rw [labels_cons_self, List.cons.injEq] at hfirst
        rw [labels_cons_of_ne (by decide)] at hsecond
        rw [hfirst.1, hrest hfirst.2 hsecond hthreads]
      · right
        rw [labels_cons_of_ne (by decide)] at hfirst
        rw [labels_cons_self, List.cons.injEq] at hsecond
        rw [hsecond.1, hrest hsecond.2 hfirst fun entry hentry => (hthreads entry hentry).symm]

end Dbmaster.Lib.ReadWrite
