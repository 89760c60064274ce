import Dbmaster.Lib.Window
import Mathlib.Algebra.Order.Group.Int
/-!
# The sliding-window limiter

`SlidingWindowLimiter`: the times of the allowed calls of each key, pruned on
every call.  What a run of calls allows is compared with the log of all the calls
it allowed before, of which the counters keep what still matters.
-/

namespace Dbmaster.RateLimit.Limiter

open Dbmaster.Lib

/-- `Instant::duration_since` for clock readings in nanoseconds, zero when the other
reading is later. -/
def durationSince (now earlier : Int) : Nat := (now - earlier).toNat

def asSecs (duration : Nat) : Nat := duration / 1000000000

def secs (n : Nat) : Int := 1000000000 * n

structure SlidingWindowLimiter where
  counters : String → Option (List Int)

def SlidingWindowLimiter.new : SlidingWindowLimiter := ⟨fun _ => none⟩

/-- `entry(key).or_default()` -/
def SlidingWindowLimiter.entries (s : SlidingWindowLimiter) (key : String) : List Int :=
  (s.counters key).getD []

def SlidingWindowLimiter.setEntries (s : SlidingWindowLimiter) (key : String)
    (entries : List Int) : SlidingWindowLimiter :=
  ⟨fun k => if k = key then some entries else s.counters k⟩

def checkAndRecord (s : SlidingWindowLimiter) (key : String) (max windowSecs : Nat)
    (now : Int) : SlidingWindowLimiter × Bool :=
  let entries := (s.entries key).filter fun t => asSecs (durationSince now t) < windowSecs
  if max ≤ entries.length then (s.setEntries key entries, false)
  else (s.setEntries key (entries ++ [now]), true)

/-! ## Runs of calls -/

structure Call where
  key : String
  now : Int
deriving DecidableEq

section Runs

variable (max windowSecs : Nat)

def trace (s : SlidingWindowLimiter) : List Call → List (Call × Bool)
  | [] => []
  | c :: calls =>
      let r := checkAndRecord s c.key max windowSecs c.now
      (c, r.2) :: trace r.1 calls

def stateAfter (s : SlidingWindowLimiter) : List Call → SlidingWindowLimiter
  | [] => s
  | c :: calls => stateAfter (checkAndRecord s c.key max windowSecs c.now).1 calls

end Runs

def allowedTimes (key : String) (outcomes : List (Call × Bool)) : List Int :=
  (outcomes.filter fun o => o.1.key = key ∧ o.2 = true).map fun o => o.1.now

@[simp] theorem allowedTimes_append (key : String) (first second : List (Call × Bool)) :
    allowedTimes key (first ++ second) = allowedTimes key first ++ allowedTimes key second := by
  unfold allowedTimes
  rw [List.filter_append, List.map_append]

@[simp] theorem entries_setEntries (s : SlidingWindowLimiter) (key k : String)
    (entries : List Int) :
    (s.setEntries key entries).entries k = if k = key then entries else s.entries k := by
  unfold SlidingWindowLimiter.setEntries SlidingWindowLimiter.entries
  by_cases h : k = key
  · simp [h]
  · simp [h]

/-! ## The expiry test -/

theorem asSecs_lt_iff {now t : Int} (hle : t ≤ now) (windowSecs : Nat) :
    asSecs (durationSince now t) < windowSecs ↔ now < t + secs windowSecs := by
  unfold asSecs durationSince secs
  rw [Nat.div_lt_iff_lt_mul (by omega)]
  omega

theorem prune_eq_recent {entries : List Int} {now : Int} (hle : ∀ t ∈ entries, t ≤ now)
    (windowSecs : Nat) :
    (entries.filter fun t => asSecs (durationSince now t) < windowSecs) =
      Window.recent (secs windowSecs) now entries := by
  unfold Window.recent
  apply List.filter_congr
  intro t ht
  have hiff := asSecs_lt_iff (hle t ht) windowSecs
  exact decide_eq_decide.mpr hiff

/-! ## What the counters keep -/

/-- At a time the counters know of the log of allowed calls what is recent at any
time from then on. -/
structure Represents (windowSecs : Nat) (now : Int) (s : SlidingWindowLimiter)
    (log : String → List Int) : Prop where
  log_le : ∀ key, ∀ t ∈ log key, t ≤ now
  entries_le : ∀ key, ∀ t ∈ s.entries key, t ≤ now
  recent : ∀ key later, now ≤ later →
    Window.recent (secs windowSecs) later (s.entries key) =
      Window.recent (secs windowSecs) later (log key)

/-- The log with one more call, if it was allowed. -/
def recordCall (log : String → List Int) (c : Call) (allowed : Bool) : String → List Int :=
  fun key => if key = c.key ∧ allowed = true then log key ++ [c.now] else log key

section Step

variable {max windowSecs : Nat} {now : Int} {s : SlidingWindowLimiter}
  {log : String → List Int} {c : Call}

theorem represents_new (now : Int) :
    Represents windowSecs now SlidingWindowLimiter.new fun _ => [] where
  log_le _ t ht := by cases ht
  entries_le _ t ht := by cases ht
  recent _ _ _ := rfl

theorem allowed_iff (h : Represents windowSecs now s log) (hclock : now ≤ c.now) :
    (checkAndRecord s c.key max windowSecs c.now).2 = true ↔
      (Window.recent (secs windowSecs) c.now (log c.key)).length < max := by
  have hle : ∀ t ∈ s.entries c.key, t ≤ c.now := fun t ht => (h.entries_le _ t ht).trans hclock
  have hrecent := h.recent c.key c.now hclock
  simp only [checkAndRecord, prune_eq_recent hle, hrecent]
  split
  case isTrue hfull => simp; omega
  case isFalse hroom => simp; omega

theorem checkAndRecord_entries (max windowSecs : Nat)
    (hle : ∀ t ∈ s.entries c.key, t ≤ c.now) (key : String) :
    (checkAndRecord s c.key max windowSecs c.now).1.entries key =
      if key = c.key then
        Window.recent (secs windowSecs) c.now (s.entries c.key) ++
          (if (checkAndRecord s c.key max windowSecs c.now).2 = true then [c.now] else [])
      else s.entries key := by
  simp only [checkAndRecord, prune_eq_recent hle]
  split
  · simp
  · simp

theorem Represents.record (max : Nat) (h : Represents windowSecs now s log) (hclock : now ≤ c.now) :
    Represents windowSecs c.now (checkAndRecord s c.key max windowSecs c.now).1
      (recordCall log c (checkAndRecord s c.key max windowSecs c.now).2) := by
  have hle : ∀ t ∈ s.entries c.key, t ≤ c.now := fun t ht => (h.entries_le _ t ht).trans hclock
  have hentries := checkAndRecord_entries max windowSecs hle
  generalize (checkAndRecord s c.key max windowSecs c.now).2 = allowed at hentries
  constructor
  · intro key t ht
    unfold recordCall at ht
    split at ht
    case isTrue =>
      rcases List.mem_append.mp ht with hlog | hnow
      · exact (h.log_le key t hlog).trans hclock
      · exact (List.mem_singleton.mp hnow).le
    case isFalse => exact (h.log_le key t ht).trans hclock
  · intro key t ht
    rw [hentries key] at ht
    split at ht
    case isTrue =>
      rcases List.mem_append.mp ht with hkept | hnow
      · exact hle t ((List.mem_filter.mp hkept).1)
      · split at hnow
        · exact (List.mem_singleton.mp hnow).le
        · cases hnow
    case isFalse => exact (h.entries_le key t ht).trans hclock
  · intro key later hlater
    have hsame := h.recent key later (hclock.trans hlater)
    rw [hentries key]
    unfold recordCall
    by_cases hkey : key = c.key
    · rw [if_pos hkey, ← hkey, Window.recent_append, Window.recent_recent hlater, hsame]
      by_cases hallowed : allowed = true
      · rw [if_pos hallowed, if_pos ⟨rfl, hallowed⟩, Window.recent_append]
      · rw [if_neg hallowed, if_neg fun hboth => hallowed hboth.2]
        exact List.append_nil _
    · rw [if_neg hkey, if_neg fun hboth => hkey hboth.1, hsame]

end Step

/-! ## Whole runs -/

section Whole

variable {max windowSecs : Nat}

theorem Represents.later {now t : Int} {s : SlidingWindowLimiter} {log : String → List Int}
    (h : Represents windowSecs now s log) (hle : now ≤ t) : Represents windowSecs t s log where
  log_le key u hu := (h.log_le key u hu).trans hle
  entries_le key u hu := (h.entries_le key u hu).trans hle
  recent key later hlater := h.recent key later (hle.trans hlater)

theorem log_append_allowedTimes (log : String → List Int) (c : Call) (allowed : Bool)
    (outcomes : List (Call × Bool)) (key : String) :
    log key ++ allowedTimes key ((c, allowed) :: outcomes) =
      recordCall log c allowed key ++ allowedTimes key outcomes := by
  rw [← List.singleton_append, allowedTimes_append, ← List.append_assoc]
  congr 1
  unfold recordCall allowedTimes
  by_cases hkey : key = c.key ∧ allowed = true
  · simp [hkey.1, hkey.2]
  · rw [if_neg hkey, List.filter_cons_of_neg]
    · exact List.append_nil _
    · intro hboth
      exact hkey ⟨(of_decide_eq_true hboth).1.symm, (of_decide_eq_true hboth).2⟩

theorem represents_stateAfter (max : Nat) (calls : List Call) {now t : Int}
    {s : SlidingWindowLimiter} {log : String → List Int} (h : Represents windowSecs now s log)
    (hclock : calls.Pairwise fun c d => c.now ≤ d.now) (hstart : ∀ c ∈ calls, now ≤ c.now)
    (hend : ∀ c ∈ calls, c.now ≤ t) (hle : now ≤ t) :
    Represents windowSecs t (stateAfter max windowSecs s calls)
      fun key => log key ++ allowedTimes key (trace max windowSecs s calls) := by
  induction calls generalizing now s log with
  | nil =>
      have hlater := h.later hle
      simpa [stateAfter, trace, allowedTimes] using hlater
  | cons c calls ih =>
      obtain ⟨hfirst, hrest⟩ := List.pairwise_cons.mp hclock
      have hnow := hstart c List.mem_cons_self
      have htail := ih (h.record max hnow) hrest hfirst
        (fun d hd => hend d (List.mem_cons_of_mem c hd)) (hend c List.mem_cons_self)
      simp only [trace, log_append_allowedTimes]
      exact htail

theorem admitted_trace (calls : List Call) {now : Int} {s : SlidingWindowLimiter}
    {log : String → List Int} (h : Represents windowSecs now s log)
    (hadmitted : ∀ key, Window.Admitted max (secs windowSecs) (log key))
    (hclock : calls.Pairwise fun c d => c.now ≤ d.now) (hstart : ∀ c ∈ calls, now ≤ c.now)
    (key : String) :
    Window.Admitted max (secs windowSecs)
      (log key ++ allowedTimes key (trace max windowSecs s calls)) := by
  induction calls generalizing now s log with
  | nil => simpa [trace, allowedTimes] using hadmitted key
  | cons c calls ih =>
      obtain ⟨hfirst, hrest⟩ := List.pairwise_cons.mp hclock
      have hnow := hstart c List.mem_cons_self
      rw [trace, log_append_allowedTimes]
      refine ih (h.record max hnow) ?_ hrest hfirst
      intro k
      unfold recordCall
      split
      case isTrue hboth =>
        rw [hboth.1]
        apply (hadmitted c.key).snoc
        · intro u hu
          exact (h.log_le c.key u hu).trans hnow
        · exact (allowed_iff h hnow).mp hboth.2
      case isFalse => exact hadmitted k

/-- What a key is answered does not depend on the calls with other keys. -/
theorem trace_filter (calls : List Call) (key : String) {s s' : SlidingWindowLimiter}
    (h : s.entries key = s'.entries key) :
    ((trace max windowSecs s calls).filter fun o => o.1.key = key) =
      trace max windowSecs s' (calls.filter fun c => c.key = key) := by
  induction calls generalizing s s' with
  | nil => rfl
  | cons c calls ih =>
      by_cases hkey : c.key = key
      · have hsame : checkAndRecord s c.key max windowSecs c.now =
            ((s.setEntries key
              ((checkAndRecord s' c.key max windowSecs c.now).1.entries key)),
              (checkAndRecord s' c.key max windowSecs c.now).2) := by
          simp only [checkAndRecord, hkey, h]
          split <;> simp
        rw [List.filter_cons_of_pos (by simp [hkey])]
        simp only [trace]
        rw [List.filter_cons_of_pos (by simp [hkey])]
        rw [hsame]
        congr 1
        apply ih
        simp
      · rw [List.filter_cons_of_neg (by simp [hkey])]
        simp only [trace]
        rw [List.filter_cons_of_neg (by simp [hkey])]
        apply ih
        rw [← h]
        simp only [checkAndRecord]
        split <;> simp [Ne.symm hkey]

/-- The answers depend on the state only through the log that it represents. -/
theorem trace_eq_of_represents (calls : List Call) {now : Int} {s s' : SlidingWindowLimiter}
    {log : String → List Int} (h : Represents windowSecs now s log)
    (h' : Represents windowSecs now s' log)
    (hclock : calls.Pairwise fun c d => c.now ≤ d.now) (hstart : ∀ c ∈ calls, now ≤ c.now) :
    trace max windowSecs s calls = trace max windowSecs s' calls := by
  induction calls generalizing now s s' log with
  | nil => rfl
  | cons c calls ih =>
      obtain ⟨hfirst, hrest⟩ := List.pairwise_cons.mp hclock
      have hnow := hstart c List.mem_cons_self
      have hanswer : (checkAndRecord s c.key max windowSecs c.now).2 =
          (checkAndRecord s' c.key max windowSecs c.now).2 := by
        rw [Bool.eq_iff_iff, allowed_iff h hnow, allowed_iff h' hnow]
      simp only [trace]
      rw [hanswer]
      congr 1
      have hafter := h'.record max hnow
      rw [← hanswer] at hafter
      exact ih (h.record max hnow) hafter hrest hfirst

theorem represents_start (max windowSecs : Nat) {calls : List Call} {t : Int}
    (hclock : calls.Pairwise fun c d => c.now ≤ d.now) (hend : ∀ c ∈ calls, c.now ≤ t) :
    Represents windowSecs t (stateAfter max windowSecs .new calls)
      fun key => allowedTimes key (trace max windowSecs .new calls) := by
  cases calls with
  | nil => exact represents_new t
  | cons c calls =>
      have hfirst := (List.pairwise_cons.mp hclock).1
      have hstart : ∀ d ∈ c :: calls, c.now ≤ d.now := by
        intro d hd
        rcases List.mem_cons.mp hd with hc | hcalls
        · rw [hc]
        · exact hfirst d hcalls
      have hnew : Represents windowSecs c.now .new fun _ => [] := represents_new c.now
      have hrun := represents_stateAfter max (c :: calls) hnew hclock hstart hend
        (hend c List.mem_cons_self)
      simpa only [List.nil_append] using hrun

/-- What is checked when `c` is called after the calls before it. -/
def answer (max windowSecs : Nat) (before : List Call) (c : Call) : Bool :=
  (checkAndRecord (stateAfter max windowSecs .new before) c.key max windowSecs c.now).2

theorem stateAfter_append (s : SlidingWindowLimiter) (first second : List Call) :
    stateAfter max windowSecs s (first ++ second) =
      stateAfter max windowSecs (stateAfter max windowSecs s first) second := by
  induction first generalizing s with
  | nil => rfl
  | cons c first ih => exact ih _

theorem trace_after_denied {before later : List Call} {c : Call}
    (hclock : (before ++ c :: later).Pairwise fun c d => c.now ≤ d.now)
    (hdenied : answer max windowSecs before c = false) :
    trace max windowSecs (stateAfter max windowSecs .new (before ++ [c])) later =
      trace max windowSecs (stateAfter max windowSecs .new before) later := by
  obtain ⟨hbefore, hafter, hcross⟩ := List.pairwise_append.mp hclock
  obtain ⟨hnext, hlater⟩ := List.pairwise_cons.mp hafter
  have hreached := represents_start max windowSecs hbefore
    fun d hd => hcross d hd c List.mem_cons_self
  have hrecorded := hreached.record max le_rfl
  unfold answer at hdenied
  rw [hdenied] at hrecorded
  rw [stateAfter_append]
  refine trace_eq_of_represents later hrecorded ?_ hlater hnext
  have hsame : recordCall (fun key => allowedTimes key (trace max windowSecs .new before)) c
      false = fun key => allowedTimes key (trace max windowSecs .new before) := by
    funext key
    exact if_neg fun hboth => Bool.false_ne_true hboth.2
  rw [hsame]
  exact hreached

theorem full_of_denied {before : List Call} {c : Call}
    (hclock : (before ++ [c]).Pairwise fun c d => c.now ≤ d.now)
    (hdenied : answer max windowSecs before c = false) :
    max ≤ (Window.recent (secs windowSecs) c.now
      (allowedTimes c.key (trace max windowSecs .new before))).length := by
  obtain ⟨hbefore, -, hcross⟩ := List.pairwise_append.mp hclock
  have hreached := represents_start max windowSecs hbefore
    fun d hd => hcross d hd c List.mem_cons_self
  by_contra hroom
  have hallowed := (allowed_iff hreached le_rfl).mpr (Nat.lt_of_not_le hroom)
  unfold answer at hdenied
  rw [hdenied] at hallowed
  cases hallowed

theorem within_allowedTimes_le (max windowSecs : Nat) {calls : List Call}
    (hclock : calls.Pairwise fun c d => c.now ≤ d.now) (key : String) (a : Int) :
    (Window.within (secs windowSecs) a
      (allowedTimes key (trace max windowSecs .new calls))).length ≤ max := by
  apply Window.within_length_le
  cases calls with
  | nil => exact .nil
  | cons c calls =>
      have hfirst := (List.pairwise_cons.mp hclock).1
      have hnew : Represents windowSecs c.now .new fun _ => [] := represents_new c.now
      have hadmitted := @admitted_trace max windowSecs (c :: calls) _ _ _ hnew
        (fun _ => .nil) hclock (List.forall_mem_cons.mpr ⟨le_rfl, hfirst⟩) key
      simpa only [List.nil_append] using hadmitted

end Whole

/-- For calls by a clock that does not go back, from the new limiter: every window
holds at most the maximum of allowed calls of a key, a denied call changes nothing
for the calls after it, keys are answered as if alone, and a call is denied only
with a full window before it. -/
theorem limiter_law (max windowSecs : Nat) (calls : List Call)
    (hclock : calls.Pairwise fun c d => c.now ≤ d.now) :
    (∀ key a, (Window.within (secs windowSecs) a
      (allowedTimes key (trace max windowSecs .new calls))).length ≤ max) ∧
    (∀ before c later, calls = before ++ c :: later → answer max windowSecs before c = false →
      trace max windowSecs (stateAfter max windowSecs .new (before ++ [c])) later =
        trace max windowSecs (stateAfter max windowSecs .new before) later) ∧
    (∀ key, ((trace max windowSecs .new calls).filter fun o => o.1.key = key) =
      trace max windowSecs .new (calls.filter fun c => c.key = key)) ∧
    (∀ before c later, calls = before ++ c :: later → answer max windowSecs before c = false →
      max ≤ (Window.recent (secs windowSecs) c.now
        (allowedTimes c.key (trace max windowSecs .new before))).length) := by
  refine ⟨within_allowedTimes_le max windowSecs hclock, ?_, ?_, ?_⟩
  · rintro before c later rfl hdenied
    exact trace_after_denied hclock hdenied
  · intro key
    exact trace_filter calls key rfl
  · rintro before c later rfl hdenied
    have hfront : (before ++ [c]).Sublist (before ++ c :: later) := by simp
    exact full_of_denied (hclock.sublist hfront) hdenied

/-- Two calls fill a window of a minute; the third comes too early, the fourth does
not. -/
theorem limiter_law_full :
    let calls : List Call := [⟨"a", 0⟩, ⟨"a", 20000000000⟩, ⟨"a", 59999999999⟩,
      ⟨"a", 60000000000⟩]
    (trace 2 60 .new calls).map Prod.snd = [true, true, false, true] ∧
    (Window.within (secs 60) 0 (allowedTimes "a" (trace 2 60 .new calls))).length ≤ 2 :=
  ⟨by decide, (limiter_law 2 60 _ (by decide)).1 "a" 0⟩

end Dbmaster.RateLimit.Limiter
