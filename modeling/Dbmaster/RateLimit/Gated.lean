import Dbmaster.Lib.Calls
import Dbmaster.RateLimit.Limiter
/-!
# Calls behind the limiter

Where calls in progress share one limiter, those of a key that were let through within any window
are no more than its maximum, whatever else their steps do.
-/

namespace Dbmaster.RateLimit.Gated

open Dbmaster.Lib Dbmaster.Lib.Transition Dbmaster.Lib.Calls Dbmaster.RateLimit.Limiter

variable {σ π α ε : Type*}

/-- `admission` is the key and the time a call has been let through with.  A step asks the limiter
at most once, and a call that is let through was not before. -/
structure AsksLimiter (program : Program σ π α ε) (limiter : σ → SlidingWindowLimiter) (clock : σ → Int)
    (max windowSecs : Nat) (admission : π → Option (String × Int)) : Prop where
  call : ∀ a, admission (program.call a) = none
  move : ∀ s phase e s' phase', program.move s phase e = some (s', phase') →
    clock s' = clock s ∧
      (admission phase' = admission phase ∧ limiter s' = limiter s ∨
        (∃ key, admission phase' = admission phase ∧
          checkAndRecord (limiter s) key max windowSecs (clock s) = (limiter s', false)) ∨
        ∃ key, admission phase = none ∧ admission phase' = some (key, clock s) ∧
          checkAndRecord (limiter s) key max windowSecs (clock s) = (limiter s', true))
  env : ∀ s e s', program.env s e = some s' → limiter s' = limiter s ∧ clock s ≤ clock s'

/-- The time at which a call of the key was let through. -/
def admittedAt (admission : π → Option (String × Int)) (key : String) (phase : π) : Option Int :=
  match admission phase with
  | some (k, t) => if k = key then some t else none
  | none => none

/-- The limiter knows of the calls that were let through, and each of them found room. -/
structure Capped (limiter : σ → SlidingWindowLimiter) (clock : σ → Int) (max windowSecs : Nat)
    (admission : π → Option (String × Int)) (w : World σ π) (log : String → List Int) : Prop where
  represents : Represents windowSecs (clock w.shared) (limiter w.shared) log
  admitted : ∀ key, Window.Admitted max (secs windowSecs) (log key)
  perm : ∀ key, (log key).Perm (w.calls.filterMap (admittedAt admission key))

section Steps

variable {program : Program σ π α ε} {limiter : σ → SlidingWindowLimiter} {clock : σ → Int}
variable {max windowSecs : Nat} {admission : π → Option (String × Int)}
variable {w w' : World σ π} {log : String → List Int} {s' : σ} {phase phase' : π} {i : Nat}

theorem admittedAt_of_none (hnone : admission phase = none) (key : String) :
    admittedAt admission key phase = none := by rw [admittedAt, hnone]

theorem admittedAt_of_some {k : String} {t : Int} (hsome : admission phase = some (k, t))
    (key : String) : admittedAt admission key phase = if k = key then some t else none := by
  rw [admittedAt, hsome]

theorem Capped.call (hw : Capped limiter clock max windowSecs admission w log)
    (hnone : admission phase = none) :
    Capped limiter clock max windowSecs admission { w with calls := w.calls ++ [phase] } log where
  represents := hw.represents
  admitted := hw.admitted
  perm key := by
    rw [List.filterMap_append, List.filterMap_cons_none (admittedAt_of_none hnone key),
      List.filterMap_nil, List.append_nil]
    exact hw.perm key

/-- A step that lets nothing through. -/
theorem Capped.quiet (hw : Capped limiter clock max windowSecs admission w log)
    (hphase : w.calls[i]? = some phase) (hclock : clock s' = clock w.shared)
    (hrepresents : Represents windowSecs (clock w.shared) (limiter s') log)
    (hsame : admission phase' = admission phase) :
    Capped limiter clock max windowSecs admission ⟨s', w.calls.set i phase'⟩ log where
  represents := by
    rw [hclock]
    exact hrepresents
  admitted := hw.admitted
  perm key := by
    have hkept : admittedAt admission key phase' = admittedAt admission key phase := by
      rw [admittedAt, admittedAt, hsame]
    rw [Program.filterMap_set_of_eq hphase hkept]
    exact hw.perm key

theorem recordCall_of_false (log : String → List Int) (call : Call) :
    recordCall log call false = log := by
  funext key
  exact if_neg fun hboth => Bool.false_ne_true hboth.2

theorem Represents.refused {now : Int} {key : String} {s t : SlidingWindowLimiter}
    (h : Represents windowSecs now s log)
    (hchecked : checkAndRecord s key max windowSecs now = (t, false)) :
    Represents windowSecs now t log := by
  have hrecord := h.record (c := ⟨key, now⟩) max le_rfl
  dsimp only at hrecord
  rwa [hchecked, recordCall_of_false] at hrecord

theorem Capped.letThrough {key : String}
    (hw : Capped limiter clock max windowSecs admission w log)
    (hphase : w.calls[i]? = some phase) (hclock : clock s' = clock w.shared)
    (hold : admission phase = none) (hnew : admission phase' = some (key, clock w.shared))
    (hchecked : checkAndRecord (limiter w.shared) key max windowSecs (clock w.shared) =
      (limiter s', true)) :
    Capped limiter clock max windowSecs admission ⟨s', w.calls.set i phase'⟩
      (recordCall log ⟨key, clock w.shared⟩ true) where
  represents := by
    have hrecord := hw.represents.record (c := ⟨key, clock w.shared⟩) max le_rfl
    dsimp only at hrecord
    rw [hchecked] at hrecord
    rw [hclock]
    exact hrecord
  admitted k := by
    unfold recordCall
    split_ifs with hkey
    · rw [hkey.1]
      refine (hw.admitted _).snoc (hw.represents.log_le _) ?_
      refine (allowed_iff (c := ⟨key, clock w.shared⟩) hw.represents le_rfl).mp ?_
      rw [hchecked]
    · exact hw.admitted k
  perm k := by
    have htold := admittedAt_of_none hold k
    unfold recordCall
    split_ifs with hkey
    · have htime : admittedAt admission k phase' = some (clock w.shared) :=
        (admittedAt_of_some hnew k).trans (if_pos hkey.1.symm)
      exact (List.perm_append_singleton _ _).trans
        (((hw.perm k).cons _).trans (Program.perm_filterMap_set hphase htold htime).symm)
    · have hother : admittedAt admission k phase' = none :=
        (admittedAt_of_some hnew k).trans (if_neg fun heq => hkey ⟨heq.symm, rfl⟩)
      rw [Program.filterMap_set_of_eq hphase (hother.trans htold.symm)]
      exact hw.perm k

theorem AsksLimiter.step (hasks : AsksLimiter program limiter clock max windowSecs admission)
    {a : Action α ε} (h : program.step w a = some w')
    (hw : Capped limiter clock max windowSecs admission w log) :
    ∃ log', Capped limiter clock max windowSecs admission w' log' := by
  cases a with
  | call a =>
      obtain rfl := Option.some.inj h
      exact ⟨log, hw.call (hasks.call a)⟩
  | move i e =>
      obtain ⟨phase, s', phase', hphase, hmove, rfl⟩ := Program.step_move h
      obtain ⟨hclock, ⟨hsame, hlimiter⟩ | ⟨key, hsame, hchecked⟩ | ⟨key, hold, hnew, hchecked⟩⟩ :=
        hasks.move _ _ _ _ _ hmove
      · refine ⟨log, hw.quiet hphase hclock ?_ hsame⟩
        rw [hlimiter]
        exact hw.represents
      · exact ⟨log, hw.quiet hphase hclock (Represents.refused hw.represents hchecked) hsame⟩
      · exact ⟨_, hw.letThrough hphase hclock hold hnew hchecked⟩
  | env e =>
      obtain ⟨s', henv, rfl⟩ := Option.map_eq_some_iff.mp h
      obtain ⟨hlimiter, hclock⟩ := hasks.env _ _ _ henv
      refine ⟨log, ?_, hw.admitted, hw.perm⟩
      dsimp only
      rw [hlimiter]
      exact hw.represents.later hclock

/-- The calls of a key that were let through within a window. -/
def admittedWithin (admission : π → Option (String × Int)) (windowSecs : Nat) (key : String)
    (start : Int) (phase : π) : Bool :=
  match admission phase with
  | some (k, t) => decide (k = key) && decide (start ≤ t ∧ t < start + secs windowSecs)
  | none => false

theorem isSome_admittedAt (key : String) (start : Int) (phase : π) :
    ((admittedAt admission key phase).filter fun t =>
      decide (start ≤ t ∧ t < start + secs windowSecs)).isSome =
        admittedWithin admission windowSecs key start phase := by
  unfold admittedWithin admittedAt
  cases admission phase with
  | none => rfl
  | some admitted =>
      obtain ⟨k, t⟩ := admitted
      dsimp only
      by_cases hkey : k = key
      · rw [if_pos hkey, decide_eq_true hkey, Bool.true_and, Option.filter_some]
        cases decide (start ≤ t ∧ t < start + secs windowSecs) <;> rfl
      · rw [if_neg hkey, decide_eq_false hkey, Bool.false_and]
        rfl

theorem AsksLimiter.run (hasks : AsksLimiter program limiter clock max windowSecs admission)
    {ok : Action α ε → Prop} {s : σ} {as : List (Action α ε)}
    (hrun : program.Runs ok (.initial s) as w) (hnew : limiter s = .new) (key : String)
    (start : Int) :
    (w.calls.filter (admittedWithin admission windowSecs key start)).length ≤ max := by
  have hstart : Capped limiter clock max windowSecs admission (World.initial s) fun _ => [] := by
    refine ⟨?_, fun _ => .nil, fun _ => .refl _⟩
    dsimp only [World.initial]
    rw [hnew]
    exact represents_new _
  obtain ⟨log, hw⟩ := hrun.invariant
    (I := fun w => ∃ log, Capped limiter clock max windowSecs admission w log)
    (fun _ _ _ _ hstep ⟨_, hw⟩ => hasks.step hstep hw) ⟨_, hstart⟩
  have hwithin := Window.within_length_le (hw.admitted key) start
  have hperm := (hw.perm key).filter fun t => decide (start ≤ t ∧ t < start + secs windowSecs)
  rw [Window.within, hperm.length_eq, List.filter_filterMap, List.length_filterMap_eq_countP,
    List.countP_eq_length_filter] at hwithin
  refine le_trans (le_of_eq ?_) hwithin
  congr 1
  apply List.filter_congr
  intro phase _
  exact (isSome_admittedAt key start phase).symm

end Steps

end Dbmaster.RateLimit.Gated
