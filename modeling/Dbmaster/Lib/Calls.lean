import Dbmaster.Lib.Transition
import Mathlib.Data.List.Perm.Basic
/-!
# Calls that share a state

A program is what one call does next to the state that all calls share; its runs interleave any
number of calls with steps of the environment.  What a run keeps is shown call by call: a step
keeps what is known of its own call and of the state, and what is known of any other call is
stable under it.
-/

namespace Dbmaster.Lib.Calls

open Dbmaster.Lib.Transition

/-- `σ` is the shared state, `π` the phase a call is in, `α` what a call is made with and `ε` what
happens in a step. -/
structure Program (σ π α ε : Type*) where
  call : α → π
  move : σ → π → ε → Option (σ × π)
  env : σ → ε → Option σ

structure World (σ π : Type*) where
  shared : σ
  calls : List π

inductive Action (α ε : Type*)
  | call (a : α)
  | move (i : Nat) (e : ε)
  | env (e : ε)

variable {σ π α ε β : Type*}

def World.initial (s : σ) : World σ π := ⟨s, []⟩

namespace Program

variable (program : Program σ π α ε)

def step (w : World σ π) : Action α ε → Option (World σ π)
  | .call a => some { w with calls := w.calls ++ [program.call a] }
  | .move i e =>
    match w.calls[i]? with
    | some phase => (program.move w.shared phase e).map fun next =>
        ⟨next.1, w.calls.set i next.2⟩
    | none => none
  | .env e => (program.env w.shared e).map fun s => { w with shared := s }

/-- The runs all of whose actions are of a kind. -/
abbrev Runs (ok : Action α ε → Prop) := Run program.step fun _ a => ok a

variable {program} {w w' : World σ π} {as : List (Action α ε)} {ok : Action α ε → Prop}

theorem step_move {i : Nat} {e : ε} (h : program.step w (.move i e) = some w') :
    ∃ phase s phase', w.calls[i]? = some phase ∧
      program.move w.shared phase e = some (s, phase') ∧ w' = ⟨s, w.calls.set i phase'⟩ := by
  unfold step at h
  dsimp only at h
  split at h
  case h_2 => cases h
  case h_1 phase hphase =>
    obtain ⟨⟨s, phase'⟩, hmove, rfl⟩ := Option.map_eq_some_iff.mp h
    exact ⟨phase, s, phase', hphase, hmove, rfl⟩

/-- What is known of the shared state and, call by call, of the phases. -/
structure Holds (I : σ → Prop) (Q : Nat → σ → π → Prop) (w : World σ π) : Prop where
  shared : I w.shared
  calls : ∀ (i : Nat) (phase : π), w.calls[i]? = some phase → Q i w.shared phase

/-- The obligations of one call: its steps keep what is known of the state and of it, and what is
known of another call is stable. -/
structure Keeps (program : Program σ π α ε) (ok : Action α ε → Prop) (I : σ → Prop)
    (Q : Nat → σ → π → Prop) : Prop where
  call : ∀ s i a, I s → ok (.call a) → Q i s (program.call a)
  move : ∀ s i phase e s' phase', I s → Q i s phase → ok (.move i e) →
    program.move s phase e = some (s', phase') → I s' ∧ Q i s' phase'
  stable : ∀ s i phase e s' phase' k other, I s → Q i s phase → ok (.move i e) →
    program.move s phase e = some (s', phase') → k ≠ i → Q k s other → Q k s' other
  env : ∀ s e s', I s → ok (.env e) → program.env s e = some s' →
    I s' ∧ ∀ k other, Q k s other → Q k s' other

theorem Keeps.step {I : σ → Prop} {Q : Nat → σ → π → Prop} (hkeeps : Keeps program ok I Q)
    {a : Action α ε} (hok : ok a) (h : program.step w a = some w') (hw : Holds I Q w) :
    Holds I Q w' := by
  cases a with
  | call a =>
      obtain rfl := Option.some.inj h
      refine ⟨hw.shared, ?_⟩
      intro i phase hphase
      rcases of_getElem?_concat hphase with ⟨-, rfl⟩ | hkept
      · exact hkeeps.call _ _ _ hw.shared hok
      · exact hw.calls i phase hkept
  | move i e =>
      obtain ⟨phase, s, phase', hphase, hmove, rfl⟩ := step_move h
      have hQ := hw.calls i phase hphase
      obtain ⟨hI', hQ'⟩ := hkeeps.move _ i _ _ _ _ hw.shared hQ hok hmove
      refine ⟨hI', ?_⟩
      intro k other hother
      rcases of_getElem?_set hother with ⟨rfl, rfl⟩ | ⟨hne, hkept⟩
      · exact hQ'
      · exact hkeeps.stable _ i _ _ _ _ k other hw.shared hQ hok hmove hne
          (hw.calls k other hkept)
  | env e =>
      obtain ⟨s, henv, rfl⟩ := Option.map_eq_some_iff.mp h
      obtain ⟨hI', hQ'⟩ := hkeeps.env _ _ _ hw.shared hok henv
      exact ⟨hI', fun k other hother => hQ' k other (hw.calls k other hother)⟩

theorem Keeps.run {I : σ → Prop} {Q : Nat → σ → π → Prop} (hkeeps : Keeps program ok I Q)
    (hrun : program.Runs ok w as w') (hw : Holds I Q w) : Holds I Q w' :=
  hrun.invariant (fun _ _ _ hok hstep hw => hkeeps.step hok hstep hw) hw

/-- Of a run it is known which actions it takes. -/
theorem runs_mem (hrun : program.Runs ok w as w') :
    program.Runs (fun a => ok a ∧ a ∈ as) w as w' :=
  hrun.restrict fun _ ha => ha

/-! ## Books that balance -/

theorem filterMap_set_of_eq {f : π → Option β} {phases : List π} {i : Nat} {old new : π}
    (h : phases[i]? = some old) (hsame : f new = f old) :
    (phases.set i new).filterMap f = phases.filterMap f := by
  induction phases generalizing i with
  | nil => rfl
  | cons phase phases ih =>
      cases i with
      | zero =>
          obtain rfl := Option.some.inj h
          rw [List.set_cons_zero, List.filterMap_cons, List.filterMap_cons, hsame]
      | succ i => rw [List.set_cons_succ, List.filterMap_cons, List.filterMap_cons, ih h]

theorem perm_filterMap_set {f : π → Option β} {phases : List π} {i : Nat} {old new : π} {b : β}
    (h : phases[i]? = some old) (hold : f old = none) (hnew : f new = some b) :
    ((phases.set i new).filterMap f).Perm (b :: phases.filterMap f) := by
  induction phases generalizing i with
  | nil => cases h
  | cons phase phases ih =>
      cases i with
      | zero =>
          obtain rfl := Option.some.inj h
          rw [List.set_cons_zero, List.filterMap_cons_some hnew, List.filterMap_cons_none hold]
      | succ i =>
          rw [List.set_cons_succ]
          cases hphase : f phase with
          | none =>
              rw [List.filterMap_cons_none hphase, List.filterMap_cons_none hphase]
              exact ih h
          | some c =>
              rw [List.filterMap_cons_some hphase, List.filterMap_cons_some hphase]
              exact ((ih h).cons c).trans (.swap b c _)

/-- What is booked of the calls is what they say of themselves, in some order. -/
def Balanced (booked : σ → List β) (told : π → Option β) (w : World σ π) : Prop :=
  (booked w.shared).Perm (w.calls.filterMap told)

/-- The books of one step: what a call comes to say is booked by the step, and nothing else is. -/
structure KeepsBooks (program : Program σ π α ε) (ok : Action α ε → Prop) (I : σ → Prop)
    (Q : Nat → σ → π → Prop) (booked : σ → List β) (told : π → Option β) : Prop where
  call : ∀ a, told (program.call a) = none
  move : ∀ s i phase e s' phase', I s → Q i s phase → ok (.move i e) →
    program.move s phase e = some (s', phase') →
      (told phase' = told phase ∧ (booked s').Perm (booked s)) ∨
        ∃ b, told phase = none ∧ told phase' = some b ∧ (booked s').Perm (b :: booked s)
  env : ∀ s e s', program.env s e = some s' → (booked s').Perm (booked s)

theorem KeepsBooks.step {I : σ → Prop} {Q : Nat → σ → π → Prop} {booked : σ → List β}
    {told : π → Option β} (hbooks : KeepsBooks program ok I Q booked told) {a : Action α ε}
    (hok : ok a) (h : program.step w a = some w') (hholds : Holds I Q w)
    (hw : Balanced booked told w) : Balanced booked told w' := by
  unfold Balanced at hw ⊢
  cases a with
  | call a =>
      obtain rfl := Option.some.inj h
      rw [List.filterMap_append, List.filterMap_cons_none (hbooks.call a), List.filterMap_nil,
        List.append_nil]
      exact hw
  | move i e =>
      obtain ⟨phase, s, phase', hphase, hmove, rfl⟩ := step_move h
      rcases hbooks.move _ i _ _ _ _ hholds.shared (hholds.calls i phase hphase) hok hmove with
        ⟨hsame, hbooked⟩ | ⟨b, hold, hnew, hbooked⟩
      · rw [filterMap_set_of_eq hphase hsame]
        exact hbooked.trans hw
      · exact (hbooked.trans (hw.cons b)).trans (perm_filterMap_set hphase hold hnew).symm
  | env e =>
      obtain ⟨s, henv, rfl⟩ := Option.map_eq_some_iff.mp h
      exact (hbooks.env _ _ _ henv).trans hw

theorem KeepsBooks.run {I : σ → Prop} {Q : Nat → σ → π → Prop} {booked : σ → List β}
    {told : π → Option β} (hbooks : KeepsBooks program ok I Q booked told)
    (hkeeps : Keeps program ok I Q) (hrun : program.Runs ok w as w') (hholds : Holds I Q w)
    (hw : Balanced booked told w) : Balanced booked told w' := by
  refine (hrun.invariant (I := fun w => Holds I Q w ∧ Balanced booked told w) ?_ ⟨hholds, hw⟩).2
  rintro w a w' hok hstep ⟨hholds, hw⟩
  exact ⟨hkeeps.step hok hstep hholds, hbooks.step hok hstep hholds hw⟩

/-! ## Counters -/

/-- The counter of one step: it goes on when a call comes to be counted, and only then. -/
structure KeepsCount (program : Program σ π α ε) (count : σ → β) (next : β → β)
    (counted : π → Bool) : Prop where
  call : ∀ a, counted (program.call a) = false
  move : ∀ s phase e s' phase', program.move s phase e = some (s', phase') →
    (counted phase' = counted phase ∧ count s' = count s) ∨
      counted phase = false ∧ counted phase' = true ∧ count s' = next (count s)
  env : ∀ s e s', program.env s e = some s' → count s' = count s

theorem KeepsCount.step {count : σ → β} {next : β → β} {counted : π → Bool}
    (hcount : KeepsCount program count next counted) {a : Action α ε}
    (h : program.step w a = some w') {zero : β}
    (hw : count w.shared = next^[w.calls.countP counted] zero) :
    count w'.shared = next^[w'.calls.countP counted] zero := by
  cases a with
  | call a =>
      obtain rfl := Option.some.inj h
      rw [List.countP_append, List.countP_singleton, hcount.call, if_neg Bool.false_ne_true]
      exact hw
  | move i e =>
      obtain ⟨phase, s, phase', hphase, hmove, rfl⟩ := step_move h
      have hset := countP_set_of_getElem? phase' counted hphase
      rcases hcount.move _ _ _ _ _ hmove with ⟨hsame, hkept⟩ | ⟨hold, hnew, hnext⟩
      · rw [hsame, Nat.add_right_cancel_iff] at hset
        rw [hset, hkept, hw]
      · rw [hold, hnew, if_neg Bool.false_ne_true, if_pos rfl, Nat.add_zero] at hset
        rw [hset, hnext, hw, Function.iterate_succ_apply']
  | env e =>
      obtain ⟨s, henv, rfl⟩ := Option.map_eq_some_iff.mp h
      exact (hcount.env _ _ _ henv).trans hw

/-- The counter has gone on once for each call that is counted. -/
theorem KeepsCount.run {count : σ → β} {next : β → β} {counted : π → Bool}
    (hcount : KeepsCount program count next counted) (hrun : program.Runs ok w as w') {zero : β}
    (hw : count w.shared = next^[w.calls.countP counted] zero) :
    count w'.shared = next^[w'.calls.countP counted] zero :=
  hrun.invariant (I := fun w => count w.shared = next^[w.calls.countP counted] zero)
    (fun _ _ _ _ hstep hw => hcount.step hstep hw) hw

end Program

end Dbmaster.Lib.Calls
