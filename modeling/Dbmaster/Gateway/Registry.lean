import Dbmaster.Lib.Transition
/-!
# The registry of executions

`ExecutionRegistry` under any interleaving of executions, which register at their start
and remove their id at their end, and of cancellations.
-/

namespace Dbmaster.Gateway.Registry

open Dbmaster.Lib.Transition

/-- The map of `inner`; a token is known by the number of the registration that made it. -/
abbrev ExecutionRegistry := String → Option Nat

namespace ExecutionRegistry

def empty : ExecutionRegistry := fun _ => none

def register (registry : ExecutionRegistry) (executionId : String) (token : Nat) :
    ExecutionRegistry :=
  fun id => if id = executionId then some token else registry id

def remove (registry : ExecutionRegistry) (executionId : String) : ExecutionRegistry :=
  fun id => if id = executionId then none else registry id

end ExecutionRegistry

/-- The id of the header, if it is a UUID, or else the fresh one. -/
def executionIdOf (isUuid : String → Bool) (header : Option String) (newV4 : String) : String :=
  (header.filter isUuid).getD newV4

/-- One request that came to its execution. -/
structure Execution where
  id : String
  ended : Bool
  cancelled : Bool

/-- The executions in the order of their registration, each at the number of its token. -/
structure State where
  executions : List Execution
  registry : ExecutionRegistry

def State.initial : State := ⟨[], .empty⟩

inductive Action
  | start (header : Option String) (newV4 : String)
  | finish (token : Nat)
  | cancelExecution (executionId : String)

def step (isUuid : String → Bool) (s : State) : Action → Option State
  | .start header newV4 =>
      let executionId := executionIdOf isUuid header newV4
      some
        { executions := s.executions ++ [⟨executionId, false, false⟩]
          registry := s.registry.register executionId s.executions.length }
  | .finish token =>
      match s.executions[token]? with
      | none => none
      | some e =>
          if e.ended then none
          else some
            { executions := s.executions.modify token fun e => { e with ended := true }
              registry := s.registry.remove e.id }
  | .cancelExecution executionId =>
      match s.registry executionId with
      | none => some s
      | some token =>
          some { s with
            executions := s.executions.modify token fun e => { e with cancelled := true } }

/-! ## What should hold -/

/-- No execution registered the id after this one. -/
def LastToRegister (s : State) (token : Nat) (e : Execution) : Prop :=
  ∀ (later : Nat) (f : Execution), s.executions[later]? = some f → f.id = e.id → later ≤ token

/-- In the states that the allowed steps lead to, a running execution that was the last to
register its id is cancelled by the id; the end of an execution leaves the entries of the
others; a cancellation leaves the executions under other ids. -/
structure Cancellable (isUuid : String → Bool) (allowed : State → Action → Prop) : Prop where
  reaches : ∀ acts s (token : Nat) (e : Execution), Run (step isUuid) allowed .initial acts s →
    s.executions[token]? = some e → e.ended = false → LastToRegister s token e →
    ∃ s', step isUuid s (.cancelExecution e.id) = some s' ∧
      s'.executions[token]? = some { e with cancelled := true }
  keeps : ∀ acts s s' token, Run (step isUuid) allowed .initial acts s →
    allowed s (.finish token) → step isUuid s (.finish token) = some s' →
    ∀ id other, s.registry id = some other → other ≠ token → s'.registry id = some other
  spares : ∀ acts s s' executionId, Run (step isUuid) allowed .initial acts s →
    step isUuid s (.cancelExecution executionId) = some s' →
    ∀ (token : Nat) (e : Execution), s.executions[token]? = some e → e.id ≠ executionId →
      s'.executions[token]? = some e

/-- An execution ends when none is running that registered its id after it. -/
def NoLaterRunning (s : State) : Action → Prop
  | .finish token => ∀ e : Execution, s.executions[token]? = some e →
      ∀ (later : Nat) (f : Execution), s.executions[later]? = some f → f.id = e.id →
        token < later → f.ended = true
  | _ => True

/-! ## One step -/

theorem of_getElem?_modify {executions : List Execution} {token k : Nat}
    {f : Execution → Execution} {e : Execution} (h : (executions.modify token f)[k]? = some e) :
    ∃ old, executions[k]? = some old ∧ e = if token = k then f old else old := by
  rw [List.getElem?_modify] at h
  obtain ⟨old, hold, heq⟩ := Option.map_eq_some_iff.mp h
  exact ⟨old, hold, heq.symm⟩

/-- The executions have the ids they had. -/
def SameIds (s s' : State) : Prop :=
  ∀ k : Nat, (s'.executions[k]?).map (·.id) = (s.executions[k]?).map (·.id)

theorem sameIds_modify (executions : List Execution) {f : Execution → Execution}
    (hf : ∀ e, (f e).id = e.id) (token : Nat) (registry registry' : ExecutionRegistry) :
    SameIds ⟨executions, registry⟩ ⟨executions.modify token f, registry'⟩ := by
  intro k
  show ((executions.modify token f)[k]?).map _ = _
  rw [List.getElem?_modify]
  cases executions[k]? with
  | none => rfl
  | some e =>
      show some (if token = k then f e else e).id = some e.id
      split
      · rw [hf]
      · rfl

theorem SameIds.symm {s s' : State} (h : SameIds s s') : SameIds s' s := fun k => (h k).symm

theorem SameIds.last {s s' : State} (h : SameIds s s') {token : Nat} {e e' : Execution}
    (hid : e'.id = e.id) (hlast : LastToRegister s token e) : LastToRegister s' token e' := by
  intro later f hf hfid
  have hsome := h later
  rw [hf] at hsome
  obtain ⟨g, hg, hgid⟩ := Option.map_eq_some_iff.mp hsome.symm
  exact hlast later g hg (hgid.trans (hfid.trans hid))

/-- The entries are those of the running executions that registered their id last. -/
structure Inv (s : State) : Prop where
  live : ∀ (token : Nat) (e : Execution), s.executions[token]? = some e → e.ended = false →
    LastToRegister s token e → s.registry e.id = some token
  entry : ∀ id token, s.registry id = some token →
    ∃ e, s.executions[token]? = some e ∧ e.id = id ∧ e.ended = false ∧ LastToRegister s token e

theorem inv_initial : Inv .initial := ⟨nofun, nofun⟩

theorem inv_start {s : State} (h : Inv s) (executionId : String) :
    Inv ⟨s.executions ++ [⟨executionId, false, false⟩],
      s.registry.register executionId s.executions.length⟩ := by
  have hold : ∀ (k : Nat) (e : Execution), s.executions[k]? = some e →
      (s.executions ++ [⟨executionId, false, false⟩])[k]? = some e := by
    intro k e he
    rw [List.getElem?_append_left (List.getElem?_eq_some_iff.mp he).1]
    exact he
  have hnew : (s.executions ++ [⟨executionId, false, false⟩])[s.executions.length]? =
      some ⟨executionId, false, false⟩ := List.getElem?_concat_length
  have hsplit : ∀ (k : Nat) (e : Execution),
      (s.executions ++ [⟨executionId, false, false⟩])[k]? = some e →
      s.executions[k]? = some e ∨ k = s.executions.length ∧ e = ⟨executionId, false, false⟩ := by
    intro k e he
    rcases Nat.lt_trichotomy k s.executions.length with hlt | heq | hgt
    · rw [List.getElem?_append_left hlt] at he
      exact Or.inl he
    · rw [heq, hnew, Option.some.injEq] at he
      exact Or.inr ⟨heq, he.symm⟩
    · rw [List.getElem?_eq_none (by rw [List.length_append, List.length_singleton]; omega)] at he
      cases he
  constructor
  · intro token e he hrunning hlast
    simp only [ExecutionRegistry.register]
    rcases hsplit token e he with hbefore | ⟨rfl, rfl⟩
    · have hne : e.id ≠ executionId := by
        intro heq
        have hle := hlast _ _ hnew heq.symm
        have hlt := (List.getElem?_eq_some_iff.mp hbefore).1
        omega
      rw [if_neg hne]
      exact h.live token e hbefore hrunning fun later f hf => hlast later f (hold later f hf)
    · rw [if_pos rfl]
  · intro id token hentry
    simp only [ExecutionRegistry.register] at hentry
    by_cases hid : id = executionId
    · rw [if_pos hid, Option.some.injEq] at hentry
      rw [← hentry]
      refine ⟨_, hnew, hid.symm, rfl, ?_⟩
      intro later f hf _
      rcases hsplit later f hf with hbefore | ⟨heq, -⟩
      · exact Nat.le_of_lt (List.getElem?_eq_some_iff.mp hbefore).1
      · exact Nat.le_of_eq heq
    · rw [if_neg hid] at hentry
      obtain ⟨e, he, heid, hrunning, hlast⟩ := h.entry id token hentry
      refine ⟨e, hold token e he, heid, hrunning, ?_⟩
      intro later f hf hfid
      rcases hsplit later f hf with hbefore | ⟨-, rfl⟩
      · exact hlast later f hbefore hfid
      · exact absurd (heid.symm.trans hfid.symm) hid

theorem inv_finish {s : State} (h : Inv s) {token : Nat} {e : Execution}
    (he : s.executions[token]? = some e) (hallowed : NoLaterRunning s (.finish token)) :
    Inv ⟨s.executions.modify token fun e => { e with ended := true }, s.registry.remove e.id⟩ := by
  have hids := sameIds_modify s.executions (f := fun e => { e with ended := true }) (fun _ => rfl)
    token s.registry (s.registry.remove e.id)
  constructor
  · intro k f hf hrunning hlast
    obtain ⟨old, hold, rfl⟩ := of_getElem?_modify hf
    by_cases hk : token = k
    · rw [if_pos hk] at hrunning
      cases hrunning
    · rw [if_neg hk] at hrunning hlast ⊢
      have hlast' : LastToRegister s k old := hids.symm.last rfl hlast
      have hne : old.id ≠ e.id := by
        intro heq
        have hle := hlast' token e he heq.symm
        have hended := hallowed e he k old hold heq (by omega)
        rw [hended] at hrunning
        cases hrunning
      simp only [ExecutionRegistry.remove]
      rw [if_neg hne]
      exact h.live k old hold hrunning hlast'
  · intro id k hentry
    simp only [ExecutionRegistry.remove] at hentry
    by_cases hid : id = e.id
    · rw [if_pos hid] at hentry
      cases hentry
    · rw [if_neg hid] at hentry
      obtain ⟨f, hf, hfid, hrunning, hlast⟩ := h.entry id k hentry
      have hk : token ≠ k := by
        rintro rfl
        rw [he, Option.some.injEq] at hf
        exact hid (hf ▸ hfid.symm)
      refine ⟨f, ?_, hfid, hrunning, hids.last rfl hlast⟩
      show (s.executions.modify token _)[k]? = some f
      rw [List.getElem?_modify, hf]
      simp only [if_neg hk, Option.map_eq_map, Option.map_some]

theorem inv_cancel {s : State} (h : Inv s) (token : Nat) :
    Inv { s with executions := s.executions.modify token fun e => { e with cancelled := true } } := by
  have hids := sameIds_modify s.executions (f := fun e => { e with cancelled := true })
    (fun _ => rfl) token s.registry s.registry
  constructor
  · intro k f hf hrunning hlast
    obtain ⟨old, hold, rfl⟩ := of_getElem?_modify hf
    have hid : (if token = k then { old with cancelled := true } else old).id = old.id := by
      split <;> rfl
    have hended : old.ended = false := by
      rw [← hrunning]
      split <;> rfl
    show s.registry _ = some k
    rw [hid]
    exact h.live k old hold hended (hids.symm.last hid.symm hlast)
  · intro id k hentry
    obtain ⟨f, hf, hfid, hrunning, hlast⟩ := h.entry id k hentry
    have hid : (if token = k then { f with cancelled := true } else f).id = f.id := by
      split <;> rfl
    refine ⟨if token = k then { f with cancelled := true } else f, ?_, hid.trans hfid, ?_,
      hids.last hid hlast⟩
    · show (s.executions.modify token _)[k]? = _
      rw [List.getElem?_modify, hf]
      rfl
    · rw [← hrunning]
      split <;> rfl

theorem step_finish {isUuid : String → Bool} {s s' : State} {token : Nat}
    (h : step isUuid s (.finish token) = some s') :
    ∃ e : Execution, s.executions[token]? = some e ∧
      s' = ⟨s.executions.modify token fun e => { e with ended := true },
        s.registry.remove e.id⟩ := by
  simp only [step] at h
  split at h
  case h_1 => cases h
  case h_2 e he =>
    split at h
    case isTrue => cases h
    case isFalse => exact ⟨e, he, (Option.some.inj h).symm⟩

theorem inv_step {isUuid : String → Bool} {s s' : State} {a : Action}
    (hallowed : NoLaterRunning s a) (hstep : step isUuid s a = some s') (h : Inv s) : Inv s' := by
  cases a with
  | start header newV4 =>
      obtain rfl := Option.some.inj hstep
      exact inv_start h _
  | finish token =>
      obtain ⟨e, he, rfl⟩ := step_finish hstep
      exact inv_finish h he hallowed
  | cancelExecution executionId =>
      simp only [step] at hstep
      split at hstep
      case h_1 =>
        obtain rfl := Option.some.inj hstep
        exact h
      case h_2 token _ =>
        obtain rfl := Option.some.inj hstep
        exact inv_cancel h token

/-! ## Every run -/

theorem inv_run {isUuid : String → Bool} {acts : List Action} {s : State}
    (hrun : Run (step isUuid) NoLaterRunning .initial acts s) : Inv s :=
  hrun.invariant (fun _ _ _ hallowed hstep h => inv_step hallowed hstep h) inv_initial

/-- The registry, while no execution ends before a later one under its id. -/
theorem cancellable_of_noLaterRunning (isUuid : String → Bool) :
    Cancellable isUuid NoLaterRunning where
  reaches acts s token e hrun he hrunning hlast := by
    have hentry := (inv_run hrun).live token e he hrunning hlast
    refine ⟨{ s with executions := s.executions.modify token fun e => { e with cancelled := true } },
      ?_, ?_⟩
    · simp only [step, hentry]
    · show (s.executions.modify token _)[token]? = _
      rw [List.getElem?_modify, he]
      simp only [if_true, Option.map_eq_map, Option.map_some]
  keeps acts s s' token hrun hallowed hstep id other hentry hne := by
    obtain ⟨e, he, rfl⟩ := step_finish hstep
    have hid : id ≠ e.id := by
      intro heq
      obtain ⟨f, hf, hfid, hrunning, hlast⟩ := (inv_run hrun).entry id other hentry
      have hle := hlast token e he (heq ▸ hfid.symm)
      have hended := hallowed e he other f hf (hfid.trans heq) (by omega)
      rw [hended] at hrunning
      cases hrunning
    simp only [ExecutionRegistry.remove]
    rw [if_neg hid]
    exact hentry
  spares acts s s' executionId hrun hstep token e he hid := by
    simp only [step] at hstep
    split at hstep
    case h_1 =>
      obtain rfl := Option.some.inj hstep
      exact he
    case h_2 other hentry =>
      obtain rfl := Option.some.inj hstep
      obtain ⟨f, hf, hfid, -, -⟩ := (inv_run hrun).entry executionId other hentry
      have hne : other ≠ token := by
        rintro rfl
        rw [hf, Option.some.injEq] at he
        exact hid (he ▸ hfid)
      show (s.executions.modify other _)[token]? = _
      rw [List.getElem?_modify, he]
      simp only [if_neg hne, Option.map_eq_map, Option.map_some]

def sampleId : String := "6f9619ff-8b86-d011-b42d-00c04fc964ff"

/-- The end of the first execution takes the entry of the second one away, which runs on
and cannot be cancelled. -/
theorem reused_id_uncancellable : ¬ Cancellable (fun _ => true) anyStep := by
  intro hcancellable
  have hrun : Run (step fun _ => true) anyStep .initial
      [.start (some sampleId) "", .start (some sampleId) "", .finish 0]
      ⟨[⟨sampleId, true, false⟩, ⟨sampleId, false, false⟩],
        ((ExecutionRegistry.empty.register sampleId 0).register sampleId 1).remove sampleId⟩ :=
    run_of_exec rfl
  have hlast : LastToRegister ⟨[⟨sampleId, true, false⟩, ⟨sampleId, false, false⟩],
      ((ExecutionRegistry.empty.register sampleId 0).register sampleId 1).remove sampleId⟩ 1
      ⟨sampleId, false, false⟩ := by
    intro later f hf _
    have hlt := (List.getElem?_eq_some_iff.mp hf).1
    simp only [List.length_cons, List.length_nil] at hlt
    omega
  obtain ⟨s', hstep, hcancelled⟩ := hcancellable.reaches _ _ 1 _ hrun rfl rfl hlast
  obtain rfl := Option.some.inj hstep
  cases hcancelled

end Dbmaster.Gateway.Registry
