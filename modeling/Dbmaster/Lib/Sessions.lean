import Mathlib.Data.List.Induction
/-!
# One session, or one for each input

Inputs are executed in sessions over a store.  They can all go into one session, or each gets
a session of its own that ends before the next one starts.
-/

namespace Dbmaster.Lib.Sessions

variable {σ δ ι ω : Type*}

/-- Sessions over a store; the state of one has the store in it. -/
structure Service (σ δ ι : Type*) where
  /-- the `n`-th session that is started -/
  start : Nat → δ → σ
  next : σ → ι → σ
  /-- the store when the session has ended -/
  stop : σ → δ
  /-- a session without inputs leaves the store as it is -/
  stop_start : ∀ n store, stop (start n store) = store

namespace Service

variable (service : Service σ δ ι) (answer : σ → ι → ω)

/-! ## One session -/

def after (s : σ) (inputs : List ι) : σ := inputs.foldl service.next s

def answers : σ → List ι → List ω
  | _, [] => []
  | s, i :: inputs => answer s i :: answers (service.next s i) inputs

theorem after_concat (s : σ) (inputs : List ι) (i : ι) :
    service.after s (inputs ++ [i]) = service.next (service.after s inputs) i := by
  rw [after, List.foldl_append]
  rfl

theorem answers_append (s : σ) (inputs inputs' : List ι) :
    service.answers answer s (inputs ++ inputs') =
      service.answers answer s inputs ++
        service.answers answer (service.after s inputs) inputs' := by
  induction inputs generalizing s with
  | nil => rfl
  | cons i inputs ih => exact congrArg (answer s i :: ·) (ih (service.next s i))

theorem length_answers (s : σ) (inputs : List ι) :
    (service.answers answer s inputs).length = inputs.length := by
  induction inputs generalizing s with
  | nil => rfl
  | cons i inputs ih => exact congrArg (· + 1) (ih (service.next s i))

/-! ## A session for each input -/

/-- The store after an input in the `n`-th session. -/
def renewed (n : Nat) (store : δ) (i : ι) : δ :=
  service.stop (service.next (service.start n store) i)

def storeAfter : Nat → δ → List ι → δ
  | _, store, [] => store
  | n, store, i :: inputs => storeAfter (n + 1) (service.renewed n store i) inputs

def ownAnswers : Nat → δ → List ι → List ω
  | _, _, [] => []
  | n, store, i :: inputs =>
      answer (service.start n store) i :: ownAnswers (n + 1) (service.renewed n store i) inputs

theorem storeAfter_concat (n : Nat) (store : δ) (inputs : List ι) (i : ι) :
    service.storeAfter n store (inputs ++ [i]) =
      service.renewed (n + inputs.length) (service.storeAfter n store inputs) i := by
  induction inputs generalizing n store with
  | nil => rfl
  | cons j inputs ih =>
      rw [List.cons_append, storeAfter, ih, storeAfter, List.length_cons, Nat.add_right_comm,
        Nat.add_assoc]

theorem ownAnswers_append (n : Nat) (store : δ) (inputs inputs' : List ι) :
    service.ownAnswers answer n store (inputs ++ inputs') =
      service.ownAnswers answer n store inputs ++
        service.ownAnswers answer (n + inputs.length) (service.storeAfter n store inputs)
          inputs' := by
  induction inputs generalizing n store with
  | nil => rfl
  | cons j inputs ih =>
      rw [List.cons_append, ownAnswers, ih, ownAnswers, storeAfter, List.length_cons,
        Nat.add_right_comm, Nat.add_assoc, List.cons_append]

theorem length_ownAnswers (n : Nat) (store : δ) (inputs : List ι) :
    (service.ownAnswers answer n store inputs).length = inputs.length := by
  induction inputs generalizing n store with
  | nil => rfl
  | cons i inputs ih => exact congrArg (· + 1) (ih (n + 1) _)

theorem getElem?_ownAnswers (n : Nat) (store : δ) (inputs : List ι) (k : Nat) :
    (service.ownAnswers answer n store inputs)[k]? = inputs[k]?.map fun i =>
      answer (service.start (n + k) (service.storeAfter n store (inputs.take k))) i := by
  induction inputs generalizing n store k with
  | nil => rfl
  | cons i inputs ih =>
      cases k with
      | zero => rfl
      | succ k =>
          rw [ownAnswers, List.getElem?_cons_succ, List.getElem?_cons_succ, ih,
            List.take_succ_cons, storeAfter, Nat.add_right_comm, Nat.add_assoc]

/-! ## When it makes no difference -/

/-- The input is answered the same and leaves the same store, in the session as it is and in one
that is started anew. -/
structure Indifferent (n : Nat) (s : σ) (i : ι) : Prop where
  answer : answer s i = answer (service.start n (service.stop s)) i
  store : service.stop (service.next s i) = service.renewed n (service.stop s) i

/-- A session that is as a new one would be. -/
theorem indifferent_of_new {n : Nat} {s : σ} (h : service.start n (service.stop s) = s) (i : ι) :
    service.Indifferent answer n s i :=
  ⟨by rw [h], by rw [renewed, h]⟩

/-- All answers and the store after each input are those of one session. -/
structure Agree (store : δ) (inputs : List ι) : Prop where
  answers : service.ownAnswers answer 0 store inputs =
    service.answers answer (service.start 0 store) inputs
  stores : ∀ part, part <+: inputs → service.storeAfter 0 store part =
    service.stop (service.after (service.start 0 store) part)

variable {service answer}

theorem Agree.indifferent {store : δ} {before rest : List ι} {i : ι}
    (h : service.Agree answer store (before ++ i :: rest)) :
    service.Indifferent answer before.length
      (service.after (service.start 0 store) before) i := by
  have hbefore := h.stores before (List.prefix_append before (i :: rest))
  have hconcat := h.stores (before ++ [i]) ((List.prefix_append_right_inj before).mpr ⟨rest, rfl⟩)
  rw [storeAfter_concat, after_concat, Nat.zero_add, hbefore] at hconcat
  have hanswers := h.answers
  rw [ownAnswers_append, answers_append] at hanswers
  have hlater := (List.append_inj hanswers (by rw [length_ownAnswers, length_answers])).2
  rw [Nat.zero_add, hbefore, ownAnswers, Service.answers, List.cons.injEq] at hlater
  exact ⟨hlater.1.symm, hconcat.symm⟩

theorem Agree.concat {store : δ} {inputs : List ι} {i : ι} (h : service.Agree answer store inputs)
    (hone : service.Indifferent answer inputs.length
      (service.after (service.start 0 store) inputs) i) :
    service.Agree answer store (inputs ++ [i]) := by
  have hstore := h.stores inputs (List.prefix_refl inputs)
  constructor
  · rw [ownAnswers_append, answers_append, h.answers, Nat.zero_add, hstore]
    exact congrArg (_ ++ [·]) hone.answer.symm
  · intro part hpart
    rcases List.prefix_concat_iff.mp hpart with rfl | hshorter
    · rw [storeAfter_concat, after_concat, Nat.zero_add, hstore]
      exact hone.store.symm
    · exact h.stores part hshorter

/-- Sessions for the inputs do as one session does if and only if no input tells the session
before it from a new one. -/
theorem agree_iff (store : δ) (inputs : List ι) :
    service.Agree answer store inputs ↔ ∀ before i rest, inputs = before ++ i :: rest →
      service.Indifferent answer before.length
        (service.after (service.start 0 store) before) i := by
  constructor
  · rintro h before i rest rfl
    exact h.indifferent
  · intro h
    induction inputs using List.reverseRecOn with
    | nil =>
        refine ⟨rfl, fun part hpart => ?_⟩
        rw [List.prefix_nil.mp hpart]
        exact (service.stop_start 0 store).symm
    | append_singleton inputs i ih =>
        refine Agree.concat (ih fun before j rest hsplit => ?_) (h inputs i [] rfl)
        exact h before j (rest ++ [i]) (by rw [hsplit, List.append_assoc, List.cons_append])

end Service

end Dbmaster.Lib.Sessions
