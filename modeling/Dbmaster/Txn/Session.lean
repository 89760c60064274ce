import Dbmaster.Txn.Store
import Dbmaster.Lib.Lifecycle
/-!
# The life of a session

What can happen to one session id, in its order: it is registered, statements are
executed on it, one call takes it out of the store, that call finishes it and answers.
The strict life is that of a session in which only an acknowledged `COMMIT` of the store
commits.
-/

namespace Dbmaster.Txn.Session

open Dbmaster.Txn.Store Dbmaster.Lib.Lifecycle

inductive Stage
  | unborn
  | live
  | taken (c : Nat)
  | closing (c : Nat) (control : Control) (acknowledged : Prop)
  | over (c : Nat) (control : Control)

/-- The event happens to the session of that id. -/
def about (id : String) : Event → Bool
  | .registered id' => id' = id
  | .executed _ id' _ => id' = id
  | .removed _ id' => id' = id
  | .finished _ id' _ => id' = id
  | .acknowledged id' _ => id' = id
  | .committed id' => id' = id
  | .replied _ (.executeInTxn id') _ => id' = id
  | .replied _ (.finish id' _) _ => id' = id
  | .replied _ _ _ => false

/-- Without `strict` a statement of the session may commit, and a `COMMIT` is answered
whether it was acknowledged or not. -/
inductive Next (strict : Prop) : Stage → Event → Stage → Prop
  | refused {t : Stage} {c : Nat} {method : Method} {message : String} :
      Next strict t (.replied c method (.error message)) t
  | registered {id : String} : Next strict .unborn (.registered id) .live
  | executed {c : Nat} {id sql : String} : Next strict .live (.executed c id sql) .live
  | committedBySql {id : String} (h : ¬ strict) : Next strict .live (.committed id) .live
  | answered {c : Nat} {id : String} :
      Next strict .live (.replied c (.executeInTxn id) .ok) .live
  | removed {c : Nat} {id : String} : Next strict .live (.removed c id) (.taken c)
  | finished {c : Nat} {id : String} {control : Control} :
      Next strict (.taken c) (.finished c id control) (.closing c control False)
  | committed {c : Nat} {id : String} {acknowledged : Prop} :
      Next strict (.closing c .commit acknowledged) (.committed id)
        (.closing c .commit acknowledged)
  | acknowledged {c : Nat} {id : String} {control : Control} {acknowledged : Prop} :
      Next strict (.closing c control acknowledged) (.acknowledged id control)
        (.closing c control True)
  | closed {c : Nat} {id : String} {control : Control} {acknowledged : Prop}
      (h : strict → control = .commit → acknowledged) :
      Next strict (.closing c control acknowledged) (.replied c (.finish id control) .ok)
        (.over c control)

/-- The log tells a life of the session that has come to this stage. -/
def Lives (strict : Prop) (id : String) (log : List Event) (t : Stage) : Prop :=
  Life (Next strict) .unborn (log.filter (about id)) t

section Life

variable {strict : Prop} {events : List Event} {t u : Stage} {c : Nat}

theorem Lives.append {id : String} {log : List Event} (h : Lives strict id log t)
    (h' : Life (Next strict) t (events.filter (about id)) u) :
    Lives strict id (log ++ events) u := by
  unfold Lives
  rw [List.filter_append]
  exact Life.append h h'

theorem unborn_of_not_registered {id : String} {log : List Event} (h : Lives strict id log t)
    (hnew : Event.registered id ∉ log) : t = .unborn := by
  have hborn : t = .unborn ∨ ∃ id', Event.registered id' ∈ log.filter (about id) := by
    apply Life.rule (P := fun t events => t = .unborn ∨ ∃ id', Event.registered id' ∈ events) h
    · exact Or.inl rfl
    · intro v es e v' hv he
      rcases hv with rfl | ⟨id', hid'⟩
      · cases he with
        | refused => exact Or.inl rfl
        | registered => exact Or.inr ⟨_, List.mem_append_right es List.mem_cons_self⟩
      · exact Or.inr ⟨id', List.mem_append_left [e] hid'⟩
  rcases hborn with ht | ⟨id', hid'⟩
  · exact ht
  · obtain ⟨hin, habout⟩ := List.mem_filter.mp hid'
    have hid : id' = id := of_decide_eq_true habout
    rw [hid] at hin
    exact absurd hin hnew

/-! ## What follows from a life -/

/-- The stages after the call took the session out. -/
def TakenBy (c : Nat) : Stage → Prop
  | .taken c' => c' = c
  | .closing c' _ _ => c' = c
  | .over c' _ => c' = c
  | _ => False

/-- What can still happen to a session that the call took out: no statement is executed,
and whoever asks hears an error, but for the call itself when it has finished. -/
structure Dead (c : Nat) (e : Event) : Prop where
  executed : ∀ c' id sql, e ≠ .executed c' id sql
  removed : ∀ c' id, e ≠ .removed c' id
  replied : ∀ c' method reply, e = .replied c' method reply →
    (∃ message, reply = .error message) ∨ c' = c ∧ ∃ id control, method = .finish id control

theorem TakenBy.next {e : Event} (h : TakenBy c t) (he : Next strict t e u) :
    TakenBy c u ∧ Dead c e := by
  cases he with
  | refused =>
      refine ⟨h, nofun, nofun, ?_⟩
      intro c' method reply heq
      rw [Event.replied.injEq] at heq
      exact Or.inl ⟨_, heq.2.2.symm⟩
  | finished => exact ⟨h, nofun, nofun, nofun⟩
  | committed => exact ⟨h, nofun, nofun, nofun⟩
  | acknowledged => exact ⟨h, nofun, nofun, nofun⟩
  | closed =>
      refine ⟨h, nofun, nofun, ?_⟩
      intro c' method reply heq
      rw [Event.replied.injEq] at heq
      exact Or.inr ⟨heq.1.symm.trans h, _, _, heq.2.1.symm⟩
  | _ => exact absurd h id

theorem dead_after_removal (hu : TakenBy c u) (h : Life (Next strict) u events t) :
    TakenBy c t ∧ ∀ e ∈ events, Dead c e := by
  apply h.rule
  · exact ⟨hu, fun e he => nomatch he⟩
  · rintro v es e v' ⟨hv, hes⟩ he
    obtain ⟨hv', hlast⟩ := hv.next he
    refine ⟨hv', ?_⟩
    intro d hd
    rcases List.mem_append.mp hd with hbefore | hone
    · exact hes d hbefore
    · rw [List.mem_singleton.mp hone]
      exact hlast

def isFinish : Event → Bool
  | .finished _ _ _ => true
  | _ => false

/-- How often the session has been finished at that stage. -/
def finishes : Stage → Nat
  | .closing _ _ _ => 1
  | .over _ _ => 1
  | _ => 0

theorem finishes_le_one (t : Stage) : finishes t ≤ 1 := by
  cases t <;> simp [finishes]

theorem countP_isFinish (h : Life (Next strict) .unborn events t) :
    events.countP isFinish = finishes t := by
  apply h.rule (P := fun t events => events.countP isFinish = finishes t)
  · rfl
  · intro v es e v' hv he
    rw [List.countP_append, hv]
    cases he with
    | _ => rfl

/-- In a strict life what was committed was committed by the `COMMIT` of the store. -/
def CommittedOnly : Stage → Prop
  | .closing _ control _ => control = .commit
  | .over _ control => control = .commit
  | _ => False

theorem committedOnly_of_strict (h : Life (Next True) .unborn events t) {id : String}
    (hin : Event.committed id ∈ events) : CommittedOnly t := by
  have hrule : (∃ id, Event.committed id ∈ events) → CommittedOnly t := by
    apply h.rule (P := fun t events => (∃ id, Event.committed id ∈ events) → CommittedOnly t)
    · rintro ⟨_, hnil⟩
      cases hnil
    · rintro v es e v' hv he ⟨id', hid'⟩
      rcases List.mem_append.mp hid' with hbefore | hone
      · have hcommitted := hv ⟨id', hbefore⟩
        cases he with
        | refused => exact hcommitted
        | committed => exact hcommitted
        | acknowledged => exact hcommitted
        | closed => exact hcommitted
        | _ => exact absurd hcommitted (fun h => h)
      · rw [← List.mem_singleton.mp hone] at he
        cases he with
        | committedBySql h => exact absurd trivial h
        | committed => rfl
  exact hrule ⟨id, hin⟩

/-- What is acknowledged at a stage was acknowledged before. -/
def Acknowledged (events : List Event) : Stage → Prop
  | .closing _ control acknowledged =>
      acknowledged → ∃ id, Event.acknowledged id control ∈ events
  | _ => True

theorem acknowledged_of_life (h : Life (Next strict) .unborn events t) : Acknowledged events t := by
  apply h.rule (P := fun t events => Acknowledged events t)
  · trivial
  · intro v es e v' hv he
    cases he with
    | refused =>
        cases v with
        | closing c' control acknowledged =>
            intro hack
            obtain ⟨id, hid⟩ := hv hack
            exact ⟨id, List.mem_append_left _ hid⟩
        | _ => trivial
    | finished => exact False.elim
    | committed =>
        intro hack
        obtain ⟨id, hid⟩ := hv hack
        exact ⟨id, List.mem_append_left _ hid⟩
    | acknowledged => exact fun _ => ⟨_, List.mem_append_right es List.mem_cons_self⟩
    | _ => trivial

end Life

end Dbmaster.Txn.Session
