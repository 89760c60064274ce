import Mathlib.Data.List.Induction
/-!
# Life cycles

A relation that reads, event by event, what happened to one object.  That a history is
a life says at once in which order its events can come; facts about a life are proved by
following its stages.
-/

namespace Dbmaster.Lib.Lifecycle

variable {S E : Type*}

/-- The events lead from the first stage to the last. -/
inductive Life (next : S → E → S → Prop) (s : S) : List E → S → Prop
  | nil : Life next s [] s
  | snoc {es : List E} {e : E} {t u : S} (hlife : Life next s es t) (hnext : next t e u) :
      Life next s (es ++ [e]) u

variable {next : S → E → S → Prop} {s t u : S}

theorem Life.append {first second : List E} (h : Life next s first t)
    (h' : Life next t second u) : Life next s (first ++ second) u := by
  induction h' with
  | nil =>
      rw [List.append_nil]
      exact h
  | snoc _ hnext ih =>
      rw [← List.append_assoc]
      exact ih.snoc hnext

theorem Life.one {e : E} (h : next s e t) : Life next s [e] t := Life.nil.snoc h

theorem Life.idle {es : List E} (h : ∀ e ∈ es, next s e s) : Life next s es s := by
  induction es using List.reverseRecOn with
  | nil => exact .nil
  | append_singleton es e ih =>
      have hes := ih fun d hd => h d (List.mem_append_left [e] hd)
      exact hes.snoc (h e (List.mem_append_right es List.mem_cons_self))

/-- What holds at first and is kept by every event holds of the stage and all that has
happened. -/
theorem Life.rule {P : S → List E → Prop} {es : List E} (h : Life next s es u)
    (hstart : P s []) (hkeep : ∀ t es e t', P t es → next t e t' → P t' (es ++ [e])) :
    P u es := by
  induction h with
  | nil => exact hstart
  | snoc _ hnext ih => exact hkeep _ _ _ _ ih hnext

/-- The stage in which an event of a life came, and what it led to. -/
theorem Life.exists_stage {before after : List E} {e : E}
    (h : Life next s (before ++ e :: after) u) :
    ∃ t t', Life next s before t ∧ next t e t' ∧ Life next t' after u := by
  generalize hes : before ++ e :: after = es at h
  induction h generalizing after with
  | nil => cases before <;> cases hes
  | @snoc es d t u hlife hnext ih =>
      rcases List.eq_nil_or_concat after with hnil | ⟨init, last, hconcat⟩
      · rw [hnil] at hes ⊢
        obtain ⟨hbefore, he⟩ := List.append_inj' hes rfl
        rw [hbefore, List.singleton_inj.mp he]
        exact ⟨t, u, hlife, hnext, .nil⟩
      · rw [hconcat, List.concat_eq_append, ← List.cons_append, ← List.append_assoc] at hes
        obtain ⟨hinit, hlast⟩ := List.append_inj' hes rfl
        obtain ⟨v, v', hv, hv', hrest⟩ := ih hinit
        rw [hconcat, List.concat_eq_append, List.singleton_inj.mp hlast]
        exact ⟨v, v', hv, hv', hrest.snoc hnext⟩

end Dbmaster.Lib.Lifecycle
