import Mathlib.Data.List.Basic
import Mathlib.Logic.Function.Basic
/-!
# Registries

One entry for each key: the first registration of a key draws its id, every later one gets
the same id back and replaces the value.
-/

namespace Dbmaster.Lib.Registry

variable {K I V : Type*} [DecidableEq K]

structure Request (K I V : Type*) where
  key : K
  fresh : I
  value : V

abbrev Entries (K I V : Type*) := K → Option (I × V)

/-- The id that a request is answered with. -/
def idFor (e : Entries K I V) (r : Request K I V) : I := ((e r.key).map Prod.fst).getD r.fresh

def register (e : Entries K I V) (r : Request K I V) : Entries K I V :=
  Function.update e r.key (some (idFor e r, r.value))

/-- The requests with their answers, and the entries left. -/
def registerAll (e : Entries K I V) : List (Request K I V) →
    List (Request K I V × I) × Entries K I V
  | [] => ([], e)
  | r :: rs =>
      let rest := registerAll (register e r) rs
      ((r, idFor e r) :: rest.1, rest.2)

theorem register_of_ne {e : Entries K I V} {r : Request K I V} {k : K} (h : r.key ≠ k) :
    register e r k = e k := Function.update_of_ne (Ne.symm h) _ _

theorem register_self (e : Entries K I V) (r : Request K I V) :
    register e r r.key = some (idFor e r, r.value) := Function.update_self _ _ _

/-- The last value registered for the key, if there is one. -/
def latest (k : K) (rs : List (Request K I V)) : Option V :=
  ((rs.filter fun r => r.key = k).getLast?).map Request.value

theorem latest_cons_of_ne {k : K} {r : Request K I V} (h : r.key ≠ k)
    (rs : List (Request K I V)) : latest k (r :: rs) = latest k rs := by
  rw [latest, List.filter_cons_of_neg (by simpa using h), latest]

theorem latest_cons_self (r : Request K I V) (rs : List (Request K I V)) :
    latest r.key (r :: rs) = some ((latest r.key rs).getD r.value) := by
  rw [latest, List.filter_cons_of_pos (by simp), List.getLast?_cons, Option.map_some, latest]
  cases (rs.filter fun s => s.key = r.key).getLast? <;> rfl

/-- A known key keeps its id, whatever is registered. -/
theorem registerAll_of_known {k : K} {i : I} {v : V} (rs : List (Request K I V))
    {e : Entries K I V} (h : e k = some (i, v)) :
    (registerAll e rs).2 k = some (i, (latest k rs).getD v) ∧
      ∀ answer ∈ (registerAll e rs).1, answer.1.key = k → answer.2 = i := by
  induction rs generalizing e v with
  | nil => exact ⟨h, nofun⟩
  | cons r rs ih =>
      by_cases hk : r.key = k
      · subst hk
        have hid : idFor e r = i := by rw [idFor, h]; rfl
        have hnext : register e r r.key = some (i, r.value) := by rw [register_self, hid]
        obtain ⟨hend, hanswers⟩ := ih hnext
        refine ⟨?_, List.forall_mem_cons.mpr ⟨fun _ => hid, hanswers⟩⟩
        rw [latest_cons_self, Option.getD_some]
        exact hend
      · obtain ⟨hend, hanswers⟩ := ih ((register_of_ne hk).trans h)
        refine ⟨?_, List.forall_mem_cons.mpr ⟨fun heq => absurd heq hk, hanswers⟩⟩
        rw [latest_cons_of_ne hk]
        exact hend

/-- All requests for a key get one id, and the last of them leaves its value. -/
theorem registerAll_of_called {k : K} {v : V} {rs : List (Request K I V)}
    (h : latest k rs = some v) (e : Entries K I V) :
    ∃ i, (registerAll e rs).2 k = some (i, v) ∧
      ∀ answer ∈ (registerAll e rs).1, answer.1.key = k → answer.2 = i := by
  induction rs generalizing e with
  | nil => cases h
  | cons r rs ih =>
      by_cases hk : r.key = k
      · subst hk
        obtain ⟨hend, hanswers⟩ := registerAll_of_known rs (register_self e r)
        rw [latest_cons_self] at h
        refine ⟨idFor e r, ?_, List.forall_mem_cons.mpr ⟨fun _ => rfl, hanswers⟩⟩
        rw [← Option.some.inj h]
        exact hend
      · rw [latest_cons_of_ne hk] at h
        obtain ⟨i, hend, hanswers⟩ := ih h (register e r)
        exact ⟨i, hend, List.forall_mem_cons.mpr ⟨fun heq => absurd heq hk, hanswers⟩⟩

end Dbmaster.Lib.Registry
