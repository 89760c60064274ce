import Mathlib.Data.List.Forall2
import Mathlib.Data.List.Perm.Basic
import Mathlib.Data.Set.Insert
/-!
# Differences of sets, replayed

A set that is observed again and again, and the changes reported between two
observations.
-/

namespace Dbmaster.Lib.Delta

variable {α : Type*}

inductive Change (α : Type*)
  | added (a : α)
  | removed (a : α)

def Change.subject : Change α → α
  | .added a => a
  | .removed a => a

def Change.apply (s : Set α) : Change α → Set α
  | .added a => insert a s
  | .removed a => s \ {a}

def replay (s : Set α) (changes : List (Change α)) : Set α := changes.foldl Change.apply s

/-- The changes are the difference of the two sets, each element reported once. -/
structure Leads (s t : Set α) (changes : List (Change α)) : Prop where
  once : (changes.map Change.subject).Nodup
  added : ∀ a, .added a ∈ changes ↔ a ∈ t \ s
  removed : ∀ a, .removed a ∈ changes ↔ a ∈ s \ t

/-- The order of the changes of one observation does not matter. -/
theorem Leads.of_perm {s t : Set α} {changes changes' : List (Change α)}
    (h : Leads s t changes) (hperm : changes'.Perm changes) : Leads s t changes' where
  once := (hperm.map Change.subject).nodup_iff.mpr h.once
  added a := hperm.mem_iff.trans (h.added a)
  removed a := hperm.mem_iff.trans (h.removed a)

theorem replay_append (s : Set α) (first second : List (Change α)) :
    replay s (first ++ second) = replay (replay s first) second :=
  List.foldl_append

theorem mem_replay {s : Set α} {changes : List (Change α)}
    (h : (changes.map Change.subject).Nodup) (a : α) :
    a ∈ replay s changes ↔ .added a ∈ changes ∨ a ∈ s ∧ .removed a ∉ changes := by
  induction changes generalizing s with
  | nil => simp [replay]
  | cons change changes ih =>
      rw [List.map_cons, List.nodup_cons] at h
      obtain ⟨hnew, hrest⟩ := h
      have hstep : replay s (change :: changes) = replay (change.apply s) changes := rfl
      -- the element of the first change is in none of the others
      have hothers : a = change.subject → .added a ∉ changes ∧ .removed a ∉ changes := by
        rintro rfl
        exact ⟨fun hin => hnew (List.mem_map.mpr ⟨_, hin, rfl⟩),
          fun hin => hnew (List.mem_map.mpr ⟨_, hin, rfl⟩)⟩
      rw [hstep, ih hrest]
      cases change with
      | added b =>
          by_cases hab : a = b
          · obtain ⟨hadded, hremoved⟩ := hothers hab
            subst hab
            simp [Change.apply, hremoved]
          · simp [Change.apply, hab]
      | removed b =>
          by_cases hab : a = b
          · obtain ⟨hadded, hremoved⟩ := hothers hab
            subst hab
            simp [Change.apply, hadded]
          · simp [Change.apply, hab]

theorem Leads.replay_eq {s t : Set α} {changes : List (Change α)} (h : Leads s t changes) :
    replay s changes = t := by
  ext a
  rw [mem_replay h.once, h.added, h.removed, Set.mem_sdiff, Set.mem_sdiff]
  by_cases hs : a ∈ s <;> by_cases ht : a ∈ t <;> simp [hs, ht]

/-! ## Many observations -/

/-- The changes reported between observations that follow each other. -/
inductive Reports : Set α → List (Set α) → List (List (Change α)) → Prop
  | nil (s : Set α) : Reports s [] []
  | cons {s t : Set α} {seen : List (Set α)} {changes : List (Change α)}
      {later : List (List (Change α))} (h : Leads s t changes) (hlater : Reports t seen later) :
      Reports s (t :: seen) (changes :: later)

/-- Replayed on the first set, all the changes give the last one. -/
theorem Reports.replay_eq {s : Set α} {seen : List (Set α)} {reported : List (List (Change α))}
    (h : Reports s seen reported) : replay s reported.flatten = seen.getLast?.getD s := by
  induction h with
  | nil s => rfl
  | cons hleads hlater ih =>
      rw [List.flatten_cons, replay_append, hleads.replay_eq, ih, List.getLast?_cons]
      rfl

theorem Reports.once {s : Set α} {seen : List (Set α)} {reported : List (List (Change α))}
    (h : Reports s seen reported) :
    ∀ changes ∈ reported, (changes.map Change.subject).Nodup := by
  induction h with
  | nil s =>
      intro changes hin
      cases hin
  | cons hleads hlater ih =>
      intro changes hin
      rcases List.mem_cons.mp hin with rfl | hin
      · exact hleads.once
      · exact ih changes hin

end Dbmaster.Lib.Delta
