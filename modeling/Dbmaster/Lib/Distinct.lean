import Mathlib.Data.List.Induction
import Mathlib.Data.List.Nodup
/-!
# A list without its repetitions

What `List.eraseDups` makes of a list that grows at its end.
-/

namespace Dbmaster.Lib.Distinct

variable {α : Type*} [DecidableEq α] {l : List α} {a : α}

theorem eraseDups_concat_of_mem (h : a ∈ l) : (l ++ [a]).eraseDups = l.eraseDups := by
  rw [List.eraseDups_append, List.cons_removeAll, if_neg (by simpa using h), List.nil_removeAll,
    List.eraseDups_nil, List.append_nil]

theorem eraseDups_concat_of_notMem (h : a ∉ l) : (l ++ [a]).eraseDups = l.eraseDups ++ [a] := by
  rw [List.eraseDups_append, List.cons_removeAll, if_pos (by simpa using h), List.nil_removeAll,
    List.eraseDups_cons, List.filter_nil, List.eraseDups_nil]

theorem nodup_eraseDups (l : List α) : l.eraseDups.Nodup := by
  induction l using List.reverseRecOn with
  | nil => exact List.nodup_nil
  | append_singleton l a ih =>
      by_cases h : a ∈ l
      · rwa [eraseDups_concat_of_mem h]
      · rw [eraseDups_concat_of_notMem h, ← List.concat_eq_append]
        exact ih.concat (by rwa [List.mem_eraseDups])

theorem mem_filter_eraseDups {p : α → Bool} : a ∈ l.eraseDups.filter p ↔ a ∈ l ∧ p a = true := by
  rw [List.mem_filter, List.mem_eraseDups]

end Dbmaster.Lib.Distinct
