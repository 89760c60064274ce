import Dbmaster.Lib.Text
import Mathlib.Data.List.Infix
/-!
# Words that occur in a text

The searches of the standard library against the infix relation, and what the letter case
of a text does to the words in it.
-/

namespace Dbmaster.Lib.Text

variable {text part : List Char}

theorem isSome_afterFirst_iff {word : String} (hne : word.toList ≠ []) :
    (afterFirst word text).isSome = true ↔ word.toList <:+: text := by
  induction text with
  | nil =>
      rw [List.infix_nil]
      exact iff_of_false Bool.false_ne_true hne
  | cons c text ih =>
      rw [List.infix_cons_iff, ← ih, afterFirst, startsWith, ← List.isPrefixOf_iff_prefix]
      by_cases hstart : word.toList.isPrefixOf (c :: text) = true
      · rw [if_pos hstart]
        exact iff_of_true rfl (Or.inl hstart)
      · rw [if_neg hstart, or_iff_right hstart]

theorem isSome_splitFirst_iff {word : List Char} (hne : word ≠ []) :
    (splitFirst word text).isSome = true ↔ word <:+: text := by
  induction text with
  | nil =>
      rw [List.infix_nil]
      exact iff_of_false Bool.false_ne_true hne
  | cons c text ih =>
      rw [List.infix_cons_iff, ← ih, splitFirst, ← List.isPrefixOf_iff_prefix]
      by_cases hstart : word.isPrefixOf (c :: text) = true
      · rw [if_pos hstart]
        exact iff_of_true rfl (Or.inl hstart)
      · rw [if_neg hstart, or_iff_right hstart, Option.isSome_map]

theorem contains_iff {word : String} (hne : word.toList ≠ []) :
    contains text word = true ↔ word.toList <:+: text := isSome_splitFirst_iff hne

/-! ## Lower case -/

theorem asciiLower_infix (h : part <:+: text) : asciiLower part <:+: asciiLower text := h.map _

theorem toLowercase_of_ascii {c : Char} (h : c.toNat < 128) : toLowercase c = [c.toLower] := by
  unfold toLowercase
  split
  case h_3 => rfl
  all_goals
    rename_i hcode
    omega

theorem lower_of_ascii (h : ∀ c ∈ part, c.toNat < 128) : lower part = asciiLower part := by
  induction part with
  | nil => rfl
  | cons c part ih =>
      rw [lower, List.flatMap_cons, toLowercase_of_ascii (h c List.mem_cons_self), ← lower,
        ih fun d hd => h d (List.mem_cons_of_mem _ hd)]
      rfl

/-- A word in ASCII is found in the lower case of the text. -/
theorem asciiLower_infix_lower (hascii : ∀ c ∈ part, c.toNat < 128) (h : part <:+: text) :
    asciiLower part <:+: lower text := by
  obtain ⟨before, after, rfl⟩ := h
  refine ⟨lower before, lower after, ?_⟩
  rw [← lower_of_ascii hascii]
  simp only [lower, List.flatMap_append]

end Dbmaster.Lib.Text
