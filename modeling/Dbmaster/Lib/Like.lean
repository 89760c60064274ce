import Mathlib.Data.List.Forall2
import Mathlib.Data.List.Infix
/-!
# `LIKE`

Patterns with `%` for any text and `_` for any character, without an escape character.  When two
characters count as the same is a parameter: there are databases that fold the case of letters.
-/

namespace Dbmaster.Lib.Like

variable {same : Char → Char → Bool}

def like (same : Char → Char → Bool) : List Char → List Char → Bool
  | [], text => text.isEmpty
  | k :: pattern, text =>
      if k = '%' then text.tails.any (like same pattern)
      else (text.head?.any fun c => k == '_' || same k c) && like same pattern text.tail

/-- The characters that a character of a pattern other than `%` stands for. -/
def Fits (same : Char → Char → Bool) (k c : Char) : Prop := k = '_' ∨ same k c = true

theorem like_percent {pattern text : List Char} : like same ('%' :: pattern) text = true ↔
    ∃ before rest, text = before ++ rest ∧ like same pattern rest = true := by
  rw [like, if_pos rfl, List.any_eq_true]
  constructor
  · rintro ⟨rest, hrest, hlike⟩
    obtain ⟨before, hbefore⟩ := (List.mem_tails rest text).mp hrest
    exact ⟨before, rest, hbefore.symm, hlike⟩
  · rintro ⟨before, rest, htext, hlike⟩
    exact ⟨rest, (List.mem_tails rest text).mpr ⟨before, htext.symm⟩, hlike⟩

theorem like_rest (text : List Char) : like same ['%'] text = true :=
  like_percent.mpr ⟨text, [], (List.append_nil text).symm, rfl⟩

theorem like_append {word pattern : List Char} (hword : '%' ∉ word) {text : List Char} :
    like same (word ++ pattern) text = true ↔ ∃ found rest, text = found ++ rest ∧
      List.Forall₂ (Fits same) word found ∧ like same pattern rest = true := by
  induction word generalizing text with
  | nil =>
      constructor
      · intro h
        exact ⟨[], text, rfl, .nil, h⟩
      · rintro ⟨found, rest, rfl, hfound, h⟩
        rw [List.forall₂_nil_left_iff.mp hfound]
        exact h
  | cons k word ih =>
      rw [List.mem_cons, not_or] at hword
      rw [List.cons_append, like, if_neg (Ne.symm hword.1)]
      cases text with
      | nil =>
          refine iff_of_false Bool.false_ne_true ?_
          rintro ⟨found, rest, htext, hfound, _⟩
          obtain ⟨rfl, _⟩ := List.append_eq_nil_iff.mp htext.symm
          cases hfound
      | cons c text =>
          simp only [List.head?_cons, List.tail_cons, Option.any_some, Bool.and_eq_true,
            ih hword.2, Bool.or_eq_true, beq_iff_eq]
          constructor
          · rintro ⟨hc, found, rest, rfl, hfound, h⟩
            exact ⟨c :: found, rest, rfl, .cons hc hfound, h⟩
          · rintro ⟨found, rest, htext, hfound, h⟩
            cases hfound with
            | cons hc hfound =>
                obtain ⟨rfl, rfl⟩ := List.cons.inj htext
                exact ⟨hc, _, rest, rfl, hfound, h⟩

theorem like_within {word : List Char} (hword : '%' ∉ word) {text : List Char} :
    like same ('%' :: (word ++ ['%'])) text = true ↔ ∃ before found rest,
      text = before ++ (found ++ rest) ∧ List.Forall₂ (Fits same) word found := by
  rw [like_percent]
  constructor
  · rintro ⟨before, tail, rfl, h⟩
    obtain ⟨found, rest, rfl, hfound, _⟩ := (like_append hword).mp h
    exact ⟨before, found, rest, rfl, hfound⟩
  · rintro ⟨before, found, rest, rfl, hfound⟩
    exact ⟨before, found ++ rest, rfl, (like_append hword).mpr
      ⟨found, rest, rfl, hfound, like_rest rest⟩⟩

theorem forall₂_fits_eq {word found : List Char} (hword : '_' ∉ word) :
    List.Forall₂ (Fits (· == ·)) word found ↔ word = found := by
  induction word generalizing found with
  | nil =>
      rw [List.forall₂_nil_left_iff]
      exact eq_comm
  | cons k word ih =>
      rw [List.mem_cons, not_or] at hword
      cases found with
      | nil => exact iff_of_false nofun nofun
      | cons c found =>
          rw [List.forall₂_cons, ih hword.2, List.cons.injEq]
          refine and_congr_left fun _ => ?_
          rw [Fits, beq_iff_eq, or_iff_right (Ne.symm hword.1)]

/-- Where no two characters count as the same, a word without wildcards is a part of the text. -/
theorem like_part {word : List Char} (hpercent : '%' ∉ word) (hunder : '_' ∉ word)
    {text : List Char} :
    like (· == ·) ('%' :: (word ++ ['%'])) text = true ↔ word <:+: text := by
  rw [like_within hpercent]
  constructor
  · rintro ⟨before, found, rest, rfl, hfound⟩
    rw [(forall₂_fits_eq hunder).mp hfound]
    exact ⟨before, rest, List.append_assoc ..⟩
  · rintro ⟨before, rest, rfl⟩
    exact ⟨before, word, rest, List.append_assoc .., (forall₂_fits_eq hunder).mpr rfl⟩

end Dbmaster.Lib.Like
