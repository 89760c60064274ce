import Mathlib.Data.List.DropRight
/-!
# What stands in front of the first token

Blanks and comments in front of a text, passed over one after the other.
-/

namespace Dbmaster.Lib.Lead

variable {χ : Type*}

/-- What is passed over: blanks, and comments.  `comment` gives what follows the comment that
a text starts with, if it starts with one. -/
structure Skipper (χ : Type*) where
  blank : χ → Bool
  comment : List χ → Option (List χ)
  reads : ∀ text rest, comment text = some rest → rest.length < text.length

namespace Skipper

variable (k : Skipper χ)

def skipFrom : Nat → List χ → List χ
  | 0, text => text
  | n + 1, text =>
    match k.comment (text.dropWhile k.blank) with
    | some rest => skipFrom n rest
    | none => text.dropWhile k.blank

/-- The text from its first token on.  There are no more comments than characters. -/
def skip (text : List χ) : List χ := k.skipFrom (text.length + 1) text

theorem skip_of_token {text : List χ} (hcomment : k.comment (text.dropWhile k.blank) = none) :
    k.skip text = text.dropWhile k.blank := by
  rw [skip, skipFrom, hcomment]

theorem comment_nil : k.comment [] = none := by
  cases hcomment : k.comment [] with
  | none => rfl
  | some rest => exact absurd (k.reads [] rest hcomment) (Nat.not_lt_zero _)

theorem skipFrom_enough {n m : Nat} {text : List χ} (hn : text.length < n) (hm : text.length < m) :
    k.skipFrom n text = k.skipFrom m text := by
  induction n generalizing m text with
  | zero => exact absurd hn (Nat.not_lt_zero _)
  | succ n ih =>
      obtain ⟨m, rfl⟩ := Nat.exists_eq_succ_of_ne_zero (Nat.ne_of_gt (Nat.zero_lt_of_lt hm))
      have hle : (text.dropWhile k.blank).length ≤ text.length :=
        (List.dropWhile_suffix k.blank).length_le
      rw [skipFrom, skipFrom]
      cases hcomment : k.comment (text.dropWhile k.blank) with
      | none => rfl
      | some rest =>
          have hless := k.reads _ rest hcomment
          exact ih (by omega) (by omega)

theorem skip_of_comment {text rest : List χ}
    (hcomment : k.comment (text.dropWhile k.blank) = some rest) : k.skip text = k.skip rest := by
  have hless := k.reads _ rest hcomment
  have hle : (text.dropWhile k.blank).length ≤ text.length :=
    (List.dropWhile_suffix k.blank).length_le
  rw [skip, skipFrom, hcomment]
  exact k.skipFrom_enough (by omega) (by omega)

theorem skip_congr {text text' : List χ}
    (h : text.dropWhile k.blank = text'.dropWhile k.blank) : k.skip text = k.skip text' := by
  cases hcomment : k.comment (text.dropWhile k.blank) with
  | some rest =>
      have hcomment' : k.comment (text'.dropWhile k.blank) = some rest := h ▸ hcomment
      exact (k.skip_of_comment hcomment).trans (k.skip_of_comment hcomment').symm
  | none =>
      have hcomment' : k.comment (text'.dropWhile k.blank) = none := h ▸ hcomment
      rw [k.skip_of_token hcomment, k.skip_of_token hcomment', h]

theorem skip_append_blank {blanks : List χ} (hblanks : ∀ c ∈ blanks, k.blank c = true)
    (text : List χ) : k.skip (blanks ++ text) = k.skip text :=
  k.skip_congr (List.dropWhile_append_of_pos hblanks)

theorem length_skip_le (text : List χ) : (k.skip text).length ≤ text.length := by
  have hall : ∀ n text, (k.skipFrom n text).length ≤ text.length := by
    intro n
    induction n with
    | zero => exact fun text => Nat.le_refl _
    | succ n ih =>
        intro text
        have hle : (text.dropWhile k.blank).length ≤ text.length :=
          (List.dropWhile_suffix k.blank).length_le
        rw [skipFrom]
        cases hcomment : k.comment (text.dropWhile k.blank) with
        | some rest =>
            have hless := k.reads _ rest hcomment
            have hrest := ih rest
            simp only []
            omega
        | none => exact hle
  exact hall _ text

/-- What is left starts with a token. -/
theorem token_skip (text : List χ) :
    (k.skip text).dropWhile k.blank = k.skip text ∧ k.comment (k.skip text) = none := by
  have hall : ∀ n text, text.length < n →
      (k.skipFrom n text).dropWhile k.blank = k.skipFrom n text ∧
        k.comment (k.skipFrom n text) = none := by
    intro n
    induction n with
    | zero => exact fun text h => absurd h (Nat.not_lt_zero _)
    | succ n ih =>
        intro text hlt
        have hle : (text.dropWhile k.blank).length ≤ text.length :=
          (List.dropWhile_suffix k.blank).length_le
        rw [skipFrom]
        cases hcomment : k.comment (text.dropWhile k.blank) with
        | some rest =>
            have hless := k.reads _ rest hcomment
            exact ih rest (by omega)
        | none => exact ⟨List.dropWhile_idempotent k.blank text, hcomment⟩
  exact hall _ text (Nat.lt_succ_self _)

end Skipper

end Dbmaster.Lib.Lead
