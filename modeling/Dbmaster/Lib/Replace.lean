import Dbmaster.Lib.Quoted
import Mathlib.Data.List.Infix
/-!
# Replacement within texts

A replacement never reaches over a character that is not in its pattern, so it
acts on each piece of a text that such characters hold apart.
-/

namespace Dbmaster.Lib.Replace

open Dbmaster.Lib.Text

variable {pattern replacement : List Char} {c : Char}

theorem isPrefix_of_append_cons (hc : c ∉ pattern) {a b : List Char}
    (h : pattern <+: a ++ c :: b) : pattern <+: a := by
  rcases List.prefix_or_prefix_of_prefix h (List.prefix_append a (c :: b)) with hin | ⟨tail, htail⟩
  · exact hin
  · cases tail with
    | nil =>
        rw [List.append_nil] at htail
        exact ⟨[], (List.append_nil _).trans htail.symm⟩
    | cons d tail =>
        -- the pattern would go on with the character that it does not have
        rw [← htail, List.prefix_append_right_inj, List.cons_prefix_cons] at h
        rw [← htail, ← h.1] at hc
        exact absurd (List.mem_append_right a List.mem_cons_self) hc

theorem isPrefixOf_append_cons (hc : c ∉ pattern) (a b : List Char) :
    pattern.isPrefixOf (a ++ c :: b) = pattern.isPrefixOf a := by
  rw [Bool.eq_iff_iff, List.isPrefixOf_iff_prefix, List.isPrefixOf_iff_prefix]
  exact ⟨isPrefix_of_append_cons hc, fun h => h.trans (List.prefix_append a _)⟩

theorem replaceFrom_cons_of_notMem (hne : pattern ≠ []) (hc : c ∉ pattern) (b : List Char) :
    replaceFrom pattern replacement 0 (c :: b) = c :: replaceFrom pattern replacement 0 b := by
  have hno : pattern.isPrefixOf (c :: b) = false := by
    have h := isPrefixOf_append_cons hc [] b
    rw [List.nil_append] at h
    rw [h]
    cases pattern with
    | nil => exact absurd rfl hne
    | cons p pattern => rfl
  rw [replaceFrom, hno, if_neg Bool.false_ne_true]

theorem replaceFrom_append_cons (hc : c ∉ pattern) {skip : Nat}
    {a : List Char} (hskip : skip ≤ a.length) (b : List Char) :
    replaceFrom pattern replacement skip (a ++ c :: b) =
      replaceFrom pattern replacement skip a ++ replaceFrom pattern replacement 0 (c :: b) := by
  induction a generalizing skip with
  | nil =>
      obtain rfl : skip = 0 := Nat.le_zero.mp hskip
      rw [List.nil_append, replaceFrom, List.nil_append]
  | cons x a ih =>
      rw [List.length_cons] at hskip
      cases skip with
      | succ skip =>
          rw [List.cons_append, replaceFrom, replaceFrom]
          exact ih (Nat.le_of_succ_le_succ hskip)
      | zero =>
          have hsame : pattern.isPrefixOf (x :: (a ++ c :: b)) = pattern.isPrefixOf (x :: a) :=
            isPrefixOf_append_cons hc (x :: a) b
          rw [List.cons_append, replaceFrom, hsame]
          by_cases hp : pattern.isPrefixOf (x :: a) = true
          · have hlength := (List.isPrefixOf_iff_prefix.mp hp).length_le
            rw [List.length_cons] at hlength
            rw [if_pos hp, replaceFrom, if_pos hp, ih (by omega), List.append_assoc]
          · rw [if_neg hp, replaceFrom, if_neg hp, ih (Nat.zero_le _), List.cons_append]

/-- What starts with another character is replaced on its own. -/
theorem replaceFrom_append_of_head {a b : List Char}
    (hb : ∀ c ∈ b.head?, c ∉ pattern) :
    replaceFrom pattern replacement 0 (a ++ b) =
      replaceFrom pattern replacement 0 a ++ replaceFrom pattern replacement 0 b := by
  cases b with
  | nil => rw [replaceFrom, List.append_nil, List.append_nil]
  | cons c b => exact replaceFrom_append_cons (hb c rfl) (Nat.zero_le _) b

/-- What ends in another character is replaced on its own. -/
theorem replaceFrom_append_of_last (hne : pattern ≠ []) (hc : c ∉ pattern) (a b : List Char) :
    replaceFrom pattern replacement 0 (a ++ [c] ++ b) =
      replaceFrom pattern replacement 0 (a ++ [c]) ++ replaceFrom pattern replacement 0 b := by
  rw [List.append_assoc, List.singleton_append,
    replaceFrom_append_cons hc (Nat.zero_le _), replaceFrom_append_cons hc (Nat.zero_le _),
    replaceFrom_cons_of_notMem hne hc, replaceFrom_cons_of_notMem hne hc, replaceFrom,
    List.append_assoc, List.singleton_append]

/-- Pieces held apart by other characters are replaced one by one. -/
theorem replaceFrom_flatMap {ι : Type*} {piece : ι → List Char} {xs : List ι}
    (h : ∀ x ∈ xs, ∃ c ∉ pattern, ∃ rest, piece x = c :: rest) :
    replaceFrom pattern replacement 0 (xs.flatMap piece) =
      xs.flatMap fun x => replaceFrom pattern replacement 0 (piece x) := by
  induction xs with
  | nil => rfl
  | cons x xs ih =>
      rw [List.flatMap_cons, List.flatMap_cons, replaceFrom_append_of_head,
        ih fun y hy => h y (List.mem_cons_of_mem x hy)]
      intro c hc
      cases xs with
      | nil => cases hc
      | cons y ys =>
          obtain ⟨d, hd, rest, hy⟩ := h y (List.mem_cons_of_mem x List.mem_cons_self)
          rw [List.flatMap_cons, hy] at hc
          cases hc
          exact hd

/-! ## What a replacement leaves and brings -/

theorem replaceFrom_of_notInfix {text : List Char} (h : ¬ pattern <:+: text) :
    replaceFrom pattern replacement 0 text = text := by
  induction text with
  | nil => rfl
  | cons x text ih =>
      have hno : ¬ pattern.isPrefixOf (x :: text) = true := fun hp =>
        h (List.isPrefixOf_iff_prefix.mp hp).isInfix
      rw [replaceFrom, if_neg hno, ih fun hin => h (hin.trans (List.suffix_cons x text).isInfix)]

theorem notInfix_of_notMem (hc : c ∈ pattern) {text : List Char} (h : c ∉ text) :
    ¬ pattern <:+: text := fun hin => h (hin.subset hc)

/-- Where the pattern occurs its replacement comes in. -/
theorem mem_replaceFrom_of_infix (hne : pattern ≠ []) (hc : c ∈ replacement) {text : List Char}
    (h : pattern <:+: text) : c ∈ replaceFrom pattern replacement 0 text := by
  induction text with
  | nil => exact absurd (List.infix_nil.mp h) hne
  | cons x text ih =>
      rw [replaceFrom]
      by_cases hp : pattern.isPrefixOf (x :: text) = true
      · rw [if_pos hp]
        exact List.mem_append_left _ hc
      · rw [if_neg hp]
        rcases List.infix_cons_iff.mp h with hhere | hthere
        · exact absurd (List.isPrefixOf_iff_prefix.mpr hhere) hp
        · exact List.mem_cons_of_mem x (ih hthere)

theorem mem_of_mem_replaceFrom {skip : Nat} {text : List Char}
    (h : c ∈ replaceFrom pattern replacement skip text) : c ∈ text ∨ c ∈ replacement := by
  induction text generalizing skip with
  | nil =>
      rw [replaceFrom] at h
      cases h
  | cons x text ih =>
      cases skip with
      | succ skip =>
          rw [replaceFrom] at h
          exact (ih h).imp_left (List.mem_cons_of_mem x)
      | zero =>
          rw [replaceFrom] at h
          split at h
          · rcases List.mem_append.mp h with hnew | hold
            · exact .inr hnew
            · exact (ih hold).imp_left (List.mem_cons_of_mem x)
          · rcases List.mem_cons.mp h with rfl | hold
            · exact .inl List.mem_cons_self
            · exact (ih hold).imp_left (List.mem_cons_of_mem x)

theorem length_replaceFrom_le (hne : pattern ≠ []) (hlength : replacement.length ≤ pattern.length)
    {skip : Nat} {text : List Char} (hskip : skip ≤ text.length) :
    (replaceFrom pattern replacement skip text).length + skip ≤ text.length := by
  induction text generalizing skip with
  | nil =>
      rw [replaceFrom]
      simpa using hskip
  | cons x text ih =>
      rw [List.length_cons] at hskip ⊢
      cases skip with
      | succ skip =>
          have hrest := ih (Nat.le_of_succ_le_succ hskip)
          rw [replaceFrom]
          omega
      | zero =>
          rw [replaceFrom]
          split
          case isTrue hp =>
            have hfit := (List.isPrefixOf_iff_prefix.mp hp).length_le
            have hpos := List.length_pos_iff.mpr hne
            rw [List.length_cons] at hfit
            have hrest : (replaceFrom pattern replacement (pattern.length - 1) text).length +
                (pattern.length - 1) ≤ text.length := ih (by omega)
            rw [List.length_append]
            omega
          case isFalse =>
            have hrest := ih (Nat.zero_le _)
            rw [List.length_cons]
            omega

/-- Where the pattern occurs a shorter replacement shortens the text. -/
theorem length_replaceFrom_lt (hlength : replacement.length < pattern.length) {text : List Char}
    (h : pattern <:+: text) : (replaceFrom pattern replacement 0 text).length < text.length := by
  have hpos : 0 < pattern.length := by omega
  have hne : pattern ≠ [] := List.length_pos_iff.mp hpos
  induction text with
  | nil => exact absurd (List.infix_nil.mp h) hne
  | cons x text ih =>
      rw [replaceFrom, List.length_cons]
      by_cases hp : pattern.isPrefixOf (x :: text) = true
      · have hfit := (List.isPrefixOf_iff_prefix.mp hp).length_le
        rw [List.length_cons] at hfit
        have hrest : (replaceFrom pattern replacement (pattern.length - 1) text).length +
            (pattern.length - 1) ≤ text.length :=
          length_replaceFrom_le hne (Nat.le_of_lt hlength) (by omega)
        rw [if_pos hp, List.length_append]
        omega
      · rw [if_neg hp, List.length_cons]
        rcases List.infix_cons_iff.mp h with hhere | hthere
        · exact absurd (List.isPrefixOf_iff_prefix.mpr hhere) hp
        · exact Nat.succ_lt_succ (ih hthere)

/-- A character outside the pattern stays. -/
theorem mem_replaceFrom_of_mem (hne : pattern ≠ []) (hc : c ∉ pattern) {text : List Char}
    (h : c ∈ text) : c ∈ replaceFrom pattern replacement 0 text := by
  obtain ⟨a, b, rfl⟩ := List.append_of_mem h
  rw [replaceFrom_append_cons hc (Nat.zero_le _), replaceFrom_cons_of_notMem hne hc]
  exact List.mem_append_right _ List.mem_cons_self

/-- A word the replacement cannot start stands at the start of the result only where it stood
in the text, up to an occurrence of the pattern. -/
theorem cons_isPrefix_replaceFrom {d : Char} {word text : List Char}
    (hnew : ∃ e rest, replacement = e :: rest ∧ e ≠ d) :
    d :: word <+: replaceFrom pattern replacement 0 text ↔
      ∃ rest, text = d :: rest ∧ ¬ pattern <+: text ∧
        word <+: replaceFrom pattern replacement 0 rest := by
  obtain ⟨e, tail, rfl, hne⟩ := hnew
  cases text with
  | nil => simp [replaceFrom]
  | cons x text =>
      rw [replaceFrom]
      by_cases hp : pattern.isPrefixOf (x :: text) = true
      · have hprefix := List.isPrefixOf_iff_prefix.mp hp
        rw [if_pos hp, List.cons_append, List.cons_prefix_cons]
        constructor
        · rintro ⟨hd, -⟩
          exact absurd hd.symm hne
        · rintro ⟨rest, -, hno, -⟩
          exact absurd hprefix hno
      · have hno : ¬ pattern <+: x :: text := fun h => hp (List.isPrefixOf_iff_prefix.mpr h)
        rw [if_neg hp, List.cons_prefix_cons]
        constructor
        · rintro ⟨rfl, hword⟩
          exact ⟨text, rfl, hno, hword⟩
        · rintro ⟨rest, htext, -, hword⟩
          obtain ⟨rfl, rfl⟩ := List.cons.inj htext
          exact ⟨rfl, hword⟩

/-! ## Replacement in doubled texts -/

theorem double_eq_self {q : Char} {text : List Char} (h : q ∉ text) :
    Quoted.double q text = text := by
  induction text with
  | nil => rfl
  | cons x text ih =>
      rw [List.mem_cons, not_or] at h
      rw [Quoted.double, if_neg (Ne.symm h.1), ih h.2]

theorem double_append (q : Char) (a b : List Char) :
    Quoted.double q (a ++ b) = Quoted.double q a ++ Quoted.double q b := by
  induction a with
  | nil => rfl
  | cons x a ih =>
      rw [List.cons_append, Quoted.double, Quoted.double, ih]
      split <;> rfl

/-- A replacement that leaves the delimiter alone acts on the text within. -/
theorem replaceFrom_double {q : Char} (hne : pattern ≠ []) (hq : q ∉ pattern)
    (hnew : q ∉ replacement) (text : List Char) :
    replaceFrom pattern replacement 0 (Quoted.double q text) =
      Quoted.double q (replaceFrom pattern replacement 0 text) := by
  induction hlength : text.length using Nat.strong_induction_on generalizing text with
  | _ n ih =>
      by_cases hmem : q ∈ text
      · -- the text up to its first delimiter is replaced on its own
        obtain ⟨a, b, rfl, ha⟩ := List.eq_append_cons_of_mem hmem
        have hb := ih b.length (by rw [← hlength]; simp; omega) b rfl
        have hrest : q ∉ replaceFrom pattern replacement 0 a := fun h =>
          (mem_of_mem_replaceFrom h).elim ha hnew
        rw [double_append, double_eq_self ha, Quoted.double, if_pos rfl,
          replaceFrom_append_cons hq (Nat.zero_le _), replaceFrom_cons_of_notMem hne hq,
          replaceFrom_cons_of_notMem hne hq, hb,
          replaceFrom_append_cons hq (Nat.zero_le _), replaceFrom_cons_of_notMem hne hq,
          double_append, double_eq_self hrest, Quoted.double, if_pos rfl]
      · have hrest : q ∉ replaceFrom pattern replacement 0 text := fun h =>
          (mem_of_mem_replaceFrom h).elim hmem hnew
        rw [double_eq_self hmem, double_eq_self hrest]

theorem replaceFrom_quoted {q : Char} (hne : pattern ≠ []) (hq : q ∉ pattern)
    (hnew : q ∉ replacement) (text : List Char) :
    replaceFrom pattern replacement 0 (Quoted.quoted q text) =
      Quoted.quoted q (replaceFrom pattern replacement 0 text) := by
  rw [Quoted.quoted, replaceFrom_cons_of_notMem hne hq,
    replaceFrom_append_cons hq (Nat.zero_le _), replaceFrom_double hne hq hnew,
    replaceFrom_cons_of_notMem hne hq, replaceFrom, Quoted.quoted]

end Dbmaster.Lib.Replace
