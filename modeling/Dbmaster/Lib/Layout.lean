import Mathlib.Data.List.Infix
/-!
# Texts laid out in pieces

A text is read from its start.  What is read belongs to a piece, or is a gap between or
around pieces; whether a character may be a gap can depend on where it stands.
-/

namespace Dbmaster.Lib.Layout

variable {χ : Type*}

/-- The first `n` characters are these pieces in their order, and gaps. -/
inductive Laid (text : List χ) (gap : Nat → χ → Prop) : Nat → List (List χ) → Prop
  | start : Laid text gap 0 []
  | gap {n : Nat} {pieces : List (List χ)} {c : χ} (hbefore : Laid text gap n pieces)
      (hget : text[n]? = some c) (hgap : gap n c) : Laid text gap (n + 1) pieces
  | piece {n : Nat} {pieces : List (List χ)} {part : List χ} (hbefore : Laid text gap n pieces)
      (hpart : part <+: text.drop n) : Laid text gap (n + part.length) (pieces ++ [part])

/-- The characters from the first offset up to the second. -/
def slice (text : List χ) (span : Nat × Nat) : List χ := (text.take span.2).drop span.1

variable {text : List χ} {gap : Nat → χ → Prop} {n : Nat} {pieces : List (List χ)}

theorem getElem?_of_prefix_drop {part : List χ} (h : part <+: text.drop n) {i : Nat} {c : χ}
    (hget : part[i]? = some c) : text[n + i]? = some c := by
  obtain ⟨tail, htail⟩ := h
  have hlt : i < part.length := (List.getElem?_eq_some_iff.mp hget).1
  rw [← List.getElem?_drop, ← htail, List.getElem?_append_left hlt]
  exact hget

theorem slice_of_prefix_drop {part : List χ} (h : part <+: text.drop n) :
    slice text (n, n + part.length) = part := by
  calc (text.take (n + part.length)).drop n = (text.drop n).take part.length := by
        rw [List.drop_take, Nat.add_sub_cancel_left]
    _ = part := (List.prefix_iff_eq_take.mp h).symm

theorem Laid.gaps (h : Laid text gap n pieces) {part : List χ} (hpart : part <+: text.drop n)
    (hgaps : ∀ i c, part[i]? = some c → gap (n + i) c) :
    Laid text gap (n + part.length) pieces := by
  induction part using List.reverseRecOn with
  | nil => exact h
  | append_singleton part c ih =>
      have hbefore : Laid text gap (n + part.length) pieces := by
        refine ih ((List.prefix_append part [c]).trans hpart) fun i d hd => hgaps i d ?_
        rw [List.getElem?_append_left (List.getElem?_eq_some_iff.mp hd).1]
        exact hd
      have hlast : (part ++ [c])[part.length]? = some c := by
        rw [List.getElem?_append_right (Nat.le_refl _), Nat.sub_self]
        rfl
      rw [List.length_append, ← Nat.add_assoc]
      exact hbefore.gap (getElem?_of_prefix_drop hpart hlast) (hgaps _ _ hlast)

/-- The pieces have their places, which do not overlap and come in their order; what is in
none of them is a gap. -/
theorem Laid.exists_spans (h : Laid text gap n pieces) :
    ∃ spans : List (Nat × Nat), pieces = spans.map (slice text) ∧
      spans.Pairwise (fun a b => a.2 ≤ b.1) ∧
      (∀ span ∈ spans, span.1 + (slice text span).length = span.2 ∧ span.2 ≤ n) ∧
      ∀ i c, i < n → text[i]? = some c → (∀ span ∈ spans, i < span.1 ∨ span.2 ≤ i) → gap i c := by
  induction h with
  | start => exact ⟨[], rfl, .nil, nofun, fun i c hi => absurd hi (Nat.not_lt_zero i)⟩
  | @gap n pieces c _ hget hgap ih =>
      obtain ⟨spans, hpieces, hordered, hspans, hgaps⟩ := ih
      refine ⟨spans, hpieces, hordered, fun span hmem => ?_, fun i d hi hd hout => ?_⟩
      · obtain ⟨hlength, hle⟩ := hspans span hmem
        exact ⟨hlength, by omega⟩
      · by_cases hlast : i = n
        · rw [hlast] at hd ⊢
          rw [hget] at hd
          rw [← Option.some.inj hd]
          exact hgap
        · exact hgaps i d (by omega) hd hout
  | @piece n pieces part _ hpart ih =>
      obtain ⟨spans, hpieces, hordered, hspans, hgaps⟩ := ih
      have hslice := slice_of_prefix_drop hpart
      refine ⟨spans ++ [(n, n + part.length)], ?_, ?_, ?_, ?_⟩
      · rw [List.map_append, ← hpieces, List.map_singleton, hslice]
      · rw [List.pairwise_append]
        refine ⟨hordered, List.pairwise_singleton _ _, fun a ha b hb => ?_⟩
        rw [List.mem_singleton.mp hb]
        exact (hspans a ha).2
      · intro span hmem
        rcases List.mem_append.mp hmem with hold | hnew
        · obtain ⟨hlength, hle⟩ := hspans span hold
          exact ⟨hlength, by omega⟩
        · rw [List.mem_singleton.mp hnew, hslice]
          exact ⟨rfl, Nat.le_refl _⟩
      · intro i c hi hc hout
        have hbefore : i < n := by
          rcases hout _ (List.mem_append_right _ List.mem_cons_self) with hlt | hle
          · exact hlt
          · exact absurd hi (Nat.not_lt.mpr hle)
        exact hgaps i c hbefore hc fun span hmem => hout span (List.mem_append_left _ hmem)

end Dbmaster.Lib.Layout
