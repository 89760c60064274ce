import Mathlib.Data.List.Basic
/-!
# Fields joined to one text

Fields with a separator between them.  The joined text keeps the pieces between the separators;
which of the separators stood in a field is lost.
-/

namespace Dbmaster.Lib.Joined

variable {χ : Type*} [DecidableEq χ]

def join (sep : χ) (fields : List (List χ)) : List χ := [sep].intercalate fields

/-- The fields, each cut at its separators. -/
def pieces (sep : χ) (fields : List (List χ)) : List (List χ) := fields.flatMap (List.splitOn sep)

/-- How many separators stand in each field. -/
def inner (sep : χ) (fields : List (List χ)) : List Nat := fields.map (List.count sep)

variable {sep : χ} {fields fields' : List (List χ)}

@[simp] theorem pieces_nil : pieces sep ([] : List (List χ)) = [] := rfl

theorem pieces_cons (field : List χ) (fields : List (List χ)) :
    pieces sep (field :: fields) = field.splitOn sep ++ pieces sep fields := List.flatMap_cons

theorem pieces_append (fields fields' : List (List χ)) :
    pieces sep (fields ++ fields') = pieces sep fields ++ pieces sep fields' :=
  List.flatMap_append

/-- The separators of a joined text are those in the fields and those between them. -/
theorem splitOn_join (h : fields ≠ []) : (join sep fields).splitOn sep = pieces sep fields := by
  induction fields with
  | nil => exact absurd rfl h
  | cons field rest ih =>
      cases rest with
      | nil => rw [join, List.intercalate_singleton, pieces_cons, pieces_nil,
          List.append_nil]
      | cons next rest =>
          rw [join, List.intercalate_cons_cons, List.append_assoc, List.singleton_append,
            List.splitOn_append_cons_self, pieces_cons, ← ih (List.cons_ne_nil next rest), join]

theorem join_eq_join_iff (h : fields ≠ []) (h' : fields' ≠ []) :
    join sep fields = join sep fields' ↔ pieces sep fields = pieces sep fields' := by
  rw [← splitOn_join h, ← splitOn_join h']
  constructor
  · exact congrArg _
  · intro hsplit
    calc join sep fields = [sep].intercalate ((join sep fields).splitOn sep) :=
          (List.intercalate_splitOn sep).symm
      _ = [sep].intercalate ((join sep fields').splitOn sep) := by rw [hsplit]
      _ = join sep fields' := List.intercalate_splitOn sep

theorem length_splitOn (text : List χ) : (text.splitOn sep).length = text.count sep + 1 := by
  induction text with
  | nil => rfl
  | cons c text ih =>
      rw [List.splitOn_cons_eq_if_modifyHead, List.count_cons]
      split
      · rw [List.length_cons, ih]
      · rw [List.length_modifyHead, ih, Nat.add_zero]

theorem splitOn_injective : Function.Injective (List.splitOn sep) := by
  intro text text' h
  calc text = [sep].intercalate (text.splitOn sep) := (List.intercalate_splitOn sep).symm
    _ = [sep].intercalate (text'.splitOn sep) := by rw [h]
    _ = text' := List.intercalate_splitOn sep

/-- Pieces with the number of separators in each field give the fields back. -/
theorem eq_of_pieces (h : pieces sep fields = pieces sep fields')
    (hinner : inner sep fields = inner sep fields') : fields = fields' := by
  induction fields generalizing fields' with
  | nil => exact (List.map_eq_nil_iff.mp hinner.symm).symm
  | cons field rest ih =>
      cases fields' with
      | nil => cases hinner
      | cons field' rest' =>
          obtain ⟨hcount, hrest⟩ := List.cons.inj hinner
          rw [pieces_cons, pieces_cons] at h
          have hlength : (field.splitOn sep).length = (field'.splitOn sep).length := by
            rw [length_splitOn, length_splitOn, hcount]
          obtain ⟨hfirst, hpieces⟩ := List.append_inj h hlength
          rw [splitOn_injective hfirst, ih hpieces hrest]

/-- A joined text tells two lists of fields apart, unless they have the same pieces and the
separators in other fields. -/
theorem eq_of_join_iff (h : fields ≠ []) (h' : fields' ≠ []) :
    (join sep fields = join sep fields' → fields = fields') ↔
      (pieces sep fields = pieces sep fields' → inner sep fields = inner sep fields') := by
  rw [join_eq_join_iff h h']
  constructor
  · intro hsame hpieces
    rw [hsame hpieces]
  · intro hinner hpieces
    exact eq_of_pieces hpieces (hinner hpieces)

theorem length_le_length_pieces (fields : List (List χ)) :
    fields.length ≤ (pieces sep fields).length := by
  induction fields with
  | nil => exact Nat.le_refl 0
  | cons field rest ih =>
      rw [pieces_cons, List.length_append, length_splitOn, List.length_cons]
      omega

/-- What stands between a separator in a field and the next field can belong to either. -/
theorem pieces_shift (x y z : List χ) :
    pieces sep [x ++ sep :: y, z] = pieces sep [x, y ++ sep :: z] := by
  rw [pieces_cons, pieces_cons, pieces_cons, pieces_cons, List.splitOn_append_cons_self,
    List.splitOn_append_cons_self, List.append_assoc, List.append_assoc]

/-- Where two fields or more are the only ones with their pieces, none of them has a separator. -/
theorem notMem_of_unique (htwo : 2 ≤ fields.length)
    (h : ∀ fields' : List (List χ), fields'.length = fields.length →
      pieces sep fields' = pieces sep fields → fields' = fields) :
    ∀ field ∈ fields, sep ∉ field := by
  intro field hmem hsep
  obtain ⟨before, after, hfields⟩ := List.append_of_mem hmem
  obtain ⟨x, y, hfield⟩ := List.append_of_mem hsep
  rw [hfield] at hfields
  cases after with
  | cons next after =>
      have hsplit : fields = before ++ ([x ++ sep :: y, next] ++ after) := hfields
      have hsame := h (before ++ ([x, y ++ sep :: next] ++ after))
        (by rw [hsplit]; simp only [List.length_append, List.length_cons])
        (by rw [hsplit, pieces_append, pieces_append, ← pieces_shift, ← pieces_append,
          ← pieces_append])
      rw [hsplit, List.append_cancel_left_eq, List.append_cancel_right_eq, List.cons.injEq] at hsame
      have hlength := congrArg List.length hsame.1
      rw [List.length_append, List.length_cons] at hlength
      omega
  | nil =>
      rcases List.eq_nil_or_concat before with rfl | ⟨front, previous, rfl⟩
      · rw [hfields, List.nil_append, List.length_singleton] at htwo
        omega
      · have hsplit : fields = front ++ [previous, x ++ sep :: y] := by
          rw [hfields, List.concat_eq_append, List.append_assoc, List.singleton_append]
        have hsame := h (front ++ [previous ++ sep :: x, y])
          (by rw [hsplit]; simp only [List.length_append, List.length_cons])
          (by rw [hsplit, pieces_append, pieces_append, pieces_shift])
        rw [hsplit, List.append_cancel_left_eq, List.cons.injEq] at hsame
        have hlength := congrArg List.length hsame.1
        rw [List.length_append, List.length_cons] at hlength
        omega

theorem pieces_of_bare (h : ∀ field ∈ fields, sep ∉ field) : pieces sep fields = fields := by
  induction fields with
  | nil => rfl
  | cons field rest ih =>
      rw [pieces_cons, List.splitOn_eq_singleton (h field List.mem_cons_self),
        ih fun next hnext => h next (List.mem_cons_of_mem field hnext), List.singleton_append]

theorem eq_of_pieces_eq (h : pieces sep fields = fields')
    (hlength : fields.length = fields'.length) : fields = fields' := by
  induction fields generalizing fields' with
  | nil => exact h
  | cons field rest ih =>
      rw [pieces_cons] at h
      have hcount := congrArg List.length h
      rw [List.length_append, length_splitOn, ← hlength, List.length_cons] at hcount
      have hrest : rest.length ≤ (pieces sep rest).length := length_le_length_pieces rest
      have hbare : sep ∉ field := List.count_eq_zero.mp (by omega)
      rw [List.splitOn_eq_singleton hbare, List.singleton_append] at h
      subst h
      rw [List.length_cons, List.length_cons, Nat.add_right_cancel_iff] at hlength
      rw [← ih rfl hlength]

/-- A list with a mark in it is cut at the mark in one way, if the mark comes early and nothing
before it could be one. -/
theorem append_cons_inj {α : Type*} {front front' back back' : List α} {mark mark' : α}
    (hne : front' ≠ []) (hmark : mark' ∉ front.tail) (hlength : back.length ≤ back'.length)
    (h : front' ++ mark' :: back' = front ++ mark :: back) :
    front' = front ∧ mark' = mark ∧ back' = back := by
  rcases List.append_eq_append_iff.mp h with ⟨more, hfront, htail⟩ | ⟨more, hfront, htail⟩
  · cases more with
    | nil =>
        obtain ⟨hsame, hback⟩ := List.cons.inj htail
        exact ⟨by rw [hfront, List.append_nil], hsame, hback⟩
    | cons next more =>
        obtain ⟨hsame, -⟩ := List.cons.inj htail
        obtain ⟨first, rest, hrest⟩ := List.exists_cons_of_ne_nil hne
        rw [hfront, hrest, List.cons_append, List.tail_cons, ← hsame] at hmark
        exact absurd (List.mem_append_right rest List.mem_cons_self) hmark
  · cases more with
    | nil =>
        obtain ⟨hsame, hback⟩ := List.cons.inj htail
        exact ⟨by rw [hfront, List.append_nil], hsame.symm, hback.symm⟩
    | cons next more =>
        have hcount := congrArg List.length htail
        simp only [List.cons_append, List.length_cons, List.length_append] at hcount
        omega

end Dbmaster.Lib.Joined
