import Mathlib.Data.List.Infix
/-!
# Texts cut from left to right

A cutter reads a text from its start.  Having read some of it, it knows whether
the last character was a separator, or whether a piece has begun some characters
back without one.
-/

namespace Dbmaster.Lib.Pieces

structure Cutter (χ : Type*) where
  separates : List χ → Bool
  starts : List χ → Option Nat

variable {χ : Type*} (c : Cutter χ)

namespace Cutter

/-- A piece ends or begins with what has been read. -/
def breaks (read : List χ) : Bool := c.separates read || (c.starts read).isSome

/-- The pieces of a text, of which some has been read and the current piece is known. -/
def cut : (read current : List χ) → List χ → List (List χ)
  | _, current, [] => [current]
  | read, current, x :: text =>
    if c.separates (read ++ [x]) then current :: cut (read ++ [x]) [] text
    else
      match c.starts (read ++ [x]) with
      | some back =>
          (current ++ [x]).take ((current ++ [x]).length - back) ::
            cut (read ++ [x]) ((current ++ [x]).drop ((current ++ [x]).length - back)) text
      | none => cut (read ++ [x]) (current ++ [x]) text

def pieces (text : List χ) : List (List χ) := c.cut [] [] text

/-- No part of the text from its start breaks it. -/
def Unbroken (text : List χ) : Prop := ∀ read x, read ++ [x] <+: text → c.breaks (read ++ [x]) = false

theorem cut_of_unbroken (text read current : List χ)
    (h : ∀ more x, more ++ [x] <+: text → c.breaks (read ++ (more ++ [x])) = false) :
    c.cut read current text = [current ++ text] := by
  induction text generalizing read current with
  | nil => rw [cut, List.append_nil]
  | cons x text ih =>
      have hfirst := h [] x (by simp)
      simp only [List.nil_append, breaks, Bool.or_eq_false_iff] at hfirst
      have hnone : c.starts (read ++ [x]) = none := by simpa using hfirst.2
      have hrest : c.cut (read ++ [x]) (current ++ [x]) text = [(current ++ [x]) ++ text] := by
        apply ih
        intro more y hmore
        have hnext := h (x :: more) y (List.prefix_cons_inj x |>.mpr hmore)
        simpa using hnext
      simp only [cut, hfirst.1, hnone, hrest]
      simp

theorem pieces_of_unbroken {text : List χ} (h : c.Unbroken text) : c.pieces text = [text] :=
  c.cut_of_unbroken text [] [] h

end Cutter

end Dbmaster.Lib.Pieces
