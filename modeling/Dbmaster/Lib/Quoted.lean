import Dbmaster.Lib.Text
/-!
# Delimited texts with a doubled delimiter

Identifiers and literals between two delimiters, in which a delimiter of the
text itself is written twice; and their reading.
-/

namespace Dbmaster.Lib.Quoted

/-- The text with every `q` written twice. -/
def double (q : Char) : List Char → List Char
  | [] => []
  | c :: text => if c = q then q :: q :: double q text else c :: double q text

def quoted (q : Char) (text : List Char) : List Char := q :: (double q text ++ [q])

/-- The text up to a delimiter that stands alone, and what follows it. -/
def readBody (q : Char) : List Char → Option (List Char × List Char)
  | [] => none
  | [c] => if c = q then some ([], []) else none
  | c :: d :: rest =>
      if c = q then
        if d = q then (readBody q rest).map fun pair => (q :: pair.1, pair.2)
        else some ([], d :: rest)
      else (readBody q (d :: rest)).map fun pair => (c :: pair.1, pair.2)

def readQuoted (q : Char) : List Char → Option (List Char × List Char)
  | [] => none
  | c :: rest => if c = q then readBody q rest else none

theorem replace_eq_double (q : Char) (text : List Char) :
    Text.replaceFrom [q] [q, q] 0 text = double q text := by
  rw [Text.replaceFrom_singleton]
  induction text with
  | nil => rfl
  | cons c text ih =>
      rw [List.flatMap_cons, ih, double]
      by_cases hc : c = q
      · rw [if_pos hc, if_pos hc]
        rfl
      · rw [if_neg hc, if_neg hc]
        rfl

theorem readBody_other {q c : Char} {rest : List Char} (hc : c ≠ q) :
    readBody q (c :: rest) = (readBody q rest).map fun pair => (c :: pair.1, pair.2) := by
  cases rest with
  | nil => rw [readBody, readBody, if_neg hc, Option.map_none]
  | cons d rest => rw [readBody, if_neg hc]

theorem readBody_double {q : Char} {rest : List Char} (hrest : rest.head? ≠ some q)
    (text : List Char) : readBody q (double q text ++ q :: rest) = some (text, rest) := by
  induction text with
  | nil =>
      cases rest with
      | nil => rw [double, List.nil_append, readBody, if_pos rfl]
      | cons d rest =>
          have hd : d ≠ q := fun h => hrest (by rw [h]; rfl)
          rw [double, List.nil_append, readBody, if_pos rfl, if_neg hd]
  | cons c text ih =>
      rw [double]
      by_cases hc : c = q
      · rw [if_pos hc, List.cons_append, List.cons_append, readBody, if_pos rfl, if_pos rfl, ih,
          hc]
        rfl
      · rw [if_neg hc, List.cons_append, readBody_other hc, ih]
        rfl

theorem readQuoted_quoted (q : Char) (text rest : List Char) (hrest : rest.head? ≠ some q) :
    readQuoted q (quoted q text ++ rest) = some (text, rest) := by
  have hsplit : quoted q text ++ rest = q :: (double q text ++ q :: rest) := by
    simp [quoted]
  rw [hsplit, readQuoted, if_pos rfl, readBody_double hrest]

end Dbmaster.Lib.Quoted
