import Dbmaster.Lib.Text
/-!
# Balanced parentheses outside quoted text

A text is read character by character, in code or between two quotes, and the parentheses in
code are counted.  A close that is doubled stands for itself.
-/

namespace Dbmaster.Lib.Balanced

open Dbmaster.Lib.Text

/-- Which characters open a quoted text, and what closes it; no parenthesis and no blank does
either. -/
structure Quotes where
  closing : Char → Option Char
  code_open : closing '(' = none
  code_close : closing ')' = none
  code_blank : ∀ c, isWhitespace c = true → closing c = none
  ne_close : ∀ o, closing o ≠ some ')'
  ne_blank : ∀ o c, isWhitespace c = true → closing o ≠ some c

/-- Nothing is quoted. -/
def bare : Quotes where
  closing _ := none
  code_open := rfl
  code_close := rfl
  code_blank _ _ := rfl
  ne_close _ := Option.some_ne_none _ |>.symm
  ne_blank _ _ _ := Option.some_ne_none _ |>.symm

inductive Mode
  | code
  | quoted (opening : Char)
  /-- after a close, which the same character again takes back -/
  | ended (opening : Char)
deriving DecidableEq

def Mode.outside : Mode → Bool
  | .quoted _ => false
  | _ => true

/-- The depth after a character of code; there is none below zero. -/
def count (depth : Nat) (c : Char) : Option Nat :=
  if c = '(' then some (depth + 1)
  else if c = ')' then
    match depth with
    | 0 => none
    | depth + 1 => some depth
  else some depth

theorem count_add {depth depth' : Nat} {c : Char} (h : count depth c = some depth') (k : Nat) :
    count (depth + k) c = some (depth' + k) := by
  unfold count at h ⊢
  by_cases hopen : c = '('
  · rw [if_pos hopen] at h ⊢
    cases h
    rw [Nat.add_right_comm]
  · rw [if_neg hopen] at h ⊢
    by_cases hclose : c = ')'
    · rw [if_pos hclose] at h ⊢
      cases depth with
      | zero => cases h
      | succ depth =>
          cases h
          rw [Nat.add_right_comm]
    · rw [if_neg hclose] at h ⊢
      cases h
      rfl

theorem count_blank {c : Char} (hc : isWhitespace c = true) (depth : Nat) :
    count depth c = some depth := by
  have hopen : c ≠ '(' := by
    rintro rfl
    cases hc
  have hclose : c ≠ ')' := by
    rintro rfl
    cases hc
  unfold count
  rw [if_neg hopen, if_neg hclose]

namespace Quotes

variable (q : Quotes)

def enter (c : Char) : Mode := if (q.closing c).isSome then .quoted c else .code

def codeStep (depth : Nat) (c : Char) : Option (Mode × Nat) :=
  (count depth c).map fun depth => (q.enter c, depth)

def step (s : Mode × Nat) (c : Char) : Option (Mode × Nat) :=
  match s.1 with
  | .code => q.codeStep s.2 c
  | .quoted o => some (if q.closing o = some c then .ended o else .quoted o, s.2)
  | .ended o => if q.closing o = some c then some (.quoted o, s.2) else q.codeStep s.2 c

def scan (s : Mode × Nat) (text : List Char) : Option (Mode × Nat) := text.foldlM q.step s

/-- The parentheses in code match, and the text ends in code. -/
def WellFormed (text : List Char) : Prop :=
  ∃ mode : Mode, mode.outside = true ∧ q.scan (.code, 0) text = some (mode, 0)

/-- One pair of parentheses around all of it. -/
def Enclosed (text : List Char) : Prop :=
  ∃ inner, text = '(' :: (inner ++ [')']) ∧ q.WellFormed inner

@[simp] theorem scan_nil (s : Mode × Nat) : q.scan s [] = some s := rfl

theorem scan_cons (s : Mode × Nat) (c : Char) (text : List Char) :
    q.scan s (c :: text) = (q.step s c).bind fun s => q.scan s text := List.foldlM_cons

theorem scan_append (s : Mode × Nat) (text rest : List Char) :
    q.scan s (text ++ rest) = (q.scan s text).bind fun s => q.scan s rest := List.foldlM_append

/-! ## Deeper by some pairs -/

variable {q}

theorem enter_of_none {c : Char} (h : q.closing c = none) : q.enter c = .code := by
  rw [enter, h]
  rfl

theorem codeStep_of_none {c : Char} (h : q.closing c = none) (depth : Nat) :
    q.codeStep depth c = (count depth c).map fun depth => (.code, depth) := by
  rw [codeStep, enter_of_none h]

theorem codeStep_add {depth : Nat} {c : Char} {s : Mode × Nat} (h : q.codeStep depth c = some s)
    (k : Nat) : q.codeStep (depth + k) c = some (s.1, s.2 + k) := by
  obtain ⟨depth', hcount, rfl⟩ := Option.map_eq_some_iff.mp h
  rw [codeStep, count_add hcount k]
  rfl

theorem step_add {s s' : Mode × Nat} {c : Char} (h : q.step s c = some s') (k : Nat) :
    q.step (s.1, s.2 + k) c = some (s'.1, s'.2 + k) := by
  obtain ⟨mode, depth⟩ := s
  unfold step at h ⊢
  cases mode with
  | code => exact codeStep_add h k
  | quoted o =>
      cases h
      rfl
  | ended o =>
      simp only at h ⊢
      by_cases hagain : q.closing o = some c
      · rw [if_pos hagain] at h ⊢
        cases h
        rfl
      · rw [if_neg hagain] at h ⊢
        exact codeStep_add h k

theorem scan_add {text : List Char} {s s' : Mode × Nat} (h : q.scan s text = some s') (k : Nat) :
    q.scan (s.1, s.2 + k) text = some (s'.1, s'.2 + k) := by
  induction text generalizing s with
  | nil =>
      cases h
      rfl
  | cons c text ih =>
      rw [scan_cons, Option.bind_eq_some_iff] at h
      obtain ⟨t, hstep, hrest⟩ := h
      rw [scan_cons, step_add hstep k, Option.bind_some]
      exact ih hrest

theorem step_close {mode : Mode} (h : mode.outside = true) (depth : Nat) :
    q.step (mode, depth + 1) ')' = some (.code, depth) := by
  cases mode with
  | code => exact codeStep_of_none q.code_close (depth + 1)
  | quoted o => cases h
  | ended o =>
      show (if q.closing o = some ')' then _ else q.codeStep (depth + 1) ')') = _
      rw [if_neg (q.ne_close o)]
      exact codeStep_of_none q.code_close (depth + 1)

theorem wellFormed_pair {inner : List Char} (h : q.WellFormed inner) :
    q.WellFormed ('(' :: (inner ++ [')'])) := by
  obtain ⟨mode, hout, hscan⟩ := h
  refine ⟨.code, rfl, ?_⟩
  have hinner : q.scan (.code, 1) inner = some (mode, 1) := scan_add hscan 1
  calc q.scan (.code, 0) ('(' :: (inner ++ [')']))
      = q.scan (.code, 1) (inner ++ [')']) := by
        rw [scan_cons]
        show (q.codeStep 0 '(').bind _ = _
        rw [codeStep_of_none q.code_open]
        rfl
    _ = q.scan (mode, 1) [')'] := by rw [scan_append, hinner, Option.bind_some]
    _ = some (.code, 0) := by rw [scan_cons, step_close hout, Option.bind_some, scan_nil]

/-! ## Blanks around a text -/

theorem step_blank {c : Char} (hc : isWhitespace c = true) (mode : Mode) (depth : Nat) :
    q.step (mode, depth) c = some (mode, depth) ∨
      mode.outside = true ∧ q.step (mode, depth) c = some (.code, depth) := by
  have hcode : q.codeStep depth c = some (.code, depth) := by
    rw [codeStep_of_none (q.code_blank c hc), count_blank hc]
    rfl
  cases mode with
  | code => exact .inl hcode
  | quoted o =>
      left
      show some (if q.closing o = some c then Mode.ended o else .quoted o, depth) = _
      rw [if_neg (q.ne_blank o c hc)]
  | ended o =>
      right
      refine ⟨rfl, ?_⟩
      show (if q.closing o = some c then _ else q.codeStep depth c) = _
      rw [if_neg (q.ne_blank o c hc), hcode]

/-- Blanks change the mode at most from one outside of quotes to code. -/
theorem scan_blank {blank : List Char} (h : ∀ c ∈ blank, isWhitespace c = true) (mode : Mode)
    (depth : Nat) :
    q.scan (mode, depth) blank = some (mode, depth) ∨
      mode.outside = true ∧ q.scan (mode, depth) blank = some (.code, depth) := by
  induction blank generalizing mode with
  | nil => exact .inl rfl
  | cons c blank ih =>
      rw [List.forall_mem_cons] at h
      rw [scan_cons]
      rcases step_blank h.1 mode depth with hstep | ⟨hout, hstep⟩
      · rw [hstep]
        exact ih h.2 mode
      · rw [hstep]
        right
        refine ⟨hout, ?_⟩
        rcases ih h.2 .code with hrest | hrest
        · exact hrest
        · exact hrest.2

theorem wellFormed_trim {text : List Char} : q.WellFormed (trim text) ↔ q.WellFormed text := by
  obtain ⟨before, after, hbefore, hafter, htext⟩ := exists_trim text
  have hstart : q.scan (.code, 0) before = some (.code, 0) := by
    rcases scan_blank hbefore .code 0 with h | h
    · exact h
    · exact h.2
  have hwhole : q.scan (.code, 0) text =
      (q.scan (.code, 0) (trim text)).bind fun s => q.scan s after := by
    conv_lhs => rw [htext]
    rw [scan_append, hstart, Option.bind_some, scan_append]
  constructor
  · rintro ⟨mode, hout, hscan⟩
    rw [hscan, Option.bind_some] at hwhole
    rcases scan_blank hafter mode 0 with h | h
    · exact ⟨mode, hout, by rw [hwhole, h]⟩
    · exact ⟨.code, rfl, by rw [hwhole, h.2]⟩
  · rintro ⟨mode, hout, hscan⟩
    rw [hscan, eq_comm, Option.bind_eq_some_iff] at hwhole
    obtain ⟨⟨mode', depth⟩, hmiddle, hend⟩ := hwhole
    rcases scan_blank hafter mode' depth with h | h
    · rw [h] at hend
      cases hend
      exact ⟨mode, hout, hmiddle⟩
    · rw [h.2] at hend
      cases hend
      exact ⟨mode', h.1, hmiddle⟩

/-! ## A text without quotes -/

theorem scan_cons_of_none {c : Char} (h : q.closing c = none) (depth : Nat) (text : List Char) :
    q.scan (.code, depth) (c :: text) =
      (count depth c).bind fun depth => q.scan (.code, depth) text := by
  rw [scan_cons]
  show (q.codeStep depth c).bind _ = _
  rw [codeStep_of_none h]
  cases count depth c with
  | none => rfl
  | some depth => rfl

theorem scan_eq_bare {text : List Char} (h : ∀ c ∈ text, q.closing c = none) (depth : Nat) :
    q.scan (.code, depth) text = bare.scan (.code, depth) text := by
  induction text generalizing depth with
  | nil => rfl
  | cons c text ih =>
      rw [List.forall_mem_cons] at h
      rw [scan_cons_of_none h.1, @scan_cons_of_none bare c rfl]
      apply Option.bind_congr
      intro depth' _
      exact ih h.2 depth'

theorem wellFormed_iff_bare {text : List Char} (h : ∀ c ∈ text, q.closing c = none) :
    q.WellFormed text ↔ bare.WellFormed text := by
  simp only [WellFormed, scan_eq_bare h]

end Quotes

end Dbmaster.Lib.Balanced
