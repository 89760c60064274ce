import Dbmaster.QueryStats.Strides
/-!
# Digits in statements

The normaliser tells no digit from another, but for the zero, wherever it stands.
-/

namespace Dbmaster.QueryStats.Digits

open Dbmaster.Lib.Text Dbmaster.QueryStats.Normalize Dbmaster.QueryStats.Strides

/-- Every digit but the zero as a one. -/
def oneDigit (c : Char) : Char := if c.isDigit && c != '0' then '1' else c

theorem oneDigit_of_not_isDigit {c : Char} (h : c.isDigit = false) : oneDigit c = c := by
  rw [oneDigit, h, Bool.false_and, if_neg Bool.false_ne_true]

/-- A test that does not tell the digits apart, but for the zero. -/
def Blind (p : Char → Bool) : Prop := ∀ c, p (oneDigit c) = p c

theorem blind_of_digits {p : Char → Bool} (h : ∀ c, c.isDigit = true → c ≠ '0' → p c = p '1') :
    Blind p := by
  intro c
  rw [oneDigit]
  split_ifs with hc
  · rw [Bool.and_eq_true, bne_iff_ne] at hc
    exact (h c hc.1 hc.2).symm
  · rfl

theorem blind_of_notDigit {p : Char → Bool} (h : ∀ c, p c = true → c.isDigit = false) :
    Blind p := by
  have hnone : ∀ c : Char, c.isDigit = true → p c = false := by
    intro c hc
    rw [Bool.eq_false_iff]
    intro hp
    exact Bool.false_ne_true ((h c hp).symm.trans hc)
  exact blind_of_digits fun c hc _ => (hnone c hc).trans (hnone '1' (by decide)).symm

theorem blind_beq {d : Char} (h : d.isDigit = false) : Blind (· == d) := by
  apply blind_of_notDigit
  intro c hc
  rw [beq_iff_eq.mp hc, h]

theorem blind_zero : Blind (· == '0') := by
  apply blind_of_digits
  intro c _ hc
  rw [beq_eq_false_iff_ne.mpr hc]
  rfl

theorem blind_isDigit : Blind Char.isDigit := blind_of_digits fun _ hc _ => hc

theorem Blind.or {p q : Char → Bool} (hp : Blind p) (hq : Blind q) :
    Blind fun c => p c || q c := by
  intro c
  show (p (oneDigit c) || q (oneDigit c)) = (p c || q c)
  rw [hp c, hq c]

theorem blind_isHexdigit : Blind isHexdigit := by
  apply blind_of_digits
  intro c hc _
  rw [isHexdigit, hc]
  rfl

theorem blind_isSign : Blind isSign := (blind_beq (by decide)).or (blind_beq (by decide))

theorem blind_isWhitespace : Blind isWhitespace := by
  apply blind_of_notDigit
  intro c hc
  rw [Bool.eq_false_iff]
  intro hdigit
  have hnot := not_isWhitespace_of_isAlphanum (isAlphanum_of_isDigit hdigit)
  exact Bool.false_ne_true (hnot.symm.trans hc)

theorem peeks_oneDigit {p : Char → Bool} (h : Blind p) (text : List Char) :
    peeks p (text.map oneDigit) = peeks p text := by
  cases text with
  | nil => rfl
  | cons c text => exact h c

theorem dropWhile_oneDigit {p : Char → Bool} (h : Blind p) (text : List Char) :
    (text.map oneDigit).dropWhile p = (text.dropWhile p).map oneDigit := by
  rw [List.dropWhile_map, show p ∘ oneDigit = p from funext h]

theorem beq_oneDigit {d : Char} (h : d.isDigit = false) (c : Char) : oneDigit c = d ↔ c = d := by
  have hsame : (oneDigit c == d) = (c == d) := blind_beq h c
  rw [← beq_iff_eq, hsame, beq_iff_eq]

theorem afterQuoted_oneDigit (escaped : Bool) (text : List Char) :
    afterQuoted escaped (text.map oneDigit) = (afterQuoted escaped text).map oneDigit := by
  fun_induction afterQuoted escaped text with
  | case1 => rw [List.map_nil, afterQuoted]
  | case2 c text ih => exact ih
  | case3 text ih =>
      rw [List.map_cons, show oneDigit '\\' = '\\' from by decide, afterQuoted_slash]
      exact ih
  | case4 => decide
  | case5 text _ ih => exact ih
  | case6 d text hd _ =>
      rw [List.map_cons, List.map_cons, show oneDigit '\'' = '\'' from by decide]
      apply afterQuoted_closed
      rw [List.head?_cons]
      intro hhead
      exact hd ((beq_oneDigit (by decide) d).mp (Option.some.inj hhead))
  | case7 c text hslash hquote ih =>
      rw [List.map_cons, afterQuoted_plain (mt (beq_oneDigit (by decide) c).mp hslash)
        (mt (beq_oneDigit (by decide) c).mp hquote)]
      exact ih

theorem exponentNext_oneDigit (text : List Char) :
    exponentNext (text.map oneDigit) = exponentNext text := by
  rw [exponentNext, exponentNext, ← List.map_tail, peeks_oneDigit blind_isDigit,
    peeks_oneDigit blind_isSign, peeks_oneDigit blind_isDigit]

theorem consumeNumberTail_oneDigit (hexPrefix : Bool) (text : List Char) :
    consumeNumberTail hexPrefix (text.map oneDigit) =
      (consumeNumberTail hexPrefix text).map oneDigit := by
  have hx : Blind fun c => c == 'x' || c == 'X' :=
    (blind_beq (by decide)).or (blind_beq (by decide))
  have he : Blind fun c => c == 'e' || c == 'E' :=
    (blind_beq (by decide)).or (blind_beq (by decide))
  have hdot : Blind fun c => c.isDigit || c == '.' := blind_isDigit.or (blind_beq (by decide))
  simp only [consumeNumberTail, dropWhile_oneDigit hdot, ← List.map_tail, peeks_oneDigit hx,
    peeks_oneDigit he, peeks_oneDigit blind_isSign, exponentNext_oneDigit]
  split_ifs
  · exact dropWhile_oneDigit blind_isHexdigit _
  · exact dropWhile_oneDigit blind_isDigit _
  · exact dropWhile_oneDigit blind_isDigit _
  · rfl

def onesLoop (s : Loop) : Loop := ⟨s.out, s.rest.map oneDigit⟩

theorem step_onesLoop (s : Loop) : (onesLoop s).step = onesLoop s.step := by
  obtain ⟨out, rest⟩ := s
  cases rest with
  | nil => rfl
  | cons c rest =>
      have hnext : peeks Char.isDigit (rest.map oneDigit) = peeks Char.isDigit rest :=
        peeks_oneDigit blind_isDigit rest
      show Loop.step ⟨out, oneDigit c :: rest.map oneDigit⟩ = onesLoop (Loop.step ⟨out, c :: rest⟩)
      simp only [Loop.step, beq_oneDigit (d := '\'') (by decide), blind_isDigit c, blind_zero c,
        blind_isSign c, blind_isWhitespace c, hnext, ← List.map_tail, afterQuoted_oneDigit,
        consumeNumberTail_oneDigit, dropWhile_oneDigit blind_isWhitespace]
      split_ifs with _ hdigit
      · rfl
      · rfl
      · rfl
      · rfl
      · rfl
      · rw [oneDigit_of_not_isDigit (Bool.eq_false_iff.mpr hdigit)]
        rfl

theorem normalizeSql_oneDigit (sql : List Char) :
    normalizeSql (sql.map oneDigit) = normalizeSql sql := by
  have hsemi : Function.Semiconj onesLoop Loop.step Loop.step := fun s => (step_onesLoop s).symm
  have hrun := (hsemi.iterate_right sql.length).eq ⟨[], sql⟩
  have hlen : (sql.map oneDigit).length = sql.length := List.length_map _
  show (Loop.step^[(sql.map oneDigit).length] ⟨[], sql.map oneDigit⟩).out = _
  rw [hlen]
  show (Loop.step^[sql.length] (onesLoop ⟨[], sql⟩)).out = _
  rw [← hrun]
  rfl

/-- Wherever a digit that is not a zero stands, another one in its place is not told apart. -/
theorem normalizeSql_digit (p q : List Char) {d d' : Char} (hd : d.isDigit = true) (hd0 : d ≠ '0')
    (hd' : d'.isDigit = true) (hd0' : d' ≠ '0') :
    normalizeSql (p ++ d :: q) = normalizeSql (p ++ d' :: q) := by
  have hone : ∀ {c : Char}, c.isDigit = true → c ≠ '0' → oneDigit c = '1' := by
    intro c hc hc0
    rw [oneDigit, hc, Bool.true_and, if_pos (bne_iff_ne.mpr hc0)]
  rw [← normalizeSql_oneDigit, ← normalizeSql_oneDigit (p ++ d' :: q), List.map_append,
    List.map_append, List.map_cons, List.map_cons, hone hd hd0, hone hd' hd0']

end Dbmaster.QueryStats.Digits
