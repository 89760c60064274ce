import Dbmaster.QueryStats.Pieces
/-!
# Strides of the normaliser

Where the normaliser delimits the literals as the engine does, each step of its loop takes
a number of pieces of the statement, and what it writes says nothing of the literals.
-/

namespace Dbmaster.QueryStats.Strides

open Dbmaster.Lib Dbmaster.Lib.Text Dbmaster.QueryStats.Normalize Dbmaster.QueryStats.Pieces

/-! ## Numbers that are read -/

/-- What is left after an exponent, if there is one. -/
def afterExponent (text : List Char) : List Char :=
  if peeks isE text && exponentNext text.tail then
    (if peeks isSign text.tail then text.tail.tail else text.tail).dropWhile Char.isDigit
  else text

theorem consumeNumberTail_hex {text : List Char} (h : peeks isX text = true) :
    consumeNumberTail true text = text.tail.dropWhile isHexdigit := by
  have hpeeks : (true && peeks (fun c => c == 'x' || c == 'X') text) = true := h
  rw [consumeNumberTail, if_pos hpeeks]

theorem consumeNumberTail_decimal {hexPrefix : Bool} {text : List Char}
    (h : (hexPrefix && peeks isX text) = false) :
    consumeNumberTail hexPrefix text = afterExponent (text.dropWhile isDigitOrDot) := by
  have hpeeks : ¬ (hexPrefix && peeks (fun c => c == 'x' || c == 'X') text) = true := by
    rw [Bool.not_eq_true]
    exact h
  rw [consumeNumberTail, if_neg hpeeks]
  rfl

theorem dropWhile_append_stop {p : Char → Bool} {text tail : List Char}
    (h : peeks p tail = false) : (text ++ tail).dropWhile p = text.dropWhile p ++ tail := by
  cases tail with
  | nil => rw [List.append_nil, List.append_nil]
  | cons c tail => exact dropWhile_append_cons h text tail

theorem dropWhile_digits {text : List Char} (h : text.all Char.isDigit = true)
    {tail : List Char} (htail : peeks Char.isDigit tail = false) :
    (text ++ tail).dropWhile Char.isDigit = tail := by
  rw [dropWhile_append_stop htail, List.dropWhile_eq_nil_iff.mpr fun c hc =>
    List.all_eq_true.mp h c hc, List.nil_append]

theorem peeks_false_of_imp {p q : Char → Bool} (himp : ∀ c, q c = true → p c = true)
    {text : List Char} (h : peeks p text = false) : peeks q text = false := by
  cases text with
  | nil => rfl
  | cons c text =>
      rw [Bool.eq_false_iff]
      intro hq
      exact Bool.false_ne_true (h.symm.trans (himp c hq))

/-- A character that would be part of a word or of a number. -/
def runsOn (c : Char) : Bool := c.isAlphanum || c == '.'

theorem dropWhile_of_dropWhile {p q : Char → Bool} (himp : ∀ c, q c = true → p c = true)
    (text : List Char) : text.dropWhile p = (text.dropWhile q).dropWhile p := by
  induction text with
  | nil => rfl
  | cons c text ih =>
      by_cases hq : q c = true
      · rw [List.dropWhile_cons_of_pos hq, List.dropWhile_cons_of_pos (himp c hq), ih]
      · rw [List.dropWhile_cons_of_neg hq]

theorem isDigitOrDot_of_isDigit (c : Char) (h : c.isDigit = true) : isDigitOrDot c = true := by
  rw [isDigitOrDot, h, Bool.true_or]

theorem eq_of_isX {c : Char} (h : isX c = true) : c = 'x' ∨ c = 'X' := by
  simpa [isX] using h

theorem eq_of_isE {c : Char} (h : isE c = true) : c = 'e' ∨ c = 'E' := by
  simpa [isE] using h

theorem eq_of_isSign {c : Char} (h : isSign c = true) : c = '+' ∨ c = '-' := by
  simpa [isSign] using h

theorem ne_of_test {p : Char → Bool} {c d : Char} (hc : p c = true) (hd : p d = false) : c ≠ d := by
  rintro rfl
  exact Bool.false_ne_true (hd.symm.trans hc)

theorem isE_of_isExponent {e : Char} {text : List Char} (h : isExponent (e :: text) = true) :
    isE e = true := by
  cases text with
  | nil => cases h
  | cons s digits =>
      rw [isExponent, Bool.and_eq_true] at h
      exact h.1

theorem dropWhile_of_isExponent {text : List Char} (h : isExponent text = true) :
    text.dropWhile isDigitOrDot = text := by
  cases text with
  | nil => rfl
  | cons e text =>
      have he : isDigitOrDot e = false := by
        rcases eq_of_isE (isE_of_isExponent h) with rfl | rfl <;> decide
      rw [List.dropWhile_cons_of_neg (by simp [he])]

/-- The digits and the fraction of a number are passed at once. -/
theorem dropWhile_fraction {text : List Char}
    (h : isExponent (afterFraction (text.dropWhile Char.isDigit)) = true) :
    text.dropWhile isDigitOrDot = afterFraction (text.dropWhile Char.isDigit) := by
  rw [dropWhile_of_dropWhile isDigitOrDot_of_isDigit text]
  generalize text.dropWhile Char.isDigit = rest at h
  unfold afterFraction at h ⊢
  split at h
  · rename_i text
    rw [List.dropWhile_cons_of_pos (by decide), dropWhile_of_dropWhile isDigitOrDot_of_isDigit]
    exact dropWhile_of_isExponent h
  · exact dropWhile_of_isExponent h

theorem isAlphanum_of_isDigit {c : Char} (h : c.isDigit = true) : c.isAlphanum = true := by
  rw [Char.isAlphanum, h, Bool.or_true]

theorem isAlphanum_of_isHexdigit {c : Char} (h : isHexdigit c = true) : c.isAlphanum = true := by
  simp only [isHexdigit, Bool.or_eq_true, Bool.and_eq_true, decide_eq_true_eq] at h
  rcases h with (hdigit | ⟨hlow, hhigh⟩) | ⟨hlow, hhigh⟩
  · exact isAlphanum_of_isDigit hdigit
  · have hz : c.val ≤ 'z'.val := UInt32.le_trans hhigh (by decide)
    have hlower : c.isLower = true :=
      Bool.and_eq_true_iff.mpr ⟨decide_eq_true hlow, decide_eq_true hz⟩
    show (c.isUpper || c.isLower || c.isDigit) = true
    rw [hlower, Bool.or_true, Bool.true_or]
  · have hz : c.val ≤ 'Z'.val := UInt32.le_trans hhigh (by decide)
    have hupper : c.isUpper = true := decide_eq_true ⟨hlow, hz⟩
    show (c.isUpper || c.isLower || c.isDigit) = true
    rw [hupper, Bool.true_or, Bool.true_or]

theorem runsOn_of_isX (c : Char) (h : isX c = true) : runsOn c = true := by
  rcases eq_of_isX h with rfl | rfl <;> decide

theorem runsOn_of_isE (c : Char) (h : isE c = true) : runsOn c = true := by
  rcases eq_of_isE h with rfl | rfl <;> decide

theorem afterExponent_of_isExponent {text tail : List Char} (h : isExponent text = true)
    (htail : peeks runsOn tail = false) : afterExponent (text ++ tail) = tail := by
  have hdigit : peeks Char.isDigit tail = false := by
    apply peeks_false_of_imp _ htail
    intro c hc
    rw [runsOn, isAlphanum_of_isDigit hc, Bool.true_or]
  match text, h with
  | [], _ =>
      have he : peeks isE tail = false := peeks_false_of_imp runsOn_of_isE htail
      rw [List.nil_append, afterExponent, he, Bool.false_and, if_neg Bool.false_ne_true]
  | e :: s :: digits, h =>
      rw [isExponent, Bool.and_eq_true] at h
      obtain ⟨he, hdigits⟩ := h
      have hpeek : peeks isE (e :: s :: digits ++ tail) = true := he
      rw [afterExponent, hpeek, Bool.true_and, List.cons_append, List.tail_cons, List.cons_append]
      by_cases hs : isSign s = true
      · rw [if_pos hs, Bool.and_eq_true] at hdigits
        obtain ⟨hne, hall⟩ := hdigits
        have hsign : peeks isSign (s :: (digits ++ tail)) = true := hs
        have hnext : exponentNext (s :: (digits ++ tail)) = true := by
          cases digits with
          | nil => cases hne
          | cons d digits =>
              rw [List.all_cons, Bool.and_eq_true] at hall
              have hd : peeks Char.isDigit (d :: digits ++ tail) = true := hall.1
              rw [exponentNext, hsign, List.tail_cons, hd, Bool.and_self, Bool.or_true]
        rw [if_pos hnext, if_pos hsign]
        exact dropWhile_digits hall hdigit
      · rw [if_neg hs, Bool.and_eq_true] at hdigits
        obtain ⟨hd, hall⟩ := hdigits
        have hnosign : ¬ peeks isSign (s :: (digits ++ tail)) = true := hs
        have hpeeks : peeks Char.isDigit (s :: (digits ++ tail)) = true := hd
        have hnext : exponentNext (s :: (digits ++ tail)) = true := by
          rw [exponentNext, hpeeks, Bool.true_or]
        have hall' : (s :: digits).all Char.isDigit = true := by
          rw [List.all_cons, hd, hall, Bool.and_self]
        rw [if_pos hnext, if_neg hnosign]
        exact dropWhile_digits hall' hdigit

/-- A number is read up to its end. -/
theorem consumeNumberTail_digits {hexPrefix : Bool} {text tail : List Char}
    (htail : peeks runsOn tail = false)
    (h : isExponent (afterFraction (text.dropWhile Char.isDigit)) = true) :
    consumeNumberTail hexPrefix (text ++ tail) = tail := by
  have hdot : peeks isDigitOrDot tail = false := by
    apply peeks_false_of_imp _ htail
    intro c hc
    rw [isDigitOrDot, Bool.or_eq_true] at hc
    rcases hc with hdigit | hdot
    · rw [runsOn, isAlphanum_of_isDigit hdigit, Bool.true_or]
    · rw [runsOn, hdot, Bool.or_true]
  have hx : peeks isX (text ++ tail) = false := by
    cases text with
    | nil => exact peeks_false_of_imp runsOn_of_isX htail
    | cons x text =>
        rw [Bool.eq_false_iff]
        intro hx
        rcases eq_of_isX (show isX x = true from hx) with rfl | rfl
        · exact absurd (isE_of_isExponent h) (by decide)
        · exact absurd (isE_of_isExponent h) (by decide)
  rw [consumeNumberTail_decimal (by rw [hx, Bool.and_false]), dropWhile_append_stop hdot,
    dropWhile_fraction h]
  exact afterExponent_of_isExponent h htail

theorem isDigit_of_isNumber {d : Char} {text : List Char} (h : isNumber (d :: text) = true) :
    d.isDigit = true := by
  rw [isNumber, Bool.or_eq_true] at h
  rcases h with hhex | hdecimal
  · cases text with
    | nil => cases hhex
    | cons x digits =>
        simp only [isHex, Bool.and_eq_true, beq_iff_eq] at hhex
        rw [hhex.1.1.1]
        decide
  · rw [isDecimal, Bool.and_eq_true] at hdecimal
    exact hdecimal.1

theorem isExponent_of_isDecimal {d : Char} {text : List Char} (h : isDecimal (d :: text) = true) :
    isExponent (afterFraction (text.dropWhile Char.isDigit)) = true := by
  rw [isDecimal, Bool.and_eq_true] at h
  obtain ⟨hd, hrest⟩ := h
  have hdigit : d.isDigit = true := hd
  rw [List.dropWhile_cons_of_pos hdigit] at hrest
  exact hrest

/-- A literal is read up to its end. -/
theorem consumeNumberTail_number {d : Char} {text tail : List Char}
    (h : isNumber (d :: text) = true) (htail : peeks runsOn tail = false) :
    consumeNumberTail (d == '0') (text ++ tail) = tail := by
  rw [isNumber, Bool.or_eq_true] at h
  rcases h with hhex | hdecimal
  · cases text with
    | nil => cases hhex
    | cons x digits =>
        simp only [isHex, Bool.and_eq_true] at hhex
        obtain ⟨⟨⟨hd, hx⟩, _⟩, hall⟩ := hhex
        have hstop : peeks isHexdigit tail = false := by
          apply peeks_false_of_imp _ htail
          intro c hc
          rw [runsOn, isAlphanum_of_isHexdigit hc, Bool.true_or]
        have hpeek : peeks isX (x :: digits ++ tail) = true := hx
        have hdigits : digits.dropWhile isHexdigit = [] :=
          List.dropWhile_eq_nil_iff.mpr (List.all_eq_true.mp hall)
        rw [hd, consumeNumberTail_hex hpeek, List.cons_append, List.tail_cons,
          dropWhile_append_stop hstop, hdigits, List.nil_append]
  · exact consumeNumberTail_digits htail (isExponent_of_isDecimal hdecimal)

/-- After a sign, a decimal literal is read up to its end. -/
theorem consumeNumberTail_signed {d : Char} {text tail : List Char}
    (h : isNumber (d :: text) = true) (hhex : isHex (d :: text) = false)
    (htail : peeks runsOn tail = false) : consumeNumberTail false (text ++ tail) = tail := by
  rw [isNumber, hhex, Bool.false_or] at h
  exact consumeNumberTail_digits htail (isExponent_of_isDecimal h)

/-! ## What is passed of a number -/

theorem inNumber_of_isDigit (c : Char) (h : c.isDigit = true) : inNumber c = true := by
  rw [inNumber, isHexdigit, h]
  rfl

theorem inNumber_of_isSign {c : Char} (h : isSign c = true) : inNumber c = true := by
  rw [inNumber, h, Bool.or_true]

theorem exists_dropWhile {p : Char → Bool} (hp : ∀ c, p c = true → inNumber c = true)
    (text : List Char) :
    ∃ front, text = front ++ text.dropWhile p ∧ ∀ c ∈ front, inNumber c = true := by
  refine ⟨text.takeWhile p, List.takeWhile_append_dropWhile.symm, fun c hc => ?_⟩
  exact hp c (List.mem_takeWhile_imp hc)

theorem exists_afterExponent (text : List Char) :
    ∃ front, text = front ++ afterExponent text ∧ ∀ c ∈ front, inNumber c = true := by
  rw [afterExponent]
  split_ifs with hexponent hsign
  · rw [Bool.and_eq_true] at hexponent
    match text, hexponent.1, hsign with
    | e :: s :: digits, he, hs =>
        obtain ⟨front, hfront, hall⟩ := exists_dropWhile inNumber_of_isDigit digits
        refine ⟨e :: s :: front, congrArg (fun t => e :: s :: t) hfront, ?_⟩
        intro c hc
        rw [List.mem_cons, List.mem_cons] at hc
        rcases hc with rfl | rfl | hc
        · rcases eq_of_isE he with rfl | rfl <;> decide
        · exact inNumber_of_isSign hs
        · exact hall c hc
  · rw [Bool.and_eq_true] at hexponent
    match text, hexponent.1 with
    | e :: digits, he =>
        obtain ⟨front, hfront, hall⟩ := exists_dropWhile inNumber_of_isDigit digits
        refine ⟨e :: front, congrArg (List.cons e) hfront, ?_⟩
        intro c hc
        rcases List.mem_cons.mp hc with rfl | hc
        · rcases eq_of_isE he with rfl | rfl <;> decide
        · exact hall c hc
  · exact ⟨[], rfl, fun c hc => absurd hc List.not_mem_nil⟩

/-- What is passed of a number has no other characters. -/
theorem exists_consumeNumberTail (hexPrefix : Bool) (text : List Char) :
    ∃ front, text = front ++ consumeNumberTail hexPrefix text ∧
      ∀ c ∈ front, inNumber c = true := by
  cases hprefix : hexPrefix && peeks isX text with
  | true =>
      obtain ⟨rfl, hx⟩ := Bool.and_eq_true_iff.mp hprefix
      rw [consumeNumberTail_hex hx]
      match text, hx with
      | x :: digits, hx =>
          have hhex : ∀ c, isHexdigit c = true → inNumber c = true := by
            intro c hc
            rw [inNumber, hc]
            rfl
          obtain ⟨front, hfront, hall⟩ := exists_dropWhile hhex digits
          refine ⟨x :: front, congrArg (List.cons x) hfront, ?_⟩
          intro c hc
          rcases List.mem_cons.mp hc with rfl | hc
          · rcases eq_of_isX hx with rfl | rfl <;> decide
          · exact hall c hc
  | false =>
      have hdot : ∀ c, isDigitOrDot c = true → inNumber c = true := by
        intro c hc
        rw [isDigitOrDot, Bool.or_eq_true] at hc
        rcases hc with hdigit | hdot
        · exact inNumber_of_isDigit c hdigit
        · rw [beq_iff_eq.mp hdot]
          decide
      rw [consumeNumberTail_decimal hprefix]
      obtain ⟨front, hfront, hall⟩ := exists_dropWhile hdot text
      obtain ⟨front', hfront', hall'⟩ := exists_afterExponent (text.dropWhile isDigitOrDot)
      refine ⟨front ++ front', ?_, ?_⟩
      · rw [List.append_assoc, ← hfront']
        exact hfront
      · intro c hc
        rcases List.mem_append.mp hc with hc | hc
        · exact hall c hc
        · exact hall' c hc

/-! ## Digits before a literal -/

theorem dropWhile_append_of_ne_nil {p : Char → Bool} {text : List Char}
    (h : text.dropWhile p ≠ []) (tail : List Char) :
    (text ++ tail).dropWhile p = text.dropWhile p ++ tail := by
  rw [List.dropWhile_append, if_neg (by simpa using h)]

theorem dropWhile_ne_nil_of_last {p : Char → Bool} {text : List Char} (hne : text ≠ [])
    (h : ∀ z, text.getLast? = some z → p z = false) : text.dropWhile p ≠ [] := by
  intro hnil
  have hlast := List.getLast?_eq_some_getLast hne
  have hz := List.dropWhile_eq_nil_iff.mp hnil _ (List.getLast_mem hne)
  exact Bool.false_ne_true ((h _ hlast).symm.trans hz)

theorem getLast_of_suffix {text part : List Char} {z : Char} (h : part <:+ text)
    (hz : part.getLast? = some z) : text.getLast? = some z := by
  obtain ⟨front, rfl⟩ := h
  rw [List.getLast?_append, hz]
  rfl

theorem dropWhile_append_of_last {p : Char → Bool} (himp : ∀ c, p c = true → c.isAlphanum = true)
    {text : List Char} (hne : text ≠ [])
    (hlast : ∀ z, text.getLast? = some z → z.isAlphanum = false) (tail : List Char) :
    (text ++ tail).dropWhile p = text.dropWhile p ++ tail := by
  apply dropWhile_append_of_ne_nil
  apply dropWhile_ne_nil_of_last hne
  intro z hz
  rw [Bool.eq_false_iff]
  intro hp
  exact Bool.false_ne_true ((hlast z hz).symm.trans (himp z hp))

theorem afterExponent_append {text tail : List Char} (hne : text ≠ [])
    (hexponent : ∀ e s, text = [e, s] → (isE e && isSign s) = false)
    (hlast : ∀ z, text.getLast? = some z → z.isAlphanum = false) :
    afterExponent (text ++ tail) = afterExponent text ++ tail := by
  have hletter : ∀ z, text.getLast? = some z → isE z = false ∧ z.isDigit = false := by
    intro z hz
    constructor
    · rw [Bool.eq_false_iff]
      intro he
      rcases eq_of_isE he with rfl | rfl <;> exact absurd (hlast _ hz) (by decide)
    · rw [Bool.eq_false_iff]
      intro hd
      exact Bool.false_ne_true ((hlast z hz).symm.trans (isAlphanum_of_isDigit hd))
  match text, hne with
  | [e], _ =>
      have he : isE e = false := (hletter e rfl).1
      simp only [afterExponent, peeks, List.cons_append, List.head?_cons, Option.any_some, he,
        Bool.false_and, Bool.false_eq_true, if_false]
  | [e, s], _ =>
      have hs : s.isDigit = false := (hletter s rfl).2
      have hnone : ∀ tail, (isE e && exponentNext (s :: tail)) = false := by
        intro tail
        have hnext : exponentNext (s :: tail) = (isSign s && peeks Char.isDigit tail) := by
          show (s.isDigit || (isSign s && peeks Char.isDigit tail)) = _
          rw [hs, Bool.false_or]
        rw [hnext, ← Bool.and_assoc, hexponent e s rfl, Bool.false_and]
      have hkeep : ∀ tail, afterExponent (e :: s :: tail) = e :: s :: tail := by
        intro tail
        have hpeeks : (peeks isE (e :: s :: tail) && exponentNext (s :: tail)) = false := hnone tail
        rw [afterExponent, List.tail_cons, hpeeks, if_neg Bool.false_ne_true]
      rw [hkeep]
      exact hkeep tail
  | e :: s :: d :: text, _ =>
      have hvalid : (peeks isE (e :: s :: d :: text ++ tail) &&
          exponentNext (e :: s :: d :: text ++ tail).tail) =
          (peeks isE (e :: s :: d :: text) && exponentNext (e :: s :: d :: text).tail) := rfl
      have hsign : peeks isSign (e :: s :: d :: text ++ tail).tail =
          peeks isSign (e :: s :: d :: text).tail := rfl
      rw [afterExponent, afterExponent, hvalid, hsign]
      split_ifs
      · apply dropWhile_append_of_last (fun c => isAlphanum_of_isDigit) (List.cons_ne_nil d text)
        exact fun z hz => hlast z hz
      · apply dropWhile_append_of_last (fun c => isAlphanum_of_isDigit) (List.cons_ne_nil s _)
        exact fun z hz => hlast z hz
      · rfl

/-- What stands before a literal decides where a number in it ends, unless the number runs to
the end of it. -/
theorem consumeNumberTail_before {hexPrefix : Bool} {text : List Char} (tail : List Char)
    (hlast : ∀ z, text.getLast? = some z → z.isAlphanum = false)
    (hrun : text.dropWhile isDigitOrDot ≠ [])
    (hexponent : ∀ e s, text.dropWhile isDigitOrDot = [e, s] → (isE e && isSign s) = false) :
    consumeNumberTail hexPrefix (text ++ tail) = consumeNumberTail hexPrefix text ++ tail := by
  cases hprefix : hexPrefix && peeks isX text with
  | true =>
      obtain ⟨rfl, hx⟩ := Bool.and_eq_true_iff.mp hprefix
      cases text with
      | nil => exact absurd rfl hrun
      | cons x digits =>
          have hne : digits ≠ [] := by
            rintro rfl
            have halnum := hlast x rfl
            rcases eq_of_isX (show isX x = true from hx) with rfl | rfl
            · exact absurd halnum (by decide)
            · exact absurd halnum (by decide)
          have hpeek : peeks isX (x :: digits ++ tail) = true := hx
          rw [consumeNumberTail_hex hpeek, consumeNumberTail_hex hx]
          apply dropWhile_append_of_last (fun c hc => isAlphanum_of_isHexdigit hc) hne
          exact fun z hz => hlast z (getLast_of_suffix (List.suffix_cons x digits) hz)
  | false =>
      have hsuffix : text.dropWhile isDigitOrDot <:+ text := List.dropWhile_suffix _
      have hprefix' : (hexPrefix && peeks isX (text ++ tail)) = false := by
        cases text with
        | nil => exact absurd rfl hrun
        | cons x digits => exact hprefix
      rw [consumeNumberTail_decimal hprefix', consumeNumberTail_decimal hprefix,
        dropWhile_append_of_ne_nil hrun]
      apply afterExponent_append hrun hexponent
      · exact fun z hz => hlast z (getLast_of_suffix hsuffix hz)

/-! ## Characters at the start -/

/-- The characters before the first piece of another kind. -/
def charsOf : List Piece → List Char
  | .char c :: ps => c :: charsOf ps
  | _ => []

theorem eq_charsOf_append (ps : List Piece) :
    ps = (charsOf ps).map .char ++ ps.drop (charsOf ps).length := by
  induction ps with
  | nil => rfl
  | cons p ps ih =>
      cases p with
      | char c =>
          rw [charsOf, List.map_cons, List.cons_append, List.length_cons, List.drop_succ_cons]
          exact congrArg (List.cons (Piece.char c)) ih
      | blank | string | number => rfl

theorem head_drop_charsOf (ps : List Piece) (c : Char) (qs : List Piece) :
    ps.drop (charsOf ps).length ≠ .char c :: qs := by
  induction ps with
  | nil => exact fun h => List.noConfusion rfl (heq_of_eq h)
  | cons p ps ih =>
      cases p with
      | char d => exact ih
      | blank | string | number =>
          intro h
          injection h with hp
          injection hp

theorem render_drop {ps : List Piece} {n : Nat} (h : n ≤ (charsOf ps).length) :
    render (ps.drop n) = (charsOf ps).drop n ++ render (ps.drop (charsOf ps).length) := by
  have hsplit := eq_charsOf_append ps
  conv_lhs => rw [hsplit]
  rw [List.drop_append_of_le_length (by rwa [List.length_map]), render_append, ← List.map_drop,
    render_chars]

theorem dropWhile_chars (p : Char → Bool) (text : List Char) (qs : List Piece) :
    (text.map Piece.char ++ qs).dropWhile (Piece.isChar p) =
      if text.dropWhile p = [] then qs.dropWhile (Piece.isChar p)
      else (text.dropWhile p).map .char ++ qs := by
  induction text with
  | nil => rfl
  | cons c text ih =>
      by_cases hc : p c = true
      · have hpiece : Piece.isChar p (.char c) = true := hc
        rw [List.map_cons, List.cons_append, List.dropWhile_cons_of_pos hpiece,
          List.dropWhile_cons_of_pos hc, ih]
      · have hpiece : ¬ Piece.isChar p (.char c) = true := hc
        rw [List.map_cons, List.cons_append, List.dropWhile_cons_of_neg hpiece,
          List.dropWhile_cons_of_neg hc, if_neg (List.cons_ne_nil _ _)]
        rfl

theorem last_before_number {text : List Char} {n : List Char} {qs : List Piece}
    (h : delimited (text.map .char ++ .number n :: qs) = true) :
    ∀ z, text.getLast? = some z → z.isAlphanum = false := by
  induction text with
  | nil => exact fun z hz => nomatch hz
  | cons c text ih =>
      rw [List.map_cons, List.cons_append] at h
      simp only [delimited, Bool.and_eq_true, Bool.not_eq_true'] at h
      obtain ⟨⟨⟨_, halnum⟩, _⟩, hrest⟩ := h
      intro z hz
      cases text with
      | nil =>
          have hsame : c = z := Option.some.inj hz
          rw [← hsame, ← Bool.and_true c.isAlphanum]
          exact halnum
      | cons d text => exact ih hrest z hz

theorem inNumber_of_isWhitespace {c : Char} (h : isWhitespace c = true) : inNumber c = false := by
  rw [Bool.eq_false_iff]
  intro hin
  simp only [inNumber, isSign, Bool.or_eq_true, beq_iff_eq] at hin
  rcases hin with (((hhex | rfl) | rfl) | rfl) | rfl | rfl
  · have hnot := not_isWhitespace_of_isAlphanum (isAlphanum_of_isHexdigit hhex)
    exact Bool.false_ne_true (hnot.symm.trans h)
  all_goals exact absurd h (by decide)

/-- A numeric literal begins with a digit. -/
theorem exists_of_number {text : List Char} {ps : List Piece}
    (h : sound (.number text :: ps) = true) :
    ∃ d rest, text = d :: rest ∧ isNumber (d :: rest) = true ∧ d.isDigit = true := by
  rw [sound, Bool.and_eq_true] at h
  cases text with
  | nil => cases h.1
  | cons d rest => exact ⟨d, rest, rfl, h.1, isDigit_of_isNumber h.1⟩

theorem exists_of_blank {text : List Char} {ps : List Piece}
    (h : sound (.blank text :: ps) = true) :
    ∃ w rest, text = w :: rest ∧ isWhitespace w = true := by
  simp only [sound, Bool.and_eq_true] at h
  cases text with
  | nil => cases h.1.1
  | cons w rest =>
      rw [List.all_cons, Bool.and_eq_true] at h
      exact ⟨w, rest, rfl, h.1.2.1⟩

/-- Where a number that starts before the pieces ends. -/
def numberStride (hexPrefix : Bool) (ps : List Piece) : Nat :=
  (charsOf ps).length - (consumeNumberTail hexPrefix (charsOf ps)).length

/-- A number that starts before the pieces ends in the characters at their start. -/
theorem consumeNumberTail_chars (hexPrefix : Bool) {text : List Char} {qs : List Piece}
    (hqs : ∀ c rest, qs ≠ .char c :: rest) (hsound : sound qs = true)
    (hdelimited : delimited (text.map .char ++ qs) = true)
    (hruns : runsInto (text.map .char ++ qs) = false) :
    consumeNumberTail hexPrefix (text ++ render qs) =
      consumeNumberTail hexPrefix text ++ render qs := by
  cases qs with
  | nil => rw [show render [] = [] from rfl, List.append_nil, List.append_nil]
  | cons q qs =>
      cases q with
      | char c => exact absurd rfl (hqs c qs)
      | blank blanks =>
          obtain ⟨w, rest, rfl, hw⟩ := exists_of_blank hsound
          exact consumeNumberTail_append (inNumber_of_isWhitespace hw) hexPrefix text _
      | string body => exact consumeNumberTail_append (by decide) hexPrefix text _
      | number n =>
          have hdrop := dropWhile_chars isDigitOrDot text (.number n :: qs)
          apply consumeNumberTail_before _ (last_before_number hdelimited)
          · intro hnil
            rw [if_pos hnil] at hdrop
            rw [runsInto, hdrop] at hruns
            cases hruns
          · intro e s hes
            rw [if_neg (by rw [hes]; exact List.cons_ne_nil _ _), hes] at hdrop
            rw [runsInto, hdrop] at hruns
            exact hruns

theorem sound_append {ps qs : List Piece} (h : sound (ps ++ qs) = true) : sound qs = true := by
  induction ps with
  | nil => exact h
  | cons p ps ih =>
      apply ih
      cases p with
      | char c => exact h
      | blank | string | number =>
          simp only [List.cons_append, sound, Bool.and_eq_true] at h
          exact h.2

theorem delimited_append {ps qs : List Piece} (h : delimited (ps ++ qs) = true) :
    delimited qs = true := by
  induction ps with
  | nil => exact h
  | cons p ps ih =>
      apply ih
      cases p with
      | blank => exact h
      | char | string | number =>
          simp only [List.cons_append, delimited, Bool.and_eq_true] at h
          exact h.2

theorem consumeNumberTail_render {hexPrefix : Bool} {ps : List Piece} (hsound : sound ps = true)
    (hdelimited : delimited ps = true) (hruns : runsInto ps = false) :
    consumeNumberTail hexPrefix (render ps) = render (ps.drop (numberStride hexPrefix ps)) := by
  have hsplit := eq_charsOf_append ps
  have hrender : render ps = charsOf ps ++ render (ps.drop (charsOf ps).length) := by
    conv_lhs => rw [hsplit]
    rw [render_append, render_chars]
  have hstride : numberStride hexPrefix ps ≤ (charsOf ps).length := Nat.sub_le _ _
  have hdrop : (charsOf ps).drop (numberStride hexPrefix ps) =
      consumeNumberTail hexPrefix (charsOf ps) :=
    (List.suffix_iff_eq_drop.mp (consumeNumberTail_suffix hexPrefix (charsOf ps))).symm
  have hrest : sound (ps.drop (charsOf ps).length) = true := by
    rw [hsplit] at hsound
    exact sound_append hsound
  have hchars := consumeNumberTail_chars hexPrefix (head_drop_charsOf ps) hrest
    (by rw [← hsplit]; exact hdelimited) (by rw [← hsplit]; exact hruns)
  calc consumeNumberTail hexPrefix (render ps)
      = consumeNumberTail hexPrefix (charsOf ps ++ render (ps.drop (charsOf ps).length)) := by
        rw [hrender]
    _ = consumeNumberTail hexPrefix (charsOf ps) ++ render (ps.drop (charsOf ps).length) := hchars
    _ = render (ps.drop (numberStride hexPrefix ps)) := by rw [render_drop hstride, hdrop]

/-! ## A step of the loop -/

/-- How many pieces a run of blanks takes at the start. -/
def blanks : List Piece → Nat
  | .char c :: ps => if isWhitespace c then blanks ps + 1 else 0
  | .blank _ :: ps => blanks ps + 1
  | _ => 0

theorem dropWhile_render {ps : List Piece} (hsound : sound ps = true) :
    (render ps).dropWhile isWhitespace = render (ps.drop (blanks ps)) := by
  induction ps with
  | nil => rfl
  | cons p ps ih =>
      cases p with
      | char c =>
          rw [render_cons, blanks]
          by_cases hc : isWhitespace c = true
          · rw [if_pos hc, List.drop_succ_cons, ← ih hsound]
            exact List.dropWhile_cons_of_pos hc
          · rw [if_neg hc, List.drop_zero, render_cons]
            exact List.dropWhile_cons_of_neg hc
      | blank text =>
          simp only [sound, Bool.and_eq_true] at hsound
          obtain ⟨⟨_, hall⟩, hps⟩ := hsound
          have hskip : text.dropWhile isWhitespace = [] :=
            List.dropWhile_eq_nil_iff.mpr (List.all_eq_true.mp hall)
          rw [render_cons, blanks, List.drop_succ_cons, ← ih hps]
          show (text ++ render ps).dropWhile isWhitespace = _
          rw [List.dropWhile_append, hskip]
          rfl
      | string body => exact List.dropWhile_cons_of_neg (by decide)
      | number text =>
          obtain ⟨d, rest, rfl, _, hd⟩ := exists_of_number hsound
          apply List.dropWhile_cons_of_neg
          rw [not_isWhitespace_of_isAlphanum (isAlphanum_of_isDigit hd)]
          exact Bool.false_ne_true

/-- The first of the pieces is a literal or a character that begins with a digit. -/
def startsDigit : List Piece → Bool
  | .number _ :: _ => true
  | .char c :: _ => c.isDigit
  | _ => false

theorem peeks_isDigit_render {ps : List Piece} (hsound : sound ps = true) :
    peeks Char.isDigit (render ps) = startsDigit ps := by
  cases ps with
  | nil => rfl
  | cons p ps =>
      cases p with
      | char c => rfl
      | blank text =>
          obtain ⟨w, rest, rfl, hw⟩ := exists_of_blank hsound
          show w.isDigit = false
          rw [Bool.eq_false_iff]
          intro hd
          have hnot := not_isWhitespace_of_isAlphanum (isAlphanum_of_isDigit hd)
          exact Bool.false_ne_true (hnot.symm.trans hw)
      | string body => rfl
      | number text =>
          obtain ⟨d, rest, rfl, _, hd⟩ := exists_of_number hsound
          exact hd

/-- How many pieces a number takes after its sign. -/
def signedStride : List Piece → Nat
  | .char _ :: ps => numberStride false ps + 1
  | _ => 1

/-- How many pieces a step of the loop takes. -/
def stride : List Piece → Nat
  | [] => 0
  | .string _ :: _ => 1
  | .number _ :: _ => 1
  | .blank _ :: ps => blanks ps + 1
  | .char c :: ps =>
      if c.isDigit then numberStride (c == '0') ps + 1
      else if isSign c && startsDigit ps then signedStride ps + 1
      else if isWhitespace c then blanks ps + 1
      else 1

/-- What a step of the loop writes, after a text that takes a blank or not. -/
def mark (takesBlank : Bool) : List Piece → List Char
  | [] => []
  | .string _ :: _ => ['?']
  | .number _ :: _ => ['?']
  | .blank _ :: _ => if takesBlank then [' '] else []
  | .char c :: ps =>
      if c.isDigit then ['?']
      else if isSign c && startsDigit ps then ['?']
      else if isWhitespace c then (if takesBlank then [' '] else [])
      else [c]

def takesBlank (out : List Char) : Bool := !out.isEmpty && out.getLast? != some ' '

theorem step_string {body : List Char} {ps : List Piece} (out : List Char)
    (hsound : sound (.string body :: ps) = true)
    (hdelimited : delimited (.string body :: ps) = true) :
    Loop.step ⟨out, render (.string body :: ps)⟩ = ⟨out ++ ['?'], render ps⟩ := by
  rw [sound, Bool.and_eq_true, Bool.not_eq_true'] at hsound
  rw [delimited, Bool.and_eq_true] at hdelimited
  have hquote : (render ps).head? ≠ some '\'' := by
    intro hhead
    rw [peeks, hhead] at hsound
    cases hsound.1
  have hafter := afterQuoted_isBody hdelimited.1 hquote
  have htext : render (.string body :: ps) = '\'' :: (body ++ '\'' :: render ps) := by
    rw [render_cons, Piece.text, List.cons_append, List.append_assoc]
    rfl
  rw [htext, Loop.step, if_pos rfl, hafter]

theorem step_digit {c : Char} {rest : List Char} (hc : c.isDigit = true) (out : List Char) :
    Loop.step ⟨out, c :: rest⟩ = ⟨out ++ ['?'], consumeNumberTail (c == '0') rest⟩ := by
  have hquote : c ≠ '\'' := by
    rintro rfl
    cases hc
  rw [Loop.step, if_neg hquote, if_pos hc]

theorem step_number {text : List Char} {ps : List Piece} (out : List Char)
    (hsound : sound (.number text :: ps) = true)
    (hdelimited : delimited (.number text :: ps) = true) :
    Loop.step ⟨out, render (.number text :: ps)⟩ = ⟨out ++ ['?'], render ps⟩ := by
  obtain ⟨d, rest, rfl, hnumber, hd⟩ := exists_of_number hsound
  rw [delimited, Bool.and_eq_true, Bool.not_eq_true'] at hdelimited
  rw [render_cons]
  show Loop.step ⟨out, d :: (rest ++ render ps)⟩ = _
  rw [step_digit hd, consumeNumberTail_number hnumber hdelimited.1]

/-- The step at a whitespace character. -/
theorem step_whitespace {c : Char} {rest : List Char} (hc : isWhitespace c = true)
    (out : List Char) : Loop.step ⟨out, c :: rest⟩ =
      ⟨out ++ if takesBlank out then [' '] else [], rest.dropWhile isWhitespace⟩ := by
  have hquote : c ≠ '\'' := by
    rintro rfl
    exact absurd hc (by decide)
  have hnumber := inNumber_of_isWhitespace hc
  simp only [inNumber, isHexdigit, Bool.or_eq_false_iff] at hnumber
  obtain ⟨⟨⟨⟨⟨⟨hdigit, _⟩, _⟩, _⟩, _⟩, _⟩, hsign⟩ := hnumber
  rw [Loop.step, if_neg hquote, hdigit, if_neg Bool.false_ne_true, hsign, Bool.false_and,
    if_neg Bool.false_ne_true, if_pos hc, takesBlank]
  split_ifs
  · rfl
  · rw [List.append_nil]

theorem step_blank {text : List Char} {ps : List Piece} (out : List Char)
    (hsound : sound (.blank text :: ps) = true) :
    Loop.step ⟨out, render (.blank text :: ps)⟩ =
      ⟨out ++ if takesBlank out then [' '] else [], render (ps.drop (blanks ps))⟩ := by
  have hskip := dropWhile_render hsound
  obtain ⟨w, rest, rfl, hw⟩ := exists_of_blank hsound
  have htext : render (.blank (w :: rest) :: ps) = w :: (rest ++ render ps) := render_cons _ _
  rw [htext] at hskip ⊢
  rw [step_whitespace hw, ← List.dropWhile_cons_of_pos hw, hskip]
  rfl

theorem step_sign {c : Char} {rest : List Char} (hc : isSign c = true)
    (hnext : peeks Char.isDigit rest = true) (out : List Char) :
    Loop.step ⟨out, c :: rest⟩ = ⟨out ++ ['?'], consumeNumberTail false rest.tail⟩ := by
  have hother : c ≠ '\'' ∧ c.isDigit = false := by
    rcases eq_of_isSign hc with rfl | rfl <;> decide
  rw [Loop.step, if_neg hother.1, hother.2, if_neg Bool.false_ne_true, hc, hnext, Bool.and_self,
    if_pos rfl]

/-- A number after its sign. -/
theorem consumeNumberTail_afterSign {ps : List Piece} (hstarts : startsDigit ps = true)
    (hsound : sound ps = true) (hdelimited : delimited ps = true) (hhex : startsHex ps = false) :
    consumeNumberTail false (render ps).tail = render (ps.drop (signedStride ps)) := by
  match ps with
  | .char d :: ps =>
      have hd : d.isDigit = true := hstarts
      simp only [delimited, Bool.and_eq_true, Bool.not_eq_true', hd, Bool.true_and] at hdelimited
      obtain ⟨⟨⟨⟨_, hruns⟩, _⟩, _⟩, hps⟩ := hdelimited
      exact consumeNumberTail_render hsound hps hruns
  | .number text :: ps =>
      obtain ⟨d, rest, rfl, hnumber, _⟩ := exists_of_number hsound
      rw [delimited, Bool.and_eq_true, Bool.not_eq_true'] at hdelimited
      rw [render_cons]
      exact consumeNumberTail_signed hnumber hhex hdelimited.1

theorem step_pieces {ps : List Piece} (out : List Char) (hsound : sound ps = true)
    (hdelimited : delimited ps = true) :
    Loop.step ⟨out, render ps⟩ =
      ⟨out ++ mark (takesBlank out) ps, render (ps.drop (stride ps))⟩ := by
  match ps with
  | [] =>
      rw [mark, List.append_nil]
      rfl
  | .string body :: ps => exact step_string out hsound hdelimited
  | .number text :: ps => exact step_number out hsound hdelimited
  | .blank text :: ps => exact step_blank out hsound
  | .char c :: ps =>
      have hrest : sound ps = true := hsound
      simp only [delimited, Bool.and_eq_true, bne_iff_ne, Bool.not_eq_true'] at hdelimited
      obtain ⟨⟨⟨⟨hquote, hruns⟩, _⟩, hhex⟩, hps⟩ := hdelimited
      have hpeeks := peeks_isDigit_render hrest
      show Loop.step ⟨out, c :: render ps⟩ = _
      rw [mark, stride]
      by_cases hdigit : c.isDigit = true
      · rw [hdigit, Bool.true_and] at hruns
        rw [if_pos hdigit, if_pos hdigit, step_digit hdigit,
          consumeNumberTail_render hrest hps hruns]
        rfl
      · by_cases hsign : (isSign c && startsDigit ps) = true
        · rw [if_neg hdigit, if_neg hdigit, if_pos hsign, if_pos hsign]
          rw [Bool.and_eq_true] at hsign
          rw [hsign.1, Bool.true_and] at hhex
          rw [step_sign hsign.1 (hpeeks.trans hsign.2),
            consumeNumberTail_afterSign hsign.2 hrest hps hhex]
          rfl
        · rw [if_neg hdigit, if_neg hdigit, if_neg hsign, if_neg hsign]
          by_cases hwhite : isWhitespace c = true
          · rw [if_pos hwhite, if_pos hwhite, step_whitespace hwhite, dropWhile_render hrest]
            rfl
          · rw [if_neg hwhite, if_neg hwhite, Loop.step, if_neg hquote, if_neg hdigit, hpeeks,
              if_neg hsign, if_neg hwhite]
            rfl

/-! ## Normal forms by pieces -/

/-- What the loop writes for the pieces, after a text that takes a blank, where it has taken
so many of them already. -/
def form : Nat → List Piece → List Char
  | _, [] => []
  | 0, p :: ps => mark true (p :: ps) ++ form (stride (p :: ps) - 1) ps
  | n + 1, _ :: ps => form n ps

theorem form_drop (n : Nat) (ps : List Piece) : form n ps = form 0 (ps.drop n) := by
  induction ps generalizing n with
  | nil => rw [List.drop_nil, form, form]
  | cons p ps ih =>
      cases n with
      | zero => rfl
      | succ n => exact ih n

theorem stride_pos (p : Piece) (ps : List Piece) : 0 < stride (p :: ps) := by
  cases p with
  | char c =>
      rw [stride]
      split_ifs <;> omega
  | blank | string | number => exact Nat.succ_pos _

theorem form_step (ps : List Piece) :
    form 0 ps = mark true ps ++ form 0 (ps.drop (stride ps)) := by
  cases ps with
  | nil => rfl
  | cons p ps =>
      obtain ⟨n, hn⟩ := Nat.exists_eq_add_of_lt (stride_pos p ps)
      rw [form, form_drop, hn, Nat.zero_add, Nat.add_sub_cancel, List.drop_succ_cons]

theorem blanks_drop (ps : List Piece) : blanks (ps.drop (blanks ps)) = 0 := by
  induction ps with
  | nil => rfl
  | cons p ps ih =>
      cases p with
      | char c =>
          rw [blanks]
          split_ifs with hc
          · exact ih
          · rw [List.drop_zero, blanks, if_neg hc]
      | blank text => exact ih
      | string body => rfl
      | number text => rfl

/-- A step takes a run of blanks or writes one character for what it takes. -/
theorem mark_or_blank (p : Piece) (ps : List Piece) :
    (blanks (p :: ps) = 0 ∧ ∃ c, isWhitespace c = false ∧ ∀ takes, mark takes (p :: ps) = [c]) ∨
      (stride (p :: ps) = blanks (p :: ps) ∧
        ∀ takes, mark takes (p :: ps) = if takes then [' '] else []) := by
  cases p with
  | char c =>
      by_cases hwhite : isWhitespace c = true
      · have hnumber := inNumber_of_isWhitespace hwhite
        simp only [inNumber, isHexdigit, Bool.or_eq_false_iff] at hnumber
        obtain ⟨⟨⟨⟨⟨⟨hdigit, _⟩, _⟩, _⟩, _⟩, _⟩, hsign⟩ := hnumber
        have hdigit' : ¬ c.isDigit = true := Bool.eq_false_iff.mp hdigit
        have hsign' : ¬ (isSign c && startsDigit ps) = true := by
          rw [hsign, Bool.false_and]
          exact Bool.false_ne_true
        refine .inr ⟨?_, fun takes => ?_⟩
        · rw [stride, blanks, if_neg hdigit', if_neg hsign', if_pos hwhite]
          exact (if_pos hwhite).symm
        · rw [mark, if_neg hdigit', if_neg hsign', if_pos hwhite]
      · refine .inl ⟨by rw [blanks, if_neg hwhite], ?_⟩
        by_cases hdigit : c.isDigit = true
        · exact ⟨'?', by decide, fun takes => by rw [mark, if_pos hdigit]⟩
        · by_cases hsign : (isSign c && startsDigit ps) = true
          · exact ⟨'?', by decide, fun takes => by rw [mark, if_neg hdigit, if_pos hsign]⟩
          · refine ⟨c, Bool.eq_false_iff.mpr hwhite, fun takes => ?_⟩
            rw [mark, if_neg hdigit, if_neg hsign, if_neg hwhite]
  | blank text => exact .inr ⟨rfl, fun takes => rfl⟩
  | string body => exact .inl ⟨rfl, '?', by decide, fun takes => rfl⟩
  | number text => exact .inl ⟨rfl, '?', by decide, fun takes => rfl⟩

theorem takesBlank_concat {c : Char} (h : isWhitespace c = false) (out : List Char) :
    takesBlank (out ++ [c]) = true := by
  have hne : c ≠ ' ' := by
    rintro rfl
    exact absurd h (by decide)
  rw [takesBlank, List.getLast?_concat]
  simp [hne]

theorem sound_drop {ps : List Piece} (h : sound ps = true) (n : Nat) :
    sound (ps.drop n) = true := by
  rw [← List.take_append_drop n ps] at h
  exact sound_append h

theorem delimited_drop {ps : List Piece} (h : delimited ps = true) (n : Nat) :
    delimited (ps.drop n) = true := by
  rw [← List.take_append_drop n ps] at h
  exact delimited_append h

theorem finish_render {ps : List Piece} {out : List Char}
    (hout : takesBlank out = true ∨ blanks ps = 0) (hsound : sound ps = true)
    (hdelimited : delimited ps = true) :
    (scanner.finish ⟨out, render ps⟩).out = out ++ form 0 ps := by
  induction hn : ps.length using Nat.strong_induction_on generalizing ps out with
  | _ n ih =>
      cases ps with
      | nil => exact (List.append_nil out).symm
      | cons p ps =>
          have hlt : ((p :: ps).drop (stride (p :: ps))).length < n := by
            have hpos := stride_pos p ps
            rw [List.length_drop, hn]
            rw [List.length_cons] at hn
            omega
          have hnext : mark (takesBlank out) (p :: ps) = mark true (p :: ps) ∧
              (takesBlank (out ++ mark true (p :: ps)) = true ∨
                blanks ((p :: ps).drop (stride (p :: ps))) = 0) := by
            rcases mark_or_blank p ps with ⟨_, c, hc, hmark⟩ | ⟨hstride, hmark⟩
            · rw [hmark, hmark]
              exact ⟨rfl, .inl (takesBlank_concat hc out)⟩
            · rw [hstride]
              refine ⟨?_, .inr (blanks_drop _)⟩
              rcases hout with htakes | hzero
              · rw [htakes]
              · exact absurd (hstride.trans hzero) (Nat.ne_of_gt (stride_pos p ps))
          have hrest := ih _ hlt hnext.2 (sound_drop hsound _) (delimited_drop hdelimited _) rfl
          rw [← finish_step, step_pieces out hsound hdelimited, hnext.1, hrest, List.append_assoc,
            ← form_step]

/-- The normal form of a statement, by its pieces: the blanks at its start are left out. -/
theorem normalizeSql_render {ps : List Piece} (hsound : sound ps = true)
    (hdelimited : delimited ps = true) :
    normalizeSql (render ps) = form 0 (ps.drop (blanks ps)) := by
  have hdrop : scanner.finish ⟨[], render ps⟩ =
      scanner.finish ⟨[], render (ps.drop (blanks ps))⟩ := by
    cases ps with
    | nil => rfl
    | cons p ps =>
        rcases mark_or_blank p ps with ⟨hzero, _⟩ | ⟨hstride, hmark⟩
        · rw [hzero, List.drop_zero]
        · rw [← hstride, ← finish_step, step_pieces [] hsound hdelimited, hmark]
          rfl
  rw [normalizeSql, hdrop,
    finish_render (.inr (blanks_drop ps)) (sound_drop hsound _) (delimited_drop hdelimited _)]
  rfl

/-! ## What the normal form does not depend on -/

theorem charsOf_erase (ps : List Piece) : charsOf (ps.map Piece.erase) = charsOf ps := by
  induction ps with
  | nil => rfl
  | cons p ps ih =>
      cases p with
      | char c => exact congrArg (List.cons c) ih
      | blank | string | number => rfl

theorem numberStride_erase (hexPrefix : Bool) (ps : List Piece) :
    numberStride hexPrefix (ps.map Piece.erase) = numberStride hexPrefix ps := by
  rw [numberStride, numberStride, charsOf_erase]

theorem blanks_erase (ps : List Piece) : blanks (ps.map Piece.erase) = blanks ps := by
  induction ps with
  | nil => rfl
  | cons p ps ih =>
      cases p with
      | char c =>
          show (if isWhitespace c then blanks (ps.map Piece.erase) + 1 else 0) = _
          rw [ih]
          rfl
      | blank text => exact congrArg (· + 1) ih
      | string | number => rfl

theorem startsDigit_erase (ps : List Piece) :
    startsDigit (ps.map Piece.erase) = startsDigit ps := by
  match ps with
  | [] => rfl
  | .char _ :: _ | .blank _ :: _ | .string _ :: _ | .number _ :: _ => rfl

theorem signedStride_erase (ps : List Piece) :
    signedStride (ps.map Piece.erase) = signedStride ps := by
  match ps with
  | [] => rfl
  | .char _ :: ps => exact congrArg (· + 1) (numberStride_erase false ps)
  | .blank _ :: _ | .string _ :: _ | .number _ :: _ => rfl

theorem stride_erase (ps : List Piece) : stride (ps.map Piece.erase) = stride ps := by
  match ps with
  | [] => rfl
  | .string _ :: _ | .number _ :: _ => rfl
  | .blank _ :: ps => exact congrArg (· + 1) (blanks_erase ps)
  | .char c :: ps =>
      rw [List.map_cons, Piece.erase, stride, stride, numberStride_erase, startsDigit_erase,
        signedStride_erase, blanks_erase]

theorem mark_erase (takes : Bool) (ps : List Piece) :
    mark takes (ps.map Piece.erase) = mark takes ps := by
  match ps with
  | [] => rfl
  | .string _ :: _ | .number _ :: _ | .blank _ :: _ => rfl
  | .char c :: ps => rw [List.map_cons, Piece.erase, mark, mark, startsDigit_erase]

theorem form_erase (n : Nat) (ps : List Piece) : form n (ps.map Piece.erase) = form n ps := by
  induction ps generalizing n with
  | nil => rfl
  | cons p ps ih =>
      cases n with
      | zero =>
          have hmark := mark_erase true (p :: ps)
          have hstride := stride_erase (p :: ps)
          rw [List.map_cons] at hmark hstride ⊢
          rw [form, form, hmark, hstride, ih]
      | succ n => exact ih n

end Dbmaster.QueryStats.Strides
