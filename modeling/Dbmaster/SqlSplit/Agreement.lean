import Dbmaster.SqlSplit.Reference
import Mathlib.Data.List.TakeWhile
/-!
# Where the splitter agrees with the reference

The two read a script in lockstep, token by token, as long as the reference
meets no state in which they part.
-/

namespace Dbmaster.SqlSplit.Agreement

open Dbmaster.Lib Dbmaster.SqlSplit.Splitter Dbmaster.SqlSplit.Reference

variable {alphanumeric : Char → Bool}

/-! ## Where they part -/

/-- The reference is in a state from which the splitter goes on otherwise. -/
def parts (alphanumeric : Char → Bool) (s : RefState) : Bool :=
  match s.rest with
  | [] => false
  | c :: rest =>
    if atDirective alphanumeric s then
      -- a comment stands before the directive, or more than a word after it
      !isBlank s.piece || newDelimiter s.rest != argument s.rest
    else if s.depth == 0 && matchesStr s.rest s.delimiter then
      -- the delimiter has several bytes a character, or reads like another token
      byteLen s.delimiter != s.delimiter.length || isLineCommentStart s.rest ||
        isBlockCommentStart s.rest || isQuoteStart c || matchKeyword alphanumeric "BEGIN" s.rest
    else if isLineCommentStart s.rest || isBlockCommentStart s.rest then false
    else if isQuoteStart c then
      -- the quote ends elsewhere when backslashes escape
      quotedTail true c rest != quotedTail (escapesIn c) c rest
    else if matchKeyword alphanumeric "BEGIN" s.rest then
      -- the end of a longer word
      !atBoundary alphanumeric s
    else if matchesStr s.rest s.delimiter then byteLen s.delimiter != s.delimiter.length
    else if s.depth != 0 && matchKeyword alphanumeric "END" s.rest then
      -- the end of a longer word, a line break before the delimiter, or an inner block
      endCloses s.delimiter s.rest != (atBoundary alphanumeric s && closes s.delimiter s.rest)
    else false

/-- The reference reads the script without meeting such a state. -/
def NeverParts (alphanumeric : Char → Bool) (script : List Char) : Prop :=
  (tokenizer alphanumeric).Avoids (parts alphanumeric) (refStart script)

instance (script : List Char) : Decidable (NeverParts alphanumeric script) :=
  inferInstanceAs (Decidable (_ = true))

/-! ## Inside a quote -/

theorem step_of_inQuote {s : State} {q c : Char} {rest : List Char} (hrest : s.rest = c :: rest)
    (hquote : s.inQuote = some q) : step alphanumeric s = stepQuoted s q c rest := by
  unfold step
  rw [hrest, hquote]

theorem iterate_quoted (alphanumeric : Char → Bool) (q : Char) (text : List Char) (s : State)
    (hrest : s.rest = text) (hquote : s.inQuote = some q) :
    ∃ k o, (step alphanumeric)^[k] s =
        { s with
          rest := (quotedTail true q text).2
          buf := s.buf ++ (quotedTail true q text).1
          inQuote := o } ∧
      (o = none ∨ (quotedTail true q text).2 = []) := by
  fun_induction quotedTail true q text generalizing s with
  | case1 =>
      refine ⟨0, some q, ?_, .inr rfl⟩
      rw [List.append_nil, ← hrest, ← hquote]
      rfl
  | case2 c =>
      refine ⟨1, if c = q then none else some q, ?_, .inr rfl⟩
      rw [Function.iterate_one, step_of_inQuote hrest hquote]
      unfold stepQuoted
      split
      case h_1 heq => cases heq
      case h_2 => rfl
  | case3 c e text hescape ih =>
      obtain rfl : c = '\\' := by simpa using hescape
      have hstep : step alphanumeric s =
          { s with rest := text, buf := s.buf ++ ['\\', e] } := step_of_inQuote hrest hquote
      obtain ⟨k, o, hk, ho⟩ := ih { s with rest := text, buf := s.buf ++ ['\\', e] } rfl hquote
      refine ⟨k + 1, o, ?_, ho⟩
      rw [Function.iterate_succ_apply, hstep, hk]
      simp
  | case4 e text hescape =>
      have hne : q ≠ '\\' := by simpa using hescape
      refine ⟨1, none, ?_, .inl rfl⟩
      rw [Function.iterate_one, step_of_inQuote hrest hquote]
      simp [stepQuoted, hne]
  | case5 c e text hescape hq ih =>
      have hne : c ≠ '\\' := by simpa using hescape
      have hstep : step alphanumeric s =
          { s with rest := e :: text, buf := s.buf ++ [c] } := by
        rw [step_of_inQuote hrest hquote]
        simp [stepQuoted, hne, hq, hquote]
      obtain ⟨k, o, hk, ho⟩ := ih { s with rest := e :: text, buf := s.buf ++ [c] } rfl hquote
      refine ⟨k + 1, o, ?_, ho⟩
      rw [Function.iterate_succ_apply, hstep, hk]
      simp

/-! ## One token -/

/-- The state of the loop that goes with a state of the reference. -/
def loopState (r : RefState) : State where
  rest := r.rest
  buf := r.piece
  delimiter := r.delimiter
  delimiter_ne := r.delimiter_ne
  inQuote := none
  beginDepth := r.depth
  statements := r.pieces

/-- A piece of blanks only has met no token. -/
def FreshWhenBlank (r : RefState) : Prop := isBlank r.piece = true → r.fresh = true

theorem readKeyword_fresh {r : RefState} {c : Char} {rest : List Char} {letters : Nat}
    (hrest : r.rest = c :: rest) (hc : Text.isWhitespace c = false) (hletters : letters ≠ 0)
    (depth : Nat) : FreshWhenBlank (readKeyword r letters depth) := by
  intro hblank
  obtain ⟨n, rfl⟩ := Nat.exists_eq_succ_of_ne_zero hletters
  simp only [readKeyword, hrest, List.take_succ_cons] at hblank
  rw [not_isBlank_append_cons hc] at hblank
  cases hblank

theorem refStep_fresh {r : RefState} (h : FreshWhenBlank r) :
    FreshWhenBlank (refStep alphanumeric r) := by
  unfold refStep
  split
  case h_1 => exact h
  case h_2 c rest hrest =>
    unfold readToken
    split
    case isTrue =>
      unfold readDirective
      split
      · exact fun _ => rfl
      · exact fun _ => rfl
    split
    case isTrue => exact fun _ => rfl
    split
    case isTrue => exact fun hblank => h (isBlank_append.mp hblank).1
    split
    case isTrue =>
      intro hblank
      exact h (isBlank_append.mp (isBlank_append.mp hblank).1).1
    split
    case isTrue hquote =>
      intro hblank
      have hno := not_isBlank_append_cons (isQuoteStart_not_whitespace hquote) r.piece
        (quotedTail (escapesIn c) c rest).1
      exact absurd (hblank.symm.trans hno) (by decide)
    split
    case isTrue hbegin =>
      rw [hrest, Bool.and_eq_true] at hbegin
      exact readKeyword_fresh hrest (begin_plain hbegin.2).2.1 (by decide) _
    split
    case isTrue => exact fun hblank => h (isBlank_append.mp hblank).1
    split
    case isTrue hend =>
      simp only [hrest, Bool.and_eq_true] at hend
      exact readKeyword_fresh hrest (end_plain hend.1.2).2.1 (by decide) _
    case isFalse =>
      intro hblank
      obtain ⟨hpiece, hc⟩ := isBlank_append.mp hblank
      have hwhite := isBlank_iff.mp hc c (by simp)
      show (r.fresh && Text.isWhitespace c) = true
      rw [h hpiece, hwhite]
      rfl

section Token

variable {r : RefState} {c : Char} {rest : List Char}

theorem stepPlain_directive (hrest : r.rest = c :: rest)
    (hat : atDirective alphanumeric r = true) (hblank : isBlank r.piece = true)
    (hword : newDelimiter r.rest = argument r.rest) :
    stepPlain alphanumeric (loopState r) c rest = loopState (readDirective r) := by
  have hdirective : matchesDelimiterDirective alphanumeric r.rest = true :=
    (Bool.and_eq_true_iff.mp hat).2
  obtain ⟨hquote, hwhite, hother⟩ := delimiter_plain (hrest ▸ hdirective)
  have hcomment := not_comment hother rest
  rw [← hrest] at hcomment
  simp only [stepPlain, loopState, hcomment.1, hcomment.2, hquote, hblank, hdirective,
    Bool.and_self, Bool.false_eq_true, if_false, if_true]
  unfold stepDirective readDirective
  by_cases hnone : argument r.rest = []
  · rw [dif_pos (hword.trans hnone), dif_pos hnone]
  · rw [dif_neg (fun h => hnone (hword.symm.trans h)), dif_neg hnone]
    simp only [hword]

theorem stepTerminator_cut (hdepth : r.depth = 0)
    (hlength : byteLen r.delimiter = r.delimiter.length) :
    stepTerminator (loopState r) = loopState (cut r) := by
  simp [stepTerminator, loopState, cut, hdepth, hlength]

theorem stepTerminator_inner (hdepth : r.depth ≠ 0)
    (hlength : byteLen r.delimiter = r.delimiter.length) :
    stepTerminator (loopState r) = loopState (readInnerDelimiter r) := by
  have hpos := Nat.pos_of_ne_zero hdepth
  simp [stepTerminator, loopState, readInnerDelimiter, hpos, hlength]

theorem iterate_quote (hrest : r.rest = c :: rest)
    (hcomment : isLineCommentStart r.rest = false ∧ isBlockCommentStart r.rest = false)
    (hquote : isQuoteStart c = true)
    (hsame : quotedTail true c rest = quotedTail (escapesIn c) c rest) :
    ∃ k o, (step alphanumeric)^[k] (loopState r) =
        { loopState (readQuoted r c rest) with inQuote := o } ∧
      (o = none ∨ (readQuoted r c rest).rest = []) := by
  have hstep : step alphanumeric (loopState r) =
      { loopState r with rest := rest, buf := r.piece ++ [c], inQuote := some c } := by
    have hfirst : step alphanumeric (loopState r) =
        stepPlain alphanumeric (loopState r) c rest := by
      simp only [step, loopState, hrest]
    rw [hfirst]
    simp only [stepPlain, loopState, hcomment.1, hcomment.2, hquote, Bool.false_eq_true,
      if_false, if_true]
  obtain ⟨k, o, hk, ho⟩ := iterate_quoted alphanumeric c rest
    { loopState r with rest := rest, buf := r.piece ++ [c], inQuote := some c } rfl rfl
  rw [hsame] at hk ho
  refine ⟨k + 1, o, ?_, ho⟩
  rw [Function.iterate_succ_apply, hstep, hk]
  simp [loopState, readQuoted]

theorem iterate_plain {r' : RefState} (hrest : r.rest = c :: rest)
    (hplain : stepPlain alphanumeric (loopState r) c rest = loopState r') :
    ∃ k o, (step alphanumeric)^[k] (loopState r) = { loopState r' with inQuote := o } ∧
      (o = none ∨ r'.rest = []) := by
  have hfirst : step alphanumeric (loopState r) =
      stepPlain alphanumeric (loopState r) c rest := by
    simp only [step, loopState, hrest]
  refine ⟨1, none, ?_, .inl rfl⟩
  rw [Function.iterate_one, hfirst, hplain]
  rfl

theorem no_directive (hfresh : FreshWhenBlank r) (hat : atDirective alphanumeric r = false) :
    (isBlank r.piece && matchesDelimiterDirective alphanumeric r.rest) = false := by
  cases hblank : isBlank r.piece with
  | false => rfl
  | true =>
      rw [atDirective, hfresh hblank] at hat
      exact hat

/-- Both take `END` for the end of a block alike. -/
theorem closes_alike (hend : (r.depth != 0 && matchKeyword alphanumeric "END" r.rest) = true →
      endCloses r.delimiter r.rest =
        (atBoundary alphanumeric r && closes r.delimiter r.rest)) :
    (decide (0 < r.depth) && matchKeyword alphanumeric "END" r.rest &&
        endCloses r.delimiter r.rest) =
      (r.depth != 0 && atBoundary alphanumeric r && matchKeyword alphanumeric "END" r.rest &&
        closes r.delimiter r.rest) := by
  cases hdepth : r.depth with
  | zero => rfl
  | succ n =>
      cases hword : matchKeyword alphanumeric "END" r.rest with
      | false => simp
      | true =>
          rw [hdepth, hword] at hend
          simpa using hend rfl

/-- To the token of the reference belong some turns of the loop. -/
theorem iterate_token (hrest : r.rest = c :: rest) (hfresh : FreshWhenBlank r)
    (hparts : parts alphanumeric r = false) :
    ∃ k o, (step alphanumeric)^[k] (loopState r) =
        { loopState (readToken alphanumeric r c rest) with inQuote := o } ∧
      (o = none ∨ (readToken alphanumeric r c rest).rest = []) := by
  simp only [parts, hrest] at hparts
  rw [← hrest] at hparts
  unfold readToken
  split
  case isTrue hat =>
    simp only [hat, if_true, Bool.or_eq_false_iff, Bool.not_eq_false', bne_eq_false_iff_eq]
      at hparts
    exact iterate_plain hrest (stepPlain_directive hrest hat hparts.1 hparts.2)
  case isFalse hat =>
  rw [Bool.not_eq_true] at hat
  rw [hat, if_neg Bool.false_ne_true] at hparts
  have hnone := no_directive hfresh hat
  split
  case isTrue hcut =>
    simp only [hcut, if_true, Bool.or_eq_false_iff, bne_eq_false_iff_eq] at hparts
    obtain ⟨⟨⟨⟨hlength, hline⟩, hblock⟩, hquote⟩, hbegin⟩ := hparts
    simp only [Bool.and_eq_true, beq_iff_eq] at hcut
    apply iterate_plain hrest
    rw [← stepTerminator_cut hcut.1 hlength]
    simp only [stepPlain, loopState, hline, hblock, hquote, hnone, hbegin, hcut.2,
      Bool.false_eq_true, if_false, if_true]
  case isFalse hcut =>
  rw [if_neg hcut] at hparts
  split
  case isTrue hline =>
    apply iterate_plain hrest
    simp only [stepPlain, loopState, hline, if_true]
    rfl
  case isFalse hline =>
  rw [Bool.not_eq_true] at hline
  split
  case isTrue hblock =>
    apply iterate_plain hrest
    simp only [stepPlain, loopState, hline, hblock, Bool.false_eq_true, if_false, if_true]
    rfl
  case isFalse hblock =>
  rw [Bool.not_eq_true] at hblock
  rw [hline, hblock, Bool.or_self, if_neg Bool.false_ne_true] at hparts
  split
  case isTrue hquote =>
    rw [if_pos hquote, bne_eq_false_iff_eq] at hparts
    exact iterate_quote hrest ⟨hline, hblock⟩ hquote hparts
  case isFalse hquote =>
  rw [if_neg hquote] at hparts
  rw [Bool.not_eq_true] at hquote
  split
  case isTrue hbegin =>
    rw [Bool.and_eq_true] at hbegin
    apply iterate_plain hrest
    simp only [stepPlain, loopState, hline, hblock, hquote, hnone, hbegin.2,
      Bool.false_eq_true, if_false, if_true]
    rfl
  case isFalse hbegin =>
  -- where the keyword stands a word ends, so the keyword does not stand here
  have hword : matchKeyword alphanumeric "BEGIN" r.rest = false := by
    by_contra h
    rw [Bool.not_eq_false] at h
    rw [if_pos h, Bool.not_eq_false'] at hparts
    rw [hparts, h] at hbegin
    exact hbegin rfl
  rw [hword, if_neg Bool.false_ne_true] at hparts
  split
  case isTrue hinner =>
    rw [if_pos hinner, bne_eq_false_iff_eq] at hparts
    have hdepth : r.depth ≠ 0 := by
      intro hzero
      rw [hzero, hinner] at hcut
      exact hcut rfl
    apply iterate_plain hrest
    rw [← stepTerminator_inner hdepth hparts]
    simp only [stepPlain, loopState, hline, hblock, hquote, hnone, hword, hinner,
      Bool.false_eq_true, if_false, if_true]
  case isFalse hinner =>
  rw [if_neg hinner] at hparts
  rw [Bool.not_eq_true] at hinner
  have hcloses := @closes_alike alphanumeric r fun hend => by
    rw [if_pos hend, bne_eq_false_iff_eq] at hparts
    exact hparts
  split
  case isTrue hend =>
    rw [← hcloses] at hend
    apply iterate_plain hrest
    simp only [stepPlain, loopState, hline, hblock, hquote, hnone, hword, hinner,
      Bool.false_eq_true, if_false]
    exact if_pos hend
  case isFalse hend =>
    rw [← hcloses] at hend
    apply iterate_plain hrest
    simp only [stepPlain, loopState, hline, hblock, hquote, hnone, hword, hinner,
      Bool.false_eq_true, if_false]
    exact if_neg hend

end Token

/-! ## Whole scripts -/

/-- The loop is where the reference is, or in a quote that the script does not end. -/
def Aligned (s : State) (r : RefState) : Prop :=
  ∃ o, s = { loopState r with inQuote := o } ∧ (o = none ∨ r.rest = []) ∧ FreshWhenBlank r

theorem Aligned.output {s : State} {r : RefState} (h : Aligned s r) : s.output = r.output := by
  obtain ⟨o, rfl, -⟩ := h
  rfl

theorem aligned_start (script : List Char) : Aligned (start script) (refStart script) :=
  ⟨none, rfl, .inl rfl, fun _ => rfl⟩

theorem aligned_step {s : State} {r : RefState} (h : Aligned s r) (hrest : r.rest ≠ [])
    (hparts : parts alphanumeric r = false) :
    ∃ k, Aligned ((step alphanumeric)^[k] s) (refStep alphanumeric r) := by
  obtain ⟨o, rfl, ho, hfresh⟩ := h
  obtain rfl : o = none := ho.resolve_right hrest
  obtain ⟨c, rest, hcons⟩ := List.exists_cons_of_ne_nil hrest
  obtain ⟨k, o, hk, ho⟩ := iterate_token hcons hfresh hparts
  have hstep : refStep alphanumeric r = readToken alphanumeric r c rest := by
    simp only [refStep, hcons]
  refine ⟨k, o, ?_, ?_, refStep_fresh hfresh⟩
  · rw [hstep]
    exact hk
  · rw [hstep]
    exact ho

theorem splitSqlScript_eq_refSplit (script : List Char) (h : NeverParts alphanumeric script) :
    splitSqlScript alphanumeric script = refSplit alphanumeric script := by
  have hfinish : Aligned ((splitter alphanumeric).finish (start script))
      ((tokenizer alphanumeric).finish (refStart script)) := by
    refine @Scan.Scanner.finish_simulates _ _ _ (splitter alphanumeric) (tokenizer alphanumeric)
      Aligned (parts alphanumeric) ?_ ?_ _ _ (aligned_start script) h
    · rintro s r ⟨o, rfl, -⟩ hr
      exact hr
    · intro s r hs hr hparts
      exact aligned_step hs hr hparts
  exact hfinish.output

theorem splitSqlScript_eq_refSplit_begin :
    splitSqlScript Char.isAlphanum "a; BEGIN 'b;'; END; c".toList =
      refSplit Char.isAlphanum "a; BEGIN 'b;'; END; c".toList :=
  splitSqlScript_eq_refSplit _ (by decide)

/-- The end of a longer word, a line break after `END`, an inner block under
another delimiter, a delimiter of two bytes and a backslash in an identifier. -/
theorem splitSqlScript_ne_refSplit :
    (["xBEGIN; y", "BEGIN xEND; y; END; z", "BEGIN END\n; y",
        "DELIMITER $\nBEGIN BEGIN END; END$x", "DELIMITER §\nx§yz", "`\\`;`x`"].all
      fun script =>
        splitSqlScript Char.isAlphanum script.toList !=
          refSplit Char.isAlphanum script.toList) = true := by
  decide

end Dbmaster.SqlSplit.Agreement
