import Dbmaster.Lib.Scan
import Dbmaster.Lib.Text
import Dbmaster.NativeCollector.Collector
import Mathlib.Data.List.Chain
import Mathlib.Data.List.Induction
/-!
# Digests of statements

The normal form of a statement: single-quoted literals and numbers become `?`, and every
run of blanks becomes one space.  What a normal form looks like is said on its own, and
the normaliser leaves such texts alone.
-/

namespace Dbmaster.QueryStats.Normalize

open Dbmaster.Lib Dbmaster.Lib.Text Dbmaster.NativeCollector.Collector

/-! ## The normaliser -/

def digestMaxChars : Nat := 1000

/-- The next character, if there is one, is such. -/
def peeks (p : Char → Bool) (text : List Char) : Bool := text.head?.any p

def isHexdigit (c : Char) : Bool :=
  c.isDigit || ('a' ≤ c && c ≤ 'f') || ('A' ≤ c && c ≤ 'F')

def isSign (c : Char) : Bool := c == '+' || c == '-'

/-- What follows the literal whose text goes on here, after a backslash or not. -/
def afterQuoted : Bool → List Char → List Char
  | _, [] => []
  | true, _ :: text => afterQuoted false text
  | false, c :: text =>
      if c = '\\' then afterQuoted true text
      else if c = '\'' then
        match text with
        | [] => []
        | d :: rest => if d = '\'' then afterQuoted false rest else d :: rest
      else afterQuoted false text

/-- The look-ahead after an `e`. -/
def exponentNext (text : List Char) : Bool :=
  peeks Char.isDigit text || (peeks isSign text && peeks Char.isDigit text.tail)

/-- What is left of the text. -/
def consumeNumberTail (hexPrefix : Bool) (text : List Char) : List Char :=
  if hexPrefix && peeks (fun c => c == 'x' || c == 'X') text then
    text.tail.dropWhile isHexdigit
  else
    let rest := text.dropWhile fun c => c.isDigit || c == '.'
    if peeks (fun c => c == 'e' || c == 'E') rest && exponentNext rest.tail then
      (if peeks isSign rest.tail then rest.tail.tail else rest.tail).dropWhile Char.isDigit
    else rest

structure Loop where
  out : List Char
  rest : List Char
deriving DecidableEq

def Loop.step : Loop → Loop
  | ⟨out, []⟩ => ⟨out, []⟩
  | ⟨out, c :: rest⟩ =>
      if c = '\'' then ⟨out ++ ['?'], afterQuoted false rest⟩
      else if c.isDigit then ⟨out ++ ['?'], consumeNumberTail (c == '0') rest⟩
      else if isSign c && peeks Char.isDigit rest then
        ⟨out ++ ['?'], consumeNumberTail false rest.tail⟩
      else if isWhitespace c then
        ⟨if !out.isEmpty && out.getLast? != some ' ' then out ++ [' '] else out,
          rest.dropWhile isWhitespace⟩
      else ⟨out ++ [c], rest⟩

theorem afterQuoted_suffix (escaped : Bool) (text : List Char) :
    afterQuoted escaped text <:+ text := by
  fun_induction afterQuoted escaped text with
  | case1 => exact List.suffix_refl _
  | case2 c text ih => exact ih.trans (List.suffix_cons c text)
  | case3 text ih => exact ih.trans (List.suffix_cons _ text)
  | case4 => exact List.nil_suffix
  | case5 rest _ ih =>
      exact ih.trans ((List.suffix_cons _ rest).trans (List.suffix_cons _ _))
  | case6 => exact List.suffix_cons _ _
  | case7 c text _ _ ih => exact ih.trans (List.suffix_cons c text)

theorem consumeNumberTail_suffix (hexPrefix : Bool) (text : List Char) :
    consumeNumberTail hexPrefix text <:+ text := by
  unfold consumeNumberTail
  split
  · exact (List.dropWhile_suffix _).trans (List.tail_suffix _)
  · have hrest := List.dropWhile_suffix (fun c : Char => c.isDigit || c == '.') (l := text)
    dsimp only
    split
    · refine (List.dropWhile_suffix _).trans (List.IsSuffix.trans ?_ hrest)
      split
      · exact (List.tail_suffix _).trans (List.tail_suffix _)
      · exact List.tail_suffix _
    · exact hrest

theorem Loop.rest_step (out : List Char) (c : Char) (rest : List Char) :
    (Loop.step ⟨out, c :: rest⟩).rest <:+ rest := by
  unfold Loop.step
  dsimp only
  split_ifs
  · exact afterQuoted_suffix _ _
  · exact consumeNumberTail_suffix _ _
  · exact (consumeNumberTail_suffix false rest.tail).trans (List.tail_suffix rest)
  · exact List.dropWhile_suffix _
  · exact List.dropWhile_suffix _
  · exact List.suffix_refl _

def scanner : Scan.Scanner Loop Char where
  rest := Loop.rest
  step := Loop.step
  reads
    | ⟨_, []⟩, h => absurd rfl h
    | ⟨out, c :: rest⟩, _ => Nat.lt_succ_of_le (Loop.rest_step out c rest).length_le
  stops
    | ⟨_, []⟩, _ => rfl
    | ⟨_, _ :: _⟩, h => absurd h (List.cons_ne_nil _ _)

def normalizeSql (sql : List Char) : List Char := (scanner.finish ⟨[], sql⟩).out

/-- `normalize_digest` of a statement. -/
def normalizeDigest (sql : List Char) : List Char := truncateChars (normalizeSql sql) digestMaxChars

example : normalizeSql "WHERE a.b = 'it''s'\n AND x =-2.5E-3".toList =
    "WHERE a.b = ? AND x =?".toList := by decide +kernel

/-! ## Normal forms -/

/-- What the normaliser may leave of a statement's characters. -/
def Plain (c : Char) : Prop := c ≠ '\'' ∧ c.isDigit = false ∧ (isWhitespace c = true → c = ' ')

instance : DecidablePred Plain := fun c =>
  inferInstanceAs (Decidable (c ≠ '\'' ∧ c.isDigit = false ∧ (isWhitespace c = true → c = ' ')))

structure IsNormal (text : List Char) : Prop where
  plain : ∀ c ∈ text, Plain c
  start : text.head? ≠ some ' '
  single : text.IsChain fun c d => ¬ (c = ' ' ∧ d = ' ')

theorem IsNormal.nil : IsNormal [] :=
  ⟨fun _ h => absurd h List.not_mem_nil, fun h => (Option.some_ne_none ' ' h.symm).elim, .nil⟩

theorem IsNormal.concat {out : List Char} {c : Char} (h : IsNormal out) (hc : Plain c)
    (hblank : c = ' ' → out ≠ [] ∧ out.getLast? ≠ some ' ') : IsNormal (out ++ [c]) where
  plain d hd := by
    rcases List.mem_append.mp hd with hd | hd
    · exact h.plain d hd
    · rw [List.mem_singleton.mp hd]
      exact hc
  start := by
    cases out with
    | nil =>
        rintro hhead
        cases hhead
        exact (hblank rfl).1 rfl
    | cons d out => exact h.start
  single := by
    refine h.single.append (.singleton c) ?_
    rintro d hd e he ⟨rfl, rfl⟩
    cases he
    exact (hblank rfl).2 hd

theorem IsNormal.of_prefix {text part : List Char} (h : IsNormal text) (hpart : part <+: text) :
    IsNormal part where
  plain c hc := h.plain c (hpart.subset hc)
  start := by
    cases part with
    | nil => exact fun hnil => (Option.some_ne_none ' ' hnil.symm).elim
    | cons c part =>
        obtain ⟨tail, rfl⟩ := hpart
        exact h.start
  single := h.single.prefix hpart

theorem plain_mark : Plain '?' := by decide

theorem isNormal_step {s : Loop} (h : IsNormal s.out) : IsNormal s.step.out := by
  obtain ⟨out, rest⟩ := s
  have hmark : IsNormal (out ++ ['?']) := h.concat plain_mark fun hc => absurd hc (by decide)
  cases rest with
  | nil => exact h
  | cons c rest =>
      unfold Loop.step
      dsimp only
      split_ifs with hquote hdigit hsign hblank hout
      · exact hmark
      · exact hmark
      · exact hmark
      · simp only [Bool.and_eq_true, Bool.not_eq_true', List.isEmpty_eq_false_iff, bne_iff_ne] at hout
        exact h.concat ⟨by decide, by decide, fun _ => rfl⟩ fun _ => hout
      · exact h
      · have hc : c ≠ ' ' := fun hc => hblank (by rw [hc]; decide)
        refine h.concat ⟨hquote, by simpa using hdigit, fun hw => absurd hw hblank⟩ fun hc' => ?_
        exact absurd hc' hc

theorem isNormal_normalizeSql (sql : List Char) : IsNormal (normalizeSql sql) :=
  scanner.finish_invariant (I := fun s => IsNormal s.out) (fun _ _ h => isNormal_step h) IsNormal.nil

/-- A normal form is read character by character. -/
theorem step_of_isNormal {out rest : List Char} {c : Char} (h : IsNormal (out ++ c :: rest)) :
    Loop.step ⟨out, c :: rest⟩ = ⟨out ++ [c], rest⟩ := by
  have hplain : ∀ d ∈ c :: rest, Plain d := fun d hd => h.plain d (List.mem_append_right out hd)
  obtain ⟨hquote, hdigit, hwhite⟩ := hplain c List.mem_cons_self
  have hnext : peeks Char.isDigit rest = false := by
    cases rest with
    | nil => rfl
    | cons d rest => exact (hplain d (List.mem_cons_of_mem c List.mem_cons_self)).2.1
  unfold Loop.step
  dsimp only
  rw [if_neg hquote, hdigit, if_neg Bool.false_ne_true, hnext, Bool.and_false,
    if_neg Bool.false_ne_true]
  split_ifs with hblank hout
  · -- a blank of a normal form stands alone
    have hc := hwhite hblank
    subst hc
    cases rest with
    | nil => rfl
    | cons d rest =>
        have hd : isWhitespace d = false := by
          have hchain := (List.isChain_append.mp h.single).2.1
          have hpair := List.IsChain.rel hchain
          rw [Bool.eq_false_iff]
          intro hd
          exact hpair ⟨rfl, (hplain d (by simp)).2.2 hd⟩
        rw [List.dropWhile_cons_of_neg (by simp [hd])]
  · have hc := hwhite hblank
    subst hc
    exfalso
    simp only [Bool.and_eq_true, Bool.not_eq_true', List.isEmpty_eq_false_iff, bne_iff_ne,
      not_and, not_not] at hout
    cases out using List.reverseRecOn with
    | nil => exact h.start rfl
    | append_singleton out d =>
        have hlast := hout (by simp)
        rw [List.getLast?_concat] at hlast
        cases hlast
        have hchain := (List.isChain_append.mp h.single).2.2
        exact hchain ' ' (by simp) ' ' (by simp) ⟨rfl, rfl⟩
  · rfl

theorem normalizeSql_of_isNormal {text : List Char} (h : IsNormal text) :
    normalizeSql text = text := by
  have hall : (scanner.finish ⟨[], text⟩).out ++ (scanner.finish ⟨[], text⟩).rest = text := by
    refine scanner.finish_invariant (I := fun s : Loop => s.out ++ s.rest = text) ?_ rfl
    rintro ⟨out, rest⟩ hrest hs
    obtain ⟨c, rest, rfl⟩ := List.exists_cons_of_ne_nil hrest
    have hstep := step_of_isNormal (hs.symm ▸ h)
    show (Loop.step ⟨out, c :: rest⟩).out ++ (Loop.step ⟨out, c :: rest⟩).rest = text
    rw [hstep, List.append_assoc]
    exact hs
  have hend : (scanner.finish ⟨[], text⟩).rest = [] := scanner.rest_finish _
  rw [hend, List.append_nil] at hall
  exact hall

/-! ## Cut texts -/

theorem truncateChars_truncateChars (text : List Char) (max : Nat) :
    truncateChars (truncateChars text max) max = truncateChars text max := by
  unfold truncateChars
  by_cases h : text.length ≤ max
  · rw [if_pos h, if_pos h]
  · rw [if_neg h]
    have hlen : (text.take max).length = max := List.length_take_of_le (by omega)
    rw [if_neg (by rw [List.length_append, hlen, List.length_singleton]; omega),
      List.take_append_of_le_length (by rw [hlen]), List.take_take, Nat.min_self]

theorem isNormal_truncateChars {text : List Char} (h : IsNormal text) (max : Nat) :
    IsNormal (truncateChars text max) := by
  unfold truncateChars
  split
  · exact h
  · exact (h.of_prefix (List.take_prefix max text)).concat (by decide) fun hc => absurd hc (by decide)

theorem length_normalizeSql (sql : List Char) : (normalizeSql sql).length ≤ sql.length := by
  have hall : (scanner.finish ⟨[], sql⟩).out.length + (scanner.finish ⟨[], sql⟩).rest.length ≤
      sql.length := by
    refine scanner.finish_invariant
      (I := fun s : Loop => s.out.length + s.rest.length ≤ sql.length) ?_ ?_
    · rintro ⟨out, rest⟩ hrest hs
      obtain ⟨c, rest, rfl⟩ := List.exists_cons_of_ne_nil hrest
      have hread := (Loop.rest_step out c rest).length_le
      have hout : (Loop.step ⟨out, c :: rest⟩).out.length ≤ out.length + 1 := by
        unfold Loop.step
        dsimp only
        split_ifs <;> simp
      have hsum : out.length + (rest.length + 1) ≤ sql.length := hs
      show (Loop.step ⟨out, c :: rest⟩).out.length + (Loop.step ⟨out, c :: rest⟩).rest.length ≤ _
      omega
    · exact (Nat.zero_add sql.length).le
  exact (Nat.le_add_right _ _).trans hall

theorem normalizeDigest_of_short {sql : List Char} (h : sql.length ≤ digestMaxChars) :
    normalizeDigest sql = normalizeSql sql := by
  rw [normalizeDigest, truncateChars, if_pos ((length_normalizeSql sql).trans h)]

/-! ## Literals -/

theorem afterQuoted_slash (text : List Char) :
    afterQuoted false ('\\' :: text) = afterQuoted true text := by
  cases text <;> rfl

theorem afterQuoted_plain {c : Char} (hslash : c ≠ '\\') (hquote : c ≠ '\'') (text : List Char) :
    afterQuoted false (c :: text) = afterQuoted false text := by
  cases text <;> simp [afterQuoted, hslash, hquote]

theorem afterQuoted_closed {q : List Char} (h : q.head? ≠ some '\'') :
    afterQuoted false ('\'' :: q) = q := by
  cases q with
  | nil => rfl
  | cons d q =>
      have hd : d ≠ '\'' := fun hd => h (congrArg some hd)
      simp [afterQuoted, hd]

/-- Where a text ends with respect to its single-quoted literals. -/
inductive Quoting
  | outside
  | inside
  | escaped
  /-- after a quote that another one would make part of the literal -/
  | closed
deriving DecidableEq

def Quoting.next : Quoting → Char → Quoting
  | .outside, c => if c = '\'' then .inside else .outside
  | .inside, c => if c = '\\' then .escaped else if c = '\'' then .closed else .inside
  | .escaped, _ => .inside
  | .closed, c => if c = '\'' then .inside else .outside

def quotingFrom (q : Quoting) (text : List Char) : Quoting := text.foldl Quoting.next q

/-- What can stand between the quotes of a closed literal. -/
def isBody : List Char → Bool
  | [] => true
  | c :: text =>
      if c = '\\' then
        match text with
        | [] => false
        | _ :: text => isBody text
      else if c = '\'' then
        match text with
        | [] => false
        | d :: text => d == '\'' && isBody text
      else isBody text

theorem afterQuoted_isBody {body q : List Char} (h : isBody body = true)
    (hq : q.head? ≠ some '\'') : afterQuoted false (body ++ '\'' :: q) = q := by
  fun_induction isBody body with
  | case1 => exact afterQuoted_closed hq
  | case2 => cases h
  | case3 d text ih => simpa [afterQuoted] using ih h
  | case4 => cases h
  | case5 _ d text ih =>
      rw [Bool.and_eq_true, beq_iff_eq] at h
      obtain ⟨rfl, hbody⟩ := h
      simpa [afterQuoted] using ih hbody
  | case6 c text hslash hquote ih =>
      rw [List.cons_append, afterQuoted_plain hslash hquote]
      exact ih h

/-- Reading out of a literal needs nothing of what comes later. -/
theorem afterQuoted_append {escaped : Bool} {text : List Char}
    (h : quotingFrom (if escaped then .escaped else .inside) text = .outside) :
    ∃ rest, rest <:+ text ∧ quotingFrom .outside rest = .outside ∧
      ∀ tail, afterQuoted escaped (text ++ tail) = rest ++ tail := by
  fun_induction afterQuoted escaped text with
  | case1 escaped => cases escaped <;> cases h
  | case2 c text ih =>
      obtain ⟨rest, hsuffix, hout, heq⟩ := ih h
      exact ⟨rest, hsuffix.trans (List.suffix_cons c text), hout, heq⟩
  | case3 text ih =>
      obtain ⟨rest, hsuffix, hout, heq⟩ := ih h
      refine ⟨rest, hsuffix.trans (List.suffix_cons _ text), hout, fun tail => ?_⟩
      rw [List.cons_append, afterQuoted_slash]
      exact heq tail
  | case4 => cases h
  | case5 text _ ih =>
      obtain ⟨rest, hsuffix, hout, heq⟩ := ih h
      refine ⟨rest, hsuffix.trans ((List.suffix_cons _ text).trans (List.suffix_cons _ _)), hout, ?_⟩
      exact fun tail => heq tail
  | case6 d text hd _ =>
      refine ⟨d :: text, List.suffix_cons _ _, ?_, fun tail => ?_⟩
      · simpa [quotingFrom, Quoting.next, hd] using h
      · exact afterQuoted_closed fun hhead => hd (Option.some.inj hhead)
  | case7 c text hslash hquote ih =>
      have hnext : quotingFrom .inside text = .outside := by
        simpa [quotingFrom, Quoting.next, hslash, hquote] using h
      obtain ⟨rest, hsuffix, hout, heq⟩ := ih hnext
      refine ⟨rest, hsuffix.trans (List.suffix_cons c text), hout, fun tail => ?_⟩
      rw [List.cons_append, afterQuoted_plain hslash hquote]
      exact heq tail

/-- A character that can stand in a number, as the normaliser reads it. -/
def inNumber (c : Char) : Bool := isHexdigit c || c == '.' || c == 'x' || c == 'X' || isSign c

theorem dropWhile_append_cons {p : Char → Bool} {c : Char} (hc : p c = false)
    (text tail : List Char) :
    (text ++ c :: tail).dropWhile p = text.dropWhile p ++ c :: tail := by
  rw [List.dropWhile_append]
  split
  case isTrue h =>
    rw [List.isEmpty_iff.mp h, List.dropWhile_cons_of_neg (by simp [hc]), List.nil_append]
  case isFalse => rfl

theorem peeks_append_cons {p : Char → Bool} {c : Char} (hc : p c = false) (text tail : List Char) :
    peeks p (text ++ c :: tail) = peeks p text := by
  cases text with
  | nil => exact hc
  | cons d text => rfl

theorem tail_append_of_peeks {p : Char → Bool} {text : List Char} (h : peeks p text = true)
    (tail : List Char) : (text ++ tail).tail = text.tail ++ tail := by
  cases text with
  | nil => cases h
  | cons d text => rfl

/-- A number ends where such a character stands. -/
theorem consumeNumberTail_append {c : Char} (hc : inNumber c = false) (hexPrefix : Bool)
    (text tail : List Char) :
    consumeNumberTail hexPrefix (text ++ c :: tail) =
      consumeNumberTail hexPrefix text ++ c :: tail := by
  simp only [inNumber, Bool.or_eq_false_iff] at hc
  obtain ⟨⟨⟨⟨hhex, hdot⟩, hx⟩, hX⟩, hsign⟩ := hc
  have hletters : c.isDigit = false ∧ (c == 'e') = false ∧ (c == 'E') = false := by
    refine ⟨?_, ?_, ?_⟩
    · simp only [isHexdigit, Bool.or_eq_false_iff] at hhex
      exact hhex.1.1
    · rw [beq_eq_false_iff_ne]
      rintro rfl
      exact absurd hhex (by decide)
    · rw [beq_eq_false_iff_ne]
      rintro rfl
      exact absurd hhex (by decide)
  obtain ⟨hdigit, he, hE⟩ := hletters
  have hexponent : ∀ rest : List Char, exponentNext (rest ++ c :: tail) = exponentNext rest := by
    intro rest
    unfold exponentNext
    rw [peeks_append_cons hdigit, peeks_append_cons hsign]
    cases hpeek : peeks isSign rest with
    | false => rfl
    | true => rw [tail_append_of_peeks hpeek, peeks_append_cons hdigit]
  unfold consumeNumberTail
  rw [peeks_append_cons (p := fun c => c == 'x' || c == 'X') (by simp only [hx, hX, Bool.or_false])]
  split_ifs with hprefix
  · rw [Bool.and_eq_true] at hprefix
    rw [tail_append_of_peeks hprefix.2, dropWhile_append_cons hhex]
  · dsimp only
    rw [dropWhile_append_cons (p := fun c => c.isDigit || c == '.')
      (by simp only [hdigit, hdot, Bool.or_false])]
    generalize (text.dropWhile fun c => c.isDigit || c == '.') = rest
    rw [peeks_append_cons (p := fun c => c == 'e' || c == 'E')
      (by simp only [he, hE, Bool.or_false])]
    cases hpeek : peeks (fun c => c == 'e' || c == 'E') rest with
    | false => rfl
    | true =>
        rw [tail_append_of_peeks hpeek, hexponent, peeks_append_cons hsign]
        split_ifs with hvalid hs
        · rw [tail_append_of_peeks hs, dropWhile_append_cons hdigit]
        · rw [dropWhile_append_cons hdigit]
        · rfl

theorem quotingFrom_dropWhile {p : Char → Bool} (hp : p '\'' = false) (text : List Char) :
    quotingFrom .outside (text.dropWhile p) = quotingFrom .outside text := by
  induction text with
  | nil => rfl
  | cons c text ih =>
      by_cases hc : p c = true
      · have hquote : c ≠ '\'' := by
          rintro rfl
          rw [hp] at hc
          cases hc
        rw [List.dropWhile_cons_of_pos hc, ih]
        simp [quotingFrom, Quoting.next, hquote]
      · rw [List.dropWhile_cons_of_neg hc]

theorem quotingFrom_tail {p : Char → Bool} (hp : p '\'' = false) {text : List Char}
    (h : peeks p text = true) : quotingFrom .outside text.tail = quotingFrom .outside text := by
  cases text with
  | nil => rfl
  | cons c text =>
      have hquote : c ≠ '\'' := by
        rintro rfl
        exact Bool.false_ne_true (hp.symm.trans h)
      simp [quotingFrom, Quoting.next, hquote]

theorem quotingFrom_consumeNumberTail (hexPrefix : Bool) (text : List Char) :
    quotingFrom .outside (consumeNumberTail hexPrefix text) = quotingFrom .outside text := by
  unfold consumeNumberTail
  split_ifs with hprefix
  · rw [Bool.and_eq_true] at hprefix
    rw [quotingFrom_dropWhile (by decide), quotingFrom_tail (by decide) hprefix.2]
  · dsimp only
    rw [← quotingFrom_dropWhile (p := fun c => c.isDigit || c == '.') (by decide) text]
    generalize (text.dropWhile fun c => c.isDigit || c == '.') = rest
    split_ifs with hexp hsign
    · rw [Bool.and_eq_true] at hexp
      rw [quotingFrom_dropWhile (by decide), quotingFrom_tail (by decide) hsign,
        quotingFrom_tail (by decide) hexp.1]
    · rw [Bool.and_eq_true] at hexp
      rw [quotingFrom_dropWhile (by decide), quotingFrom_tail (by decide) hexp.1]
    · rfl

/-- Before a literal is opened the loop does not look past its quote. -/
theorem step_outside {c : Char} {text : List Char}
    (h : quotingFrom .outside (c :: text) = .outside) (out : List Char) :
    ∃ out' rest, rest.length ≤ text.length ∧ quotingFrom .outside rest = .outside ∧
      ∀ tail, Loop.step ⟨out, c :: text ++ '\'' :: tail⟩ = ⟨out', rest ++ '\'' :: tail⟩ := by
  by_cases hquote : c = '\''
  · subst hquote
    obtain ⟨rest, hsuffix, hout, heq⟩ := @afterQuoted_append false text h
    refine ⟨out ++ ['?'], rest, hsuffix.length_le, hout, fun tail => ?_⟩
    rw [← heq]
    rfl
  · have htext : quotingFrom .outside text = .outside := by
      simpa [quotingFrom, Quoting.next, hquote] using h
    have hpeek : ∀ tail : List Char,
        peeks Char.isDigit (text ++ '\'' :: tail) = peeks Char.isDigit text :=
      peeks_append_cons (by decide) text
    simp only [List.cons_append, Loop.step, hquote, if_false, hpeek]
    split_ifs with hdigit hsign hblank hspace
    · refine ⟨out ++ ['?'], consumeNumberTail (c == '0') text,
        (consumeNumberTail_suffix (c == '0') text).length_le, ?_, fun tail => ?_⟩
      · rw [quotingFrom_consumeNumberTail, htext]
      · rw [consumeNumberTail_append (by decide)]
    · rw [Bool.and_eq_true] at hsign
      refine ⟨out ++ ['?'], consumeNumberTail false text.tail, ?_, ?_, fun tail => ?_⟩
      · exact (consumeNumberTail_suffix false text.tail).length_le.trans
          (List.tail_suffix text).length_le
      · rw [quotingFrom_consumeNumberTail, quotingFrom_tail (by decide) hsign.2, htext]
      · rw [tail_append_of_peeks hsign.2, consumeNumberTail_append (by decide)]
    · refine ⟨out ++ [' '], text.dropWhile isWhitespace,
        (List.dropWhile_suffix isWhitespace).length_le, ?_, fun tail => ?_⟩
      · rw [quotingFrom_dropWhile (by decide), htext]
      · rw [dropWhile_append_cons (by decide)]
    · refine ⟨out, text.dropWhile isWhitespace,
        (List.dropWhile_suffix isWhitespace).length_le, ?_, fun tail => ?_⟩
      · rw [quotingFrom_dropWhile (by decide), htext]
      · rw [dropWhile_append_cons (by decide)]
    · exact ⟨out ++ [c], text, Nat.le_refl _, htext, fun tail => rfl⟩

theorem finish_step (s : Loop) : scanner.finish s.step = scanner.finish s :=
  scanner.finish_iterate 1 s

theorem finish_outside {text : List Char} (h : quotingFrom .outside text = .outside)
    (out : List Char) :
    ∃ out', ∀ tail,
      scanner.finish ⟨out, text ++ '\'' :: tail⟩ = scanner.finish ⟨out', '\'' :: tail⟩ := by
  induction hn : text.length using Nat.strong_induction_on generalizing text out with
  | _ n ih =>
      cases text with
      | nil => exact ⟨out, fun tail => rfl⟩
      | cons c text =>
          obtain ⟨mid, rest, hlen, hrest, hstep⟩ := step_outside h out
          have hlt : rest.length < n := by
            rw [← hn, List.length_cons]
            omega
          obtain ⟨out', hout⟩ := ih _ hlt hrest mid rfl
          refine ⟨out', fun tail => ?_⟩
          rw [← finish_step, hstep, hout]

/-- A closed literal leaves its mark, whatever stands in it. -/
theorem finish_literal {body q : List Char} (h : isBody body = true) (hq : q.head? ≠ some '\'')
    (out : List Char) :
    scanner.finish ⟨out, '\'' :: (body ++ '\'' :: q)⟩ = scanner.finish ⟨out ++ ['?'], q⟩ := by
  rw [← finish_step]
  show scanner.finish ⟨out ++ ['?'], afterQuoted false (body ++ '\'' :: q)⟩ = _
  rw [afterQuoted_isBody h hq]

theorem normalizeSql_literal {p body body' q : List Char}
    (hp : quotingFrom .outside p = .outside) (hbody : isBody body = true)
    (hbody' : isBody body' = true) (hq : q.head? ≠ some '\'') :
    normalizeSql (p ++ '\'' :: (body ++ '\'' :: q)) =
      normalizeSql (p ++ '\'' :: (body' ++ '\'' :: q)) := by
  obtain ⟨out, hout⟩ := finish_outside hp []
  unfold normalizeSql
  rw [hout, hout, finish_literal hbody hq, finish_literal hbody' hq]

/-- Normal forms stay as they are, cut or not, and say nothing of numbers or of what stands
in a closed literal. -/
theorem normalizeSql_idempotent :
    (∀ sql, normalizeSql (normalizeSql sql) = normalizeSql sql) ∧
      (∀ sql max, normalizeSql (truncateChars (normalizeSql sql) max) =
        truncateChars (normalizeSql sql) max) ∧
      (∀ sql, normalizeDigest (normalizeDigest sql) = normalizeDigest sql) ∧
      (∀ sql, ∀ c ∈ normalizeDigest sql, c.isDigit = false ∧ c ≠ '\'') ∧
      (∀ sql, ∀ c ∈ normalizeSql sql, c.isDigit = false ∧ c ≠ '\'') ∧
      ∀ p body body' q, quotingFrom .outside p = .outside → isBody body = true →
        isBody body' = true → q.head? ≠ some '\'' →
        normalizeSql (p ++ '\'' :: (body ++ '\'' :: q)) =
          normalizeSql (p ++ '\'' :: (body' ++ '\'' :: q)) := by
  have hplain : ∀ {text : List Char}, IsNormal text → ∀ c ∈ text, c.isDigit = false ∧ c ≠ '\'' :=
    fun h c hc => ⟨(h.plain c hc).2.1, (h.plain c hc).1⟩
  have hcut : ∀ sql max, normalizeSql (truncateChars (normalizeSql sql) max) =
      truncateChars (normalizeSql sql) max :=
    fun sql max => normalizeSql_of_isNormal (isNormal_truncateChars (isNormal_normalizeSql sql) max)
  refine ⟨?_, hcut, ?_, ?_, ?_, ?_⟩
  · exact fun sql => normalizeSql_of_isNormal (isNormal_normalizeSql sql)
  · intro sql
    unfold normalizeDigest
    rw [hcut, truncateChars_truncateChars]
  · exact fun sql => hplain (isNormal_truncateChars (isNormal_normalizeSql sql) digestMaxChars)
  · exact fun sql => hplain (isNormal_normalizeSql sql)
  · exact fun p body body' q hp hbody hbody' hq => normalizeSql_literal hp hbody hbody' hq

theorem normalizeSql_idempotent_names :
    normalizeSql ("SELECT 'it''s', ".toList ++ '\'' :: ("bob".toList ++ '\'' :: [])) =
      normalizeSql ("SELECT 'it''s', ".toList ++ '\'' :: ("o\\'hara".toList ++ '\'' :: [])) :=
  normalizeSql_idempotent.2.2.2.2.2 _ _ _ _ (by decide +kernel) (by decide +kernel)
    (by decide +kernel) (by decide)

end Dbmaster.QueryStats.Normalize
