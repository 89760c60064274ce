import Dbmaster.DataSync.Etl
import Dbmaster.Lib.Quoted
import Dbmaster.Lib.Tokens
import Mathlib.Data.List.DropRight
/-!
# The tokens of the source dialects

The lexical rules of MySQL and of PostgreSQL: what is a name, a literal, a
comment, a placeholder or an operator.  A character from U+0080 on is a letter
to both, whatever Unicode says of it.
-/

namespace Dbmaster.DataSync.Tokenizer

open Dbmaster.Lib Dbmaster.Lib.Tokens Dbmaster.DataSync.Etl

inductive Token where
  | word (text : List Char)
  | number (text : List Char)
  | symbol (text : List Char)
  /-- a name between delimiters -/
  | quoted (text : List Char)
  | literal (text : List Char)
  | placeholder (text : List Char)
  /-- what the dialect rejects -/
  | broken (text : List Char)
deriving DecidableEq

/-- The text of a token that the text alone makes what it is. -/
def Token.code : Token → Option (List Char)
  | .word text | .number text | .symbol text => some text
  | _ => none

/-- The token that is being read. -/
inductive State where
  | gap
  | run (text : List Char)
  | placeholder (text : List Char)
  | symbol (text : List Char)
  | delimited (close : Char) (text : List Char)
  /-- after a backslash -/
  | escaped (close : Char) (text : List Char)
  /-- after a delimiter, which another one would make part of the text -/
  | closed (close : Char) (text : List Char)
  | line
  /-- so many comments around this one, and the character before -/
  | comment (depth : Nat) (last : Char)
deriving DecidableEq

def isBlank (c : Char) : Bool := (9 ≤ c.toNat && c.toNat ≤ 13) || c == ' '

def isWord (c : Char) : Bool := c.isAlphanum || c == '_' || c == '$' || 128 ≤ c.toNat

def nameDelimiter : SourceKind → Char
  | .mySql => '\x60'
  | .postgres => '"'

def operators : SourceKind → List String
  | .mySql => ["<=", ">=", "<>", "!=", "<=>", "<<", ">>", "&&", "||", ":=", "->", "->>"]
  | .postgres => ["::", ":=", ".."]

def isOperator (c : Char) : Bool := "+-*/<>=~!@#%^&|?\x60".toList.contains c

/-- PostgreSQL makes one operator of all the operator characters that it finds. -/
def joins (src : SourceKind) (text : List Char) (c : Char) : Bool :=
  (operators src).any (fun op => op.toList == text ++ [c]) ||
    (src == .postgres && text.all isOperator && isOperator c)

def start (src : SourceKind) (c : Char) : State :=
  if isBlank c then .gap
  else if (src = .mySql ∧ c = '?') ∨ (src = .postgres ∧ c = '$') then .placeholder [c]
  else if isWord c then .run [c]
  else if c = '\'' ∨ c = '"' ∨ c = nameDelimiter src then .delimited c []
  else if src = .mySql ∧ c = '#' then .line
  else .symbol [c]

def extendSymbol (src : SourceKind) (text : List Char) (c : Char) : Option State :=
  if text = ['/'] ∧ c = '*' then some (.symbol ['/', '*'])
  else if text = ['/', '*'] then
    -- what follows `/*!` is executed by MySQL
    if src = .mySql ∧ c = '!' then some (.symbol ['/', '*', '!']) else some (.comment 0 c)
  else if text = ['-'] ∧ c = '-' then
    some (if src = .postgres then .line else .symbol ['-', '-'])
  else if text = ['-', '-'] then
    if c = '\n' then some .gap else if isBlank c then some .line else none
  else if joins src text c then some (.symbol (text ++ [c]))
  else none

def extend (src : SourceKind) : State → Char → Option State
  | .gap, _ => none
  | .run text, c => if isWord c then some (.run (text ++ [c])) else none
  | .placeholder text, c =>
      if src = .postgres ∧ c.isDigit then some (.placeholder (text ++ [c])) else none
  | .symbol text, c => extendSymbol src text c
  | .delimited close text, c =>
      if c = close then some (.closed close text)
      else if c = '\\' ∧ src = .mySql ∧ close ≠ nameDelimiter src then some (.escaped close text)
      else some (.delimited close (text ++ [c]))
  | .escaped close text, c => some (.delimited close (text ++ [c]))
  | .closed close text, c => if c = close then some (.delimited close (text ++ [c])) else none
  | .line, c => some (if c = '\n' then .gap else .line)
  | .comment depth last, c =>
      if last = '*' ∧ c = '/' then
        some (if depth = 0 then .gap else .comment (depth - 1) ' ')
      else if src = .postgres ∧ last = '/' ∧ c = '*' then some (.comment (depth + 1) ' ')
      else some (.comment depth c)

def finish (src : SourceKind) : State → List Token
  | .gap | .line => []
  | .run text => [if text.all Char.isDigit then .number text else .word text]
  | .placeholder text => [if text = ['$'] then .symbol text else .placeholder text]
  | .symbol text =>
      if text = ['/', '*'] then [.broken text]
      else if text = ['-', '-'] then [.symbol ['-'], .symbol ['-']]
      else [.symbol text]
  | .delimited _ text | .escaped _ text => [.broken text]
  | .closed close text =>
      if close = nameDelimiter src then
        [if text = [] ∨ '\x00' ∈ text then .broken text else .quoted text]
      else [.literal text]
  | .comment _ _ => [.broken []]

def lexer (src : SourceKind) : Lexer State Char Token where
  idle := .gap
  start := start src
  extend := extend src
  finish := finish src
  extend_idle _ := rfl
  finish_idle := rfl

@[simp] theorem lexer_extend (src : SourceKind) : (lexer src).extend = extend src := rfl

@[simp] theorem lexer_start (src : SourceKind) : (lexer src).start = start src := rfl

def tokens (src : SourceKind) (text : List Char) : List Token := (lexer src).tokens text

example : tokens .mySql "a.b>= ? -- x".toList =
    [.word ['a'], .symbol ['.'], .word ['b'], .symbol ['>', '='], .placeholder ['?']] := by decide

example : tokens .postgres "a::text/*?*/<$12".toList =
    [.word ['a'], .symbol [':', ':'], .word ['t', 'e', 'x', 't'], .symbol ['<'],
      .placeholder ['$', '1', '2']] := by decide

/-! ## Names without delimiters -/

/-- What can stand in a name, or in what a placeholder made of it. -/
def IsPlain (src : SourceKind) (c : Char) : Prop :=
  isBlank c = true ∨ isWord c = true ∨ (src = .mySql ∧ c = '?')

/-- Nothing, a word or a placeholder is pending. -/
def Light : State → Prop
  | .gap | .run _ | .placeholder _ => True
  | _ => False

/-- A word or a placeholder is pending. -/
def Busy : State → Prop
  | .run _ | .placeholder _ => True
  | _ => False

/-- The text without the blanks around it. -/
def core (text : List Char) : List Char := (text.dropWhile isBlank).rdropWhile isBlank

variable {src : SourceKind} {c : Char} {s : State} {text : List Char}

theorem start_of_blank (h : isBlank c = true) : start src c = .gap := by rw [start, if_pos h]

theorem isBlank_iff : isBlank c = true ↔ (9 ≤ c.toNat ∧ c.toNat ≤ 13) ∨ c.toNat = 32 := by
  have hspace : c = ' ' ↔ c.toNat = 32 := Char.toNat_inj.symm
  simp [isBlank, hspace]

theorem isDigit_iff : c.isDigit = true ↔ 48 ≤ c.toNat ∧ c.toNat ≤ 57 := by
  simp only [Char.isDigit, Bool.and_eq_true, decide_eq_true_eq, ge_iff_le, UInt32.le_iff_toNat_le]
  exact Iff.rfl

theorem isAlpha_iff : c.isAlpha = true ↔
    (65 ≤ c.toNat ∧ c.toNat ≤ 90) ∨ (97 ≤ c.toNat ∧ c.toNat ≤ 122) := by
  have hletter : c.isAlpha = (decide (c.val ≥ 'A'.val ∧ c.val ≤ 'Z'.val) ||
      (decide (c.val ≥ 'a'.val) && decide (c.val ≤ 'z'.val))) := rfl
  rw [hletter, Bool.or_eq_true, Bool.and_eq_true, decide_eq_true_eq, decide_eq_true_eq,
    decide_eq_true_eq]
  exact Iff.rfl

theorem isWord_iff : isWord c = true ↔
    (48 ≤ c.toNat ∧ c.toNat ≤ 57) ∨ (65 ≤ c.toNat ∧ c.toNat ≤ 90) ∨
      (97 ≤ c.toNat ∧ c.toNat ≤ 122) ∨ c.toNat = 95 ∨ c.toNat = 36 ∨ 128 ≤ c.toNat := by
  have hunder : c = '_' ↔ c.toNat = 95 := Char.toNat_inj.symm
  have hdollar : c = '$' ↔ c.toNat = 36 := Char.toNat_inj.symm
  simp only [isWord, Char.isAlphanum, Bool.or_eq_true, beq_iff_eq, decide_eq_true_eq, hunder,
    hdollar, isAlpha_iff, isDigit_iff]
  omega

theorem isWord_eq_false_of_isBlank (h : isBlank c = true) : isWord c = false := by
  rw [isBlank_iff] at h
  rw [Bool.eq_false_iff, Ne, isWord_iff]
  omega

theorem isOperator_eq_false (h : isBlank c = true ∨ isWord c = true) : isOperator c = false := by
  rw [Bool.eq_false_iff]
  intro hop
  have hmem : c ∈ "+-*/<>=~!@#%^&|?\x60".toList := by simpa [isOperator] using hop
  have hnone : ∀ d ∈ "+-*/<>=~!@#%^&|?\x60".toList, ¬ (isBlank d = true ∨ isWord d = true) := by
    decide
  exact hnone c hmem h

/-- A name joins no sign that can stand before it. -/
theorem extend_symbol_of_opens {d : Char} (h : IsPlain src c ∨ c = nameDelimiter src)
    (hd : d ∈ ['.', '(', '=']) : extend src (.symbol [d]) c = none := by
  have hdot : c ≠ '.' := by
    rintro rfl
    cases src <;> exact absurd h (by unfold IsPlain; decide)
  have hop : src = .postgres → isOperator c = false := by
    rintro rfl
    rcases h with (hb | hw | hq) | rfl
    · exact isOperator_eq_false (.inl hb)
    · exact isOperator_eq_false (.inr hw)
    · cases hq.1
    · decide
  have hjoins : joins src [d] c = false := by
    unfold joins operators
    cases src with
    | mySql =>
        rcases List.mem_cons.mp hd with rfl | hd
        · simp
        · rcases List.mem_cons.mp hd with rfl | hd
          · simp
          · rw [List.mem_singleton.mp hd]
            simp
    | postgres =>
        rw [hop rfl, Bool.and_false, Bool.or_false]
        rcases List.mem_cons.mp hd with rfl | hd
        · simp [hdot.symm]
        · rcases List.mem_cons.mp hd with rfl | hd
          · simp
          · rw [List.mem_singleton.mp hd]
            simp
  have hslash : d ≠ '/' ∧ d ≠ '-' := by
    constructor <;> rintro rfl <;> exact absurd hd (by decide)
  rw [extend, extendSymbol, hjoins]
  simp [hslash.1, hslash.2]

theorem light_of_busy (h : Busy s) : Light s := by
  cases s with
  | run | placeholder => trivial
  | gap | symbol | delimited | escaped | closed | line | comment => cases h

theorem busy_start (h : IsPlain src c) (hc : isBlank c = false) : Busy (start src c) := by
  unfold start
  rw [if_neg (by simp [hc])]
  split
  case isTrue => trivial
  case isFalse hmark =>
    rcases h with hb | hw | hq
    · rw [hc] at hb
      cases hb
    · rw [if_pos hw]
      trivial
    · exact absurd (.inl hq) hmark

theorem light_start (h : IsPlain src c) : Light (start src c) := by
  by_cases hblank : isBlank c = true
  · rw [start_of_blank hblank]
    trivial
  · exact light_of_busy (busy_start h (Bool.eq_false_iff.mpr hblank))

/-- Only a word or a placeholder is extended, and stays one. -/
theorem busy_of_extend {s' : State} (hs : Light s) (h : extend src s c = some s') : Busy s' := by
  cases s with
  | gap => cases h
  | run text =>
      simp only [extend] at h
      split at h
      · cases h
        trivial
      · cases h
  | placeholder text =>
      simp only [extend] at h
      split at h
      · cases h
        trivial
      · cases h
  | symbol | delimited | escaped | closed | line | comment => cases hs

theorem light_next (h : IsPlain src c) (hs : Light s) : Light ((lexer src).next s c) := by
  unfold Lexer.next
  cases hc : (lexer src).extend s c with
  | some s' => exact light_of_busy (busy_of_extend hs hc)
  | none => exact light_start h

theorem light_pending (h : ∀ c ∈ text, IsPlain src c) (hs : Light s) :
    Light ((lexer src).pending s text) :=
  Lexer.pending_invariant hs fun c hc _ hs => light_next (h c hc) hs

/-- What is no letter extends none of them. -/
theorem extend_of_light (h : isWord c = false) (hs : Light s) : extend src s c = none := by
  cases s with
  | gap => rfl
  | run text => rw [extend, h, if_neg Bool.false_ne_true]
  | placeholder text =>
      have hdigit : ¬ c.isDigit = true := by
        rw [Bool.eq_false_iff, Ne, isWord_iff] at h
        rw [isDigit_iff]
        omega
      rw [extend, if_neg fun hc => hdigit hc.2]
  | symbol | delimited | escaped | closed | line | comment => cases hs

theorem tokens_blank_append {a : List Char} (h : ∀ c ∈ a, isBlank c = true)
    (text : List Char) : tokens src (a ++ text) = tokens src text := by
  induction a with
  | nil => rfl
  | cons c a ih =>
      rw [← ih fun d hd => h d (List.mem_cons_of_mem c hd)]
      unfold tokens
      rw [List.cons_append, Lexer.tokens_cons, lexer_start,
        start_of_blank (h c List.mem_cons_self)]
      rfl

/-- Plain texts with a blank between them are read one after the other. -/
theorem tokens_append_blank {blank : List Char} {b : Char} (hb : isBlank b = true)
    (h : ∀ c ∈ text, IsPlain src c) :
    tokens src (text ++ b :: blank) = tokens src text ++ tokens src blank := by
  have hparts : (lexer src).Parts ((lexer src).pending (lexer src).idle text) (b :: blank) := by
    intro c hc
    cases hc
    exact extend_of_light (isWord_eq_false_of_isBlank hb) (light_pending h trivial)
  have hblank : tokens src (b :: blank) = tokens src blank :=
    tokens_blank_append (a := [b]) (by simpa using hb) blank
  rw [tokens, Lexer.tokens_append hparts]
  exact congrArg _ hblank

theorem tokens_append_blanks {blank : List Char} (hblank : ∀ c ∈ blank, isBlank c = true)
    (h : ∀ c ∈ text, IsPlain src c) : tokens src (text ++ blank) = tokens src text := by
  cases blank with
  | nil => rw [List.append_nil]
  | cons b blank =>
      have hrest : tokens src (blank ++ []) = tokens src [] :=
        tokens_blank_append (fun c hc => hblank c (List.mem_cons_of_mem b hc)) []
      rw [List.append_nil] at hrest
      rw [tokens_append_blank (hblank b List.mem_cons_self) h, hrest]
      exact List.append_nil _

theorem exists_core (text : List Char) :
    ∃ a b, (∀ c ∈ a, isBlank c = true) ∧ (∀ c ∈ b, isBlank c = true) ∧
      text = a ++ (core text ++ b) := by
  have hleft := List.takeWhile_append_dropWhile (p := isBlank) (l := text)
  have hright := List.rdropWhile_append_rtakeWhile (p := isBlank) (l := text.dropWhile isBlank)
  refine ⟨text.takeWhile isBlank, (text.dropWhile isBlank).rtakeWhile isBlank,
    fun c hc => List.mem_takeWhile_imp hc, fun c hc => List.mem_rtakeWhile_imp hc, ?_⟩
  rw [core, hright, hleft]

theorem mem_core (h : c ∈ text) (hc : isBlank c = false) : c ∈ core text := by
  obtain ⟨a, b, ha, hb, htext⟩ := exists_core text
  rw [htext, List.mem_append, List.mem_append] at h
  rcases h with h | h | h
  · rw [ha c h] at hc
    cases hc
  · exact h
  · rw [hb c h] at hc
    cases hc

theorem mem_of_mem_core (h : c ∈ core text) : c ∈ text := by
  obtain ⟨a, b, -, -, htext⟩ := exists_core text
  rw [htext]
  exact List.mem_append_right a (List.mem_append_left b h)

theorem core_head {b : Char} {v : List Char} (h : core text = b :: v) : isBlank b = false := by
  obtain ⟨tail, htail⟩ : core text <+: text.dropWhile isBlank := List.rdropWhile_prefix _ _
  rw [h, List.cons_append] at htail
  have hhead := List.head?_dropWhile_not isBlank text
  rw [← htail] at hhead
  simpa using hhead

theorem core_last {b : Char} {u : List Char} (h : core text = u ++ [b]) : isBlank b = false := by
  have hne : core text ≠ [] := by simp [h]
  have hlast : ¬ isBlank ((core text).getLast hne) = true :=
    List.rdropWhile_last_not isBlank (text.dropWhile isBlank) hne
  have hb : (core text).getLast hne = b := by simp [h]
  rw [hb] at hlast
  exact Bool.eq_false_iff.mpr hlast

theorem tokens_core (h : ∀ c ∈ text, IsPlain src c) : tokens src text = tokens src (core text) := by
  obtain ⟨a, b, ha, hb, htext⟩ := exists_core text
  conv_lhs => rw [htext]
  rw [tokens_blank_append ha, tokens_append_blanks hb]
  exact fun c hc => h c (mem_of_mem_core hc)

/-! ### Words -/

theorem tokens_ne_nil (h : ∀ c ∈ text, IsPlain src c) (hc : c ∈ text) (hblank : isBlank c = false) :
    tokens src text ≠ [] := by
  induction text with
  | nil => cases hc
  | cons d text ih =>
      by_cases hd : isBlank d = true
      · have hskip : tokens src (d :: text) = tokens src text :=
          tokens_blank_append (a := [d]) (by simpa using hd) text
        rw [hskip]
        apply ih fun e he => h e (List.mem_cons_of_mem d he)
        rcases List.mem_cons.mp hc with rfl | hin
        · rw [hblank] at hd
          cases hd
        · exact hin
      · have hstart := busy_start (h d List.mem_cons_self) (Bool.eq_false_iff.mpr hd)
        obtain ⟨t, rest, hread, -⟩ := Lexer.readFrom_first (m := lexer src)
          (K := Busy) (F := fun _ => True) (fun s hs c s' hext => busy_of_extend (light_of_busy hs) hext)
          (by
            intro s hs
            cases s with
            | run text => exact ⟨_, [], rfl, trivial⟩
            | placeholder text => exact ⟨_, [], rfl, trivial⟩
            | gap | symbol | delimited | escaped | closed | line | comment => cases hs)
          hstart text
        rw [tokens, Lexer.tokens_cons]
        exact fun hnil => List.cons_ne_nil t rest (hread.symm.trans hnil)

/-- A blank within holds two tokens apart. -/
theorem two_le_length_tokens (h : ∀ c ∈ text, IsPlain src c) (hc : c ∈ core text)
    (hblank : isBlank c = true) : 2 ≤ (tokens src text).length := by
  obtain ⟨u, v, huv⟩ := List.append_of_mem hc
  have hplain : ∀ d ∈ u ++ c :: v, IsPlain src d := by
    intro d hd
    rw [← huv] at hd
    exact h d (mem_of_mem_core hd)
  have hu : tokens src u ≠ [] := by
    cases u with
    | nil =>
        rw [core_head huv] at hblank
        cases hblank
    | cons d u =>
        exact tokens_ne_nil (fun e he => hplain e (List.mem_append_left _ he)) List.mem_cons_self
          (core_head huv)
  have hv : tokens src v ≠ [] := by
    rcases List.eq_nil_or_concat v with rfl | ⟨v, d, rfl⟩
    · rw [core_last huv] at hblank
      cases hblank
    · have hlast : core text = (u ++ c :: v) ++ [d] := by rw [huv]; simp
      refine tokens_ne_nil (fun e he => hplain e ?_) (c := d) (by simp) (core_last hlast)
      exact List.mem_append_right u (List.mem_cons_of_mem c he)
  rw [tokens_core h, huv, tokens_append_blank hblank fun e he =>
    hplain e (List.mem_append_left _ he), List.length_append]
  have hone := List.length_pos_iff.mpr hu
  have htwo := List.length_pos_iff.mpr hv
  omega

theorem foldlM_run (acc : List Char) (h : ∀ c ∈ text, isWord c = true) :
    text.foldlM (lexer src).extend (.run acc) = some (.run (acc ++ text)) := by
  induction text generalizing acc with
  | nil => rw [List.append_nil]; rfl
  | cons c text ih =>
      have hext : extend src (.run acc) c = some (.run (acc ++ [c])) :=
        if_pos (h c List.mem_cons_self)
      have hrest := ih (acc ++ [c]) fun d hd => h d (List.mem_cons_of_mem c hd)
      rw [List.append_assoc, List.singleton_append] at hrest
      rw [List.foldlM_cons, lexer_extend, hext]
      exact hrest

theorem start_of_isWord (h : isWord c = true) (hmark : ¬ (src = .postgres ∧ c = '$')) :
    start src c = .run [c] := by
  have hblank : ¬ isBlank c = true := fun hb => by
    rw [isWord_eq_false_of_isBlank hb] at h
    cases h
  have hquestion : c ≠ '?' := by
    rintro rfl
    exact absurd h (by decide)
  rw [start, if_neg hblank, if_neg, if_pos h]
  rintro (hq | hd)
  · exact hquestion hq.2
  · exact hmark hd

theorem tokens_word (hne : text ≠ []) (h : ∀ c ∈ text, isWord c = true)
    (hmark : ¬ (src = .postgres ∧ text.head? = some '$')) :
    tokens src text = [if text.all Char.isDigit then .number text else .word text] := by
  cases text with
  | nil => exact absurd rfl hne
  | cons c text =>
      have hstart : start src c = .run [c] :=
        start_of_isWord (h c List.mem_cons_self) fun hc => hmark ⟨hc.1, congrArg some hc.2⟩
      rw [tokens, Lexer.tokens_cons, lexer_start, hstart, Lexer.readFrom_of_extends
        (foldlM_run [c] fun d hd => h d (List.mem_cons_of_mem c hd))]
      rfl

/-- A run of letters that is not all digits is one word. -/
theorem tokens_word_of_letter (h : ∀ c ∈ text, isWord c = true)
    (hletter : ∃ c ∈ text, c.isDigit = false)
    (hmark : ¬ (src = .postgres ∧ text.head? = some '$')) : tokens src text = [.word text] := by
  obtain ⟨c, hc, hdigit⟩ := hletter
  have hall : ¬ text.all Char.isDigit = true := by
    rw [List.all_eq_true]
    intro hall
    rw [hall c hc] at hdigit
    cases hdigit
  rw [tokens_word (List.ne_nil_of_mem hc) h hmark, if_neg hall]

/-! ### Placeholders -/

def Token.isName : Token → Bool
  | .word _ | .quoted _ => true
  | _ => false

theorem placeholder_mem_tokens (h : ∀ c ∈ text, IsPlain .mySql c) (hc : '?' ∈ text) :
    .placeholder ['?'] ∈ tokens .mySql text := by
  obtain ⟨u, v, rfl⟩ := List.append_of_mem hc
  have hlight : Light ((lexer .mySql).pending (lexer .mySql).idle u) :=
    light_pending (fun c hc => h c (List.mem_append_left _ hc)) trivial
  have hparts : (lexer .mySql).Parts ((lexer .mySql).pending (lexer .mySql).idle u)
      ('?' :: v) := by
    intro c hc
    cases hc
    cases hs : (lexer .mySql).pending (lexer .mySql).idle u with
    | gap => rfl
    | run text => rfl
    | placeholder text => rfl
    | symbol | delimited | escaped | closed | line | comment =>
        rw [hs] at hlight
        cases hlight
  have hrest : (lexer .mySql).Parts (.placeholder ['?']) v := by
    intro c _
    rw [lexer_extend, extend, if_neg (by simp)]
  rw [tokens, Lexer.tokens_append hparts, Lexer.tokens_cons]
  apply List.mem_append_right
  show .placeholder ['?'] ∈ (lexer .mySql).readFrom (.placeholder ['?']) v
  rw [Lexer.readFrom_of_parts hrest]
  exact List.mem_append_left _ List.mem_cons_self

/-- What starts with a dollar is no name to PostgreSQL. -/
theorem tokens_dollar (v : List Char) :
    ∃ t rest, tokens .postgres ('$' :: v) = t :: rest ∧ t.isName = false := by
  have hextend : ∀ s, (∃ text, s = State.placeholder text) → ∀ c s',
      (lexer .postgres).extend s c = some s' → ∃ text, s' = State.placeholder text := by
    rintro _ ⟨text, rfl⟩ c s' h
    have hif : (if SourceKind.postgres = .postgres ∧ c.isDigit then
        some (State.placeholder (text ++ [c])) else none) = some s' := h
    split at hif
    · cases hif
      exact ⟨_, rfl⟩
    · cases hif
  rw [tokens, Lexer.tokens_cons]
  apply Lexer.readFrom_first (F := fun t : Token => t.isName = false) hextend _ ⟨['$'], rfl⟩
  rintro _ ⟨text, rfl⟩
  refine ⟨_, [], rfl, ?_⟩
  split <;> rfl

/-! ### Names between delimiters -/

/-- Where no backslash escapes, a text with its delimiter doubled is read to the end. -/
theorem foldlM_delimited {close : Char} (hclose : src = .mySql → close = nameDelimiter src)
    (acc name : List Char) :
    (Quoted.double close name ++ [close]).foldlM (lexer src).extend (.delimited close acc) =
      some (.closed close (acc ++ name)) := by
  have hend : ∀ acc, extend src (.delimited close acc) close = some (.closed close acc) :=
    fun _ => if_pos rfl
  induction name generalizing acc with
  | nil =>
      rw [Quoted.double, List.nil_append, List.append_nil, List.foldlM_cons, lexer_extend, hend]
      rfl
  | cons c name ih =>
      have hacc : acc ++ c :: name = acc ++ [c] ++ name := by simp
      rw [Quoted.double, hacc, ← ih]
      by_cases hc : c = close
      · subst hc
        have hagain : extend src (.closed c acc) c = some (.delimited c (acc ++ [c])) := if_pos rfl
        rw [if_pos rfl, List.cons_append, List.cons_append, List.foldlM_cons, lexer_extend, hend,
          Option.bind_eq_bind, Option.bind_some, List.foldlM_cons, hagain]
        rfl
      · have hstep : extend src (.delimited close acc) c =
            some (.delimited close (acc ++ [c])) := by
          rw [extend, if_neg hc, if_neg fun hescape => hescape.2.2 (hclose hescape.2.1)]
        rw [if_neg hc, List.cons_append, List.foldlM_cons, lexer_extend, hstep]
        rfl

theorem start_nameDelimiter : start src (nameDelimiter src) = .delimited (nameDelimiter src) [] := by
  cases src <;> decide

theorem tokens_quoted (name : List Char) :
    tokens src (Quoted.quoted (nameDelimiter src) name) =
      [if name = [] ∨ '\x00' ∈ name then .broken name else .quoted name] := by
  rw [tokens, Quoted.quoted, Lexer.tokens_cons, lexer_start, start_nameDelimiter,
    Lexer.readFrom_of_extends (foldlM_delimited (fun _ => rfl) [] name)]
  exact if_pos rfl

theorem pending_quoted (name : List Char) :
    (lexer src).pending (lexer src).idle (Quoted.quoted (nameDelimiter src) name) =
      .closed (nameDelimiter src) name := by
  have hstart : (lexer src).next (lexer src).idle (nameDelimiter src) =
      .delimited (nameDelimiter src) [] := start_nameDelimiter
  show (lexer src).pending ((lexer src).next (lexer src).idle (nameDelimiter src)) _ = _
  rw [hstart, Lexer.pending_of_extends (foldlM_delimited (fun _ => rfl) [] name)]
  rfl

end Dbmaster.DataSync.Tokenizer
