import Dbmaster.Lib.Scan
import Dbmaster.Lib.Text
/-!
# The script splitter

`split_sql_script` as a scanner: the state is that of the loop, with the rest of
the characters in place of the index.  What `char::is_alphanumeric` accepts is a
parameter.
-/

namespace Dbmaster.SqlSplit.Splitter

open Dbmaster.Lib

structure State where
  rest : List Char
  buf : List Char
  delimiter : List Char
  delimiter_ne : delimiter ≠ []
  inQuote : Option Char
  beginDepth : Nat
  statements : List (List Char)

/-! ## The tests at a position -/

section Tests

variable (alphanumeric : Char → Bool)

def isLineCommentStart : List Char → Bool
  | '#' :: _ => true
  | ['-', '-'] => true
  | '-' :: '-' :: nxt :: _ => Text.isWhitespace nxt
  | _ => false

def isBlockCommentStart (chars : List Char) : Bool := Text.startsWith chars "/*"

def isQuoteStart (c : Char) : Bool := c == '\'' || c == '"' || c == '`'

/-- The text starts with the word and a character that ends words follows. -/
def matchKeyword (kw : String) (chars : List Char) : Bool :=
  Text.asciiUpper (chars.take kw.length) == kw.toList &&
    match chars.drop kw.length with
    | [] => true
    | nxt :: _ => !(alphanumeric nxt || nxt == '_')

def matchesStr (chars s : List Char) : Bool := s.isPrefixOf chars

def matchesDelimiterDirective (chars : List Char) : Bool :=
  matchKeyword alphanumeric "DELIMITER" chars

def isBlank (text : List Char) : Bool := Text.trim text == []

/-- `END` here closes a block: blanks, and then the delimiter or the end. -/
def endCloses (delimiter chars : List Char) : Bool :=
  let after := (chars.drop 3).dropWhile fun c => Text.isWhitespace c && c != '\n'
  matchesStr after delimiter || after == []

end Tests

/-- The rest of a block comment up to its end, and what follows it. -/
def blockTail : List Char → List Char × List Char
  | '*' :: '/' :: text => (['*', '/'], text)
  | c :: text => (c :: (blockTail text).1, (blockTail text).2)
  | [] => ([], [])

/-- `str::len` -/
def byteLen : List Char → Nat
  | [] => 0
  | c :: text => c.utf8Size + byteLen text

/-- The line after the word `DELIMITER` gives the new delimiter. -/
def newDelimiter (chars : List Char) : List Char :=
  Text.trim (((chars.drop 9).dropWhile fun c => Text.isWhitespace c && c != '\n').takeWhile
    (· != '\n'))

def flush (buf : List Char) : List (List Char) :=
  if Text.trim buf = [] then [] else [Text.trim buf]

/-! ## The loop -/

section Loop

variable (alphanumeric : Char → Bool)

/-- One turn of the loop inside a quote. -/
def stepQuoted (s : State) (q c : Char) (rest : List Char) : State :=
  match c, rest with
  | '\\', escaped :: rest => { s with rest := rest, buf := s.buf ++ ['\\', escaped] }
  | c, rest =>
      { s with
        rest := rest
        buf := s.buf ++ [c]
        inQuote := if c = q then none else some q }

def stepLineComment (s : State) : State :=
  { s with
    rest := s.rest.dropWhile (· != '\n')
    buf := s.buf ++ s.rest.takeWhile (· != '\n') }

def stepBlockComment (s : State) : State :=
  { s with
    rest := (blockTail (s.rest.drop 2)).2
    buf := s.buf ++ s.rest.take 2 ++ (blockTail (s.rest.drop 2)).1 }

def stepDirective (s : State) : State :=
  if h : newDelimiter s.rest = [] then
    { s with rest := (s.rest.drop 9).dropWhile (· != '\n'), buf := [] }
  else
    { s with
      rest := (s.rest.drop 9).dropWhile (· != '\n')
      buf := []
      delimiter := newDelimiter s.rest
      delimiter_ne := h }

/-- Copy a keyword of that many letters and set the depth. -/
def stepKeyword (s : State) (letters depth : Nat) : State :=
  { s with
    rest := s.rest.drop letters
    buf := s.buf ++ s.rest.take letters
    beginDepth := depth }

def stepTerminator (s : State) : State :=
  if 0 < s.beginDepth then
    { s with rest := s.rest.drop (byteLen s.delimiter), buf := s.buf ++ s.delimiter }
  else
    { s with
      rest := s.rest.drop (byteLen s.delimiter)
      buf := []
      statements := s.statements ++ flush s.buf }

/-- One turn of the loop outside quotes. -/
def stepPlain (s : State) (c : Char) (rest : List Char) : State :=
  if isLineCommentStart s.rest then stepLineComment s
  else if isBlockCommentStart s.rest then stepBlockComment s
  else if isQuoteStart c then { s with rest := rest, buf := s.buf ++ [c], inQuote := some c }
  else if isBlank s.buf && matchesDelimiterDirective alphanumeric s.rest then stepDirective s
  else if matchKeyword alphanumeric "BEGIN" s.rest then stepKeyword s 5 (s.beginDepth + 1)
  else if matchesStr s.rest s.delimiter then stepTerminator s
  else if decide (0 < s.beginDepth) && matchKeyword alphanumeric "END" s.rest &&
      endCloses s.delimiter s.rest then stepKeyword s 3 (s.beginDepth - 1)
  else { s with rest := rest, buf := s.buf ++ [c] }

def step (s : State) : State :=
  match s.rest with
  | [] => s
  | c :: rest =>
    match s.inQuote with
    | some q => stepQuoted s q c rest
    | none => stepPlain alphanumeric s c rest

end Loop

theorem semicolon_ne_nil : [';'] ≠ [] := List.cons_ne_nil _ _

def start (script : List Char) : State where
  rest := script
  buf := []
  delimiter := [';']
  delimiter_ne := semicolon_ne_nil
  inQuote := none
  beginDepth := 0
  statements := []

/-! ## Blank texts -/

theorem isBlank_iff {text : List Char} :
    isBlank text = true ↔ ∀ c ∈ text, Text.isWhitespace c = true := by
  simp only [isBlank, beq_iff_eq, Text.trim, Text.trimEnd, Text.trimStart,
    List.reverse_eq_nil_iff, List.dropWhile_eq_nil_iff, List.mem_reverse]
  constructor
  · intro h c hc
    rw [← List.takeWhile_append_dropWhile (p := Text.isWhitespace) (l := text)] at hc
    rcases List.mem_append.mp hc with hstart | hend
    · exact List.mem_takeWhile_imp hstart
    · exact h c hend
  · intro h c hc
    exact h c ((List.dropWhile_suffix _).subset hc)

theorem isBlank_append {first second : List Char} :
    isBlank (first ++ second) = true ↔ isBlank first = true ∧ isBlank second = true := by
  simp only [isBlank_iff, List.mem_append, or_imp, forall_and]

theorem not_isBlank_append_cons {c : Char} (hc : Text.isWhitespace c = false)
    (first second : List Char) : isBlank (first ++ c :: second) = false := by
  by_contra h
  have hall := isBlank_iff.mp (Bool.not_eq_false _ ▸ h) c (by simp)
  rw [hc] at hall
  cases hall

theorem isQuoteStart_not_whitespace {c : Char} (h : isQuoteStart c = true) :
    Text.isWhitespace c = false := by
  simp only [isQuoteStart, Bool.or_eq_true, beq_iff_eq] at h
  rcases h with (rfl | rfl) | rfl <;> decide

/-! ## The first character of a keyword -/

section Keywords

variable {alphanumeric : Char → Bool}

theorem head_of_matchKeyword {kw : String} {c : Char} {rest : List Char}
    (h : matchKeyword alphanumeric kw (c :: rest) = true) (hkw : kw.length ≠ 0) :
    kw.toList.head? = some c.toUpper := by
  simp only [matchKeyword, Bool.and_eq_true, beq_iff_eq] at h
  obtain ⟨n, hn⟩ := Nat.exists_eq_succ_of_ne_zero hkw
  rw [← h.1, hn, List.take_succ_cons]
  rfl

/-- The keywords start with no character that another token starts with. -/
theorem plain_of_toUpper {c : Char} (h : c.toUpper = 'B' ∨ c.toUpper = 'D' ∨ c.toUpper = 'E') :
    isQuoteStart c = false ∧ Text.isWhitespace c = false ∧ c ≠ '#' ∧ c ≠ '-' ∧ c ≠ '/' := by
  have hchar : ∀ d : Char, d.toNat = c.toNat → c = d := by
    intro d hd
    exact Char.ext (UInt32.toNat_inj.mp hd.symm)
  have hc : c = 'B' ∨ c = 'D' ∨ c = 'E' ∨ c = 'b' ∨ c = 'd' ∨ c = 'e' := by
    rcases Text.toNat_toUpper c with hsame | hlower
    · rw [hsame] at h
      tauto
    · rcases h with h | h | h
      · rw [h] at hlower
        exact .inr (.inr (.inr (.inl (hchar 'b' hlower))))
      · rw [h] at hlower
        exact .inr (.inr (.inr (.inr (.inl (hchar 'd' hlower)))))
      · rw [h] at hlower
        exact .inr (.inr (.inr (.inr (.inr (hchar 'e' hlower)))))
  rcases hc with rfl | rfl | rfl | rfl | rfl | rfl <;> decide

/-- Where a keyword starts no comment does. -/
theorem not_comment {c : Char} (h : c ≠ '#' ∧ c ≠ '-' ∧ c ≠ '/') (rest : List Char) :
    isLineCommentStart (c :: rest) = false ∧ isBlockCommentStart (c :: rest) = false := by
  obtain ⟨hhash, hdash, hslash⟩ := h
  constructor
  · unfold isLineCommentStart
    split
    case h_1 heq => exact absurd (List.cons.inj heq).1 hhash
    case h_2 heq => exact absurd (List.cons.inj heq).1 hdash
    case h_3 heq => exact absurd (List.cons.inj heq).1 hdash
    case h_4 => rfl
  · have hne : ('/' == c) = false := beq_false_of_ne hslash.symm
    show (('/' == c) && ['*'].isPrefixOf rest) = false
    rw [hne, Bool.false_and]

theorem begin_plain {c : Char} {rest : List Char}
    (h : matchKeyword alphanumeric "BEGIN" (c :: rest) = true) :
    isQuoteStart c = false ∧ Text.isWhitespace c = false ∧ c ≠ '#' ∧ c ≠ '-' ∧ c ≠ '/' :=
  plain_of_toUpper (.inl (Option.some.inj (head_of_matchKeyword h (by decide))).symm)

theorem delimiter_plain {c : Char} {rest : List Char}
    (h : matchesDelimiterDirective alphanumeric (c :: rest) = true) :
    isQuoteStart c = false ∧ Text.isWhitespace c = false ∧ c ≠ '#' ∧ c ≠ '-' ∧ c ≠ '/' :=
  plain_of_toUpper (.inr (.inl (Option.some.inj (head_of_matchKeyword h (by decide))).symm))

theorem end_plain {c : Char} {rest : List Char}
    (h : matchKeyword alphanumeric "END" (c :: rest) = true) :
    isQuoteStart c = false ∧ Text.isWhitespace c = false ∧ c ≠ '#' ∧ c ≠ '-' ∧ c ≠ '/' :=
  plain_of_toUpper (.inr (.inr (Option.some.inj (head_of_matchKeyword h (by decide))).symm))

end Keywords

/-! ## The loop ends -/

theorem blockTail_append (text : List Char) : (blockTail text).1 ++ (blockTail text).2 = text := by
  fun_induction blockTail text with
  | case1 text => rfl
  | case2 c text hnot ih => rw [List.cons_append, ih]
  | case3 => rfl

theorem blockTail_length (text : List Char) :
    (blockTail text).1.length + (blockTail text).2.length = text.length := by
  fun_induction blockTail text with
  | case1 text => simp; omega
  | case2 c text hnot ih => simp only [List.length_cons]; omega
  | case3 => rfl

theorem length_of_matchKeyword {alphanumeric : Char → Bool} {kw : String} {chars : List Char}
    (h : matchKeyword alphanumeric kw chars = true) : kw.length ≤ chars.length := by
  simp only [matchKeyword, Bool.and_eq_true, beq_iff_eq] at h
  have hlength := congrArg List.length h.1
  simp only [Text.asciiUpper, List.length_map, List.length_take, String.length_toList] at hlength
  omega

theorem one_le_byteLen {text : List Char} (h : text ≠ []) : 1 ≤ byteLen text := by
  obtain ⟨c, cs, rfl⟩ := List.exists_cons_of_ne_nil h
  have hc := c.utf8Size_pos
  rw [byteLen]
  omega

theorem dropWhile_length_le {α : Type} (p : α → Bool) (xs : List α) :
    (xs.dropWhile p).length ≤ xs.length := (List.dropWhile_suffix p).length_le

theorem stepQuoted_reads (s : State) (q c : Char) (rest : List Char) :
    (stepQuoted s q c rest).rest.length < (c :: rest).length := by
  unfold stepQuoted
  split
  · simp only [List.length_cons]
    omega
  · simp

theorem lineComment_reads {chars : List Char} (h : isLineCommentStart chars = true) :
    (chars.dropWhile (· != '\n')).length < chars.length := by
  have hhead : ∃ c text, chars = c :: text ∧ (c != '\n') = true := by
    unfold isLineCommentStart at h
    split at h
    case h_1 text => exact ⟨'#', text, rfl, rfl⟩
    case h_2 => exact ⟨'-', ['-'], rfl, rfl⟩
    case h_3 nxt text => exact ⟨'-', '-' :: nxt :: text, rfl, rfl⟩
    case h_4 => cases h
  obtain ⟨c, text, rfl, hc⟩ := hhead
  have hle := dropWhile_length_le (· != '\n') text
  have hdrop : (c :: text).dropWhile (· != '\n') = text.dropWhile (· != '\n') :=
    List.dropWhile_cons_of_pos hc
  rw [hdrop, List.length_cons]
  omega

theorem blockComment_reads {chars : List Char} (h : isBlockCommentStart chars = true) :
    (blockTail (chars.drop 2)).2.length < chars.length := by
  have hlength : 2 ≤ chars.length := (List.isPrefixOf_iff_prefix.mp h).length_le
  have htail := blockTail_length (chars.drop 2)
  rw [List.length_drop] at htail
  omega

theorem stepDirective_reads {alphanumeric : Char → Bool} {s : State}
    (h : matchesDelimiterDirective alphanumeric s.rest = true) :
    (stepDirective s).rest.length < s.rest.length := by
  have hlength : 9 ≤ s.rest.length := length_of_matchKeyword h
  have hle := dropWhile_length_le (· != '\n') (s.rest.drop 9)
  rw [List.length_drop] at hle
  unfold stepDirective
  split
  · show ((s.rest.drop 9).dropWhile (· != '\n')).length < s.rest.length
    omega
  · show ((s.rest.drop 9).dropWhile (· != '\n')).length < s.rest.length
    omega

theorem stepTerminator_reads {s : State} (hrest : s.rest ≠ []) :
    (stepTerminator s).rest.length < s.rest.length := by
  have hone := one_le_byteLen s.delimiter_ne
  have hpos := List.length_pos_of_ne_nil hrest
  have hdrop : (s.rest.drop (byteLen s.delimiter)).length < s.rest.length := by
    rw [List.length_drop]
    omega
  unfold stepTerminator
  split
  · exact hdrop
  · exact hdrop

theorem stepKeyword_reads {s : State} (hrest : s.rest ≠ []) {letters : Nat}
    (hletters : 0 < letters) (depth : Nat) :
    (stepKeyword s letters depth).rest.length < s.rest.length := by
  have hpos := List.length_pos_of_ne_nil hrest
  show (s.rest.drop letters).length < s.rest.length
  rw [List.length_drop]
  omega

theorem step_reads (alphanumeric : Char → Bool) (s : State) (hrest : s.rest ≠ []) :
    (step alphanumeric s).rest.length < s.rest.length := by
  unfold step
  split
  case h_1 hnil => exact absurd hnil hrest
  case h_2 c text heq =>
    have hone : text.length < s.rest.length := by
      rw [heq]
      exact Nat.lt_succ_self _
    split
    · rw [heq]
      exact stepQuoted_reads s _ c text
    · unfold stepPlain
      split
      case isTrue h => exact lineComment_reads h
      split
      case isTrue h => exact blockComment_reads h
      split
      case isTrue => exact hone
      split
      case isTrue h => exact stepDirective_reads (Bool.and_eq_true_iff.mp h).2
      split
      case isTrue => exact stepKeyword_reads hrest (by decide) _
      split
      case isTrue => exact stepTerminator_reads hrest
      split
      case isTrue => exact stepKeyword_reads hrest (by decide) _
      case isFalse => exact hone

def splitter (alphanumeric : Char → Bool) : Scan.Scanner State Char where
  rest := State.rest
  step := step alphanumeric
  reads := step_reads alphanumeric
  stops s h := by
    unfold step
    rw [h]

/-- The statements, with the one that the end of the script ends. -/
def State.output (s : State) : List (List Char) := s.statements ++ flush s.buf

def splitSqlScript (alphanumeric : Char → Bool) (script : List Char) : List (List Char) :=
  ((splitter alphanumeric).finish (start script)).output

example : splitSqlScript Char.isAlphanum
    "BEGIN a; b; END; c".toList = ["BEGIN a; b; END".toList, "c".toList] := by
  decide

end Dbmaster.SqlSplit.Splitter
