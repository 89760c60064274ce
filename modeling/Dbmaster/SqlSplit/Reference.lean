import Dbmaster.SqlSplit.Splitter
/-!
# The reference tokenizer

What the script means to the command-line client: a piece ends at each
occurrence of the delimiter outside quotes, identifiers, comments and compound
bodies.  One step reads one token.  The tests for comments and for the end of a
keyword are those of the splitter, whose documentation states them.
-/

namespace Dbmaster.SqlSplit.Reference

open Dbmaster.Lib Dbmaster.SqlSplit.Splitter

structure RefState where
  rest : List Char
  piece : List Char
  delimiter : List Char
  delimiter_ne : delimiter ≠ []
  depth : Nat
  /-- the character before the rest, unless a token ends there -/
  before : Option Char
  /-- only blanks and comments since the last piece ended -/
  fresh : Bool
  pieces : List (List Char)

/-! ## Tokens -/

/-- The rest of a quoted text up to its closing quote, and what follows it;
`escapes` when a backslash takes the next character along. -/
def quotedTail (escapes : Bool) (q : Char) : List Char → List Char × List Char
  | [] => ([], [])
  | [c] => ([c], [])
  | c :: e :: text =>
      if escapes && c == '\\' then
        (c :: e :: (quotedTail escapes q text).1, (quotedTail escapes q text).2)
      else if c = q then ([c], e :: text)
      else (c :: (quotedTail escapes q (e :: text)).1, (quotedTail escapes q (e :: text)).2)

/-- Backslashes escape in strings; in an identifier they are characters. -/
def escapesIn (q : Char) : Bool := q != '`'

/-- The first word of the line after `DELIMITER`. -/
def argument (chars : List Char) : List Char :=
  ((chars.drop 9).dropWhile fun c => Text.isWhitespace c && c != '\n').takeWhile
    fun c => !Text.isWhitespace c

/-- `END` here closes a block: blanks or line breaks, and then the delimiter, the
`;` of an inner block, or the end. -/
def closes (delimiter chars : List Char) : Bool :=
  let after := (chars.drop 3).dropWhile Text.isWhitespace
  matchesStr after delimiter || matchesStr after [';'] || after == []

section Steps

variable (alphanumeric : Char → Bool)

/-- No word runs up to the rest. -/
def atBoundary (s : RefState) : Bool :=
  match s.before with
  | none => true
  | some c => !(alphanumeric c || c == '_')

def atDirective (s : RefState) : Bool :=
  s.fresh && matchesDelimiterDirective alphanumeric s.rest

def readDirective (s : RefState) : RefState :=
  if h : argument s.rest = [] then
    { s with
      rest := (s.rest.drop 9).dropWhile (· != '\n'), piece := [], before := none, fresh := true }
  else
    { s with
      rest := (s.rest.drop 9).dropWhile (· != '\n')
      piece := []
      delimiter := argument s.rest
      delimiter_ne := h
      before := none
      fresh := true }

def cut (s : RefState) : RefState :=
  { s with
    rest := s.rest.drop s.delimiter.length
    piece := []
    before := none
    fresh := true
    pieces := s.pieces ++ flush s.piece }

def readLineComment (s : RefState) : RefState :=
  { s with
    rest := s.rest.dropWhile (· != '\n')
    piece := s.piece ++ s.rest.takeWhile (· != '\n')
    before := none }

def readBlockComment (s : RefState) : RefState :=
  { s with
    rest := (blockTail (s.rest.drop 2)).2
    piece := s.piece ++ s.rest.take 2 ++ (blockTail (s.rest.drop 2)).1
    before := none }

def readQuoted (s : RefState) (q : Char) (rest : List Char) : RefState :=
  { s with
    rest := (quotedTail (escapesIn q) q rest).2
    piece := s.piece ++ q :: (quotedTail (escapesIn q) q rest).1
    before := none
    fresh := false }

def readKeyword (s : RefState) (letters depth : Nat) : RefState :=
  { s with
    rest := s.rest.drop letters
    piece := s.piece ++ s.rest.take letters
    depth := depth
    before := (s.rest.take letters).getLast?
    fresh := false }

/-- A delimiter inside a compound body is text of the body. -/
def readInnerDelimiter (s : RefState) : RefState :=
  { s with
    rest := s.rest.drop s.delimiter.length
    piece := s.piece ++ s.delimiter
    before := none }

def readChar (s : RefState) (c : Char) (rest : List Char) : RefState :=
  { s with
    rest := rest
    piece := s.piece ++ [c]
    before := some c
    fresh := s.fresh && Text.isWhitespace c }

def readToken (s : RefState) (c : Char) (rest : List Char) : RefState :=
  if atDirective alphanumeric s then readDirective s
  else if s.depth == 0 && matchesStr s.rest s.delimiter then cut s
  else if isLineCommentStart s.rest then readLineComment s
  else if isBlockCommentStart s.rest then readBlockComment s
  else if isQuoteStart c then readQuoted s c rest
  else if atBoundary alphanumeric s && matchKeyword alphanumeric "BEGIN" s.rest then
    readKeyword s 5 (s.depth + 1)
  else if matchesStr s.rest s.delimiter then readInnerDelimiter s
  else if s.depth != 0 && atBoundary alphanumeric s && matchKeyword alphanumeric "END" s.rest &&
      closes s.delimiter s.rest then readKeyword s 3 (s.depth - 1)
  else readChar s c rest

def refStep (s : RefState) : RefState :=
  match s.rest with
  | [] => s
  | c :: rest => readToken alphanumeric s c rest

end Steps

def refStart (script : List Char) : RefState where
  rest := script
  piece := []
  delimiter := [';']
  delimiter_ne := semicolon_ne_nil
  depth := 0
  before := none
  fresh := true
  pieces := []

/-! ## The tokenizer ends -/

theorem quotedTail_length (escapes : Bool) (q : Char) (text : List Char) :
    (quotedTail escapes q text).1.length + (quotedTail escapes q text).2.length =
      text.length := by
  fun_induction quotedTail escapes q text with
  | case1 => rfl
  | case2 c => rfl
  | case3 c e text h ih => simp only [List.length_cons] at ih ⊢; omega
  | case4 e text h => simp; omega
  | case5 c e text h hq ih => simp only [List.length_cons] at ih ⊢; omega

theorem refStep_reads (alphanumeric : Char → Bool) (s : RefState) (hrest : s.rest ≠ []) :
    (refStep alphanumeric s).rest.length < s.rest.length := by
  have hpos := List.length_pos_of_ne_nil hrest
  have hdelimiter := List.length_pos_of_ne_nil s.delimiter_ne
  have hdrop : ∀ n, 0 < n → (s.rest.drop n).length < s.rest.length := by
    intro n hn
    rw [List.length_drop]
    omega
  unfold refStep
  split
  case h_1 hnil => exact absurd hnil hrest
  case h_2 c text heq =>
    have hone : text.length < s.rest.length := by
      rw [heq]
      exact Nat.lt_succ_self _
    unfold readToken
    split
    case isTrue h =>
      have hline := dropWhile_length_le (· != '\n') (s.rest.drop 9)
      have hnine := hdrop 9 (by decide)
      unfold readDirective
      split
      · exact Nat.lt_of_le_of_lt hline hnine
      · exact Nat.lt_of_le_of_lt hline hnine
    split
    case isTrue => exact hdrop _ hdelimiter
    split
    case isTrue h => exact lineComment_reads h
    split
    case isTrue h => exact blockComment_reads h
    split
    case isTrue =>
      have htail := quotedTail_length (escapesIn c) c text
      show (quotedTail (escapesIn c) c text).2.length < s.rest.length
      omega
    split
    case isTrue => exact hdrop 5 (by decide)
    split
    case isTrue => exact hdrop _ hdelimiter
    split
    case isTrue => exact hdrop 3 (by decide)
    case isFalse => exact hone

def tokenizer (alphanumeric : Char → Bool) : Scan.Scanner RefState Char where
  rest := RefState.rest
  step := refStep alphanumeric
  reads := refStep_reads alphanumeric
  stops s h := by
    unfold refStep
    rw [h]

/-- The non-empty pieces, with the one that the end of the script ends. -/
def RefState.output (s : RefState) : List (List Char) := s.pieces ++ flush s.piece

def refSplit (alphanumeric : Char → Bool) (script : List Char) : List (List Char) :=
  ((tokenizer alphanumeric).finish (refStart script)).output

example : refSplit Char.isAlphanum "BEGIN a; b; END\n; xBEGIN; c".toList =
    ["BEGIN a; b; END".toList, "xBEGIN".toList, "c".toList] := by
  decide

end Dbmaster.SqlSplit.Reference
