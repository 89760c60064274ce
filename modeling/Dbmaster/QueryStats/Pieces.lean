import Dbmaster.QueryStats.Normalize
import Dbmaster.Lib.Lexing
/-!
# Statements by their literals

A statement as an engine reads it: its single-quoted literals, its numeric literals, the
blanks between tokens, and everything else character by character.  The loop of the
normaliser takes such a piece at a time where it delimits the literals as the engine does.
-/

namespace Dbmaster.QueryStats.Pieces

open Dbmaster.Lib Dbmaster.Lib.Text Dbmaster.QueryStats.Normalize

/-! ## Pieces -/

inductive Piece
  | char (c : Char)
  /-- blanks between tokens -/
  | blank (text : List Char)
  /-- what stands between the quotes of a literal -/
  | string (body : List Char)
  | number (text : List Char)
deriving DecidableEq

def Piece.text : Piece → List Char
  | .char c => [c]
  | .blank text => text
  | .string body => '\'' :: (body ++ ['\''])
  | .number text => text

def render (ps : List Piece) : List Char := ps.flatMap Piece.text

theorem render_cons (p : Piece) (ps : List Piece) : render (p :: ps) = p.text ++ render ps :=
  List.flatMap_cons ..

theorem render_append (ps qs : List Piece) : render (ps ++ qs) = render ps ++ render qs :=
  List.flatMap_append ..

theorem render_chars (text : List Char) : render (text.map .char) = text := by
  induction text with
  | nil => rfl
  | cons c text ih => rw [List.map_cons, render_cons, ih]; rfl

/-- The pieces of a text without literals and blanks. -/
def plain (text : String) : List Piece := text.toList.map .char

/-- The piece without what a literal says, and without the length of a blank. -/
def Piece.erase : Piece → Piece
  | .char c => .char c
  | .blank _ => .blank []
  | .string _ => .string []
  | .number _ => .number []

/-! ## Numeric literals -/

def isX (c : Char) : Bool := c == 'x' || c == 'X'

def isE (c : Char) : Bool := c == 'e' || c == 'E'

def isExponent : List Char → Bool
  | [] => true
  | [_] => false
  | e :: s :: digits =>
      isE e &&
        (if isSign s then !digits.isEmpty && digits.all Char.isDigit
          else s.isDigit && digits.all Char.isDigit)

/-- What follows the digits after a point. -/
def afterFraction : List Char → List Char
  | '.' :: text => text.dropWhile Char.isDigit
  | text => text

/-- Digits, with a fraction and an exponent or not. -/
def isDecimal (text : List Char) : Bool :=
  peeks Char.isDigit text && isExponent (afterFraction (text.dropWhile Char.isDigit))

def isHex : List Char → Bool
  | z :: x :: digits =>
      z == '0' && isX x && !digits.isEmpty && digits.all isHexdigit
  | _ => false

def isNumber (text : List Char) : Bool := isHex text || isDecimal text

/-! ## Engines -/

/-- The lexical rules of an engine, in what they differ. -/
structure Engine where
  /-- double quotes enclose names, not strings -/
  ansiQuotes : Bool
  backticks : Bool
  brackets : Bool
  /-- a backslash escapes in a string -/
  escapes : Bool
  /-- a backslash escapes in a string that `E` stands before -/
  escapeStrings : Bool
  hash : Bool
  bareDashes : Bool
  nests : Bool
  /-- a dollar sign does not begin a word, but a parameter -/
  parameters : Bool

def mysql : Engine := ⟨false, true, false, true, false, true, false, false, false⟩

def postgreSql : Engine := ⟨true, false, false, false, true, false, true, true, true⟩

namespace Engine

variable (engine : Engine)

def rules : Lexing.Rules where
  closing c :=
    if c = '\'' ∨ c = '"' then some c
    else if c = '`' ∧ engine.backticks = true then some c
    else if c = '[' ∧ engine.brackets = true then some ']'
    else none
  escapes close := engine.escapes && (close == '\'' || (close == '"' && !engine.ansiQuotes))
  hash := engine.hash
  bareDashes := engine.bareDashes
  nests := engine.nests

/-- A quoted text with this close is a name. -/
def closesName (close : Char) : Bool :=
  close == '`' || close == ']' || (close == '"' && engine.ansiQuotes)

/-- The mode after a character; a close that is doubled is part of the quoted text. -/
def next (mode : Lexing.Mode) (c : Char) (rest : List Char) : Lexing.Mode :=
  match mode with
  | .quoted close =>
      if c = close ∧ rest.head? = some close then .escaped close
      else (engine.rules.next (.quoted close) c rest).2
  | mode => (engine.rules.next mode c rest).2

end Engine

/-- A character of words. -/
def isWordChar (c : Char) : Bool :=
  c.isAlphanum || c == '_' || c == '$' || decide (128 ≤ c.toNat)

/-- The character goes on with the word so far, or begins one. -/
def Engine.extends (engine : Engine) (word : List Char) (c : Char) : Bool :=
  isWordChar c && !(engine.parameters && word.isEmpty && c == '$')

/-- A blank of the engine; the normaliser knows more of them. -/
def isBlank (c : Char) : Bool := isWhitespace c && !isWordChar c

/-- What can stand between the quotes of a literal in which nothing escapes. -/
def isPlainBody : List Char → Bool
  | [] => true
  | c :: text =>
      if c = '\'' then
        match text with
        | [] => false
        | d :: text => d == '\'' && isPlainBody text
      else isPlainBody text

/-- The engine takes this for what stands between the quotes of a literal, after this word. -/
def Engine.isBody (engine : Engine) (word body : List Char) : Bool :=
  if engine.escapes || (engine.escapeStrings && (word == ['E'] || word == ['e'])) then
    Normalize.isBody body
  else isPlainBody body

def startsBlank : List Piece → Bool
  | .blank _ :: _ => true
  | _ => false

def startsNumber : List Piece → Bool
  | .number _ :: _ => true
  | _ => false

open Lexing (Mode)

/-- The engine reads the text of the pieces as these pieces, in this mode and after this
part of a word.  Literals and blanks are read in code. -/
def Engine.reads (engine : Engine) : Mode → List Char → List Piece → Bool
  | _, _, [] => true
  | .code, word, .char c :: ps =>
      c != '\'' && !isBlank c && (!c.isDigit || !word.isEmpty) &&
        engine.reads (engine.next .code c (render ps))
          (if engine.extends word c then word ++ [c] else []) ps
  | mode, _, .char c :: ps => engine.reads (engine.next mode c (render ps)) [] ps
  | .code, _, .blank text :: ps =>
      !text.isEmpty && text.all isBlank && !startsBlank ps && engine.reads .code [] ps
  | .code, word, .string body :: ps =>
      engine.isBody word body && !peeks (· == '\'') (render ps) && engine.reads .code [] ps
  | .code, word, .number text :: ps =>
      word.isEmpty && isNumber text && !peeks isWordChar (render ps) && engine.reads .code [] ps
  | _, _, _ => false

/-! ## Tokens -/

/-- A token without what a literal says. -/
inductive Token
  | word (text : List Char)
  /-- a quoted name -/
  | name (text : List Char)
  | symbol (c : Char)
  | string
  | number
deriving DecidableEq

def wordToken (text : List Char) : List Token := if text.isEmpty then [] else [.word text]

/-- The tokens that the character ends, and the text of the one it belongs to; the text before
it, and the modes before and after it, are known. -/
def Engine.emits (engine : Engine) : Mode → Mode → List Char → Char → List Token × List Char
  | .code, .code, text, c =>
      if engine.extends text c then ([], text ++ [c]) else (wordToken text ++ [.symbol c], [])
  | .code, _, text, _ => (wordToken text, [])
  | .quoted close, .code, text, _ =>
      ([if engine.closesName close then .name text else .string], [])
  | .quoted close, .escaped _, text, _ => ([], if engine.closesName close then text else [])
  | .quoted close, _, text, c => ([], if engine.closesName close then text ++ [c] else [])
  | .escaped close, _, text, c => ([], if engine.closesName close then text ++ [c] else [])
  | _, _, _, _ => ([], [])

/-- The tokens of the pieces, in this mode and after this part of a token. -/
def Engine.tokensFrom (engine : Engine) : Mode → List Char → List Piece → List Token
  | .code, text, [] => wordToken text
  | _, _, [] => []
  | mode, text, .char c :: ps =>
      (engine.emits mode (engine.next mode c (render ps)) text c).1 ++
        engine.tokensFrom (engine.next mode c (render ps))
          (engine.emits mode (engine.next mode c (render ps)) text c).2 ps
  | mode, text, .blank _ :: ps => wordToken text ++ engine.tokensFrom mode [] ps
  | mode, text, .string _ :: ps => wordToken text ++ .string :: engine.tokensFrom mode [] ps
  | mode, text, .number _ :: ps => wordToken text ++ .number :: engine.tokensFrom mode [] ps

def Engine.tokens (engine : Engine) (ps : List Piece) : List Token := engine.tokensFrom .code [] ps

/-! ## Literals that stand apart -/

def isDigitOrDot (c : Char) : Bool := c.isDigit || c == '.'

def Piece.isChar (p : Char → Bool) : Piece → Bool
  | .char c => p c
  | _ => false

/-- The digits and points at the start run into a numeric literal, at once or by an exponent. -/
def runsInto (ps : List Piece) : Bool :=
  match ps.dropWhile (Piece.isChar isDigitOrDot) with
  | .number _ :: _ => true
  | .char e :: .char s :: .number _ :: _ => isE e && isSign s
  | _ => false

def startsHex : List Piece → Bool
  | .number text :: _ => isHex text
  | _ => false

/-- The normaliser delimits the literals as the engine does: a single quote stands only at a
literal, a backslash in it escapes, and a number stands apart from words and points. -/
def delimited : List Piece → Bool
  | [] => true
  | .char c :: ps =>
      c != '\'' && !(c.isDigit && runsInto ps) && !(c.isAlphanum && startsNumber ps) &&
        !(isSign c && startsHex ps) && delimited ps
  | .blank _ :: ps => delimited ps
  | .string body :: ps => Normalize.isBody body && delimited ps
  | .number _ :: ps => !peeks (fun c => c.isAlphanum || c == '.') (render ps) && delimited ps

/-- What the pieces of a reading are, whatever the mode. -/
def sound : List Piece → Bool
  | [] => true
  | .char _ :: ps => sound ps
  | .blank text :: ps => !text.isEmpty && text.all isWhitespace && sound ps
  | .string _ :: ps => !peeks (· == '\'') (render ps) && sound ps
  | .number text :: ps => isNumber text && sound ps

theorem sound_of_reads {engine : Engine} {mode : Mode} {word : List Char} {ps : List Piece}
    (h : engine.reads mode word ps = true) : sound ps = true := by
  fun_induction Engine.reads engine mode word ps with
  | case1 => rfl
  | case2 word c ps ih =>
      simp only [Bool.and_eq_true] at h
      exact ih h.2
  | case3 mode word c ps hmode ih => exact ih h
  | case4 word text ps ih =>
      simp only [Bool.and_eq_true] at h
      obtain ⟨⟨⟨hne, hall⟩, _⟩, hps⟩ := h
      have hwhite : text.all isWhitespace = true := by
        rw [List.all_eq_true] at hall ⊢
        intro c hc
        exact (Bool.and_eq_true_iff.mp (hall c hc)).1
      simp only [sound, hne, hwhite, ih hps, Bool.and_self]
  | case5 word body ps ih =>
      simp only [Bool.and_eq_true] at h
      simp only [sound, h.1.2, ih h.2, Bool.and_self]
  | case6 word text ps ih =>
      simp only [Bool.and_eq_true] at h
      simp only [sound, h.1.1.2, ih h.2, Bool.and_self]
  | case7 => cases h

end Dbmaster.QueryStats.Pieces
