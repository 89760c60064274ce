import Mathlib.Data.List.Basic
/-!
# Lexers of a query language

A lexer marks each character of a text as code, as part of a quoted text or as
part of a comment.  Those of the common languages differ in few rules: what
quotes, where a backslash escapes, and how comments start and nest.
-/

namespace Dbmaster.Lib.Lexing

inductive Region
  | code
  | quoted
  | comment
deriving DecidableEq

structure Mark where
  char : Char
  region : Region
deriving DecidableEq

/-- A reading of every text, one mark a character. -/
structure Lexer where
  read : List Char → List Mark
  spells : ∀ text, (read text).map Mark.char = text

namespace Lexer

/-- The character at this place of the text is code. -/
def Runs (lexer : Lexer) (text : List Char) (i : Nat) : Prop :=
  ∃ c, (lexer.read text)[i]? = some ⟨c, .code⟩

instance (lexer : Lexer) (text : List Char) (i : Nat) : Decidable (lexer.Runs text i) :=
  decidable_of_iff (((lexer.read text)[i]?.map Mark.region) = some .code) <| by
    rw [Option.map_eq_some_iff]
    constructor
    · rintro ⟨⟨c, region⟩, hmark, hregion⟩
      cases hregion
      exact ⟨c, hmark⟩
    · rintro ⟨c, hmark⟩
      exact ⟨⟨c, .code⟩, hmark, rfl⟩

end Lexer

/-! ## Lexers by their rules -/

structure Rules where
  /-- what closes the text that the character opens -/
  closing : Char → Option Char
  /-- in a text with this close a backslash escapes -/
  escapes : Char → Bool
  /-- `#` starts a comment -/
  hash : Bool
  /-- `--` starts a comment whatever follows; else a blank must -/
  bareDashes : Bool
  /-- block comments nest -/
  nests : Bool

inductive Mode
  | code
  | quoted (close : Char)
  | escaped (close : Char)
  | line
  /-- so many comments deep, with the second character of a sign to come or not -/
  | block (depth : Nat) (inSign : Bool)

namespace Rules

def startsLine (rules : Rules) : List Char → Bool
  | '#' :: _ => rules.hash
  | '-' :: '-' :: rest => rules.bareDashes || rest.head?.all Char.isWhitespace
  | _ => false

/-- What the next character is, and the mode after it. -/
def next (rules : Rules) : Mode → Char → List Char → Region × Mode
  | .code, c, rest =>
    if rules.startsLine (c :: rest) then (.comment, .line)
    else if c = '/' ∧ rest.head? = some '*' then (.comment, .block 1 true)
    else
      match rules.closing c with
      | some close => (.quoted, .quoted close)
      | none => (.code, .code)
  | .quoted close, c, _ =>
    if c = '\\' ∧ rules.escapes close then (.quoted, .escaped close)
    else if c = close then (.quoted, .code)
    else (.quoted, .quoted close)
  | .escaped close, _, _ => (.quoted, .quoted close)
  | .line, c, _ => (.comment, if c = '\n' then .code else .line)
  | .block depth true, _, _ => (.comment, if depth = 0 then .code else .block depth false)
  | .block depth false, c, rest =>
    if c = '*' ∧ rest.head? = some '/' then (.comment, .block (depth - 1) true)
    else if rules.nests ∧ c = '/' ∧ rest.head? = some '*' then (.comment, .block (depth + 1) true)
    else (.comment, .block depth false)

def readFrom (rules : Rules) : Mode → List Char → List Mark
  | _, [] => []
  | mode, c :: rest =>
      ⟨c, (rules.next mode c rest).1⟩ :: rules.readFrom (rules.next mode c rest).2 rest

theorem map_char_readFrom (rules : Rules) (mode : Mode) (text : List Char) :
    (rules.readFrom mode text).map Mark.char = text := by
  induction text generalizing mode with
  | nil => rfl
  | cons c rest ih => rw [readFrom, List.map_cons, ih]

def lexer (rules : Rules) : Lexer where
  read := rules.readFrom .code
  spells := rules.map_char_readFrom .code

end Rules

end Dbmaster.Lib.Lexing
