import Dbmaster.Lib.Pieces
import Dbmaster.SqlSplit.DdlWhitelist
/-!
# The target engine's reading

What the lexical rules of an engine make of the text of a batch, read from its
start.  The engine is a parameter: how it quotes, comments and nests compound
bodies shows only in where a `;` ends a statement.
-/

namespace Dbmaster.SqlSplit.Engine

open Dbmaster.Lib Dbmaster.SqlSplit.Splitter Dbmaster.SqlSplit.DdlWhitelist

structure Rules where
  /-- a `;` after this text of the batch ends a statement: it lies outside the
  quotes, comments and compound bodies of the engine -/
  ends : List Char → Bool
  /-- with this text a statement has begun so many characters back, although no
  `;` ended the one before -/
  starts : List Char → Option Nat
  /-- characters of words, the underscore apart -/
  wordChar : Char → Bool
  /-- what follows the blanks and comments at the start -/
  skip : List Char → List Char
  skip_letter : ∀ c text, c.isAlpha = true → skip (c :: text) = c :: text

variable (rules : Rules)

namespace Rules

def cutter : Pieces.Cutter Char where
  separates read := read.getLast? == some ';' && rules.ends read.dropLast
  starts := rules.starts

/-- The top-level statements of a batch. -/
def statements (text : List Char) : List (List Char) :=
  (rules.cutter.pieces text).filter fun piece => rules.skip piece != []

/-- The statement begins with one of the keywords. -/
def beginsWithDdl (stmt : List Char) : Bool :=
  ddlKeywords.any fun kw => matchKeyword rules.wordChar kw (rules.skip stmt)

/-- The text begins with the letters of a keyword, but its first word is longer. -/
def runsOn (text : List Char) : Bool :=
  ddlKeywords.any fun kw =>
    Text.asciiUpper (text.take kw.length) == kw.toList && !matchKeyword rules.wordChar kw text

/-- Within the text a statement begins without a `;` before it. -/
def startsInside (text : List Char) : Bool :=
  (List.range text.length).any fun n => (rules.starts (text.take (n + 1))).isSome

end Rules

/-- Every statement in the texts begins with a DDL keyword. -/
def DdlOnly (texts : List (List Char)) : Prop :=
  ∀ text ∈ texts, ∀ stmt ∈ rules.statements text, rules.beginsWithDdl stmt = true

instance (texts : List (List Char)) : Decidable (DdlOnly rules texts) :=
  inferInstanceAs (Decidable (∀ text ∈ texts, ∀ stmt ∈ rules.statements text, _))

/-! ## The first statement -/

theorem keyword_of_isDdlStatement {text : List Char} (h : isDdlStatement text = true) :
    ∃ kw ∈ ddlKeywords,
      Text.asciiUpper ((Text.trimStart text).take kw.length) = kw.toList := by
  obtain ⟨kw, hkw, hstarts⟩ := List.any_eq_true.mp h
  have hsteady : Text.steady kw.toList = true :=
    (by decide : ∀ kw ∈ ddlKeywords, Text.steady kw.toList = true) kw hkw
  have hupper := Text.asciiUpper_of_upper hsteady (List.isPrefixOf_iff_prefix.mp hstarts)
  rw [String.length_toList] at hupper
  exact ⟨kw, hkw, hupper⟩

theorem isAlpha_of_toUpper {c : Char} (h : c.toUpper.isUpper = true) : c.isAlpha = true := by
  unfold Char.toUpper at h
  split at h
  case isTrue hlower =>
    have hc : c.isLower = true :=
      Bool.and_eq_true_iff.mpr ⟨decide_eq_true hlower.1, decide_eq_true hlower.2⟩
    show (c.isUpper || c.isLower) = true
    rw [hc, Bool.or_true]
  case isFalse =>
    show (c.isUpper || c.isLower) = true
    rw [h, Bool.true_or]

theorem beginsWithDdl_of_isDdlStatement {text : List Char} (htrim : Text.trimStart text = text)
    (h : isDdlStatement text = true) (hword : rules.runsOn text = false) :
    rules.beginsWithDdl text = true := by
  obtain ⟨kw, hkw, hupper⟩ := keyword_of_isDdlStatement h
  rw [htrim] at hupper
  have hmatch : matchKeyword rules.wordChar kw text = true := by
    have hno := List.any_eq_false.mp hword kw hkw
    simpa [hupper] using hno
  have hskip : rules.skip text = text := by
    have hfirst : ∀ kw ∈ ddlKeywords, (kw.toList.head?.any Char.isUpper) = true := by decide
    have hk := hfirst kw hkw
    cases text with
    | nil =>
        have hnil : kw.toList = [] := by simpa [Text.asciiUpper] using hupper.symm
        rw [hnil] at hk
        cases hk
    | cons c text =>
        cases hkword : kw.toList with
        | nil =>
            rw [hkword] at hk
            cases hk
        | cons k word =>
            have hlength : kw.length = word.length + 1 := by
              rw [← String.length_toList, hkword, List.length_cons]
            rw [hkword, hlength, List.take_succ_cons] at hupper
            have hc : c.toUpper = k := (List.cons.inj hupper).1
            apply rules.skip_letter
            apply isAlpha_of_toUpper
            rw [hkword] at hk
            rw [hc]
            exact hk
  apply List.any_eq_true.mpr
  refine ⟨kw, hkw, ?_⟩
  rw [hskip]
  exact hmatch

/-! ## Quotes and comments -/

/-- The characters that open quoted texts with those that close them, where
backslashes escape, and which signs start comments. -/
structure Lexis where
  closing : Char → Option Char
  escapes : Char → Bool
  hash : Bool
  /-- `--` starts a comment whatever follows; else a blank must -/
  bareDashes : Bool

inductive Mode
  | code (last : List Char)
  | quoted (close : Char) (escaped : Bool)
  | line
  | block (last : Option Char)
deriving DecidableEq

def Mode.isCode : Mode → Bool
  | .code _ => true
  | _ => false

def Lexis.opensLine (lexis : Lexis) (last : List Char) (c : Char) : Bool :=
  (lexis.hash && c == '#') ||
    (if lexis.bareDashes then last.head? == some '-' && c == '-'
      else last == ['-', '-'] && Text.isWhitespace c)

/-- The mode after one more character. -/
def Lexis.next (lexis : Lexis) : Mode → Char → Mode
  | .code last, c =>
    if lexis.opensLine last c then if c = '\n' then .code [] else .line
    else if last.head? = some '/' ∧ c = '*' then .block none
    else
      match lexis.closing c with
      | some close => .quoted close false
      | none => .code (c :: last.take 1)
  | .quoted close true, _ => .quoted close false
  | .quoted close false, c =>
    if c = '\\' ∧ lexis.escapes close then .quoted close true
    else if c = close then .code []
    else .quoted close false
  | .line, c => if c = '\n' then .code [] else .line
  | .block last, c => if last = some '*' ∧ c = '/' then .code [] else .block (some c)

def Lexis.inCode (lexis : Lexis) (read : List Char) : Bool :=
  (read.foldl lexis.next (.code [])).isCode

/-- An engine without compound bodies, that begins a statement at the bare keywords
too. -/
def Lexis.toRules (lexis : Lexis) (bare : List String) : Rules where
  ends := lexis.inCode
  starts read :=
    if lexis.inCode read then
      (bare.find? fun kw => (' ' :: kw.toList ++ [' ']).isSuffixOf read).map (·.length + 1)
    else none
  wordChar := Char.isAlphanum
  skip := Text.trimStart
  skip_letter c text hc := by
    have hwhite := Text.not_isWhitespace_of_isAlphanum (Bool.or_eq_true_iff.mpr (Or.inl hc))
    rw [Text.trimStart, List.dropWhile_cons_of_neg (by simp [hwhite])]

def mysql : Rules :=
  Lexis.toRules ⟨fun c => if isQuoteStart c then some c else none, (· != '`'), true, false⟩ []

def postgres : Rules :=
  Lexis.toRules ⟨fun c => if c = '\'' ∨ c = '"' then some c else none, fun _ => false, false, true⟩
    []

def sqlServer : Rules :=
  Lexis.toRules
    ⟨fun c => if c = '[' then some ']' else if c = '\'' ∨ c = '"' then some c else none,
      fun _ => false, false, true⟩ ["DELETE"]

end Dbmaster.SqlSplit.Engine
