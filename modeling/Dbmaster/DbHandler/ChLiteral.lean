import Dbmaster.Lib.Embedding
import Dbmaster.Lib.Hex
/-!
# Literals for ClickHouse

`ch_str_literal` and the catalog queries that it is used in, against the rules by which
ClickHouse reads string literals.
-/

namespace Dbmaster.DbHandler.ChLiteral

open Dbmaster.Lib Dbmaster.Lib.Dialect Dbmaster.Lib.Embedding

def chStrLiteral (s : List Char) : List Char :=
  "'".toList ++ Text.replace "'" "''" s ++ "'".toList

/-- The columns of a table. -/
def listColumns (dbName table : List Char) : List Char :=
  "SELECT name, type FROM system.columns WHERE database = ".toList ++ chStrLiteral dbName ++
    " AND table = ".toList ++ chStrLiteral table ++ " ORDER BY position".toList

/-- The tables of a database. -/
def listTables (db : List Char) : List Char :=
  "SELECT name, engine, comment, total_rows FROM system.tables WHERE database = ".toList ++
    chStrLiteral db ++ " ORDER BY name".toList

/-! ## ClickHouse -/

def isSpace (c : Char) : Bool := c = ' ' || ('\t' ≤ c && c ≤ '\r')

def commentRest : List Char → Option (List Char)
  | '#' :: text =>
    if text.head? = some ' ' ∨ text.head? = some '!' then
      some ((Text.afterFirst "\n" text).getD [])
    else none
  | '-' :: '-' :: text => some ((Text.afterFirst "\n" text).getD [])
  | '/' :: '*' :: text => some ((Text.afterFirst "*/" text).getD [])
  | _ => none

def delimiter (c : Char) : Option Delimited :=
  if c = '\'' then some .literal else if c = '"' ∨ c = '`' then some .name else none

/-- Behind a backslash: `x` and two digits for a byte, letters for control characters, `N` for
nothing, or a character that stands for itself.  Before any other the backslash is one. -/
def escapes (c : Char) : Bool := "xNabefnrtv0\\'\"`/=".toList.contains c || c < ' '

/-- The value of two hexadecimal digits. -/
def hexByte (text : List Char) : Option Nat :=
  match text with
  | high :: low :: _ => (Hex.value high).bind fun x => (Hex.value low).map fun y => x * 16 + y
  | _ => none

def unescape (c : Char) (text : List Char) : List Char × Nat :=
  match c with
  | 'x' =>
    match hexByte text with
    -- a byte from 128 on is shown as the character with its number
    | some n => ([Char.ofNat n], 2)
    | none => ([], 0)
  | 'N' => ([], 0)
  | 'a' => (['\x07'], 0)
  | 'b' => (['\x08'], 0)
  | 'e' => (['\x1b'], 0)
  | 'f' => (['\x0c'], 0)
  | 'n' => (['\n'], 0)
  | 'r' => (['\r'], 0)
  | 't' => (['\t'], 0)
  | 'v' => (['\x0b'], 0)
  | '0' => (['\x00'], 0)
  | c => ([c], 0)

def isWord (c : Char) : Bool := c.isAlphanum || c = '_' || c = '$' || '\x80' ≤ c

def startsComment (c : Char) : Bool := c = '#' || c = '-' || c = '/'

theorem opens_commentRest : Opens startsComment commentRest := by
  intro text rest h
  unfold commentRest at h
  split at h
  case h_1 tail =>
    split_ifs at h
    cases h
    exact ⟨_, tail, rfl, rfl, Text.length_afterFirst_le _ tail⟩
  case h_2 tail =>
    cases h
    exact ⟨_, _, rfl, rfl, Nat.le_succ_of_le (Text.length_afterFirst_le _ tail)⟩
  case h_3 tail =>
    cases h
    exact ⟨_, _, rfl, rfl, Nat.le_succ_of_le (Text.length_afterFirst_le _ tail)⟩
  case h_4 => cases h

theorem delimiter_eq_literal {q : Char} (h : delimiter q = some .literal) : q = '\'' := by
  unfold delimiter at h
  split_ifs at h with hliteral hname
  · exact hliteral
  · cases h

theorem delimiter_of_value {c : Char} {n : Nat} (h : Hex.value c = some n) :
    c ≠ '\\' ∧ delimiter c = none := by
  have hne : ∀ d, Hex.value d = none → c ≠ d := by
    rintro d hd rfl
    rw [hd] at h
    cases h
  refine ⟨hne '\\' rfl, ?_⟩
  unfold delimiter
  rw [if_neg (hne '\'' rfl), if_neg (not_or.mpr ⟨hne '"' rfl, hne '`' rfl⟩)]

theorem of_hexByte {text : List Char} {n : Nat} (h : hexByte text = some n) :
    ∀ c ∈ text.take 2, c ≠ '\\' ∧ delimiter c = none := by
  unfold hexByte at h
  split at h
  · rename_i high low _
    obtain ⟨x, hhigh, hrest⟩ := Option.bind_eq_some_iff.mp h
    obtain ⟨y, hlow, -⟩ := Option.map_eq_some_iff.mp hrest
    intro c hc
    simp only [List.take_succ_cons, List.take_zero, List.mem_cons, List.not_mem_nil,
      or_false] at hc
    rcases hc with rfl | rfl
    · exact delimiter_of_value hhigh
    · exact delimiter_of_value hlow
  · cases h

/-- The rules of ClickHouse, but for its here-documents. -/
def clickhouse : Rules where
  lead := ⟨isSpace, commentRest, opens_commentRest.length_lt⟩
  comments := startsComment
  delimiter := delimiter
  word := isWord
  escapes := fun _ c => escapes c
  unescape := unescape
  starts := opens_commentRest.head
  delimits := by
    intro q h
    unfold delimiter at h
    split_ifs at h with hliteral hname
    · subst hliteral
      decide
    · rcases hname with rfl | rfl
      · decide
      · decide
    · exact absurd rfl h
  backslash := rfl
  escapesSelf := by
    intro q h
    obtain rfl := delimiter_eq_literal h
    decide
  self := by
    intro c _ h
    rcases h with rfl | h
    · rfl
    · obtain rfl := delimiter_eq_literal h
      rfl
  short := by
    intro c text
    unfold unescape
    split
    · cases hexByte text with
      | some _ => exact Nat.le_refl 1
      | none => exact Nat.zero_le 1
    all_goals simp
  extra := by
    intro c text
    unfold unescape
    split
    · cases hbyte : hexByte text with
      | some _ => exact of_hexByte hbyte
      | none => exact nofun
    all_goals exact nofun

/-! ## What is read back -/

/-- Every backslash stands in front of a character that it does not act on. -/
def BackslashesPlain (s : List Char) : Prop :=
  ∀ before after, s = before ++ '\\' :: after → ∃ c, after.head? = some c ∧ escapes c = false

theorem delimiter_quote : clickhouse.delimiter '\'' = some .literal := rfl

theorem keeps_iff_backslashesPlain (s : List Char) :
    keeps clickhouse '\'' s = true ↔ BackslashesPlain s := keeps_iff

theorem chStrLiteral_eq (s : List Char) : chStrLiteral s = quoted '\'' '\'' s := by
  rw [quoted, ← replace_eq_guarded]
  rfl

/-- Words with a blank behind them, a literal, and what follows. -/
theorem literals_embedded (words : String) {lead s rest : List Char}
    (hlead : lead = words.toList ++ [' '])
    (hplain : words.toList.all clickhouse.isPlain = true)
    (hnone : clickhouse.literals words.toList = some []) (hs : BackslashesPlain s)
    (hrest : rest.head? ≠ some '\'') :
    clickhouse.literals (lead ++ (chStrLiteral s ++ rest)) =
      (clickhouse.literals rest).map (s :: ·) := by
  rw [hlead, ← List.append_cons, Rules.literals_behind hplain rfl rfl hnone, chStrLiteral_eq]
  exact literals_quoted_append delimiter_quote (Or.inl rfl)
    ((keeps_iff_backslashesPlain s).mpr hs) hrest

theorem literals_listColumns {dbName table : List Char} (hdb : BackslashesPlain dbName)
    (htable : BackslashesPlain table) :
    clickhouse.literals (listColumns dbName table) = some [dbName, table] := by
  have htail : clickhouse.literals " ORDER BY position".toList = some [] := by decide +kernel
  unfold listColumns
  rw [List.append_assoc, List.append_assoc, List.append_assoc,
    literals_embedded "SELECT name, type FROM system.columns WHERE database ="
      (by decide +kernel) (by decide +kernel) (by decide +kernel) hdb (by simp),
    literals_embedded " AND table =" (by decide +kernel) (by decide +kernel) (by decide +kernel)
      htable (by simp), htail]
  rfl

theorem literals_listTables {db : List Char} (hdb : BackslashesPlain db) :
    clickhouse.literals (listTables db) = some [db] := by
  have htail : clickhouse.literals " ORDER BY name".toList = some [] := by decide +kernel
  unfold listTables
  rw [List.append_assoc, literals_embedded
      "SELECT name, engine, comment, total_rows FROM system.tables WHERE database ="
      (by decide +kernel) (by decide +kernel) (by decide +kernel) hdb (by simp), htail]
  rfl

/-- A name is read back as one literal if and only if its backslashes are plain, and then the
catalog queries have the names that they are built with as their only literals. -/
theorem chStrLiteral_closed_iff (s table : List Char) :
    (clickhouse.tokens (chStrLiteral s) = some [.literal s] ↔ BackslashesPlain s) ∧
      (BackslashesPlain s → clickhouse.literals (listTables s) = some [s]) ∧
      (BackslashesPlain s → BackslashesPlain table →
        clickhouse.literals (listColumns s table) = some [s, table]) := by
  refine ⟨?_, literals_listTables, literals_listColumns⟩
  rw [chStrLiteral_eq, tokens_quoted_iff delimiter_quote (Or.inl rfl)]
  exact keeps_iff_backslashesPlain s

/-- A name with a backslash in front of a quote ends its literal. -/
theorem name_ends_literal :
    ¬ ∀ s, clickhouse.tokens (chStrLiteral s) = some [.literal s] := by
  intro hall
  have hbroken : ¬ clickhouse.tokens (chStrLiteral "\\' OR 1 = 1 -- ".toList) =
      some [.literal "\\' OR 1 = 1 -- ".toList] := by
    decide +kernel
  exact hbroken (hall _)

end Dbmaster.DbHandler.ChLiteral
