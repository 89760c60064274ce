import Dbmaster.Gateway.Query
import Dbmaster.Lib.Embedding
/-!
# The members of the MySQL family

The hooks by which a member differs from MySQL, as far as they build statements: the session
settings and the conditions of the catalog queries.
-/

namespace Dbmaster.DbHandler.MysqlFamily

open Dbmaster.Lib Dbmaster.Lib.Dialect Dbmaster.Lib.Embedding
open Dbmaster.Gateway.Query (CatalogQueryMode)

/-! ## Hooks -/

def mysqlStrLiteral (s : List Char) : List Char :=
  "'".toList ++ Text.replace "'" "''" (Text.replace "\\" "\\\\" s) ++ "'".toList

def nonEmpty (s : List Char) : Bool := s ≠ []

def setNames (cs : List Char) : List Char :=
  "SET NAMES '".toList ++ Text.replace "'" "\\'" cs ++ "'".toList

def setTimeZone (tz : List Char) : List Char :=
  "SET time_zone = '".toList ++ Text.replace "'" "\\'" tz ++ "'".toList

/-- `session_statements` of the members that do not override it. -/
def sessionStatements (charset timezone : Option (List Char)) : List (List Char) :=
  ((charset.filter nonEmpty).map setNames).toList ++
    ((timezone.filter nonEmpty).map setTimeZone).toList

structure MysqlFamilyHooks where
  name : String
  sessionStatements : Option (List Char) → Option (List Char) → List (List Char)
  catalogMode : CatalogQueryMode

namespace MysqlFamilyHooks

def schemaCondition (hooks : MysqlFamilyHooks) (db : List Char) : List Char :=
  match hooks.catalogMode with
  | .prepare => "table_schema = DATABASE()".toList
  | .rawSql => "table_schema = ".toList ++ mysqlStrLiteral db

def tableCondition (hooks : MysqlFamilyHooks) (table : List Char) : List Char :=
  match hooks.catalogMode with
  | .prepare => "table_name = ?".toList
  | .rawSql => "table_name = ".toList ++ mysqlStrLiteral table

end MysqlFamilyHooks

def mysqlProfile : MysqlFamilyHooks := ⟨"mysql", sessionStatements, .prepare⟩

/-- Doris has no `SET time_zone`. -/
def dorisProfile : MysqlFamilyHooks where
  name := "doris"
  sessionStatements := fun charset _ => ((charset.filter nonEmpty).map setNames).toList
  catalogMode := .rawSql

def oceanbaseProfile : MysqlFamilyHooks := ⟨"oceanbase", sessionStatements, .prepare⟩

def tidbProfile : MysqlFamilyHooks := ⟨"tidb", sessionStatements, .prepare⟩

def starrocksProfile : MysqlFamilyHooks := ⟨"starrocks", sessionStatements, .rawSql⟩

def mariadbProfile : MysqlFamilyHooks := ⟨"mariadb", sessionStatements, .prepare⟩

def mysqlFamilyFor (dbType : String) : Option MysqlFamilyHooks :=
  match String.ofList (Text.asciiLower dbType.toList) with
  | "mysql" => some mysqlProfile
  | "doris" => some dorisProfile
  | "oceanbase" => some oceanbaseProfile
  | "tidb" => some tidbProfile
  | "starrocks" => some starrocksProfile
  | "mariadb" => some mariadbProfile
  | _ => none

def mysqlProfileFor (dbType : String) : MysqlFamilyHooks :=
  (mysqlFamilyFor dbType).getD mysqlProfile

/-- The catalog mode of a family is the one that the gateway's queries go by. -/
theorem catalogMode_mysqlFamilyFor (dbType : String) :
    (mysqlFamilyFor dbType).map MysqlFamilyHooks.catalogMode =
      Gateway.Query.mysqlFamilyFor (String.ofList (Text.asciiLower dbType.toList)) := by
  unfold mysqlFamilyFor Gateway.Query.mysqlFamilyFor
  split
  case h_7 => simp_all
  all_goals
    rename_i hname
    rw [hname]
    decide

example : (mysqlProfileFor "Doris").sessionStatements (some "utf8mb4".toList)
    (some "Asia/Shanghai".toList) = ["SET NAMES 'utf8mb4'".toList] := by decide +kernel

/-! ## MySQL -/

def isSpace (c : Char) : Bool := c = ' ' || ('\t' ≤ c && c ≤ '\r')

/-- What follows the comment.  Two dashes want a blank or a control character behind them, and
what is in a version comment is no comment. -/
def commentRest : List Char → Option (List Char)
  | '#' :: text => some ((Text.afterFirst "\n" text).getD [])
  | '-' :: '-' :: text =>
    if text.head?.all (fun c => c ≤ ' ') then some ((Text.afterFirst "\n" text).getD []) else none
  | '/' :: '*' :: text =>
    if text.head? = some '!' then none else some ((Text.afterFirst "*/" text).getD [])
  | _ => none

def delimiter (c : Char) : Option Delimited :=
  if c = '\'' ∨ c = '"' then some .literal else if c = '`' then some .name else none

/-- `\%` and `\_` stay as they are. -/
def escapes (q c : Char) : Bool := q ≠ '`' && c ≠ '%' && c ≠ '_'

def unescape : Char → Char
  | '0' => '\x00'
  | 'b' => '\x08'
  | 'n' => '\n'
  | 'r' => '\r'
  | 't' => '\t'
  | 'Z' => '\x1a'
  | c => c

def isWord (c : Char) : Bool := c.isAlphanum || c = '_' || c = '$' || '\x80' ≤ c

def startsComment (c : Char) : Bool := c = '#' || c = '-' || c = '/'

theorem opens_commentRest : Opens startsComment commentRest := by
  intro text rest h
  unfold commentRest at h
  split at h
  case h_1 tail =>
    cases h
    exact ⟨_, tail, rfl, rfl, Text.length_afterFirst_le _ tail⟩
  case h_2 tail =>
    split_ifs at h
    cases h
    exact ⟨_, _, rfl, rfl, Nat.le_succ_of_le (Text.length_afterFirst_le _ tail)⟩
  case h_3 tail =>
    split_ifs at h
    cases h
    exact ⟨_, _, rfl, rfl, Nat.le_succ_of_le (Text.length_afterFirst_le _ tail)⟩
  case h_4 => cases h

theorem delimiter_eq_literal {q : Char} (h : delimiter q = some .literal) : q = '\'' ∨ q = '"' :=
  quote_of_literal h

theorem delimiter_cases {q : Char} (h : delimiter q ≠ none) : q = '\'' ∨ q = '"' ∨ q = '`' :=
  quote_of_delimited h

theorem delimiter_starts (q : Char) (h : delimiter q ≠ none) :
    isSpace q = false ∧ startsComment q = false := by
  rcases delimiter_cases h with rfl | rfl | rfl
  · decide
  · decide
  · decide

theorem escapes_literal (q : Char) (h : delimiter q = some .literal) :
    escapes q q = true ∧ escapes q '\\' = true := by
  rcases delimiter_eq_literal h with rfl | rfl
  · decide
  · decide

theorem unescape_literal {c : Char} (h : c = '\\' ∨ delimiter c = some .literal) :
    unescape c = c := by
  rcases h with rfl | h
  · rfl
  · rcases delimiter_eq_literal h with rfl | rfl
    · rfl
    · rfl

/-- The default rules of MySQL. -/
def mysql : Rules where
  lead := ⟨isSpace, commentRest, opens_commentRest.length_lt⟩
  comments := startsComment
  delimiter := delimiter
  word := isWord
  escapes := escapes
  unescape := fun c _ => ([unescape c], 0)
  starts := opens_commentRest.head
  delimits := delimiter_starts
  backslash := rfl
  escapesSelf := escapes_literal
  self := fun _ _ h => by rw [unescape_literal h]
  short := fun _ _ => List.length_singleton.le
  extra := fun _ _ _ hd => absurd hd List.not_mem_nil

example : mysql.tokens "SET NAMES 'a\\'b''c' -- d".toList =
    some [.word "SET".toList, .word "NAMES".toList, .literal "a'b'c".toList] := by decide +kernel

/-! ## What should hold -/

/-- The settings that a member is given by statements. -/
def sessionValues (hooks : MysqlFamilyHooks) (charset timezone : Option (List Char)) :
    List (List Char) :=
  (charset.filter nonEmpty).toList ++
    if hooks.name = "doris" then [] else (timezone.filter nonEmpty).toList

/-- Each text that is built with a value has the value as its only string literal. -/
structure InjectionFree (hooks : MysqlFamilyHooks) (charset timezone : Option (List Char))
    (db table : List Char) : Prop where
  session : (hooks.sessionStatements charset timezone).map mysql.literals =
    (sessionValues hooks charset timezone).map fun value => some [value]
  schema : hooks.catalogMode = .rawSql → mysql.literals (hooks.schemaCondition db) = some [db]
  table : hooks.catalogMode = .rawSql → mysql.literals (hooks.tableCondition table) = some [table]

/-- Every backslash stands in front of a percent sign or an underscore. -/
def BackslashesKept (value : List Char) : Prop :=
  ∀ before after, value = before ++ '\\' :: after →
    after.head? = some '%' ∨ after.head? = some '_'

/-! ## The texts -/

theorem delimiter_quote : mysql.delimiter '\'' = some .literal := rfl

theorem keeps_iff_backslashesKept (value : List Char) :
    keeps mysql '\'' value = true ↔ BackslashesKept value := by
  rw [keeps_iff]
  refine forall_congr' fun before => forall_congr' fun after => imp_congr_right fun _ => ?_
  constructor
  · rintro ⟨x, hx, hkept⟩
    rw [hx]
    have hcases : x = '%' ∨ x = '_' := by
      by_contra hnot
      rw [not_or] at hnot
      have hescapes : mysql.escapes '\'' x = true := by simp [mysql, escapes, hnot]
      rw [hescapes] at hkept
      cases hkept
    exact hcases.imp (congrArg some) (congrArg some)
  · rintro (h | h)
    · exact ⟨'%', h, rfl⟩
    · exact ⟨'_', h, rfl⟩

theorem mysqlStrLiteral_eq (s : List Char) :
    mysqlStrLiteral s = quoted '\'' '\'' (guarded '\\' '\\' s) := by
  rw [quoted, ← replace_eq_guarded, ← replace_eq_guarded]
  rfl

theorem literals_setNames_iff (cs : List Char) :
    mysql.literals (setNames cs) = some [cs] ↔ BackslashesKept cs := by
  have htext : setNames cs = "SET NAMES".toList ++ ' ' :: quoted '\\' '\'' cs := by
    rw [quoted, ← replace_eq_guarded]
    rfl
  rw [htext, Rules.literals_behind (by decide +kernel) rfl rfl (by decide +kernel),
    literals_quoted_iff delimiter_quote (Or.inr rfl), keeps_iff_backslashesKept]

theorem literals_setTimeZone_iff (tz : List Char) :
    mysql.literals (setTimeZone tz) = some [tz] ↔ BackslashesKept tz := by
  have htext : setTimeZone tz = "SET time_zone =".toList ++ ' ' :: quoted '\\' '\'' tz := by
    rw [quoted, ← replace_eq_guarded]
    rfl
  rw [htext, Rules.literals_behind (by decide +kernel) rfl rfl (by decide +kernel),
    literals_quoted_iff delimiter_quote (Or.inr rfl), keeps_iff_backslashesKept]

theorem literals_schemaCondition {hooks : MysqlFamilyHooks} (hmode : hooks.catalogMode = .rawSql)
    (db : List Char) : mysql.literals (hooks.schemaCondition db) = some [db] := by
  have htext : hooks.schemaCondition db =
      "table_schema =".toList ++ ' ' :: quoted '\'' '\'' (guarded '\\' '\\' db) := by
    rw [MysqlFamilyHooks.schemaCondition, hmode, ← mysqlStrLiteral_eq]
    rfl
  rw [htext, Rules.literals_behind (by decide +kernel) rfl rfl (by decide +kernel),
    literals_doubled delimiter_quote]

theorem literals_tableCondition {hooks : MysqlFamilyHooks} (hmode : hooks.catalogMode = .rawSql)
    (table : List Char) : mysql.literals (hooks.tableCondition table) = some [table] := by
  have htext : hooks.tableCondition table =
      "table_name =".toList ++ ' ' :: quoted '\'' '\'' (guarded '\\' '\\' table) := by
    rw [MysqlFamilyHooks.tableCondition, hmode, ← mysqlStrLiteral_eq]
    rfl
  rw [htext, Rules.literals_behind (by decide +kernel) rfl rfl (by decide +kernel),
    literals_doubled delimiter_quote]

/-! ## The sessions -/

/-- One statement per value, or none. -/
theorem map_literals_iff {statement : List Char → List Char}
    (hstatement : ∀ value, mysql.literals (statement value) = some [value] ↔ BackslashesKept value)
    (setting : Option (List Char)) :
    (setting.map statement).toList.map mysql.literals =
        setting.toList.map (fun value => some [value]) ↔
      ∀ value ∈ setting.toList, BackslashesKept value := by
  cases setting with
  | none => exact iff_of_true rfl nofun
  | some value =>
      rw [Option.map_some, Option.toList_some, Option.toList_some, List.forall_mem_singleton,
        ← hstatement]
      exact ⟨fun h => (List.cons.inj h).1, fun h => congrArg (· :: []) h⟩

theorem session_iff (charset timezone : Option (List Char)) :
    (sessionStatements charset timezone).map mysql.literals =
        ((charset.filter nonEmpty).toList ++ (timezone.filter nonEmpty).toList).map
          (fun value => some [value]) ↔
      ∀ value ∈ (charset.filter nonEmpty).toList ++ (timezone.filter nonEmpty).toList,
        BackslashesKept value := by
  have hlength : ((charset.filter nonEmpty).map setNames).toList.length =
      (charset.filter nonEmpty).toList.length := by
    cases charset.filter nonEmpty <;> rfl
  rw [sessionStatements, List.map_append, List.map_append, List.forall_mem_append,
    ← map_literals_iff literals_setNames_iff, ← map_literals_iff literals_setTimeZone_iff]
  constructor
  · exact fun h => List.append_inj h (by rw [List.length_map, List.length_map, hlength])
  · rintro ⟨hnames, hzone⟩
    rw [hnames, hzone]

/-- Doris, or a member with the session statements of MySQL. -/
theorem mysqlProfileFor_cases (dbType : String) :
    mysqlProfileFor dbType = dorisProfile ∨
      ((mysqlProfileFor dbType).sessionStatements = sessionStatements ∧
        (mysqlProfileFor dbType).name ≠ "doris") := by
  unfold mysqlProfileFor mysqlFamilyFor
  split
  case h_2 => exact Or.inl rfl
  all_goals exact Or.inr ⟨rfl, by decide⟩

/-- What is built for a member embeds its values as literals if and only if every backslash
of the session settings stands in front of a percent sign or an underscore. -/
theorem textForms_injectionFree_iff (dbType : String) (charset timezone : Option (List Char))
    (db table : List Char) :
    InjectionFree (mysqlProfileFor dbType) charset timezone db table ↔
      ∀ value ∈ sessionValues (mysqlProfileFor dbType) charset timezone,
        BackslashesKept value := by
  have hsession : (((mysqlProfileFor dbType).sessionStatements charset timezone).map
        mysql.literals =
      (sessionValues (mysqlProfileFor dbType) charset timezone).map fun value => some [value]) ↔
      ∀ value ∈ sessionValues (mysqlProfileFor dbType) charset timezone,
        BackslashesKept value := by
    rcases mysqlProfileFor_cases dbType with hdoris | ⟨hstatements, hname⟩
    · have hdorisName : dorisProfile.name = "doris" := rfl
      rw [hdoris, sessionValues, if_pos hdorisName, List.append_nil]
      exact map_literals_iff literals_setNames_iff _
    · rw [hstatements, sessionValues, if_neg hname]
      exact session_iff charset timezone
  constructor
  · exact fun h => hsession.mp h.session
  · intro h
    exact ⟨hsession.mpr h, fun hmode => literals_schemaCondition hmode db,
      fun hmode => literals_tableCondition hmode table⟩

/-- A character set that ends its literal and goes on with a statement of its own. -/
theorem charset_ends_literal :
    ¬ ∀ dbType charset timezone db table,
      InjectionFree (mysqlProfileFor dbType) charset timezone db table := by
  intro hall
  have hsession := (hall "mysql" (some "\\'; DROP TABLE t -- ".toList) none [] []).session
  have hbroken : ¬ ((mysqlProfileFor "mysql").sessionStatements
        (some "\\'; DROP TABLE t -- ".toList) none).map mysql.literals =
      (sessionValues (mysqlProfileFor "mysql")
        (some "\\'; DROP TABLE t -- ".toList) none).map (fun value => some [value]) := by
    decide +kernel
  exact hbroken hsession

end Dbmaster.DbHandler.MysqlFamily
