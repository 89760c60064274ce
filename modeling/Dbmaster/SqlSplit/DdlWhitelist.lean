import Dbmaster.Gateway.Query
import Dbmaster.SqlSplit.Splitter
/-!
# The DDL whitelist

`execute_ddl_on_target_with_key`: the guards on the target, the check of every
statement of the script, and the statements sent one after another.  What the
store holds and what the target answers is given.
-/

namespace Dbmaster.SqlSplit.DdlWhitelist

open Dbmaster.Lib Dbmaster.Gateway.Query Dbmaster.SqlSplit.Splitter

/-! ## The check of a statement -/

def ddlKeywords : List String := ["CREATE", "ALTER", "DROP", "TRUNCATE", "RENAME"]

def isDdlStatement (sql : List Char) : Bool :=
  ddlKeywords.any (Text.startsWith (Text.upper (Text.trimStart sql)))

def contains (text : List Char) (word : String) : Bool := (Text.afterFirst word text).isSome

def redact (message : List Char) : List Char :=
  if contains message "connect" || contains message "Connection" then
    "database connection failed".toList
  else if contains message "file_path" || contains message "config" then message.take 200
  else "query execution failed".toList

/-- The backends of SQL engines; the other kinds have none here. -/
def backendFor (dbType : String) : Except HttpError Family :=
  let lower := String.ofList (Text.asciiLower dbType.toList)
  match mysqlFamilyFor lower with
  | some mode => .ok (.mySql mode)
  | none =>
    if lower ∈ ["postgres", "postgresql", "pg"] then .ok .postgres
    else if lower = "sqlite" then .ok .sqlite
    else if lower = "clickhouse" then .ok .clickhouse
    else if lower ∈ ["sqlserver", "mssql"] then .ok .sqlServer
    else .error (badRequest "UNSUPPORTED_DB_TYPE" ("unsupported db_type: " ++ lower))

/-! ## The execution -/

structure Environment where
  /-- the `db_type` of the connection, when it loads and its password decrypts -/
  loaded : Except HttpError String
  /-- `kind` and `read_only` of the connection, when they can be read -/
  guard : Option (String × Int)
  /-- what the target answers to a text after those sent before -/
  answer : List (List Char) → List Char → Except HttpError Unit

structure Outcome where
  sent : List (List Char)
  result : Except (List Char) Unit

def refuse (message : List Char) : Outcome := ⟨[], .error message⟩

/-- The statement at which the check fails, if it does at one. -/
def rejected (statements : List (List Char)) : Option (List Char) :=
  (statements.map Text.trim).find? fun s => s != [] && !isDdlStatement s

/-- The statements in their order, up to the first that fails. -/
def executeAll (answer : List (List Char) → List Char → Except HttpError Unit) :
    List (List Char) → List (List Char) → Outcome
  | sent, [] => ⟨sent, .ok ()⟩
  | sent, stmt :: statements =>
      let s := Text.trim stmt
      if s = [] then executeAll answer sent statements
      else
        match answer sent s with
        | .error e => ⟨sent ++ [s], .error (redact e.message.toList)⟩
        | .ok () => executeAll answer (sent ++ [s]) statements

/-- What follows the guards on the connection. -/
def executeScript (alphanumeric : Char → Bool) (env : Environment) (ddlSql : List Char) :
    Outcome :=
  let statements := splitSqlScript alphanumeric ddlSql
  match rejected statements with
  | some s =>
      refuse ("rejected non-DDL statement (only CREATE/ALTER/DROP/TRUNCATE/RENAME allowed): ".toList
        ++ redact s)
  | none => executeAll env.answer [] statements

def executeDdlOnTargetWithKey (alphanumeric : Char → Bool) (env : Environment)
    (ddlSql : List Char) : Outcome :=
  match env.loaded with
  | .error e => refuse e.message.toList
  | .ok dbType =>
    if Text.asciiLower dbType.toList = "clickhouse".toList then
      refuse "ClickHouse does not support transactional DDL execution".toList
    else if (env.guard.any fun row => row.2 != 0) then
      refuse "target connection is read-only".toList
    else if (env.guard.any fun row => row.1 == "source_drift") then
      refuse "cannot execute DDL on a source_drift connection".toList
    else
      match backendFor dbType with
      | .error e => refuse e.message.toList
      | .ok _ => executeScript alphanumeric env ddlSql

/-! ## What is sent -/

section Sent

variable {alphanumeric : Char → Bool} {env : Environment} {ddlSql : List Char}

theorem mem_sent_executeAll {answer : List (List Char) → List Char → Except HttpError Unit}
    (sent statements : List (List Char)) {text : List Char}
    (h : text ∈ (executeAll answer sent statements).sent) :
    text ∈ sent ∨ text ∈ statements.map Text.trim ∧ text ≠ [] := by
  induction statements generalizing sent with
  | nil => exact .inl h
  | cons stmt statements ih =>
      have hlater : ∀ before, text ∈ (executeAll answer before statements).sent →
          text ∈ before ∨ text ∈ (stmt :: statements).map Text.trim ∧ text ≠ [] := by
        intro before hmem
        rcases ih before hmem with hbefore | ⟨hstmt, hne⟩
        · exact .inl hbefore
        · exact .inr ⟨List.mem_cons_of_mem _ hstmt, hne⟩
      by_cases hempty : Text.trim stmt = []
      · simp only [executeAll, hempty, if_true] at h
        exact hlater sent h
      · have hnow : text ∈ sent ++ [Text.trim stmt] →
            text ∈ sent ∨ text ∈ (stmt :: statements).map Text.trim ∧ text ≠ [] := by
          intro hmem
          rcases List.mem_append.mp hmem with hsent | hlast
          · exact .inl hsent
          · obtain rfl := List.mem_singleton.mp hlast
            exact .inr ⟨List.mem_cons_self, hempty⟩
        simp only [executeAll, hempty, if_false] at h
        cases hanswer : answer sent (Text.trim stmt) with
        | error e =>
            rw [hanswer] at h
            exact hnow h
        | ok u =>
            rw [hanswer] at h
            rcases hlater _ h with hbefore | hafter
            · exact hnow hbefore
            · exact .inr hafter

/-- What passes the check is sent, and nothing else. -/
theorem mem_sent_executeScript {text : List Char}
    (h : text ∈ (executeScript alphanumeric env ddlSql).sent) :
    text ∈ (splitSqlScript alphanumeric ddlSql).map Text.trim ∧ isDdlStatement text = true := by
  cases hrejected : rejected (splitSqlScript alphanumeric ddlSql) with
  | some s =>
      simp only [executeScript, hrejected] at h
      cases h
  | none =>
      simp only [executeScript, hrejected] at h
      rcases mem_sent_executeAll [] _ h with hnil | ⟨hmem, hne⟩
      · cases hnil
      · refine ⟨hmem, ?_⟩
        have hall := List.find?_eq_none.mp hrejected text hmem
        simpa [hne] using hall

theorem mem_sent {text : List Char}
    (h : text ∈ (executeDdlOnTargetWithKey alphanumeric env ddlSql).sent) :
    text ∈ (splitSqlScript alphanumeric ddlSql).map Text.trim ∧ isDdlStatement text = true := by
  unfold executeDdlOnTargetWithKey at h
  split at h
  case h_1 => cases h
  case h_2 =>
    split at h
    case isTrue => cases h
    split at h
    case isTrue => cases h
    split at h
    case isTrue => cases h
    split at h
    case h_1 => cases h
    case h_2 => exact mem_sent_executeScript h

end Sent

end Dbmaster.SqlSplit.DdlWhitelist
