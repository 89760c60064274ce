import Dbmaster.Lib.Text
import Dbmaster.Risk.Ast
/-!
# The risk classifier
-/

namespace Dbmaster.Risk.Classify

open Dbmaster.Lib Dbmaster.Risk.Ast

inductive RiskClass where
  | readOnly
  | write
  | ddl
  | transaction
deriving DecidableEq

/-- The order of severity. -/
def RiskClass.rank : RiskClass → Nat
  | .readOnly => 0
  | .write => 1
  | .ddl => 2
  | .transaction => 3

def RiskClass.asStr : RiskClass → String
  | .readOnly => "read_only"
  | .write => "write"
  | .ddl => "ddl"
  | .transaction => "transaction"

structure RiskVerdict where
  riskClass : RiskClass
  reasons : List String
deriving DecidableEq

namespace RiskVerdict

def empty : RiskVerdict := ⟨.readOnly, []⟩

def isReadOnly (v : RiskVerdict) : Bool := v.riskClass = .readOnly

def bump (v : RiskVerdict) (riskClass : RiskClass) (reason : String) : RiskVerdict where
  riskClass := if v.riskClass.rank < riskClass.rank then riskClass else v.riskClass
  reasons := if reason ∈ v.reasons then v.reasons else v.reasons ++ [reason]

end RiskVerdict

def sideEffectFunctions : List (List Char) :=
  ["nextval".toList, "setval".toList, "pg_advisory_lock".toList, "pg_advisory_unlock".toList,
    "pg_advisory_xact_lock".toList, "pg_advisory_unlock_all".toList,
    "pg_terminate_backend".toList, "pg_cancel_backend".toList, "pg_reload_conf".toList]

def isSideEffectFunction : Function → Bool
  | .mk name _ _ _ _ _ _ =>
    match name.getLast? with
    | some (.identifier value) => sideEffectFunctions.contains (Text.lower value)
    | _ => sideEffectFunctions.contains []

/-! ## The walk -/

mutual

def classifyStatement : Statement → RiskVerdict → RiskVerdict
  | .query q, v => classifyQuery q v
  | .explain analyze _ statement, v => if analyze then classifyStatement statement v else v
  | .showInfo _ _, v => v
  | .transaction _, v => v.bump .transaction "transaction control statement"
  | .modify _, v => v.bump .write "data-modifying statement"
  | .useDatabase, v => v.bump .write "USE statement forbidden (database switch)"
  | .setSession, v => v.bump .write "SET statement forbidden (session state change)"
  | .call, v => v.bump .write "CALL forbidden (procedure body not analyzable)"
  | .execute, v | .prepare, v => v.bump .write "prepared-statement execution forbidden"
  | .ddl _, v => v.bump .ddl "schema/privilege change (DDL)"
  | .other, v => v.bump .write "unrecognized statement form (fail-closed)"

def classifyQuery : Query → RiskVerdict → RiskVerdict
  | .mk ctes body locks _ _ _, v =>
    let v := classifyCtes ctes v
    let v := if locks = 0 then v else v.bump .write "locking read (FOR UPDATE/FOR SHARE)"
    match body with
    | .select s => classifySelect s v
    | .query q => classifyQuery q v
    | .setOperation l r => classifySetExpr r (classifySetExpr l v)
    | .insert statement | .update statement | .delete statement | .merge statement =>
        classifyStatement statement v
    | .values _ | .table => v

/-- `classify_cte` on each CTE: on its query. -/
def classifyCtes : List Query → RiskVerdict → RiskVerdict
  | [], v => v
  | q :: ctes, v => classifyCtes ctes (classifyQuery q v)

def classifySetExpr : SetExpr → RiskVerdict → RiskVerdict
  | .select s, v => classifySelect s v
  | .query q, v => classifyQuery q v
  | .setOperation l r, v => classifySetExpr r (classifySetExpr l v)
  | .insert statement, v | .update statement, v | .delete statement, v | .merge statement, v =>
      classifyStatement statement v
  | .values _, v | .table, v => v

def classifySelect : Select → RiskVerdict → RiskVerdict
  | .mk _ _ projection into _ _ _ selection _ _ having _ _ _, v =>
    let v := if into then v.bump .write "SELECT INTO" else v
    classifyIfSome having (classifyIfSome selection (classifyProjection projection v))

/-- `if let Some(e) = … { classify_expr(e, verdict) }` -/
def classifyIfSome : Option Expr → RiskVerdict → RiskVerdict
  | none, v => v
  | some e, v => classifyExpr e v

def classifyProjection : List SelectItem → RiskVerdict → RiskVerdict
  | [], v => v
  | .unnamedExpr e :: items, v | .exprWithAlias e :: items, v =>
      classifyProjection items (classifyExpr e v)
  | .other _ :: items, v => classifyProjection items v

def classifyExpr : Expr → RiskVerdict → RiskVerdict
  | .function func, v =>
    let v := if isSideEffectFunction func then
        v.bump .write "side-effect function in expression"
      else v
    walkFunctionArgs func v
  | .nested inner, v | .unaryOp inner, v => classifyExpr inner v
  | .binaryOp l r, v => classifyExpr r (classifyExpr l v)
  | .cast inner, v => classifyExpr inner v
  | .isNull inner, v | .isNotNull inner, v => classifyExpr inner v
  | .inList e list, v => classifyExprs list (classifyExpr e v)
  | .inSubquery e q, v => classifyQuery q (classifyExpr e v)
  | .existsQuery q, v => classifyQuery q v
  | .subquery q, v => classifyQuery q v
  | .case operand conditions elseResult, v =>
      classifyIfSome elseResult (classifyConditions conditions (classifyIfSome operand v))
  | .between e _ _, v | .like e _, v | .iLike e _, v | .similarTo e _, v => classifyExpr e v
  | .inUnnest e arrayExpr, v => classifyExpr arrayExpr (classifyExpr e v)
  | .other _, v => v

def classifyExprs : List Expr → RiskVerdict → RiskVerdict
  | [], v => v
  | e :: list, v => classifyExprs list (classifyExpr e v)

def walkFunctionArgs : Function → RiskVerdict → RiskVerdict
  | .mk _ _ args _ _ _ _, v =>
    match args with
    | .list args => classifyArgs args v
    | .none | .subquery _ => v

def classifyArgs : List FunctionArg → RiskVerdict → RiskVerdict
  | [], v => v
  | .unnamedExpr e :: args, v => classifyArgs args (classifyExpr e v)
  | .unnamedWildcard :: args, v | .named _ :: args, v => classifyArgs args v

def classifyConditions : List CaseWhen → RiskVerdict → RiskVerdict
  | [], v => v
  | .mk condition result :: conditions, v =>
      classifyConditions conditions (classifyExpr result (classifyExpr condition v))

end

/-! ## The verdict on a text -/

/-- The dialects in the order in which they are tried. -/
inductive Dialect where
  | mySql
  | postgreSql
  | generic
deriving DecidableEq

/-- The parser of each dialect. -/
abbrev Parser := Dialect → List Char → Option (List Statement)

def parseAny (parseWith : Parser) (sql : List Char) : Option (List Statement) :=
  parseWith .mySql sql <|> parseWith .postgreSql sql <|> parseWith .generic sql

def statementCount (parseWith : Parser) (sql : List Char) : Nat :=
  match parseAny parseWith sql with
  | none => 0
  | some statements => statements.length

def containsExecutableComment (sql : List Char) : Bool := (Text.afterFirst "/*!" sql).isSome

/-- The loop over the statements. -/
def classifyStatements (statements : List Statement) (v : RiskVerdict) : RiskVerdict :=
  statements.foldl (fun v statement => classifyStatement statement v) v

def classify (parseWith : Parser) (sql : List Char) : RiskVerdict :=
  let verdict := RiskVerdict.empty
  let verdict := if containsExecutableComment sql then
      verdict.bump .write "executable comment (/*! */) not allowed"
    else verdict
  match parseAny parseWith sql with
  | none => ⟨.write, ["parse failure (fail-closed: treated as write)"]⟩
  | some [] => ⟨.write, ["no parseable statement"]⟩
  | some statements => classifyStatements statements verdict

/-- The gate of `run_read_query` before the target is touched. -/
def riskGate (parseWith : Parser) (sql : List Char) : Except String Unit :=
  let verdict := classify parseWith sql
  if verdict.isReadOnly = false then
    .error ("NOT_READ_ONLY: read_query executes read-only SQL only (risk class: " ++
      verdict.riskClass.asStr ++ "); reasons: " ++ "; ".intercalate verdict.reasons)
  else if statementCount parseWith sql ≠ 1 then
    .error "MULTI_STATEMENT: send exactly one SQL statement per read_query call"
  else .ok ()

example : (classifyStatements [.query (.mk [.mk [] (.delete (.modify .delete)) 0 [] [] []]
    (.values []) 0 [] [] [])] .empty).riskClass = .write := by decide

end Dbmaster.Risk.Classify
