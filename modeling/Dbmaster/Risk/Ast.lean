import Mathlib.Logic.Relation
/-!
# The syntax that is classified

The trees of the SQL parser, with what the classifier reads and with every place
where the engine evaluates an expression or a query.  Expression forms that the
classifier does not enumerate are `Expr.other` with their operands.
-/

namespace Dbmaster.Risk.Ast

inductive ShowKind where
  | showVariable
  | showTables
  | showColumns
  | showFunctions
  | showCreate
  | showDatabases
  | explainTable
deriving DecidableEq

inductive TransactionKind where
  | startTransaction
  | commit
  | rollback
  | savepoint
  | releaseSavepoint
deriving DecidableEq

inductive ModifyKind where
  | insert
  | update
  | delete
  | merge
  | load
deriving DecidableEq

inductive DdlKind where
  | createTable
  | createIndex
  | createView
  | createSchema
  | createDatabase
  | createFunction
  | createRole
  | alterTable
  | drop
  | truncate
  | grant
  | revoke
deriving DecidableEq

/-- A part of an object name. -/
inductive NamePart where
  | identifier (value : List Char)
  | function
deriving DecidableEq

mutual

inductive Statement where
  | query (q : Query)
  /-- `analyzeOption`: ANALYZE among the options in parentheses -/
  | explain (analyze analyzeOption : Bool) (statement : Statement)
  | showInfo (kind : ShowKind) (filter : List Expr)
  | transaction (kind : TransactionKind)
  | modify (kind : ModifyKind)
  | useDatabase
  | setSession
  | call
  | execute
  | prepare
  | ddl (kind : DdlKind)
  /-- any other statement -/
  | other

/-- `limitClause` has the expressions of LIMIT, OFFSET and FETCH, `settings` those
of the clauses after them. -/
inductive Query where
  | mk (ctes : List Query) (body : SetExpr) (locks : Nat) (orderBy : List Expr)
      (limitClause : List Expr) (settings : List Expr)

inductive SetExpr where
  | select (s : Select)
  | query (q : Query)
  | setOperation (l r : SetExpr)
  | insert (statement : Statement)
  | update (statement : Statement)
  | delete (statement : Statement)
  | merge (statement : Statement)
  | values (rows : List Expr)
  | table

inductive Select where
  | mk (distinctOn : List Expr) (top : List Expr) (projection : List SelectItem) (into : Bool)
      (source : List TableWithJoins) (lateralViews : List Expr) (prewhere : Option Expr)
      (selection : Option Expr) (groupBy : List Expr) (sortBy : List Expr) (having : Option Expr)
      (namedWindow : List Expr) (qualify : Option Expr) (connectBy : List Expr)

/-- `other` has the expressions of a wildcard. -/
inductive SelectItem where
  | unnamedExpr (e : Expr)
  | exprWithAlias (e : Expr)
  | other (exprs : List Expr)

inductive TableWithJoins where
  | mk (relation : TableFactor) (joins : List Join)

inductive Join where
  | mk (relation : TableFactor) (constraint : List Expr)

/-- A `table` with arguments calls the function of its name.  `exprs` has the expressions of
its version, hints and sample, and `other` has the factors and the expressions of a factor
that pivots or matches another. -/
inductive TableFactor where
  | table (name : List NamePart) (args : Option (List Expr)) (exprs : List Expr)
  | derived (q : Query)
  | function (name : List NamePart) (args : List Expr)
  | tableFunction (e : Expr)
  | nestedJoin (tables : TableWithJoins)
  | other (inner : List TableFactor) (exprs : List Expr)

inductive Expr where
  | function (func : Function)
  | nested (inner : Expr)
  | unaryOp (e : Expr)
  | binaryOp (l r : Expr)
  | cast (inner : Expr)
  | isNull (inner : Expr)
  | isNotNull (inner : Expr)
  | inList (e : Expr) (list : List Expr)
  | inSubquery (e : Expr) (q : Query)
  | existsQuery (q : Query)
  | subquery (q : Query)
  | case (operand : Option Expr) (conditions : List CaseWhen) (elseResult : Option Expr)
  | between (e low high : Expr)
  | like (e pattern : Expr)
  | iLike (e pattern : Expr)
  | similarTo (e pattern : Expr)
  | inUnnest (e arrayExpr : Expr)
  /-- any other expression -/
  | other (operands : List Expr)

inductive CaseWhen where
  | mk (condition result : Expr)

/-- `clauses` has the expressions inside the parentheses after the arguments. -/
inductive Function where
  | mk (name : List NamePart) (parameters : List Expr) (args : FunctionArguments)
      (clauses : List Expr) (filter : Option Expr) (window : List Expr) (withinGroup : List Expr)

inductive FunctionArguments where
  | none
  | subquery (q : Query)
  | list (args : List FunctionArg)

inductive FunctionArg where
  | unnamedExpr (e : Expr)
  | unnamedWildcard
  /-- `name => argument`, with the expressions in it -/
  | named (exprs : List Expr)

end

/-! ## Nodes and where they are evaluated -/

inductive Node where
  | statement (s : Statement)
  | query (q : Query)
  | setExpr (b : SetExpr)
  | select (s : Select)
  | tables (t : TableWithJoins)
  | join (j : Join)
  | factor (f : TableFactor)
  | expr (e : Expr)

/-- Where a node stands in the node above it. -/
inductive Position where
  | analyzed
  | analyzeOption
  | showFilter
  | cte
  | body
  | orderBy
  | limitClause
  | settings
  | setOperand
  | dataModifying
  | values
  | distinctOn
  | top
  | projection
  | wildcard
  | source
  | lateralView
  | prewhere
  | selection
  | groupBy
  | sortBy
  | having
  | namedWindow
  | qualify
  | connectBy
  | relation
  | joinConstraint
  | tableArgument
  | derivedTable
  | operand
  | subquery
  | betweenBound
  | likePattern
  | otherOperand
  | argument
  | namedArgument
  | argumentSubquery
  | functionParameter
  | functionClause
  | functionFilter
  | functionWindow
  | withinGroup
deriving DecidableEq

def exprsAt (p : Position) (exprs : List Expr) : List (Position × Node) :=
  exprs.map fun e => (p, .expr e)

def Statement.children : Statement → List (Position × Node)
  | .query q => [(.body, .query q)]
  | .explain analyze analyzeOption statement =>
      if analyze then [(.analyzed, .statement statement)]
      else if analyzeOption then [(.analyzeOption, .statement statement)]
      else []
  | .showInfo _ filter => exprsAt .showFilter filter
  | _ => []

def Query.children : Query → List (Position × Node)
  | .mk ctes body _ orderBy limitClause settings =>
      ctes.map (fun q => (.cte, .query q)) ++ [(.body, .setExpr body)] ++
        exprsAt .orderBy orderBy ++ exprsAt .limitClause limitClause ++ exprsAt .settings settings

def SetExpr.children : SetExpr → List (Position × Node)
  | .select s => [(.body, .select s)]
  | .query q => [(.body, .query q)]
  | .setOperation l r => [(.setOperand, .setExpr l), (.setOperand, .setExpr r)]
  | .insert statement | .update statement | .delete statement | .merge statement =>
      [(.dataModifying, .statement statement)]
  | .values rows => exprsAt .values rows
  | .table => []

def SelectItem.children : SelectItem → List (Position × Node)
  | .unnamedExpr e => [(.projection, .expr e)]
  | .exprWithAlias e => [(.projection, .expr e)]
  | .other exprs => exprsAt .wildcard exprs

def Select.children : Select → List (Position × Node)
  | .mk distinctOn top projection _ source lateralViews prewhere selection groupBy sortBy having
      namedWindow qualify connectBy =>
      exprsAt .distinctOn distinctOn ++ exprsAt .top top ++
        projection.flatMap SelectItem.children ++
        source.map (fun t => (.source, .tables t)) ++ exprsAt .lateralView lateralViews ++
        exprsAt .prewhere prewhere.toList ++ exprsAt .selection selection.toList ++
        exprsAt .groupBy groupBy ++ exprsAt .sortBy sortBy ++ exprsAt .having having.toList ++
        exprsAt .namedWindow namedWindow ++ exprsAt .qualify qualify.toList ++
        exprsAt .connectBy connectBy

def TableWithJoins.children : TableWithJoins → List (Position × Node)
  | .mk relation joins => (.relation, .factor relation) :: joins.map fun j => (.relation, .join j)

def Join.children : Join → List (Position × Node)
  | .mk relation constraint =>
      (.relation, .factor relation) :: exprsAt .joinConstraint constraint

def TableFactor.children : TableFactor → List (Position × Node)
  | .table _ args exprs => exprsAt .tableArgument (args.getD [] ++ exprs)
  | .derived q => [(.derivedTable, .query q)]
  | .function _ args => exprsAt .tableArgument args
  | .tableFunction e => [(.tableArgument, .expr e)]
  | .nestedJoin tables => [(.relation, .tables tables)]
  | .other inner exprs =>
      inner.map (fun f => (.relation, .factor f)) ++ exprsAt .tableArgument exprs

def FunctionArg.children : FunctionArg → List (Position × Node)
  | .unnamedExpr e => [(.argument, .expr e)]
  | .unnamedWildcard => []
  | .named exprs => exprsAt .namedArgument exprs

def FunctionArguments.children : FunctionArguments → List (Position × Node)
  | .none => []
  | .subquery q => [(.argumentSubquery, .query q)]
  | .list args => args.flatMap FunctionArg.children

def Function.children : Function → List (Position × Node)
  | .mk _ parameters args clauses filter window withinGroup =>
      exprsAt .functionParameter parameters ++ args.children ++
        exprsAt .functionClause clauses ++ exprsAt .functionFilter filter.toList ++
        exprsAt .functionWindow window ++ exprsAt .withinGroup withinGroup

def CaseWhen.children : CaseWhen → List (Position × Node)
  | .mk condition result => [(.operand, .expr condition), (.operand, .expr result)]

def Expr.children : Expr → List (Position × Node)
  | .function func => func.children
  | .nested inner | .unaryOp inner | .cast inner | .isNull inner | .isNotNull inner =>
      [(.operand, .expr inner)]
  | .binaryOp l r => [(.operand, .expr l), (.operand, .expr r)]
  | .inList e list => (.operand, .expr e) :: exprsAt .operand list
  | .inSubquery e q => [(.operand, .expr e), (.subquery, .query q)]
  | .existsQuery q | .subquery q => [(.subquery, .query q)]
  | .case operand conditions elseResult =>
      exprsAt .operand operand.toList ++ conditions.flatMap CaseWhen.children ++
        exprsAt .operand elseResult.toList
  | .between e low high =>
      [(.operand, .expr e), (.betweenBound, .expr low), (.betweenBound, .expr high)]
  | .like e pattern | .iLike e pattern | .similarTo e pattern =>
      [(.operand, .expr e), (.likePattern, .expr pattern)]
  | .inUnnest e arrayExpr => [(.operand, .expr e), (.operand, .expr arrayExpr)]
  | .other operands => exprsAt .otherOperand operands

/-- What the engine evaluates when it evaluates a node, with the places. -/
def Node.children : Node → List (Position × Node)
  | .statement s => s.children
  | .query q => q.children
  | .setExpr b => b.children
  | .select s => s.children
  | .tables t => t.children
  | .join j => j.children
  | .factor f => f.children
  | .expr e => e.children

def Evaluates (n m : Node) : Prop := ∃ p, (p, m) ∈ n.children

/-- Some statement of the list evaluates the node, at any depth. -/
def Evaluated (statements : List Statement) (n : Node) : Prop :=
  ∃ s ∈ statements, Relation.ReflTransGen Evaluates (.statement s) n

end Dbmaster.Risk.Ast
