import Dbmaster.Risk.Classify
/-!
# What a `ReadOnly` verdict says about the tree

The walk goes into some of the places where the engine evaluates a node and not
into others.  The verdict stays at `ReadOnly` exactly when no node that the walk
reaches raises it.
-/

namespace Dbmaster.Risk.Soundness

open Dbmaster.Risk.Ast Dbmaster.Risk.Classify

/-! ## The walked places -/

/-- The places the walk goes into. -/
def walked : Position → Bool
  | .analyzed | .cte | .body | .setOperand | .dataModifying | .projection | .selection | .having
  | .operand | .subquery | .argument => true
  | .analyzeOption | .showFilter | .orderBy | .limitClause | .settings | .values | .distinctOn
  | .top | .wildcard | .source | .lateralView | .prewhere | .groupBy | .sortBy | .namedWindow
  | .qualify | .connectBy | .relation | .joinConstraint | .tableArgument | .derivedTable
  | .betweenBound | .likePattern | .otherOperand | .namedArgument | .argumentSubquery
  | .functionParameter | .functionClause | .functionFilter | .functionWindow
  | .withinGroup => false

def Walks (n m : Node) : Prop := ∃ p, (p, m) ∈ n.children ∧ walked p = true

/-- The walk over the statements reaches the node. -/
def Walked (statements : List Statement) (n : Node) : Prop :=
  ∃ s ∈ statements, Relation.ReflTransGen Walks (.statement s) n

/-- The statements that the classifier takes for reads. -/
def isRead : Statement → Bool
  | .query _ | .explain _ _ _ | .showInfo _ _ => true
  | _ => false

def locked : Query → Bool
  | .mk _ _ locks _ _ _ => locks != 0

def into : Select → Bool
  | .mk _ _ _ into _ _ _ _ _ _ _ _ _ _ => into

/-- The node by itself raises the verdict when the walk reaches it. -/
def raises : Node → Bool
  | .statement s => !isRead s
  | .query q => locked q
  | .select s => into s
  | .expr (.function func) => isSideEffectFunction func
  | _ => false

/-- A table that is the result of one of the listed functions. -/
def callsSideEffect : TableFactor → Bool
  | .table name (some _) _ | .function name _ =>
      isSideEffectFunction (.mk name [] .none [] none [] [])
  | _ => false

/-- A data-modifying statement, a locking clause, a SELECT INTO, or a call to one
of the listed functions, in an expression or in the place of a table. -/
def forbidden : Node → Bool
  | .statement (.modify _) => true
  | .query q => locked q
  | .select s => into s
  | .expr (.function func) => isSideEffectFunction func
  | .factor f => callsSideEffect f
  | _ => false

/-- The factors among the nodes stand where tables are joined. -/
def Joined (cs : List (Position × Node)) : Prop := ∀ p f, (p, Node.factor f) ∈ cs → p = .relation

@[simp] theorem joined_append {cs cs' : List (Position × Node)} :
    Joined (cs ++ cs') ↔ Joined cs ∧ Joined cs' := by
  simp [Joined, or_imp, forall_and]

@[simp] theorem joined_exprsAt {p : Position} {exprs : List Expr} : Joined (exprsAt p exprs) := by
  simp [Joined, exprsAt]

theorem joined_arg (arg : FunctionArg) : Joined arg.children := by
  cases arg <;> simp [FunctionArg.children, Joined, exprsAt]

theorem joined_function (func : Function) : Joined func.children := by
  cases func with
  | mk _ parameters args clauses filter window withinGroup =>
    have hargs : Joined args.children := by
      cases args with
      | none | subquery q => simp [FunctionArguments.children, Joined]
      | list args =>
        intro p f h
        obtain ⟨arg, -, harg⟩ := List.mem_flatMap.mp h
        exact joined_arg arg p f harg
    simp [Function.children, hargs]

theorem joined_children (n : Node) : Joined n.children := by
  cases n with
  | statement s =>
    cases s with
    | explain analyze analyzeOption statement =>
      cases analyze <;> cases analyzeOption <;>
        simp [Node.children, Statement.children, Joined]
    | _ => simp [Node.children, Statement.children, Joined, exprsAt]
  | query q => cases q with
    | mk ctes body locks orderBy limitClause settings =>
      simp [Node.children, Query.children, Joined, exprsAt]
  | setExpr b => cases b <;> simp [Node.children, SetExpr.children, Joined, exprsAt]
  | select s => cases s with
    | mk distinctOn top projection into source lateralViews prewhere selection groupBy sortBy
        having namedWindow qualify connectBy =>
      have hitems : Joined (projection.flatMap SelectItem.children) := by
        intro p f h
        obtain ⟨item, -, hitem⟩ := List.mem_flatMap.mp h
        cases item <;> simp [SelectItem.children, exprsAt] at hitem
      have hsource : Joined (source.map fun t => (.source, .tables t)) := by simp [Joined]
      simp [Node.children, Select.children, hitems, hsource]
  | tables t => cases t with
    | mk relation joins => simp [Node.children, TableWithJoins.children, Joined]
  | join j => cases j with
    | mk relation constraint => simp [Node.children, Join.children, Joined, exprsAt]
  | factor f => cases f <;> simp [Node.children, TableFactor.children, Joined, exprsAt]
  | expr e =>
    cases e with
    | function func => exact joined_function func
    | case operand conditions elseResult =>
      have hconditions : Joined (conditions.flatMap CaseWhen.children) := by
        intro p f h
        obtain ⟨w, -, hw⟩ := List.mem_flatMap.mp h
        cases w with
        | mk condition result => simp [CaseWhen.children] at hw
      simp [Node.children, Expr.children, hconditions]
    | _ => simp [Node.children, Expr.children, Joined, exprsAt]

/-- The walk comes to no table. -/
theorem not_walks_factor {n : Node} {f : TableFactor} : ¬ Walks n (.factor f) := by
  rintro ⟨p, hp, hwalked⟩
  rw [joined_children n p f hp] at hwalked
  cases hwalked

theorem raises_of_forbidden {statements : List Statement} {n : Node}
    (hn : Walked statements n) (h : forbidden n = true) : raises n = true := by
  unfold forbidden at h
  split at h
  case h_1 => rfl
  case h_2 => exact h
  case h_3 => exact h
  case h_4 => exact h
  case h_5 f =>
    obtain ⟨s, -, hwalks⟩ := hn
    obtain ⟨m, -, hlast⟩ := (Relation.ReflTransGen.cases_tail_iff Walks _ _).mp hwalks
      |>.resolve_left (by rintro ⟨⟩)
    exact absurd hlast not_walks_factor
  case h_6 => cases h

/-! ## Clean nodes -/

/-- The walk from the node reaches nothing that raises the verdict. -/
def Clean (n : Node) : Prop := ∀ m, Relation.ReflTransGen Walks n m → raises m = false

def CleanAll (cs : List (Position × Node)) : Prop := ∀ c ∈ cs, walked c.1 = true → Clean c.2

theorem clean_iff {n : Node} : Clean n ↔ raises n = false ∧ CleanAll n.children := by
  constructor
  · intro h
    refine ⟨h n .refl, ?_⟩
    rintro ⟨p, c⟩ hc hp m hm
    exact h m (.head ⟨p, hc, hp⟩ hm)
  · rintro ⟨hself, hchildren⟩ m hm
    rcases Relation.ReflTransGen.cases_head hm with rfl | ⟨c, ⟨p, hc, hp⟩, hm⟩
    · exact hself
    · exact hchildren (p, c) hc hp m hm

@[simp] theorem cleanAll_nil : CleanAll [] := fun _ h => nomatch h

@[simp] theorem cleanAll_cons {p : Position} {c : Node} {cs : List (Position × Node)} :
    CleanAll ((p, c) :: cs) ↔ (walked p = true → Clean c) ∧ CleanAll cs := by
  simp [CleanAll]

@[simp] theorem cleanAll_append {cs cs' : List (Position × Node)} :
    CleanAll (cs ++ cs') ↔ CleanAll cs ∧ CleanAll cs' := by
  simp [CleanAll, or_imp, forall_and]

@[simp] theorem cleanAll_exprsAt {p : Position} {exprs : List Expr} :
    CleanAll (exprsAt p exprs) ↔ (walked p = true → ∀ e ∈ exprs, Clean (.expr e)) := by
  simp only [CleanAll, exprsAt, List.forall_mem_map]
  exact ⟨fun h hp e he => h e he hp, fun h e he hp => h hp e he⟩

@[simp] theorem cleanAll_flatMap {α : Type} {xs : List α} {f : α → List (Position × Node)} :
    CleanAll (xs.flatMap f) ↔ ∀ x ∈ xs, CleanAll (f x) := by
  simp only [CleanAll, List.mem_flatMap]
  exact ⟨fun h x hx c hc => h c ⟨x, hx, hc⟩, fun h c ⟨x, hx, hc⟩ => h x hx c hc⟩

@[simp] theorem cleanAll_ctes {ctes : List Query} :
    CleanAll (ctes.map fun q => (.cte, .query q)) ↔ ∀ q ∈ ctes, Clean (.query q) := by
  simp [CleanAll, walked]

@[simp] theorem cleanAll_source {source : List TableWithJoins} :
    CleanAll (source.map fun t => (.source, .tables t)) := by
  simp [CleanAll, walked]

/-! ## The verdict -/

@[simp] theorem bump_readOnly {v : RiskVerdict} {c : RiskClass} {reason : String} :
    (v.bump c reason).riskClass = .readOnly ↔ v.riskClass = .readOnly ∧ c = .readOnly := by
  cases hv : v.riskClass <;> cases c <;> simp [RiskVerdict.bump, RiskClass.rank, hv]

theorem clean_query {ctes : List Query} {body : SetExpr} {locks : Nat}
    {orderBy limitClause settings : List Expr} :
    Clean (.query (.mk ctes body locks orderBy limitClause settings)) ↔
      (locks = 0 ∧ ∀ q ∈ ctes, Clean (.query q)) ∧ Clean (.setExpr body) := by
  rw [clean_iff]
  simp [raises, locked, Node.children, Query.children, walked, and_assoc]

theorem clean_setExpr {body : SetExpr} :
    Clean (.setExpr body) ↔ CleanAll body.children := by
  rw [clean_iff]
  simp [raises, Node.children]

theorem clean_select {distinctOn top : List Expr} {projection : List SelectItem} {into : Bool}
    {source : List TableWithJoins} {lateralViews : List Expr} {prewhere selection : Option Expr}
    {groupBy sortBy : List Expr} {having : Option Expr} {namedWindow : List Expr}
    {qualify : Option Expr} {connectBy : List Expr} :
    Clean (.select (.mk distinctOn top projection into source lateralViews prewhere selection
      groupBy sortBy having namedWindow qualify connectBy)) ↔
      into = false ∧ (∀ item ∈ projection, CleanAll item.children) ∧
        (∀ e ∈ selection, Clean (.expr e)) ∧ ∀ e ∈ having, Clean (.expr e) := by
  rw [clean_iff]
  simp [raises, Soundness.into, Node.children, Select.children, walked]

mutual

theorem classifyStatement_readOnly (s : Statement) (v : RiskVerdict) :
    (classifyStatement s v).riskClass = .readOnly ↔
      v.riskClass = .readOnly ∧ Clean (.statement s) := by
  rw [clean_iff]
  match s with
  | .query q =>
      simp [classifyStatement, classifyQuery_readOnly q v, raises, isRead, Node.children,
        Statement.children, walked]
  | .explain analyze analyzeOption statement =>
      cases analyze
      · cases analyzeOption <;>
          simp [classifyStatement, raises, isRead, Node.children, Statement.children, walked]
      · simp [classifyStatement, classifyStatement_readOnly statement v, raises, isRead,
          Node.children, Statement.children, walked]
  | .showInfo kind filter =>
      simp [classifyStatement, raises, isRead, Node.children, Statement.children, walked]
  | .transaction _ | .modify _ | .useDatabase | .setSession | .call | .execute | .prepare
  | .ddl _ | .other =>
      simp [classifyStatement, raises, isRead]

theorem classifyQuery_readOnly (q : Query) (v : RiskVerdict) :
    (classifyQuery q v).riskClass = .readOnly ↔ v.riskClass = .readOnly ∧ Clean (.query q) := by
  match q with
  | .mk ctes body locks orderBy limitClause settings =>
      have hhead : (if locks = 0 then classifyCtes ctes v
          else (classifyCtes ctes v).bump .write "locking read (FOR UPDATE/FOR SHARE)").riskClass =
          .readOnly ↔ v.riskClass = .readOnly ∧ locks = 0 ∧ ∀ q ∈ ctes, Clean (.query q) := by
        by_cases hlocks : locks = 0
        · simp [hlocks, classifyCtes_readOnly ctes v]
        · simp [hlocks]
      rw [clean_query, clean_setExpr, ← and_assoc, ← hhead]
      match body with
      | .select s => simp [classifyQuery, classifySelect_readOnly s, SetExpr.children, walked]
      | .query q => simp [classifyQuery, classifyQuery_readOnly q, SetExpr.children, walked]
      | .setOperation l r =>
          simp [classifyQuery, classifySetExpr_readOnly l, classifySetExpr_readOnly r,
            SetExpr.children, walked, and_assoc]
      | .insert statement | .update statement | .delete statement | .merge statement =>
          simp [classifyQuery, classifyStatement_readOnly statement, SetExpr.children, walked]
      | .values rows => simp [classifyQuery, SetExpr.children, walked]
      | .table => simp [classifyQuery, SetExpr.children]

theorem classifyCtes_readOnly (ctes : List Query) (v : RiskVerdict) :
    (classifyCtes ctes v).riskClass = .readOnly ↔
      v.riskClass = .readOnly ∧ ∀ q ∈ ctes, Clean (.query q) := by
  match ctes with
  | [] => simp [classifyCtes]
  | q :: ctes =>
      simp [classifyCtes, classifyCtes_readOnly ctes, classifyQuery_readOnly q, and_assoc]

theorem classifySetExpr_readOnly (body : SetExpr) (v : RiskVerdict) :
    (classifySetExpr body v).riskClass = .readOnly ↔
      v.riskClass = .readOnly ∧ Clean (.setExpr body) := by
  rw [clean_setExpr]
  match body with
  | .select s => simp [classifySetExpr, classifySelect_readOnly s, SetExpr.children, walked]
  | .query q => simp [classifySetExpr, classifyQuery_readOnly q, SetExpr.children, walked]
  | .setOperation l r =>
      simp [classifySetExpr, classifySetExpr_readOnly l, classifySetExpr_readOnly r,
        SetExpr.children, walked, and_assoc]
  | .insert statement | .update statement | .delete statement | .merge statement =>
      simp [classifySetExpr, classifyStatement_readOnly statement, SetExpr.children, walked]
  | .values rows => simp [classifySetExpr, SetExpr.children, walked]
  | .table => simp [classifySetExpr, SetExpr.children]

theorem classifySelect_readOnly (s : Select) (v : RiskVerdict) :
    (classifySelect s v).riskClass = .readOnly ↔ v.riskClass = .readOnly ∧ Clean (.select s) := by
  match s with
  | .mk _ _ projection into _ _ _ selection _ _ having _ _ _ =>
      have hinto : (if into = true then v.bump .write "SELECT INTO" else v).riskClass = .readOnly ↔
          v.riskClass = .readOnly ∧ into = false := by
        cases into <;> simp
      rw [clean_select, ← and_assoc, ← hinto]
      simp [classifySelect, classifyIfSome_readOnly selection, classifyIfSome_readOnly having,
        classifyProjection_readOnly projection, and_assoc]

theorem classifyIfSome_readOnly (o : Option Expr) (v : RiskVerdict) :
    (classifyIfSome o v).riskClass = .readOnly ↔
      v.riskClass = .readOnly ∧ ∀ e ∈ o, Clean (.expr e) := by
  match o with
  | none => simp [classifyIfSome]
  | some e => simp [classifyIfSome, classifyExpr_readOnly e]

theorem classifyProjection_readOnly (items : List SelectItem) (v : RiskVerdict) :
    (classifyProjection items v).riskClass = .readOnly ↔
      v.riskClass = .readOnly ∧ ∀ item ∈ items, CleanAll item.children := by
  match items with
  | [] => simp [classifyProjection]
  | .unnamedExpr e :: items | .exprWithAlias e :: items =>
      simp [classifyProjection, classifyProjection_readOnly items, classifyExpr_readOnly e,
        SelectItem.children, walked, and_assoc]
  | .other exprs :: items =>
      simp [classifyProjection, classifyProjection_readOnly items, SelectItem.children, walked]

theorem classifyExpr_readOnly (e : Expr) (v : RiskVerdict) :
    (classifyExpr e v).riskClass = .readOnly ↔ v.riskClass = .readOnly ∧ Clean (.expr e) := by
  rw [clean_iff]
  match e with
  | .function func =>
      have hhead : (if isSideEffectFunction func then
          v.bump .write "side-effect function in expression" else v).riskClass = .readOnly ↔
          v.riskClass = .readOnly ∧ isSideEffectFunction func = false := by
        cases isSideEffectFunction func <;> simp
      rw [classifyExpr, walkFunctionArgs_readOnly func, hhead, and_assoc]
      rfl
  | .nested inner | .unaryOp inner | .cast inner | .isNull inner | .isNotNull inner =>
      simp [classifyExpr, classifyExpr_readOnly inner, raises, Node.children, Expr.children, walked]
  | .binaryOp l r =>
      simp [classifyExpr, classifyExpr_readOnly l, classifyExpr_readOnly r, raises, Node.children,
        Expr.children, walked, and_assoc]
  | .inList e list =>
      simp [classifyExpr, classifyExpr_readOnly e, classifyExprs_readOnly list, raises,
        Node.children, Expr.children, walked, and_assoc]
  | .inSubquery e q =>
      simp [classifyExpr, classifyExpr_readOnly e, classifyQuery_readOnly q, raises,
        Node.children, Expr.children, walked, and_assoc]
  | .existsQuery q | .subquery q =>
      simp [classifyExpr, classifyQuery_readOnly q, raises, Node.children, Expr.children, walked]
  | .case operand conditions elseResult =>
      simp [classifyExpr, classifyIfSome_readOnly operand, classifyIfSome_readOnly elseResult,
        classifyConditions_readOnly conditions, raises, Node.children, Expr.children, walked,
        and_assoc]
  | .between e low high | .like e pattern | .iLike e pattern | .similarTo e pattern =>
      simp [classifyExpr, classifyExpr_readOnly e, raises, Node.children, Expr.children, walked]
  | .inUnnest e arrayExpr =>
      simp [classifyExpr, classifyExpr_readOnly e, classifyExpr_readOnly arrayExpr, raises,
        Node.children, Expr.children, walked, and_assoc]
  | .other operands => simp [classifyExpr, raises, Node.children, Expr.children, walked]

theorem classifyExprs_readOnly (list : List Expr) (v : RiskVerdict) :
    (classifyExprs list v).riskClass = .readOnly ↔
      v.riskClass = .readOnly ∧ ∀ e ∈ list, Clean (.expr e) := by
  match list with
  | [] => simp [classifyExprs]
  | e :: list =>
      simp [classifyExprs, classifyExprs_readOnly list, classifyExpr_readOnly e, and_assoc]

theorem walkFunctionArgs_readOnly (func : Function) (v : RiskVerdict) :
    (walkFunctionArgs func v).riskClass = .readOnly ↔
      v.riskClass = .readOnly ∧ CleanAll func.children := by
  match func with
  | .mk _ _ args _ _ _ _ =>
      match args with
      | .none => simp [walkFunctionArgs, Function.children, FunctionArguments.children, walked]
      | .subquery q =>
          simp [walkFunctionArgs, Function.children, FunctionArguments.children, walked]
      | .list args =>
          simp [walkFunctionArgs, classifyArgs_readOnly args, Function.children,
            FunctionArguments.children, walked]

theorem classifyArgs_readOnly (args : List FunctionArg) (v : RiskVerdict) :
    (classifyArgs args v).riskClass = .readOnly ↔
      v.riskClass = .readOnly ∧ ∀ arg ∈ args, CleanAll arg.children := by
  match args with
  | [] => simp [classifyArgs]
  | .unnamedExpr e :: args =>
      simp [classifyArgs, classifyArgs_readOnly args, classifyExpr_readOnly e,
        FunctionArg.children, walked, and_assoc]
  | .unnamedWildcard :: args =>
      simp [classifyArgs, classifyArgs_readOnly args, FunctionArg.children]
  | .named exprs :: args =>
      simp [classifyArgs, classifyArgs_readOnly args, FunctionArg.children, walked]

theorem classifyConditions_readOnly (conditions : List CaseWhen) (v : RiskVerdict) :
    (classifyConditions conditions v).riskClass = .readOnly ↔
      v.riskClass = .readOnly ∧ ∀ w ∈ conditions, CleanAll w.children := by
  match conditions with
  | [] => simp [classifyConditions]
  | .mk condition result :: conditions =>
      simp [classifyConditions, classifyConditions_readOnly conditions,
        classifyExpr_readOnly condition, classifyExpr_readOnly result, CaseWhen.children, walked,
        and_assoc]

end

/-! ## The verdict on a text -/

theorem classifyStatements_readOnly (statements : List Statement) (v : RiskVerdict) :
    (classifyStatements statements v).riskClass = .readOnly ↔
      v.riskClass = .readOnly ∧ ∀ s ∈ statements, Clean (.statement s) := by
  induction statements generalizing v with
  | nil => simp [classifyStatements]
  | cons s statements ih =>
      show (classifyStatements statements (classifyStatement s v)).riskClass = .readOnly ↔ _
      rw [ih, classifyStatement_readOnly, and_assoc, List.forall_mem_cons]

theorem clean_statements_iff {statements : List Statement} :
    (∀ s ∈ statements, Clean (.statement s)) ↔
      ∀ n, Walked statements n → raises n = false := by
  constructor
  · rintro h n ⟨s, hs, hwalks⟩
    exact h s hs n hwalks
  · intro h s hs n hwalks
    exact h n ⟨s, hs, hwalks⟩

/-- The verdict is `ReadOnly` exactly on texts without executable comment that
parse, have a statement, and whose walk meets nothing that raises it. -/
theorem classify_isReadOnly_iff {parseWith : Parser} {sql : List Char} :
    (classify parseWith sql).isReadOnly = true ↔
      containsExecutableComment sql = false ∧
        ∃ statements, parseAny parseWith sql = some statements ∧ statements ≠ [] ∧
          ∀ n, Walked statements n → raises n = false := by
  have hstart : (if containsExecutableComment sql = true then
      RiskVerdict.empty.bump .write "executable comment (/*! */) not allowed"
      else RiskVerdict.empty).riskClass = .readOnly ↔ containsExecutableComment sql = false := by
    by_cases hcomment : containsExecutableComment sql = true <;>
      simp [hcomment, RiskVerdict.empty]
  unfold classify
  cases hparse : parseAny parseWith sql with
  | none => simp [RiskVerdict.isReadOnly]
  | some statements =>
      cases statements with
      | nil => simp [RiskVerdict.isReadOnly]
      | cons s statements =>
          simp only [RiskVerdict.isReadOnly, decide_eq_true_eq, classifyStatements_readOnly,
            hstart, clean_statements_iff, Option.some.injEq, exists_eq_left', ne_eq,
            reduceCtorEq, not_false_eq_true, true_and]

/-- What passes the gate of `read_query` is one statement on which the walk meets
nothing that raises the verdict. -/
theorem riskGate_ok {parseWith : Parser} {sql : List Char}
    (h : riskGate parseWith sql = .ok ()) :
    ∃ s, parseAny parseWith sql = some [s] ∧ Clean (.statement s) := by
  simp only [riskGate] at h
  by_cases hread : (classify parseWith sql).isReadOnly = true
  · by_cases hcount : statementCount parseWith sql = 1
    · obtain ⟨-, statements, hparse, -, hwalk⟩ := classify_isReadOnly_iff.mp hread
      rw [statementCount, hparse] at hcount
      obtain ⟨s, rfl⟩ := List.length_eq_one_iff.mp hcount
      exact ⟨s, hparse, clean_statements_iff.mpr hwalk s List.mem_cons_self⟩
    · simp [hread, hcount] at h
  · simp [hread] at h

/-- A `ReadOnly` verdict is sound exactly for the texts with an executable
comment, those where the walk meets something that raises the verdict, and those
where no forbidden node stands only in places the walk leaves out. -/
theorem readOnly_sound_iff {parseWith : Parser} {sql : List Char} {statements : List Statement}
    (hparse : parseAny parseWith sql = some statements) :
    ((classify parseWith sql).isReadOnly = true →
        ∀ n, Evaluated statements n → forbidden n = false) ↔
      containsExecutableComment sql = true ∨
        (∃ n, Walked statements n ∧ raises n = true) ∨
        ∀ n, Evaluated statements n → ¬ Walked statements n → forbidden n = false := by
  rw [classify_isReadOnly_iff]
  constructor
  · intro hsound
    by_cases hcomment : containsExecutableComment sql = true
    · exact .inl hcomment
    · by_cases hraise : ∃ n, Walked statements n ∧ raises n = true
      · exact .inr (.inl hraise)
      · refine .inr (.inr fun n hn _ => ?_)
        have hclean : ∀ n, Walked statements n → raises n = false := by
          intro m hm
          rw [← Bool.not_eq_true]
          exact fun h => hraise ⟨m, hm, h⟩
        have hsome : statements ≠ [] := by
          rintro rfl
          obtain ⟨s, hs, -⟩ := hn
          cases hs
        exact hsound ⟨by simpa using hcomment, statements, hparse, hsome, hclean⟩ n hn
  · rintro hcond ⟨hcomment, statements', hparse', -, hclean⟩ n hn
    rw [hparse, Option.some.injEq] at hparse'
    subst hparse'
    rcases hcond with hyes | ⟨m, hm, hraise⟩ | hhidden
    · rw [hcomment] at hyes
      cases hyes
    · rw [hclean m hm] at hraise
      cases hraise
    · by_cases hwalked : Walked statements n
      · rw [← Bool.not_eq_true]
        intro hforbidden
        have hraise := raises_of_forbidden hwalked hforbidden
        rw [hclean n hwalked] at hraise
        cases hraise
      · exact hhidden n hn hwalked

/-! ## A derived table -/

def selectOf (projection : List SelectItem) (source : List TableWithJoins) : Query :=
  .mk [] (.select (.mk [] [] projection false source [] none none [] [] none [] none [])) 0 [] [] []

def nextvalCall : Expr :=
  .function (.mk [.identifier "nextval".toList] [] (.list [.unnamedExpr (.other [])]) [] none [] [])

/-- `SELECT * FROM (SELECT nextval('s')) AS d` -/
def derivedNextval : Statement :=
  .query (selectOf [.other []] [.mk (.derived (selectOf [.unnamedExpr nextvalCall] [])) []])

def derivedText : List Char := "SELECT * FROM (SELECT nextval('s')) AS d".toList

def parseDerived : Parser := fun _ sql => if sql = derivedText then some [derivedNextval] else none

theorem parseAny_derivedText : parseAny parseDerived derivedText = some [derivedNextval] := rfl

theorem readOnly_sound_iff_derivedText :
    ((classify parseDerived derivedText).isReadOnly = true →
        ∀ n, Evaluated [derivedNextval] n → forbidden n = false) ↔
      containsExecutableComment derivedText = true ∨
        (∃ n, Walked [derivedNextval] n ∧ raises n = true) ∨
        ∀ n, Evaluated [derivedNextval] n → ¬ Walked [derivedNextval] n → forbidden n = false :=
  readOnly_sound_iff parseAny_derivedText

theorem derived_nextval_readOnly :
    parseAny parseDerived derivedText = some [derivedNextval] ∧
      (classify parseDerived derivedText).isReadOnly = true ∧
      Evaluated [derivedNextval] (.expr nextvalCall) ∧ forbidden (.expr nextvalCall) = true := by
  refine ⟨rfl, by decide, ⟨derivedNextval, List.mem_cons_self, ?_⟩, by decide⟩
  -- down to the derived table
  refine .head ⟨.body, .head _⟩ (.head ⟨.body, .head _⟩ (.head ⟨.body, .head _⟩ ?_))
  refine .head ⟨.source, .head _⟩ (.head ⟨.relation, .head _⟩ ?_)
  -- and from it to the call
  refine .head ⟨.derivedTable, .head _⟩ (.head ⟨.body, .head _⟩ (.head ⟨.body, .head _⟩ ?_))
  exact .head ⟨.projection, .head _⟩ .refl

/-- In `SELECT * FROM pg_terminate_backend(1)` the call stands in the place of a table. -/
example :
    let call := TableFactor.table [.identifier "pg_terminate_backend".toList] (some [.other []]) []
    (classifyStatements [.query (selectOf [.other []] [.mk call []])] .empty).isReadOnly = true ∧
      forbidden (.factor call) = true := by
  decide

end Dbmaster.Risk.Soundness
