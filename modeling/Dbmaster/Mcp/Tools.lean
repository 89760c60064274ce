import Dbmaster.Approval.Workflow
import Dbmaster.Lib.Calls
import Dbmaster.Lib.Json
import Dbmaster.Lib.Table
import Dbmaster.Lib.Text
import Dbmaster.Mcp.Access
import Dbmaster.Risk.Classify
/-!
# The tools of the MCP endpoint

`tools::dispatch`: a call of a tool from its arguments over the whitelist, the gates and the
statements to the audit row, with any number of calls in progress while connections come, go and
are renamed and people review approvals.
-/

namespace Dbmaster.Mcp.Tools

open Dbmaster.Lib Dbmaster.Lib.Table Dbmaster.Lib.Transition Dbmaster.Lib.Calls
open Dbmaster.Approval.Workflow (ApprovalRow Status ExecStatus insertApproval claimExecution
  persistOutcome)
open Dbmaster.Auth.Tokens (Claims)
open Dbmaster.Mcp.Access (McpAudit auditRow)
open Dbmaster.Risk.Classify (Parser RiskVerdict classify riskGate statementCount)

/-! ## Calls -/

structure ConnectionSummary where
  id : String
  name : String
  dbType : String
  readOnly : Bool
  defaultDatabase : Option String

/-- `allowed` is the whitelist. -/
structure Config where
  allowed : List String
  gated : Bool
  readQueryMaxRows : Nat
  readQueryMaxRows_pos : 1 ≤ readQueryMaxRows
  parseWith : Parser
  jsonText : Json → String

structure ToolCall where
  tool : String
  args : Option (List (String × Json))
  user : Option Claims

/-- What is left to do on a connection when the whitelist has let it through. -/
inductive Task
  | listDatabases (connId : String)
  | listTables (connId : String) (database : Option String)
  | describeTable (connId table : String) (database : Option String)
  | readQuery (connId sql : String) (database : Option String) (limit : Nat)
  | submit (connId sql sub : String)
  | execute (approvalId connId ddl sub : String)

def Task.connId : Task → String
  | .listDatabases connId => connId
  | .listTables connId _ => connId
  | .describeTable connId _ _ => connId
  | .readQuery connId _ _ _ => connId
  | .submit connId _ _ => connId
  | .execute _ connId _ _ => connId

inductive Output
  | connections (summaries : List ConnectionSummary)
  | databases (connId : String) (value : Json)
  | tables (connId : String) (value : Json)
  | value (value : Json)
  | submitted (approvalId : String) (risk : RiskVerdict)
  | approval (row : ApprovalRow) (risk : RiskVerdict)
  | execState (approvalId execStatus : String) (execError : Option String)

/-- The answer is what a target has read. -/
def Output.IsValue : Output → Prop
  | .databases _ _ | .tables _ _ | .value _ => True
  | _ => False

/-- How far a call is; in `vetting` and `doing` it has been decided what to do. -/
inductive Stage
  | called
  | listing
  | vetting (connId : String) (next : Except String Task)
  | doing (task : Task)
  | inserting (connId sql sub : String)
  | loading (approvalId sub : String) (execute : Bool)
  | claimed (approvalId connId ddl sub : String)
  | persisting (approvalId : String) (outcome : Except String Unit)
  | reloading (approvalId : String)
  | logging (result : Except String Output)
  | answered (result : Except String Output)

def Stage.answer : Stage → Option (Except String Output)
  | .answered result => some result
  | _ => none

structure Phase where
  call : ToolCall
  stage : Stage

/-- `touched` are the tasks that were handed on to a target, with the calls they are of, and
`broken` the audit rows that could not be written. -/
structure Shared where
  connections : List ConnectionSummary
  approvals : List ApprovalRow
  audit : List McpAudit
  broken : List McpAudit
  touched : List (ToolCall × Task)

/-- What a step meets: whether its statement succeeds or else the text of the failure, the UUID
and the clock, and what the target answers. -/
structure Meets where
  ok : Bool
  text : String
  id : String
  now : String
  outcome : Except String Json

inductive Event
  | meets (m : Meets)
  | register (c : ConnectionSummary)
  | remove (connId : String)
  | rename (connId name : String)
  | submitted (row : ApprovalRow)
  | review (approvalId : String) (status : Status) (execStatus : ExecStatus)

/-! ## Arguments -/

section Arguments

variable (jsonText : Json → String) (args : List (String × Json))

def argStr (name : String) : Except String (Option String) :=
  match (Json.obj args).get name with
  | none => .ok none
  | some .null => .ok none
  | some (.str s) => .ok (some s)
  | some other => .error ("argument '" ++ name ++ "' must be a string, got " ++ jsonText other)

def argU64 (name : String) : Except String (Option Nat) :=
  match (Json.obj args).get name with
  | none => .ok none
  | some .null => .ok none
  | some (.int n) =>
    if 0 ≤ n ∧ n < 18446744073709551616 then .ok (some n.toNat)
    else .error ("argument '" ++ name ++ "' must be a non-negative integer")
  | some (.real _) => .error ("argument '" ++ name ++ "' must be a non-negative integer")
  | some other => .error ("argument '" ++ name ++ "' must be an integer, got " ++ jsonText other)

def requireStr (name : String) : Except String String := do
  let found ← argStr jsonText args name
  match found.filter fun s => !(Text.trim s.toList).isEmpty with
  | some s => .ok s
  | none => .error ("missing required argument '" ++ name ++ "'")

end Arguments

def badRequest (message : String) : String := "INVALID_ARGUMENT: " ++ message

/-! ## The whitelist -/

section Whitelist

variable (allowed : List String)

def allows (id name : String) : Bool :=
  allowed.isEmpty || allowed.any fun entry => decide (entry = id) || decide (entry = name)

def visibleSummaries (connections : List ConnectionSummary) : List ConnectionSummary :=
  connections.filter fun c => allows allowed c.id c.name

def ensureConnectionAllowed (connections : Except String (List ConnectionSummary))
    (connId : String) : Except String Unit :=
  if allowed.isEmpty then .ok ()
  else
    match connections with
    | .error e => .error e
    | .ok connections =>
      match connections.find? fun c => decide (c.id = connId) with
      | some c =>
        if allows allowed c.id c.name then .ok ()
        else .error
          "CONNECTION_NOT_ALLOWED: connection is not exposed over MCP (not in mcp.allowed_connections)"
      | none => .ok ()

end Whitelist

/-! ## The steps of a call -/

section Program

variable (config : Config)

def start : Except String Task → Stage
  | .ok task => .doing task
  | .error e => .logging (.error e)

/-- An empty whitelist is not looked up. -/
def vet (connId : String) (next : Except String Task) : Stage :=
  if config.allowed.isEmpty then start next else .vetting connId next

def onConnection (args : List (String × Json)) (next : String → Except String Task) : Stage :=
  match (requireStr config.jsonText args "connection_id").mapError badRequest with
  | .error e => .logging (.error e)
  | .ok connId => vet config connId (next connId)

def readQueryDefaultRows : Nat := 500

/-- `clamp` and `min`. -/
def rowLimit (maxRows : Option Nat) : Nat :=
  min ((maxRows.map fun v => max 1 (min v config.readQueryMaxRows)).getD readQueryDefaultRows)
    config.readQueryMaxRows

def readQuery (args : List (String × Json)) : Stage :=
  match (do
    let connId ← requireStr config.jsonText args "connection_id"
    let sql ← requireStr config.jsonText args "sql"
    let database ← argStr config.jsonText args "database"
    let maxRows ← argU64 config.jsonText args "max_rows"
    return (connId, sql, database, maxRows) : Except String _).mapError badRequest with
  | .error e => .logging (.error e)
  | .ok (connId, sql, database, maxRows) =>
    vet config connId ((riskGate config.parseWith sql.toList).map fun _ =>
      .readQuery connId sql database (rowLimit config maxRows))

def gatedMessage : String :=
  "ENTITLEMENT_GATED: server license is gated — activate or renew to use write tools " ++
    "(read tools remain available)"

def submitWrite (args : List (String × Json)) (sub : String) : Stage :=
  if config.gated then .logging (.error gatedMessage)
  else
    match (do
      let connId ← requireStr config.jsonText args "connection_id"
      let sql ← requireStr config.jsonText args "sql"
      return (connId, sql) : Except String _).mapError badRequest with
    | .error e => .logging (.error e)
    | .ok (connId, sql) =>
      vet config connId
        (if (classify config.parseWith sql.toList).isReadOnly then
          .error ("READ_ONLY_SQL: statement is read-only — use read_query instead " ++
            "(no approval needed)")
        else if statementCount config.parseWith sql.toList ≠ 1 then
          .error "MULTI_STATEMENT: submit exactly one SQL statement per submit_write call"
        else .ok (.submit connId sql sub))

def loadApproval (args : List (String × Json)) (sub : String) (execute : Bool) : Stage :=
  match (requireStr config.jsonText args "approval_id").mapError badRequest with
  | .error e => .logging (.error e)
  | .ok approvalId => .loading approvalId sub execute

/-- The part of `execute` before any statement. -/
def begin (c : ToolCall) : Stage :=
  match c.user with
  | none => .logging (.error "unauthenticated tool call (no caller identity on request)")
  | some user =>
    let args := c.args.getD []
    if c.tool = "list_connections" then .listing
    else if c.tool = "list_databases" then
      onConnection config args fun connId => .ok (.listDatabases connId)
    else if c.tool = "list_tables" then
      onConnection config args fun connId =>
        ((argStr config.jsonText args "database").mapError badRequest).map (.listTables connId)
    else if c.tool = "describe_table" then
      onConnection config args fun connId => (do
        let table ← requireStr config.jsonText args "table"
        let database ← argStr config.jsonText args "database"
        return .describeTable connId table database : Except String Task).mapError badRequest
    else if c.tool = "read_query" then readQuery config args
    else if c.tool = "submit_write" then submitWrite config args user.sub
    else if c.tool = "get_approval" then loadApproval config args user.sub false
    else if c.tool = "execute_write" then
      if config.gated then .logging (.error gatedMessage)
      else loadApproval config args user.sub true
    else .logging (.error ("unknown tool '" ++ c.tool ++ "'"))

def dbError (text : String) : String :=
  "DB_ERROR: server database read failed: " ++ String.ofList (text.toList.take 120)

def approvalNotFound : String :=
  "NOT_FOUND: approval not found (unknown id, or not submitted by you)"

def statusText : Status → String
  | .pending => "pending"
  | .approved => "approved"
  | .rejected => "rejected"
  | .executing => "executing"
  | .failed => "failed"
  | .other text => text

def execStatusText : ExecStatus → String
  | .pending => "pending"
  | .executing => "executing"
  | .approved => "approved"
  | .failed => "failed"

def Shared.updateApproval (s : Shared) (approvalId : String) (f : ApprovalRow → ApprovalRow) :
    Shared :=
  { s with approvals := updateWhere (fun row => decide (row.id = approvalId)) f s.approvals }

def isRegistered (s : Shared) (connId : String) : Bool :=
  s.connections.any fun c => decide (c.id = connId)

/-- A task that reads from the target. -/
def readTarget (s : Shared) (c : ToolCall) (m : Meets) (task : Task) (wrap : Json → Output) :
    Shared × Stage :=
  if m.ok then
    if isRegistered s task.connId then
      ({ s with touched := s.touched ++ [(c, task)] }, .logging (m.outcome.map wrap))
    else (s, .logging (.error ("NOT_FOUND: connection '" ++ task.connId ++ "' not found")))
  else (s, .logging (.error (dbError m.text)))

def doTask (s : Shared) (c : ToolCall) (m : Meets) : Task → Shared × Stage
  | .listDatabases connId => readTarget s c m (.listDatabases connId) (.databases connId)
  | .listTables connId database => readTarget s c m (.listTables connId database) (.tables connId)
  | .describeTable connId table database =>
    readTarget s c m (.describeTable connId table database) .value
  | .readQuery connId sql database limit =>
    readTarget s c m (.readQuery connId sql database limit) .value
  | .submit connId sql sub =>
    if m.ok then
      if isRegistered s connId then (s, .inserting connId sql sub)
      else (s, .logging (.error
        ("NOT_FOUND: connection '" ++ connId ++ "' not found (check list_connections)")))
    else (s, .logging (.error "DB_ERROR: could not verify the connection"))
  | .execute approvalId connId ddl sub =>
    if m.ok then
      if s.approvals.any fun row => decide (row.id = approvalId) && decide (row.execStatus = .pending)
      then
        (s.updateApproval approvalId fun row => (claimExecution m.now row).1,
          .claimed approvalId connId ddl sub)
      else (s, .reloading approvalId)
    else (s, .logging (.error
      "EXECUTE_FAILED: could not claim the approval for execution"))

/-- `load_own_approval` and what follows it without a statement. -/
def ownApproval (s : Shared) (m : Meets) (approvalId sub : String) (execute : Bool) : Stage :=
  if m.ok then
    match s.approvals.find? fun row =>
      decide (row.id = approvalId) && decide (row.submitterId = sub) with
    | none => .logging (.error approvalNotFound)
    | some row =>
      if execute then
        if row.status = .approved then
          vet config row.targetDbId (.ok (.execute approvalId row.targetDbId row.ddlSql sub))
        else .logging (.error ("APPROVAL_NOT_APPROVED: approval status is '" ++
          statusText row.status ++
          "' — a human must approve it (in the dbmaster client) before execute_write can run"))
      else .logging (.ok (.approval row (classify config.parseWith row.ddlSql.toList)))
  else .logging (.error "DB_ERROR: could not read the approval")

def auditOf (c : ToolCall) (result : Except String Output) (now : String) : McpAudit :=
  auditRow (c.user.map Claims.sub) .toolCall (some c.tool)
    (match result with
    | .ok _ => none
    | .error message => some (message.toList.take 200))
    now

def advance (s : Shared) (c : ToolCall) (m : Meets) : Stage → Option (Shared × Stage)
  | .called => some (s, begin config c)
  | .listing =>
    if m.ok then some (s, .logging (.ok (.connections (visibleSummaries config.allowed s.connections))))
    else some (s, .logging (.error (dbError m.text)))
  | .vetting connId next =>
    match ensureConnectionAllowed config.allowed
      (if m.ok then .ok s.connections else .error (dbError m.text)) connId with
    | .ok () => some (s, start next)
    | .error e => some (s, .logging (.error e))
  | .doing task => some (doTask s c m task)
  | .inserting connId sql sub =>
    -- the primary key, and the foreign key of the target
    if m.ok && !((s.approvals.map ApprovalRow.id).contains m.id) && isRegistered s connId then
      some ({ s with approvals := s.approvals ++ [insertApproval m.id sql connId sub m.now] },
        .logging (.ok (.submitted m.id (classify config.parseWith sql.toList))))
    else some (s, .logging (.error "SUBMIT_FAILED: could not create the approval"))
  | .loading approvalId sub execute => some (s, ownApproval config s m approvalId sub execute)
  | .claimed approvalId connId ddl sub =>
    if m.ok && isRegistered s connId then
      some ({ s with touched := s.touched ++ [(c, .execute approvalId connId ddl sub)] },
        .persisting approvalId (m.outcome.map fun _ => ()))
    else some (s, .persisting approvalId (.error m.text))
  | .persisting approvalId outcome =>
    -- a terminal state that cannot be stored is warned of and answered all the same
    some (if m.ok then s.updateApproval approvalId (persistOutcome outcome) else s,
      match outcome with
      | .ok () => .logging (.ok (.execState approvalId "approved" none))
      | .error e => .logging (.ok (.execState approvalId "failed" (some e))))
  | .reloading approvalId =>
    if m.ok then
      match s.approvals.find? fun row => decide (row.id = approvalId) with
      | none => some (s, .logging (.error approvalNotFound))
      | some row =>
        some (s, .logging (.ok (.execState approvalId (execStatusText row.execStatus)
          row.execError)))
    else some (s, .logging (.error "DB_ERROR: could not read the approval state"))
  | .logging result =>
    some (if m.ok then { s with audit := s.audit ++ [auditOf c result m.now] }
      else { s with broken := s.broken ++ [auditOf c result m.now] }, .answered result)
  | .answered _ => none

def move (s : Shared) (phase : Phase) : Event → Option (Shared × Phase)
  | .meets m => (advance config s phase.call m phase.stage).map fun next =>
      (next.1, ⟨phase.call, next.2⟩)
  | _ => none

def env (s : Shared) : Event → Option Shared
  | .meets _ => none
  | .register c =>
    if isRegistered s c.id then none else some { s with connections := c :: s.connections }
  | .remove connId =>
    -- the foreign key of the approvals
    if s.approvals.any fun row => decide (row.targetDbId = connId) then none
    else some { s with connections := s.connections.filter fun c => !decide (c.id = connId) }
  | .rename connId name =>
    some { s with
      connections := updateWhere (fun c => decide (c.id = connId)) (fun c => { c with name := name })
        s.connections }
  | .submitted row =>
    if (s.approvals.map ApprovalRow.id).contains row.id then none
    else some { s with approvals := s.approvals ++ [row] }
  | .review approvalId status execStatus =>
    some (s.updateApproval approvalId fun row =>
      { row with status := status, execStatus := execStatus })

def program : Program Shared Phase ToolCall Event where
  call c := ⟨c, .called⟩
  move := move config
  env := env

end Program

/-! ## Results -/

section Results

variable {α β : Type} {result : Except String α} {f : α → β} {g : α → Except String β} {b : β}

theorem map_eq_ok (h : result.map f = .ok b) : ∃ a, result = .ok a ∧ f a = b := by
  cases result with
  | ok a => exact ⟨a, rfl, Except.ok.inj h⟩
  | error e => cases h

theorem mapError_eq_ok {h : String → String} {a : α} (hok : result.mapError h = .ok a) :
    result = .ok a := by
  cases result with
  | ok a' => exact hok
  | error e => cases hok

theorem bind_eq_ok (h : result >>= g = .ok b) : ∃ a, result = .ok a ∧ g a = .ok b := by
  cases result with
  | ok a => exact ⟨a, rfl, h⟩
  | error e => cases h

end Results

/-! ## What a step does -/

section Steps

variable {config : Config} {s s' : Shared} {c : ToolCall} {m : Meets} {e : Event}
variable {old new : Stage} {phase phase' : Phase} {connId sub approvalId : String}

/-- The row is the user's own approval. -/
def Loaded (s : Shared) (approvalId sub : String) (row : ApprovalRow) : Prop :=
  row ∈ s.approvals ∧ row.id = approvalId ∧ row.submitterId = sub

/-- What a stage finds without a target. -/
inductive Finds (config : Config) (s : Shared) : Stage → Output → Prop
  | connections :
      Finds config s .listing (.connections (visibleSummaries config.allowed s.connections))
  | approval (approvalId sub : String) (execute : Bool) (row : ApprovalRow) (risk : RiskVerdict)
      (hrow : Loaded s approvalId sub row) :
      Finds config s (.loading approvalId sub execute) (.approval row risk)
  | outcome (approvalId execStatus : String) (outcome : Except String Unit)
      (execError : Option String) :
      Finds config s (.persisting approvalId outcome) (.execState approvalId execStatus execError)
  | execState (approvalId execStatus : String) (execError : Option String) :
      Finds config s (.reloading approvalId) (.execState approvalId execStatus execError)

inductive Moves (config : Config) (s : Shared) (c : ToolCall) : Stage → Stage → Shared → Prop
  | begins : Moves config s c .called (begin config c) s
  | vetted (connId : String) (next : Except String Task)
      (hallowed : ensureConnectionAllowed config.allowed (.ok s.connections) connId = .ok ()) :
      Moves config s c (.vetting connId next) (start next) s
  | loaded (approvalId sub : String) (row : ApprovalRow) (hrow : Loaded s approvalId sub row)
      (hstatus : row.status = .approved) :
      Moves config s c (.loading approvalId sub true)
        (vet config row.targetDbId (.ok (.execute approvalId row.targetDbId row.ddlSql sub))) s
  | refuses (old : Stage) (message : String) (hold : old.answer = none) :
      Moves config s c old (.logging (.error message)) s
  | finds (old : Stage) (output : Output) (hfinds : Finds config s old output) :
      Moves config s c old (.logging (.ok output)) s
  | reads (task : Task) (result : Except String Output) (hkind : ∀ a b d e, task ≠ .execute a b d e)
      (hresult : ∀ output, result = .ok output → output.IsValue)
      (hregistered : isRegistered s task.connId = true) :
      Moves config s c (.doing task) (.logging result) { s with touched := s.touched ++ [(c, task)] }
  | known (connId sql sub : String) (hregistered : isRegistered s connId = true) :
      Moves config s c (.doing (.submit connId sql sub)) (.inserting connId sql sub) s
  | inserts (connId sql sub id now : String) (risk : RiskVerdict)
      (hfresh : id ∉ s.approvals.map ApprovalRow.id) :
      Moves config s c (.inserting connId sql sub) (.logging (.ok (.submitted id risk)))
        { s with approvals := s.approvals ++ [insertApproval id sql connId sub now] }
  | claims (approvalId connId ddl sub now : String) :
      Moves config s c (.doing (.execute approvalId connId ddl sub))
        (.claimed approvalId connId ddl sub)
        (s.updateApproval approvalId fun row => (claimExecution now row).1)
  | loses (approvalId connId ddl sub : String) :
      Moves config s c (.doing (.execute approvalId connId ddl sub)) (.reloading approvalId) s
  | executes (approvalId connId ddl sub : String) (outcome : Except String Unit)
      (hregistered : isRegistered s connId = true) :
      Moves config s c (.claimed approvalId connId ddl sub) (.persisting approvalId outcome)
        { s with touched := s.touched ++ [(c, .execute approvalId connId ddl sub)] }
  | fails (approvalId connId ddl sub : String) (outcome : Except String Unit) :
      Moves config s c (.claimed approvalId connId ddl sub) (.persisting approvalId outcome) s
  | persists (approvalId execStatus : String) (outcome : Except String Unit)
      (execError : Option String) :
      Moves config s c (.persisting approvalId outcome)
        (.logging (.ok (.execState approvalId execStatus execError)))
        (s.updateApproval approvalId (persistOutcome outcome))
  | logs (result : Except String Output) (now : String) :
      Moves config s c (.logging result) (.answered result)
        { s with audit := s.audit ++ [auditOf c result now] }
  | reports (result : Except String Output) (now : String) :
      Moves config s c (.logging result) (.answered result)
        { s with broken := s.broken ++ [auditOf c result now] }

theorem isEmpty_of_error {allowed : List String} {text : String}
    (h : ensureConnectionAllowed allowed (.error text) connId = .ok ()) :
    allowed.isEmpty = true := by
  unfold ensureConnectionAllowed at h
  split_ifs at h with hempty
  exact hempty

theorem moves_readTarget {task : Task} {wrap : Json → Output}
    (hkind : ∀ a b d e, task ≠ .execute a b d e) (hwrap : ∀ value, (wrap value).IsValue) :
    Moves config s c (.doing task) (readTarget s c m task wrap).2 (readTarget s c m task wrap).1 := by
  unfold readTarget
  split_ifs with hok hregistered
  · refine .reads task _ hkind ?_ hregistered
    intro output houtput
    obtain ⟨value, -, rfl⟩ := map_eq_ok houtput
    exact hwrap value
  · exact .refuses _ _ rfl
  · exact .refuses _ _ rfl

theorem moves_doTask (task : Task) :
    Moves config s c (.doing task) (doTask s c m task).2 (doTask s c m task).1 := by
  cases task with
  | listDatabases connId =>
      exact moves_readTarget (by rintro a b d e ⟨⟩) fun _ => trivial
  | listTables connId database =>
      exact moves_readTarget (by rintro a b d e ⟨⟩) fun _ => trivial
  | describeTable connId table database =>
      exact moves_readTarget (by rintro a b d e ⟨⟩) fun _ => trivial
  | readQuery connId sql database limit =>
      exact moves_readTarget (by rintro a b d e ⟨⟩) fun _ => trivial
  | submit connId sql sub =>
      unfold doTask
      dsimp only
      split_ifs with hok hregistered
      · exact .known connId sql sub hregistered
      · exact .refuses _ _ rfl
      · exact .refuses _ _ rfl
  | execute approvalId connId ddl sub =>
      unfold doTask
      dsimp only
      split_ifs
      · exact .claims approvalId connId ddl sub m.now
      · exact .loses approvalId connId ddl sub
      · exact .refuses _ _ rfl

theorem moves_ownApproval {execute : Bool} :
    Moves config s c (.loading approvalId sub execute)
      (ownApproval config s m approvalId sub execute) s := by
  unfold ownApproval
  split
  case isFalse => exact .refuses _ _ rfl
  case isTrue =>
    split
    case h_1 => exact .refuses _ _ rfl
    case h_2 row hfound =>
      have hmatch := List.find?_some hfound
      rw [Bool.and_eq_true, decide_eq_true_iff, decide_eq_true_iff] at hmatch
      have hrow : Loaded s approvalId sub row :=
        ⟨List.mem_of_find?_eq_some hfound, hmatch.1, hmatch.2⟩
      split
      case isFalse => exact .finds _ _ (.approval approvalId sub execute row _ hrow)
      case isTrue hexecute =>
        obtain rfl : execute = true := hexecute
        split
        case isFalse => exact .refuses _ _ rfl
        case isTrue hstatus => exact .loaded approvalId sub row hrow hstatus

theorem advance_moves (h : advance config s c m old = some (s', new)) :
    Moves config s c old new s' := by
  cases old with
  | called =>
      obtain ⟨rfl, rfl⟩ := Prod.mk.inj (Option.some.inj h)
      exact .begins
  | listing =>
      unfold advance at h
      dsimp only at h
      split_ifs at h
      · obtain ⟨rfl, rfl⟩ := Prod.mk.inj (Option.some.inj h)
        exact .finds _ _ .connections
      · obtain ⟨rfl, rfl⟩ := Prod.mk.inj (Option.some.inj h)
        exact .refuses _ _ rfl
  | vetting connId next =>
      unfold advance at h
      dsimp only at h
      split at h
      case h_1 hallowed =>
        obtain ⟨rfl, rfl⟩ := Prod.mk.inj (Option.some.inj h)
        refine .vetted connId next ?_
        cases hok : m.ok with
        | true =>
            rw [hok] at hallowed
            exact hallowed
        | false =>
            rw [hok] at hallowed
            exact if_pos (isEmpty_of_error hallowed)
      case h_2 =>
        obtain ⟨rfl, rfl⟩ := Prod.mk.inj (Option.some.inj h)
        exact .refuses _ _ rfl
  | doing task =>
      have hdo := Option.some.inj h
      have hmoves : Moves config s c (.doing task) (doTask s c m task).2 (doTask s c m task).1 :=
        moves_doTask task
      rw [hdo] at hmoves
      exact hmoves
  | inserting connId sql sub =>
      unfold advance at h
      dsimp only at h
      split_ifs at h with hinsert
      · obtain ⟨rfl, rfl⟩ := Prod.mk.inj (Option.some.inj h)
        rw [Bool.and_eq_true, Bool.and_eq_true, Bool.not_eq_true', ← Bool.not_eq_true,
          List.contains_iff_mem] at hinsert
        exact .inserts connId sql sub m.id m.now _ hinsert.1.2
      · obtain ⟨rfl, rfl⟩ := Prod.mk.inj (Option.some.inj h)
        exact .refuses _ _ rfl
  | loading approvalId sub execute =>
      obtain ⟨rfl, rfl⟩ := Prod.mk.inj (Option.some.inj h)
      exact moves_ownApproval
  | claimed approvalId connId ddl sub =>
      unfold advance at h
      dsimp only at h
      split_ifs at h with hrun
      · obtain ⟨rfl, rfl⟩ := Prod.mk.inj (Option.some.inj h)
        exact .executes approvalId connId ddl sub _ (Bool.and_eq_true_iff.mp hrun).2
      · obtain ⟨rfl, rfl⟩ := Prod.mk.inj (Option.some.inj h)
        exact .fails approvalId connId ddl sub _
  | persisting approvalId outcome =>
      obtain ⟨rfl, rfl⟩ := Prod.mk.inj (Option.some.inj h)
      cases m.ok with
      | true =>
          cases outcome with
          | ok _ => exact .persists approvalId _ _ _
          | error _ => exact .persists approvalId _ _ _
      | false =>
          cases outcome with
          | ok _ => exact .finds _ _ (.outcome approvalId _ _ _)
          | error _ => exact .finds _ _ (.outcome approvalId _ _ _)
  | reloading approvalId =>
      unfold advance at h
      dsimp only at h
      split_ifs at h
      · split at h
        case h_1 =>
          obtain ⟨rfl, rfl⟩ := Prod.mk.inj (Option.some.inj h)
          exact .refuses _ _ rfl
        case h_2 =>
          obtain ⟨rfl, rfl⟩ := Prod.mk.inj (Option.some.inj h)
          exact .finds _ _ (.execState approvalId _ _)
      · obtain ⟨rfl, rfl⟩ := Prod.mk.inj (Option.some.inj h)
        exact .refuses _ _ rfl
  | logging result =>
      obtain ⟨rfl, rfl⟩ := Prod.mk.inj (Option.some.inj h)
      cases m.ok with
      | true => exact .logs result m.now
      | false => exact .reports result m.now
  | answered result => cases h

theorem move_moves (h : move config s phase e = some (s', phase')) :
    phase'.call = phase.call ∧ Moves config s phase.call phase.stage phase'.stage s' := by
  cases e with
  | meets m =>
      obtain ⟨next, hadvance, hnext⟩ := Option.map_eq_some_iff.mp h
      obtain ⟨rfl, rfl⟩ := Prod.mk.inj hnext
      exact ⟨rfl, advance_moves hadvance⟩
  | register _ | remove _ | rename _ _ | submitted _ | review _ _ _ => cases h

/-! ## How a call begins -/

def Task.tool : Task → String
  | .listDatabases _ => "list_databases"
  | .listTables _ _ => "list_tables"
  | .describeTable _ _ _ => "describe_table"
  | .readQuery _ _ _ _ => "read_query"
  | .submit _ _ _ => "submit_write"
  | .execute _ _ _ _ => "execute_write"

/-- The approval that is executed. -/
def Task.executes : Task → Option String
  | .execute approvalId _ _ _ => some approvalId
  | _ => none

/-- A task that the arguments alone decide on: of an authenticated call of its tool, where a query is
read-only, with a limit in bounds. -/
structure Requested (config : Config) (c : ToolCall) (task : Task) : Prop where
  tool : c.tool = task.tool
  user : c.user.isSome = true
  executes : task.executes = none
  query : ∀ connId sql database limit, task = .readQuery connId sql database limit →
    riskGate config.parseWith sql.toList = .ok () ∧ 1 ≤ limit ∧ limit ≤ config.readQueryMaxRows
  submit : ∀ connId sql sub, task = .submit connId sql sub →
    config.gated = false ∧ c.user.map Claims.sub = some sub

inductive Begins (config : Config) (c : ToolCall) : Stage → Prop
  | refuses (message : String) : Begins config c (.logging (.error message))
  | lists : Begins config c .listing
  | vets (connId : String) (next : Except String Task)
      (hnext : ∀ task, next = .ok task → task.connId = connId ∧ Requested config c task) :
      Begins config c (vet config connId next)
  | loads (approvalId sub : String) (execute : Bool) (huser : c.user.map Claims.sub = some sub)
      (hexecute : execute = true → c.tool = "execute_write" ∧ config.gated = false) :
      Begins config c (.loading approvalId sub execute)

theorem begins_onConnection {args : List (String × Json)} {next : String → Except String Task}
    (hnext : ∀ connId task, next connId = .ok task →
      task.connId = connId ∧ Requested config c task) :
    Begins config c (onConnection config args next) := by
  unfold onConnection
  split
  case h_1 e _ => exact .refuses e
  case h_2 connId _ => exact .vets connId _ (hnext connId)

theorem rowLimit_mem (maxRows : Option Nat) :
    1 ≤ rowLimit config maxRows ∧ rowLimit config maxRows ≤ config.readQueryMaxRows := by
  have hpos := config.readQueryMaxRows_pos
  unfold rowLimit readQueryDefaultRows
  cases maxRows with
  | none =>
      rw [Option.map_none, Option.getD_none]
      omega
  | some v =>
      rw [Option.map_some, Option.getD_some]
      omega

theorem begins_readQuery (htool : c.tool = "read_query") (huser : c.user.isSome = true)
    (args : List (String × Json)) : Begins config c (readQuery config args) := by
  unfold readQuery
  split
  case h_1 e _ => exact .refuses e
  case h_2 connId sql database maxRows _ =>
    refine .vets connId _ ?_
    intro task htask
    obtain ⟨_, hgate, rfl⟩ := map_eq_ok htask
    refine ⟨rfl, htool, huser, rfl, ?_, by rintro _ _ _ ⟨⟩⟩
    rintro _ _ _ _ ⟨⟩
    exact ⟨hgate, rowLimit_mem maxRows⟩

theorem begins_submitWrite (htool : c.tool = "submit_write")
    (huser : c.user.map Claims.sub = some sub) (args : List (String × Json)) :
    Begins config c (submitWrite config args sub) := by
  unfold submitWrite
  split
  case isTrue => exact .refuses _
  case isFalse hgated =>
    split
    case h_1 e _ => exact .refuses e
    case h_2 connId sql _ =>
      refine .vets connId _ ?_
      intro task htask
      split_ifs at htask
      obtain rfl := Except.ok.inj htask
      refine ⟨rfl, htool, ?_, rfl, by rintro _ _ _ _ ⟨⟩, ?_⟩
      · obtain ⟨user, huser, -⟩ := Option.map_eq_some_iff.mp huser
        exact Option.isSome_of_eq_some huser
      · rintro _ _ _ ⟨⟩
        exact ⟨Bool.eq_false_iff.mpr hgated, huser⟩

theorem begins_loadApproval {execute : Bool} (huser : c.user.map Claims.sub = some sub)
    (hexecute : execute = true → c.tool = "execute_write" ∧ config.gated = false)
    (args : List (String × Json)) : Begins config c (loadApproval config args sub execute) := by
  unfold loadApproval
  split
  case h_1 e _ => exact .refuses e
  case h_2 approvalId _ => exact .loads approvalId sub execute huser hexecute

theorem begins_begin : Begins config c (begin config c) := by
  unfold begin
  split
  case h_1 => exact .refuses _
  case h_2 user hc =>
    have huser : c.user.isSome = true := Option.isSome_of_eq_some hc
    have hsub : c.user.map Claims.sub = some user.sub := by
      rw [hc]
      rfl
    dsimp only
    split_ifs with _ htool htool htool htool htool _ htool hgated
    · exact .lists
    · refine begins_onConnection ?_
      rintro connId task ⟨⟩
      exact ⟨rfl, htool, huser, rfl, by rintro _ _ _ _ ⟨⟩, by rintro _ _ _ ⟨⟩⟩
    · refine begins_onConnection ?_
      intro connId task htask
      obtain ⟨database, -, rfl⟩ := map_eq_ok htask
      exact ⟨rfl, htool, huser, rfl, by rintro _ _ _ _ ⟨⟩, by rintro _ _ _ ⟨⟩⟩
    · refine begins_onConnection ?_
      intro connId task htask
      obtain ⟨table, -, htask⟩ := bind_eq_ok (mapError_eq_ok htask)
      obtain ⟨database, -, htask⟩ := bind_eq_ok htask
      obtain rfl := Except.ok.inj htask
      exact ⟨rfl, htool, huser, rfl, by rintro _ _ _ _ ⟨⟩, by rintro _ _ _ ⟨⟩⟩
    · exact begins_readQuery htool huser _
    · exact begins_submitWrite htool hsub _
    · exact begins_loadApproval hsub (by rintro ⟨⟩) _
    · exact .refuses _
    · exact begins_loadApproval hsub (fun _ => ⟨htool, Bool.eq_false_iff.mpr hgated⟩) _
    · exact .refuses _

/-! ## The whitelist fences connections off -/

/-- The connection is there under a name that the whitelist does not have, and untouched. -/
structure FencedOff (config : Config) (connId : String) (s : Shared) : Prop where
  registered : isRegistered s connId = true
  unlisted : ∀ c ∈ s.connections, c.id = connId → allows config.allowed c.id c.name = false
  untouched : ∀ p ∈ s.touched, p.2.connId ≠ connId

/-- The call has not been let through to the connection. -/
def Outside (connId : String) : Stage → Prop
  | .vetting vetted next => ∀ task, next = .ok task → task.connId = vetted
  | .doing task => task.connId ≠ connId
  | .inserting target _ _ => target ≠ connId
  | .claimed _ target _ _ => target ≠ connId
  | _ => True

theorem FencedOff.isEmpty_eq (h : FencedOff config connId s) : config.allowed.isEmpty = false := by
  obtain ⟨c, hc, hid⟩ := List.any_eq_true.mp h.registered
  have hunlisted := h.unlisted c hc (of_decide_eq_true hid)
  unfold allows at hunlisted
  exact (Bool.or_eq_false_iff.mp hunlisted).1

theorem FencedOff.ne_of_allowed (h : FencedOff config connId s) {target : String}
    (hallowed : ensureConnectionAllowed config.allowed (.ok s.connections) target = .ok ()) :
    target ≠ connId := by
  rintro rfl
  unfold ensureConnectionAllowed at hallowed
  rw [h.isEmpty_eq, if_neg Bool.false_ne_true] at hallowed
  dsimp only at hallowed
  split at hallowed
  case h_1 c hfound =>
    have hid : c.id = target := of_decide_eq_true
      (List.find?_some (p := fun c : ConnectionSummary => decide (c.id = target)) hfound)
    rw [h.unlisted c (List.mem_of_find?_eq_some hfound) hid, if_neg Bool.false_ne_true] at hallowed
    cases hallowed
  case h_2 hnone =>
    obtain ⟨c, hc, hid⟩ := List.any_eq_true.mp h.registered
    exact List.find?_eq_none.mp hnone c hc hid

theorem outside_vet (hne : config.allowed.isEmpty = false) {vetted : String}
    {next : Except String Task} (hnext : ∀ task, next = .ok task → task.connId = vetted) :
    Outside connId (vet config vetted next) := by
  unfold vet
  rw [hne, if_neg Bool.false_ne_true]
  exact hnext

theorem Begins.outside (h : Begins config c new) (hne : config.allowed.isEmpty = false) :
    Outside connId new := by
  cases h with
  | refuses message => trivial
  | lists => trivial
  | vets vetted next hnext => exact outside_vet hne fun task htask => (hnext task htask).1
  | loads approvalId sub execute _ _ => trivial

theorem FencedOff.touch (h : FencedOff config connId s) {task : Task} (hne : task.connId ≠ connId) :
    FencedOff config connId { s with touched := s.touched ++ [(c, task)] } where
  registered := h.registered
  unlisted := h.unlisted
  untouched := by
    intro p hp
    rcases List.mem_append.mp hp with hold | hnew
    · exact h.untouched p hold
    · rw [List.mem_singleton.mp hnew]
      exact hne

theorem Moves.fencedOff (h : Moves config s c old new s') (hs : FencedOff config connId s)
    (hold : Outside connId old) : FencedOff config connId s' ∧ Outside connId new := by
  have hne := hs.isEmpty_eq
  cases h with
  | begins => exact ⟨hs, begins_begin.outside hne⟩
  | vetted vetted next hallowed =>
      refine ⟨hs, ?_⟩
      cases next with
      | error e => trivial
      | ok task =>
          have htask : task.connId = vetted := hold task rfl
          change task.connId ≠ connId
          rw [htask]
          exact hs.ne_of_allowed hallowed
  | loaded approvalId sub row _ _ =>
      refine ⟨hs, outside_vet hne ?_⟩
      rintro task ⟨⟩
      rfl
  | refuses _ message _ => exact ⟨hs, trivial⟩
  | finds _ output _ => exact ⟨hs, trivial⟩
  | reads task result _ _ _ => exact ⟨hs.touch hold, trivial⟩
  | known target sql sub _ => exact ⟨hs, hold⟩
  | inserts target sql sub id now risk _ =>
      exact ⟨⟨hs.registered, hs.unlisted, hs.untouched⟩, trivial⟩
  | claims approvalId target ddl sub now =>
      exact ⟨⟨hs.registered, hs.unlisted, hs.untouched⟩, hold⟩
  | loses approvalId target ddl sub => exact ⟨hs, trivial⟩
  | executes approvalId target ddl sub outcome _ => exact ⟨hs.touch hold, trivial⟩
  | fails approvalId target ddl sub outcome => exact ⟨hs, trivial⟩
  | persists approvalId execStatus outcome execError =>
      exact ⟨⟨hs.registered, hs.unlisted, hs.untouched⟩, trivial⟩
  | logs result now => exact ⟨⟨hs.registered, hs.unlisted, hs.untouched⟩, trivial⟩
  | reports result now => exact ⟨⟨hs.registered, hs.unlisted, hs.untouched⟩, trivial⟩

/-- The connection is neither removed nor given a name that the whitelist has. -/
def StaysUnlisted (config : Config) (connId : String) : Action ToolCall Event → Prop
  | .env (.remove other) => other ≠ connId
  | .env (.rename other name) => other = connId → allows config.allowed connId name = false
  | _ => True

theorem FencedOff.env (h : FencedOff config connId s)
    (hok : StaysUnlisted config connId (.env e)) (henv : Tools.env s e = some s') :
    FencedOff config connId s' := by
  cases e with
  | meets m => cases henv
  | register c =>
      unfold Tools.env at henv
      dsimp only at henv
      split_ifs at henv with hnew
      obtain rfl := Option.some.inj henv
      refine ⟨?_, ?_, h.untouched⟩
      · rw [isRegistered, List.any_cons]
        exact Bool.or_eq_true_iff.mpr (Or.inr h.registered)
      · intro other hother hid
        rcases List.mem_cons.mp hother with rfl | hkept
        · rw [hid] at hnew
          exact absurd h.registered hnew
        · exact h.unlisted other hkept hid
  | remove other =>
      unfold Tools.env at henv
      dsimp only at henv
      split_ifs at henv
      obtain rfl := Option.some.inj henv
      have hne : other ≠ connId := hok
      refine ⟨?_, fun c hc => h.unlisted c (List.mem_of_mem_filter hc), h.untouched⟩
      obtain ⟨c, hc, hid⟩ := List.any_eq_true.mp h.registered
      refine List.any_eq_true.mpr ⟨c, List.mem_filter.mpr ⟨hc, ?_⟩, hid⟩
      rw [of_decide_eq_true hid, decide_eq_false hne.symm]
      rfl
  | rename other name =>
      obtain rfl := Option.some.inj henv
      refine ⟨?_, ?_, h.untouched⟩
      · obtain ⟨c, hc, hid⟩ := List.any_eq_true.mp h.registered
        refine List.any_eq_true.mpr ⟨_, mem_updateWhere.mpr ⟨c, hc, rfl⟩, ?_⟩
        split_ifs
        · exact hid
        · exact hid
      · refine forall_updateWhere (fun c hc _ => h.unlisted c hc) ?_
        intro c hc hother hid
        have hsame : other = connId := (of_decide_eq_true hother).symm.trans hid
        rw [hid]
        exact hok hsame
  | submitted row =>
      unfold Tools.env at henv
      dsimp only at henv
      split_ifs at henv
      obtain rfl := Option.some.inj henv
      exact ⟨h.registered, h.unlisted, h.untouched⟩
  | review approvalId status execStatus =>
      obtain rfl := Option.some.inj henv
      exact ⟨h.registered, h.unlisted, h.untouched⟩

theorem keeps_fencedOff : (program config).Keeps (StaysUnlisted config connId)
    (FencedOff config connId) fun _ _ phase => Outside connId phase.stage where
  call _ _ _ _ _ := trivial
  move _ _ _ _ _ _ hs hphase _ hmove := (move_moves hmove).2.fencedOff hs hphase
  stable _ _ _ _ _ _ _ _ _ _ _ _ _ hother := hother
  env _ _ _ hs hok henv := ⟨hs.env hok henv, fun _ _ hother => hother⟩

/-- While a connection is there under names that the whitelist does not have, no call of any tool
reaches it, whatever is in progress and whoever asks. -/
theorem fenced_off {as : List (Action ToolCall Event)} {w : World Shared Phase}
    (hrun : (program config).Runs (StaysUnlisted config connId) (.initial s) as w)
    (hregistered : isRegistered s connId = true)
    (hunlisted : ∀ c ∈ s.connections, c.id = connId → allows config.allowed c.id c.name = false)
    (huntouched : s.touched = []) : ∀ p ∈ w.shared.touched, p.2.connId ≠ connId := by
  have hfenced : FencedOff config connId s := by
    refine ⟨hregistered, hunlisted, ?_⟩
    rw [huntouched]
    rintro p ⟨⟩
  exact (keeps_fencedOff.run hrun ⟨hfenced, by rintro i phase ⟨⟩⟩).shared.untouched

/-! ## What reaches a target, and what a caller is told -/

/-- A task is of an authenticated call of its tool.  A query is read-only, with a limit in bounds; what
is executed is an approval of the caller's own, as it was submitted, and that only where the license
is not gated. -/
structure Lawful (config : Config) (s : Shared) (c : ToolCall) (task : Task) : Prop where
  tool : c.tool = task.tool
  user : c.user.isSome = true
  query : ∀ connId sql database limit, task = .readQuery connId sql database limit →
    riskGate config.parseWith sql.toList = .ok () ∧ 1 ≤ limit ∧ limit ≤ config.readQueryMaxRows
  submit : ∀ connId sql sub, task = .submit connId sql sub →
    config.gated = false ∧ c.user.map Claims.sub = some sub
  execute : ∀ approvalId connId ddl sub, task = .execute approvalId connId ddl sub →
    config.gated = false ∧ c.user.map Claims.sub = some sub ∧
      ∃ row ∈ s.approvals, row.id = approvalId ∧ row.submitterId = sub ∧ row.ddlSql = ddl ∧
        row.targetDbId = connId

/-- The approval is the caller's own. -/
def Owns (s : Shared) (c : ToolCall) (approvalId : String) : Prop :=
  ∃ row ∈ s.approvals, row.id = approvalId ∧ c.user.map Claims.sub = some row.submitterId

/-- Nobody is told of connections that the whitelist does not have, or of approvals of others. -/
def Disclosable (config : Config) (s : Shared) (c : ToolCall) : Output → Prop
  | .connections summaries => ∀ x ∈ summaries, allows config.allowed x.id x.name = true
  | .submitted approvalId _ | .execState approvalId _ _ => Owns s c approvalId
  | .approval row _ => c.user.map Claims.sub = some row.submitterId
  | _ => True

def Known (config : Config) (s : Shared) (c : ToolCall) : Stage → Prop
  | .called | .listing => True
  | .vetting _ next => ∀ task, next = .ok task → Lawful config s c task
  | .doing task => Lawful config s c task
  | .inserting _ _ sub => c.user.map Claims.sub = some sub
  | .loading _ sub execute => c.user.map Claims.sub = some sub ∧
      (execute = true → c.tool = "execute_write" ∧ config.gated = false)
  | .claimed approvalId connId ddl sub => Lawful config s c (.execute approvalId connId ddl sub)
  | .persisting approvalId _ | .reloading approvalId => Owns s c approvalId
  | .logging result | .answered result => ∀ output, result = .ok output → Disclosable config s c output

/-- What no statement changes in an approval. -/
def submission (row : ApprovalRow) : String × String × String × String :=
  (row.id, row.submitterId, row.ddlSql, row.targetDbId)

def Remembers (s s' : Shared) : Prop :=
  s.approvals.map submission ⊆ s'.approvals.map submission

theorem Remembers.exists_row (h : Remembers s s') {row : ApprovalRow} (hrow : row ∈ s.approvals) :
    ∃ row' ∈ s'.approvals, row'.id = row.id ∧ row'.submitterId = row.submitterId ∧
      row'.ddlSql = row.ddlSql ∧ row'.targetDbId = row.targetDbId := by
  obtain ⟨row', hrow', hsame⟩ := List.mem_map.mp (h (List.mem_map_of_mem hrow))
  obtain ⟨hid, hsame⟩ := Prod.mk.inj hsame
  obtain ⟨hsub, hsame⟩ := Prod.mk.inj hsame
  obtain ⟨hddl, htarget⟩ := Prod.mk.inj hsame
  exact ⟨row', hrow', hid, hsub, hddl, htarget⟩

theorem remembers_updateApproval {f : ApprovalRow → ApprovalRow}
    (hf : ∀ row, submission (f row) = submission row) :
    Remembers s (s.updateApproval approvalId f) := by
  unfold Remembers Shared.updateApproval
  rw [map_updateWhere hf]
  exact List.Subset.refl _

theorem remembers_append (row : ApprovalRow) :
    Remembers s { s with approvals := s.approvals ++ [row] } := by
  unfold Remembers
  rw [List.map_append]
  exact List.subset_append_left _ _

theorem submission_claimExecution (now : String) (row : ApprovalRow) :
    submission (claimExecution now row).1 = submission row := by
  unfold claimExecution
  split <;> rfl

theorem submission_persistOutcome (outcome : Except String Unit) (row : ApprovalRow) :
    submission (persistOutcome outcome row) = submission row := by
  cases outcome with
  | ok _ => rfl
  | error _ => rfl

theorem Moves.remembers (h : Moves config s c old new s') : Remembers s s' := by
  cases h with
  | inserts connId sql sub id now risk _ => exact remembers_append _
  | claims approvalId connId ddl sub now =>
      exact remembers_updateApproval (submission_claimExecution now)
  | persists approvalId execStatus outcome execError =>
      exact remembers_updateApproval (submission_persistOutcome outcome)
  | _ => exact List.Subset.refl _

theorem env_remembers (h : Tools.env s e = some s') : Remembers s s' := by
  cases e with
  | meets m => cases h
  | register row =>
      unfold Tools.env at h
      dsimp only at h
      split_ifs at h
      obtain rfl := Option.some.inj h
      exact List.Subset.refl _
  | remove other =>
      unfold Tools.env at h
      dsimp only at h
      split_ifs at h
      obtain rfl := Option.some.inj h
      exact List.Subset.refl _
  | rename other name =>
      obtain rfl := Option.some.inj h
      exact List.Subset.refl _
  | submitted row =>
      unfold Tools.env at h
      dsimp only at h
      split_ifs at h
      obtain rfl := Option.some.inj h
      exact remembers_append row
  | review approvalId status execStatus =>
      obtain rfl := Option.some.inj h
      exact remembers_updateApproval fun _ => rfl

theorem Lawful.mono {task : Task} (h : Lawful config s c task) (hs : Remembers s s') :
    Lawful config s' c task :=
  { h with
    execute := by
      intro approvalId connId ddl sub htask
      obtain ⟨hgated, huser, row, hrow, rfl, rfl, rfl, rfl⟩ := h.execute _ _ _ _ htask
      exact ⟨hgated, huser, hs.exists_row hrow⟩ }

theorem Owns.mono (h : Owns s c approvalId) (hs : Remembers s s') : Owns s' c approvalId := by
  obtain ⟨row, hrow, rfl, huser⟩ := h
  obtain ⟨row', hrow', hid, hsub, -⟩ := hs.exists_row hrow
  rw [← hsub] at huser
  exact ⟨row', hrow', hid, huser⟩

theorem Disclosable.mono {output : Output} (h : Disclosable config s c output)
    (hs : Remembers s s') : Disclosable config s' c output := by
  cases output with
  | submitted approvalId risk => exact Owns.mono h hs
  | execState approvalId execStatus execError => exact Owns.mono h hs
  | _ => exact h

theorem Known.mono {stage : Stage} (h : Known config s c stage) (hs : Remembers s s') :
    Known config s' c stage := by
  cases stage with
  | vetting connId next => exact fun task htask => (h task htask).mono hs
  | doing task => exact Lawful.mono h hs
  | claimed approvalId connId ddl sub => exact Lawful.mono h hs
  | persisting approvalId outcome => exact Owns.mono h hs
  | reloading approvalId => exact Owns.mono h hs
  | logging result => exact fun output houtput => (h output houtput).mono hs
  | answered result => exact fun output houtput => (h output houtput).mono hs
  | _ => exact h

theorem known_start {next : Except String Task}
    (hnext : ∀ task, next = .ok task → Lawful config s c task) :
    Known config s c (start next) := by
  cases next with
  | ok task => exact hnext task rfl
  | error e => rintro output ⟨⟩

theorem known_vet {next : Except String Task}
    (hnext : ∀ task, next = .ok task → Lawful config s c task) :
    Known config s c (vet config connId next) := by
  unfold vet
  split_ifs
  · exact known_start hnext
  · exact hnext

theorem Requested.lawful {task : Task} (h : Requested config c task) : Lawful config s c task where
  tool := h.tool
  user := h.user
  query := h.query
  submit := h.submit
  execute := by
    rintro _ _ _ _ rfl
    cases h.executes

theorem Begins.known (h : Begins config c new) : Known config s c new := by
  cases h with
  | refuses message => rintro output ⟨⟩
  | lists => trivial
  | vets connId next hnext => exact known_vet fun task htask => (hnext task htask).2.lawful
  | loads approvalId sub execute huser hexecute => exact ⟨huser, hexecute⟩

theorem Lawful.owns {connId ddl sub : String}
    (h : Lawful config s c (.execute approvalId connId ddl sub)) : Owns s c approvalId := by
  obtain ⟨-, huser, row, hrow, hid, rfl, -⟩ := h.execute _ _ _ _ rfl
  exact ⟨row, hrow, hid, huser⟩

theorem Loaded.lawful {row : ApprovalRow} (h : Loaded s approvalId sub row)
    (hknown : Known config s c (.loading approvalId sub true)) :
    Lawful config s c (.execute approvalId row.targetDbId row.ddlSql sub) := by
  obtain ⟨hrow, hid, hsub⟩ := h
  obtain ⟨huser, hexecute⟩ := hknown
  obtain ⟨htool, hgated⟩ := hexecute rfl
  obtain ⟨user, hc, -⟩ := Option.map_eq_some_iff.mp huser
  refine ⟨htool, Option.isSome_of_eq_some hc, by rintro _ _ _ _ ⟨⟩, by rintro _ _ _ ⟨⟩, ?_⟩
  rintro _ _ _ _ ⟨⟩
  exact ⟨hgated, huser, row, hrow, hid, hsub, rfl, rfl⟩

theorem Finds.disclosable {output : Output} (h : Finds config s old output)
    (hknown : Known config s c old) : Disclosable config s c output := by
  cases h with
  | connections =>
      intro x hx
      exact (List.mem_filter.mp hx).2
  | approval approvalId sub execute row risk hrow =>
      obtain ⟨-, -, rfl⟩ := hrow
      exact hknown.1
  | outcome approvalId execStatus outcome execError => exact hknown
  | execState approvalId execStatus execError => exact hknown

theorem disclosable_of_isValue {output : Output} (h : output.IsValue) :
    Disclosable config s c output := by
  cases output with
  | databases _ _ | tables _ _ | value _ => trivial
  | connections _ | submitted _ _ | approval _ _ | execState _ _ _ => exact h.elim

theorem Known.move (hknown : Known config s c old) (h : Moves config s c old new s') :
    Known config s' c new := by
  have hremembers := h.remembers
  cases h with
  | begins => exact begins_begin.known
  | vetted connId next _ => exact known_start hknown
  | loaded approvalId sub row hrow _ =>
      refine known_vet ?_
      intro task htask
      obtain rfl := Except.ok.inj htask
      exact hrow.lawful hknown
  | refuses _ message _ => rintro output ⟨⟩
  | finds _ output hfinds =>
      rintro _ ⟨⟩
      exact hfinds.disclosable hknown
  | reads task result _ hresult _ =>
      intro output houtput
      exact disclosable_of_isValue (hresult output houtput)
  | known connId sql sub _ => exact (hknown.submit connId sql sub rfl).2
  | inserts connId sql sub id now risk _ =>
      rintro _ ⟨⟩
      exact ⟨_, List.mem_append_right _ (List.mem_singleton_self _), rfl, hknown⟩
  | claims approvalId connId ddl sub now => exact Lawful.mono hknown hremembers
  | loses approvalId connId ddl sub => exact Lawful.owns hknown
  | executes approvalId connId ddl sub outcome _ => exact (Lawful.owns hknown).mono hremembers
  | fails approvalId connId ddl sub outcome => exact Lawful.owns hknown
  | persists approvalId execStatus outcome execError =>
      rintro _ ⟨⟩
      exact Owns.mono hknown hremembers
  | logs result now => exact fun output houtput => (hknown output houtput).mono hremembers
  | reports result now => exact fun output houtput => (hknown output houtput).mono hremembers

def AllLawful (config : Config) (s : Shared) : Prop := ∀ p ∈ s.touched, Lawful config s p.1 p.2

theorem AllLawful.mono (h : AllLawful config s) (hs : Remembers s s')
    (htouched : s'.touched = s.touched) : AllLawful config s' := by
  intro p hp
  rw [htouched] at hp
  exact (h p hp).mono hs

theorem AllLawful.touch (h : AllLawful config s) {task : Task} (htask : Lawful config s c task) :
    AllLawful config { s with touched := s.touched ++ [(c, task)] } := by
  intro p hp
  rcases List.mem_append.mp hp with hold | hnew
  · exact (h p hold).mono (List.Subset.refl _)
  · obtain rfl := List.mem_singleton.mp hnew
    exact htask.mono (List.Subset.refl _)

theorem AllLawful.move (h : AllLawful config s) (hmoves : Moves config s c old new s')
    (hknown : Known config s c old) : AllLawful config s' := by
  have hremembers := hmoves.remembers
  cases hmoves with
  | reads task result _ _ _ => exact h.touch hknown
  | executes approvalId connId ddl sub outcome _ => exact h.touch hknown
  | _ => exact h.mono hremembers rfl

theorem env_kept (h : Tools.env s e = some s') :
    s'.touched = s.touched ∧ s'.audit = s.audit ∧ s'.broken = s.broken := by
  cases e with
  | meets m => cases h
  | register _ | remove _ | submitted _ =>
      unfold Tools.env at h
      dsimp only at h
      split_ifs at h
      obtain rfl := Option.some.inj h
      exact ⟨rfl, rfl, rfl⟩
  | rename _ _ | review _ _ _ =>
      obtain rfl := Option.some.inj h
      exact ⟨rfl, rfl, rfl⟩

theorem keeps_known : (program config).Keeps (fun _ => True) (AllLawful config)
    fun _ s phase => Known config s phase.call phase.stage where
  call _ _ _ _ _ := trivial
  move _ _ _ _ _ _ hs hphase _ hmove := by
    obtain ⟨hcall, hmoves⟩ := move_moves hmove
    rw [hcall]
    exact ⟨hs.move hmoves hphase, hphase.move hmoves⟩
  stable _ _ _ _ _ _ _ _ _ _ _ hmove _ hother := hother.mono (move_moves hmove).2.remembers
  env _ _ _ hs _ henv :=
    ⟨hs.mono (env_remembers henv) (env_kept henv).1, fun _ _ hother =>
      hother.mono (env_remembers henv)⟩

/-- Whatever reaches a target, from any call in progress, is a lawful task of that call. -/
theorem touched_lawful {as : List (Action ToolCall Event)} {w : World Shared Phase}
    (hrun : (program config).Runs (fun _ => True) (.initial s) as w) (huntouched : s.touched = []) :
    AllLawful config w.shared := by
  have hstart : AllLawful config s := by
    unfold AllLawful
    rw [huntouched]
    rintro p ⟨⟩
  exact (keeps_known.run hrun ⟨hstart, by rintro i phase ⟨⟩⟩).shared

/-- A caller is told only of connections that the whitelist has and of approvals of its own. -/
theorem answers_disclosable {as : List (Action ToolCall Event)} {w : World Shared Phase}
    (hrun : (program config).Runs (fun _ => True) (.initial s) as w) (huntouched : s.touched = []) :
    ∀ phase ∈ w.calls, ∀ output, phase.stage = .answered (.ok output) →
      Disclosable config w.shared phase.call output := by
  have hstart : AllLawful config s := by
    unfold AllLawful
    rw [huntouched]
    rintro p ⟨⟩
  have hholds := keeps_known.run hrun ⟨hstart, by rintro i phase ⟨⟩⟩
  intro phase hphase output hanswered
  obtain ⟨i, hi⟩ := List.getElem?_of_mem hphase
  have hknown := hholds.calls i phase hi
  rw [hanswered] at hknown
  exact hknown output rfl

/-! ## What is executed has been approved -/

/-- `A` are the approvals that have been approved. -/
structure Earned (A : String → Prop) (s : Shared) : Prop where
  rows : ∀ row ∈ s.approvals, row.status = .approved → A row.id
  touched : ∀ p ∈ s.touched, ∀ approvalId, p.2.executes = some approvalId → A approvalId

def Earns (A : String → Prop) : Stage → Prop
  | .vetting _ next =>
    ∀ task, next = .ok task → ∀ approvalId, task.executes = some approvalId → A approvalId
  | .doing task => ∀ approvalId, task.executes = some approvalId → A approvalId
  | .claimed approvalId _ _ _ | .persisting approvalId _ => A approvalId
  | _ => True

/-- The environment approves none but those. -/
def Grants (A : String → Prop) : Action ToolCall Event → Prop
  | .env (.review approvalId status _) => status = .approved → A approvalId
  | .env (.submitted row) => row.status = .approved → A row.id
  | _ => True

section Approved

variable {A : String → Prop}

theorem earns_vet {next : Except String Task}
    (hnext : ∀ task, next = .ok task → ∀ approvalId, task.executes = some approvalId → A approvalId) :
    Earns A (vet config connId next) := by
  unfold vet
  split_ifs
  · cases next with
    | ok task => exact hnext task rfl
    | error e => trivial
  · exact hnext

theorem Begins.earns (h : Begins config c new) : Earns A new := by
  cases h with
  | refuses message => trivial
  | lists => trivial
  | vets connId next hnext =>
      refine earns_vet ?_
      intro task htask approvalId hexecutes
      rw [(hnext task htask).2.executes] at hexecutes
      cases hexecutes
  | loads approvalId sub execute _ _ => trivial

theorem Earned.touch (h : Earned A s) {task : Task}
    (htask : ∀ approvalId, task.executes = some approvalId → A approvalId) :
    Earned A { s with touched := s.touched ++ [(c, task)] } where
  rows := h.rows
  touched := by
    intro p hp
    rcases List.mem_append.mp hp with hold | hnew
    · exact h.touched p hold
    · obtain rfl := List.mem_singleton.mp hnew
      exact htask

theorem Earned.append (h : Earned A s) {row : ApprovalRow} (hrow : row.status = .approved → A row.id) :
    Earned A { s with approvals := s.approvals ++ [row] } where
  rows := by
    intro other hother
    rcases List.mem_append.mp hother with hold | hnew
    · exact h.rows other hold
    · obtain rfl := List.mem_singleton.mp hnew
      exact hrow
  touched := h.touched

theorem Earned.update (h : Earned A s) {f : ApprovalRow → ApprovalRow}
    (hf : ∀ row, row ∈ s.approvals → row.id = approvalId → (f row).status = .approved →
      A (f row).id) :
    Earned A (s.updateApproval approvalId f) where
  rows := forall_updateWhere (fun row hrow _ => h.rows row hrow) fun row hrow hid =>
    hf row hrow (of_decide_eq_true hid)
  touched := h.touched

theorem Earned.move (h : Earned A s) (hmoves : Moves config s c old new s') (hold : Earns A old) :
    Earned A s' ∧ Earns A new := by
  cases hmoves with
  | begins => exact ⟨h, begins_begin.earns⟩
  | vetted connId next _ =>
      refine ⟨h, ?_⟩
      cases next with
      | ok task => exact hold task rfl
      | error e => trivial
  | loaded approvalId sub row hrow hstatus =>
      obtain ⟨hmem, rfl, -⟩ := hrow
      refine ⟨h, earns_vet ?_⟩
      rintro task ⟨⟩ _ ⟨⟩
      exact h.rows row hmem hstatus
  | refuses _ message _ => exact ⟨h, trivial⟩
  | finds _ output _ => exact ⟨h, trivial⟩
  | reads task result _ _ _ => exact ⟨h.touch hold, trivial⟩
  | known connId sql sub _ => exact ⟨h, trivial⟩
  | inserts connId sql sub id now risk _ => exact ⟨h.append (by rintro ⟨⟩), trivial⟩
  | claims approvalId connId ddl sub now =>
      refine ⟨h.update ?_, hold approvalId rfl⟩
      intro row hrow hid _
      have hkept : (claimExecution now row).1.id = row.id :=
        congrArg Prod.fst (submission_claimExecution now row)
      rw [hkept, hid]
      exact hold approvalId rfl
  | loses approvalId connId ddl sub => exact ⟨h, trivial⟩
  | executes approvalId connId ddl sub outcome _ =>
      refine ⟨h.touch ?_, hold⟩
      rintro _ ⟨⟩
      exact hold
  | fails approvalId connId ddl sub outcome => exact ⟨h, hold⟩
  | persists approvalId execStatus outcome execError =>
      refine ⟨h.update ?_, trivial⟩
      intro row hrow hid _
      have hkept : (persistOutcome outcome row).id = row.id :=
        congrArg Prod.fst (submission_persistOutcome outcome row)
      rw [hkept, hid]
      exact hold
  | logs result now => exact ⟨⟨h.rows, h.touched⟩, trivial⟩
  | reports result now => exact ⟨⟨h.rows, h.touched⟩, trivial⟩

theorem Earned.env (h : Earned A s) (hok : Grants A (.env e)) (henv : Tools.env s e = some s') :
    Earned A s' := by
  cases e with
  | meets m => cases henv
  | register _ | remove _ =>
      unfold Tools.env at henv
      dsimp only at henv
      split_ifs at henv
      obtain rfl := Option.some.inj henv
      exact ⟨h.rows, h.touched⟩
  | rename _ _ =>
      obtain rfl := Option.some.inj henv
      exact ⟨h.rows, h.touched⟩
  | submitted row =>
      unfold Tools.env at henv
      dsimp only at henv
      split_ifs at henv
      obtain rfl := Option.some.inj henv
      exact h.append hok
  | review approvalId status execStatus =>
      obtain rfl := Option.some.inj henv
      refine h.update ?_
      rintro row - rfl hstatus
      exact hok hstatus

theorem keeps_earned : (program config).Keeps (Grants A) (Earned A)
    fun _ _ phase => Earns A phase.stage where
  call _ _ _ _ _ := trivial
  move _ _ _ _ _ _ hs hphase _ hmove := hs.move (move_moves hmove).2 hphase
  stable _ _ _ _ _ _ _ _ _ _ _ _ _ hother := hother
  env _ _ _ hs hok henv := ⟨hs.env hok henv, fun _ _ hother => hother⟩

end Approved

/-- The approval was there as approved, or was approved or submitted so in the run. -/
def ApprovedIn (s : Shared) (as : List (Action ToolCall Event)) (approvalId : String) : Prop :=
  (∃ row ∈ s.approvals, row.id = approvalId ∧ row.status = .approved) ∨
    (∃ execStatus, .env (.review approvalId .approved execStatus) ∈ as) ∨
    ∃ row : ApprovalRow, .env (.submitted row) ∈ as ∧ row.id = approvalId ∧ row.status = .approved

theorem grants_of_mem {as : List (Action ToolCall Event)} {a : Action ToolCall Event} (ha : a ∈ as) :
    Grants (ApprovedIn s as) a := by
  cases a with
  | call _ | move _ _ => trivial
  | env e =>
      cases e with
      | review approvalId status execStatus =>
          rintro rfl
          exact Or.inr (Or.inl ⟨execStatus, ha⟩)
      | submitted row =>
          intro hstatus
          exact Or.inr (Or.inr ⟨row, ha, rfl, hstatus⟩)
      | meets _ | register _ | remove _ | rename _ _ => trivial

/-- No call executes what nobody has approved. -/
theorem executed_approved {as : List (Action ToolCall Event)} {w : World Shared Phase}
    (hrun : (program config).Runs (fun _ => True) (.initial s) as w) (huntouched : s.touched = []) :
    ∀ p ∈ w.shared.touched, ∀ approvalId, p.2.executes = some approvalId →
      ApprovedIn s as approvalId := by
  have hstart : Earned (ApprovedIn s as) s := by
    refine ⟨fun row hrow hstatus => Or.inl ⟨row, hrow, rfl, hstatus⟩, ?_⟩
    rw [huntouched]
    rintro p ⟨⟩
  have hgrants : (program config).Runs (Grants (ApprovedIn s as)) (.initial s) as w :=
    (Program.runs_mem hrun).weaken fun _ _ ha => grants_of_mem ha.2
  exact (keeps_earned.run hgrants ⟨hstart, by rintro i phase ⟨⟩⟩).shared.touched

/-! ## Every answer is audited -/

/-- An audit row but for its time. -/
def entry (row : McpAudit) : Option String × Option String × String × Option (List Char) :=
  (row.userId, row.tool, row.status, row.error)

def Phase.entry (phase : Phase) :
    Option (Option String × Option String × String × Option (List Char)) :=
  phase.stage.answer.map fun result => Tools.entry (auditOf phase.call result "")

def entries (s : Shared) : List (Option String × Option String × String × Option (List Char)) :=
  (s.audit ++ s.broken).map entry

theorem answer_vet {next : Except String Task} : (vet config connId next).answer = none := by
  unfold vet
  split_ifs
  · cases next with
    | ok task => rfl
    | error e => rfl
  · rfl

theorem Begins.answer (h : Begins config c new) : new.answer = none := by
  cases h with
  | vets connId next _ => exact answer_vet
  | refuses _ | lists | loads _ _ _ _ _ => rfl

theorem Finds.answer {output : Output} (h : Finds config s old output) : old.answer = none := by
  cases h with
  | connections | approval _ _ _ _ _ _ | outcome _ _ _ _ | execState _ _ _ => rfl

/-- A step either answers, and books that, or is of a call that goes on. -/
theorem Moves.books (h : Moves config s c old new s') :
    (∃ result, old.answer = none ∧ new.answer = some result ∧
      (entries s').Perm (entry (auditOf c result "") :: entries s)) ∨
    (old.answer = none ∧ new.answer = none ∧ entries s' = entries s) := by
  cases h with
  | logs result now =>
      refine Or.inl ⟨result, rfl, rfl, ?_⟩
      unfold entries
      rw [List.append_assoc, List.singleton_append]
      exact List.perm_middle.map entry
  | reports result now =>
      refine Or.inl ⟨result, rfl, rfl, ?_⟩
      unfold entries
      rw [← List.append_assoc]
      exact (List.perm_append_singleton _ _).map entry
  | begins => exact Or.inr ⟨rfl, begins_begin.answer, rfl⟩
  | vetted connId next _ =>
      cases next with
      | ok task => exact Or.inr ⟨rfl, rfl, rfl⟩
      | error e => exact Or.inr ⟨rfl, rfl, rfl⟩
  | loaded approvalId sub row _ _ => exact Or.inr ⟨rfl, answer_vet, rfl⟩
  | refuses _ message hold => exact Or.inr ⟨hold, rfl, rfl⟩
  | finds _ output hfinds => exact Or.inr ⟨hfinds.answer, rfl, rfl⟩
  | _ => exact Or.inr ⟨rfl, rfl, rfl⟩

theorem books_entries : (program config).KeepsBooks (fun _ => True) (AllLawful config)
    (fun _ s phase => Known config s phase.call phase.stage) entries Phase.entry where
  call _ := rfl
  move s i phase e s' phase' _ _ _ hmove := by
    obtain ⟨hcall, hmoves⟩ := move_moves hmove
    unfold Phase.entry
    rcases hmoves.books with ⟨result, hold, hnew, hbooked⟩ | ⟨hold, hnew, hbooked⟩
    · refine Or.inr ⟨_, ?_, ?_, hbooked⟩
      · rw [hold]
        rfl
      · rw [hnew, hcall]
        rfl
    · refine Or.inl ⟨?_, ?_⟩
      · rw [hold, hnew]
        rfl
      · rw [hbooked]
  env s e s' henv := by
    obtain ⟨-, haudit, hbroken⟩ := env_kept henv
    unfold entries
    rw [haudit, hbroken]

/-- Every call that is answered has one row in the audit, or one that could not be written, with its
user, tool and outcome; there is no other row. -/
theorem answers_audited {as : List (Action ToolCall Event)} {w : World Shared Phase}
    (hrun : (program config).Runs (fun _ => True) (.initial s) as w) (huntouched : s.touched = [])
    (haudit : s.audit = []) (hbroken : s.broken = []) :
    (entries w.shared).Perm (w.calls.filterMap Phase.entry) := by
  have hstart : AllLawful config s := by
    unfold AllLawful
    rw [huntouched]
    rintro p ⟨⟩
  refine books_entries.run keeps_known hrun ⟨hstart, by rintro i phase ⟨⟩⟩ ?_
  unfold Program.Balanced entries World.initial
  rw [haudit, hbroken]
  exact .refl _

end Steps

/-! ## An approval that is submitted, approved and executed -/

def fixtureConfig : Config where
  allowed := ["c1"]
  gated := false
  readQueryMaxRows := 1000
  readQueryMaxRows_pos := by decide
  parseWith _ _ := none
  jsonText _ := ""

def fixtureShared : Shared where
  connections := [⟨"c1", "sales", "mysql", false, none⟩, ⟨"c2", "payroll", "mysql", false, none⟩]
  approvals := []
  audit := []
  broken := []
  touched := []

def fixtureCall : ToolCall where
  tool := "execute_write"
  args := some [("approval_id", .str "a1")]
  user := some ⟨"u1", 0, 0, "j1"⟩

def fixtureMeets : Meets := ⟨true, "", "a2", "2026-08-15T00:00:00+00:00", .ok .null⟩

def fixtureActions : List (Action ToolCall Event) :=
  [.env (.submitted (insertApproval "a1" "DROP TABLE t" "c1" "u1" "2026-08-14T00:00:00+00:00")),
    .call fixtureCall, .move 0 (.meets fixtureMeets), .env (.review "a1" .approved .pending),
    .move 0 (.meets fixtureMeets), .move 0 (.meets fixtureMeets), .move 0 (.meets fixtureMeets),
    .move 0 (.meets fixtureMeets), .move 0 (.meets fixtureMeets), .move 0 (.meets fixtureMeets)]

theorem run_fixtureActions : ∃ w,
    (program fixtureConfig).Runs (fun _ => True) (.initial fixtureShared) fixtureActions w ∧
      w.shared.touched = [(fixtureCall, .execute "a1" "c1" "DROP TABLE t" "u1")] ∧
      w.calls = [⟨fixtureCall, .answered (.ok (.execState "a1" "approved" none))⟩] := by
  refine ⟨_, .cons trivial rfl (.cons trivial rfl (.cons trivial rfl (.cons trivial rfl
    (.cons trivial rfl (.cons trivial rfl (.cons trivial rfl (.cons trivial rfl
      (.cons trivial rfl (.cons trivial rfl (.nil _)))))))))), ?_, ?_⟩
  · rfl
  · rfl

theorem fenced_off_fixture : ∃ w,
    (program fixtureConfig).Runs (fun _ => True) (.initial fixtureShared) fixtureActions w ∧
      ∀ p ∈ w.shared.touched, p.2.connId ≠ "c2" := by
  obtain ⟨w, hrun, -⟩ := run_fixtureActions
  have hunlisted : (program fixtureConfig).Runs (StaysUnlisted fixtureConfig "c2")
      (.initial fixtureShared) fixtureActions w := by
    refine hrun.of_forall_mem ?_
    simp only [fixtureActions, List.forall_mem_cons, StaysUnlisted]
    simp
  exact ⟨w, hrun, fenced_off hunlisted rfl (by decide) rfl⟩

theorem touched_lawful_fixture : ∃ w,
    (program fixtureConfig).Runs (fun _ => True) (.initial fixtureShared) fixtureActions w ∧
      Lawful fixtureConfig w.shared fixtureCall (.execute "a1" "c1" "DROP TABLE t" "u1") := by
  obtain ⟨w, hrun, htouched, -⟩ := run_fixtureActions
  refine ⟨w, hrun, touched_lawful hrun rfl (fixtureCall, _) ?_⟩
  rw [htouched]
  exact List.mem_singleton_self _

theorem answers_disclosable_fixture : ∃ w,
    (program fixtureConfig).Runs (fun _ => True) (.initial fixtureShared) fixtureActions w ∧
      Owns w.shared fixtureCall "a1" := by
  obtain ⟨w, hrun, -, hcalls⟩ := run_fixtureActions
  have hphase : ⟨fixtureCall, .answered (.ok (.execState "a1" "approved" none))⟩ ∈ w.calls := by
    rw [hcalls]
    exact List.mem_singleton_self _
  exact ⟨w, hrun, answers_disclosable hrun rfl _ hphase _ rfl⟩

theorem executed_approved_fixture : ApprovedIn fixtureShared fixtureActions "a1" := by
  obtain ⟨w, hrun, htouched, -⟩ := run_fixtureActions
  refine executed_approved hrun rfl (fixtureCall, .execute "a1" "c1" "DROP TABLE t" "u1") ?_ _ rfl
  rw [htouched]
  exact List.mem_singleton_self _

theorem answers_audited_fixture : ∃ w,
    (program fixtureConfig).Runs (fun _ => True) (.initial fixtureShared) fixtureActions w ∧
      (entries w.shared).Perm [(some "u1", some "execute_write", "ok", none)] := by
  obtain ⟨w, hrun, -, hcalls⟩ := run_fixtureActions
  have hbooks := answers_audited hrun rfl rfl rfl
  rw [hcalls] at hbooks
  exact ⟨w, hrun, hbooks⟩

end Dbmaster.Mcp.Tools
