import Dbmaster.Lib.Transition
import Mathlib.Tactic.SplitIfs
/-!
# The DDL approval row and the calls that work on it

One row of `ddl_approvals`, and any number of concurrent `approve_approval`,
`execute_write`, `reject_approval` and `get_approval` calls.  Each SQL
statement of a call is one step; between two of them every other call may run.
A statement may also fail, in which case it changes nothing.
-/

namespace Dbmaster.Approval.Workflow

open Dbmaster.Lib.Transition

/-! ## The row -/

/-- The `status` column.  It is free text in the schema, so legacy rows may
hold a value outside the vocabulary. -/
inductive Status
  | pending | approved | rejected | executing | failed
  | other (text : String)
  deriving DecidableEq, Repr

/-- The `exec_status` column of migration 009. -/
inductive ExecStatus
  | pending | executing | approved | failed
  deriving DecidableEq, Repr

structure ApprovalRow where
  id : String
  ddlSql : String
  targetDbId : String
  submitterId : String
  reviewerId : Option String
  status : Status
  createdAt : String
  resolvedAt : Option String
  execStatus : ExecStatus
  executedAt : Option String
  execError : Option String
  deriving DecidableEq, Repr

/-- The `INSERT` shared by both submit calls; every column it does not name
takes the schema default. -/
def insertApproval (id ddlSql targetDbId submitterId now : String) : ApprovalRow where
  id := id
  ddlSql := ddlSql
  targetDbId := targetDbId
  submitterId := submitterId
  reviewerId := none
  status := .pending
  createdAt := now
  resolvedAt := none
  execStatus := .pending
  executedAt := none
  execError := none

inductive SubmitError
  | gated | notAllowed | readOnlySql | multiStatement | notFound | submitFailed
  deriving DecidableEq, Repr

def submitApproval (gated inserted : Bool) (id ddlSql targetDbId sub now : String) :
    Except SubmitError ApprovalRow :=
  if gated then .error .gated
  else if inserted then .ok (insertApproval id ddlSql targetDbId sub now)
  else .error .submitFailed

/-- `readOnly` and `statementCount` are the verdicts of the risk analysis. -/
def submitWrite (gated allowed readOnly : Bool) (statementCount : Nat)
    (known inserted : Bool) (id sql connId sub now : String) :
    Except SubmitError ApprovalRow :=
  if gated then .error .gated
  else if !allowed then .error .notAllowed
  else if readOnly then .error .readOnlySql
  else if statementCount ≠ 1 then .error .multiStatement
  else if !known then .error .notFound
  else if inserted then .ok (insertApproval id sql connId sub now)
  else .error .submitFailed

/-- A freshly submitted request, for the concrete runs. -/
def dropRequest : ApprovalRow :=
  insertApproval "a1" "DROP TABLE t" "db1" "dev" "2026-01-01T00:00:00+00:00"

/-- A row that one of the two submit calls inserted. -/
def CreatedBySubmit (row : ApprovalRow) : Prop :=
  (∃ gated inserted id ddlSql targetDbId sub now,
    submitApproval gated inserted id ddlSql targetDbId sub now = .ok row) ∨
  ∃ gated allowed readOnly statementCount known inserted id sql connId sub now,
    submitWrite gated allowed readOnly statementCount known inserted id sql connId sub now
      = .ok row

theorem createdBySubmit_dropRequest : CreatedBySubmit dropRequest :=
  .inl ⟨false, true, _, _, _, _, _, rfl⟩

theorem createdBySubmit_pending {row : ApprovalRow} (h : CreatedBySubmit row) :
    row.status = .pending ∧ row.execStatus = .pending := by
  rcases h with ⟨_, _, _, _, _, _, _, h⟩ | ⟨_, _, _, _, _, _, _, _, _, _, _, h⟩
  · unfold submitApproval at h
    split_ifs at h
    cases h
    exact ⟨rfl, rfl⟩
  · unfold submitWrite at h
    split_ifs at h
    cases h
    exact ⟨rfl, rfl⟩

/-! ## The statements

Each `UPDATE` returns the new row and the number of rows it affected. -/

/-- `... WHERE id = ?3 AND status = 'pending'`. -/
def claimApproval (sub now : String) (row : ApprovalRow) : ApprovalRow × Nat :=
  if row.status = .pending then
    ({ row with
        status := .executing
        execStatus := .executing
        reviewerId := some sub
        resolvedAt := some now
        executedAt := some now }, 1)
  else (row, 0)

/-- `... WHERE id = ?2 AND exec_status = 'pending'`. -/
def claimExecution (now : String) (row : ApprovalRow) : ApprovalRow × Nat :=
  if row.execStatus = .pending then
    ({ row with execStatus := .executing, executedAt := some now }, 1)
  else (row, 0)

/-- The terminal write, the same two statements in both entry points. -/
def persistOutcome (outcome : Except String Unit) (row : ApprovalRow) : ApprovalRow :=
  match outcome with
  | .ok () => { row with status := .approved, execStatus := .approved }
  | .error err =>
      { row with status := .failed, execStatus := .failed, execError := some err }

/-- `UPDATE ... SET status = 'rejected', resolved_at = ?1 WHERE id = ?2`. -/
def rejectRow (now : String) (row : ApprovalRow) : ApprovalRow :=
  { row with status := .rejected, resolvedAt := some now }

section RowFields
variable (sub now : String) (row : ApprovalRow)

@[simp] theorem persistOutcome_status_ne (outcome : Except String Unit) :
    (persistOutcome outcome row).status ≠ .pending := by
  cases outcome <;> simp [persistOutcome]

@[simp] theorem persistOutcome_execStatus_ne (outcome : Except String Unit) :
    (persistOutcome outcome row).execStatus ≠ .pending := by
  cases outcome <;> simp [persistOutcome]

@[simp] theorem rejectRow_status : (rejectRow now row).status = .rejected := rfl

@[simp] theorem rejectRow_execStatus : (rejectRow now row).execStatus = row.execStatus := rfl

theorem claimApproval_rows : (claimApproval sub now row).2 = 0 ↔ row.status ≠ .pending := by
  unfold claimApproval
  by_cases hstatus : row.status = .pending
  · rw [if_pos hstatus]
    exact iff_of_false Nat.one_ne_zero (not_not_intro hstatus)
  · rw [if_neg hstatus]
    exact iff_of_true rfl hstatus

theorem claimExecution_rows : (claimExecution now row).2 = 0 ↔ row.execStatus ≠ .pending := by
  unfold claimExecution
  by_cases hexec : row.execStatus = .pending
  · rw [if_pos hexec]
    exact iff_of_false Nat.one_ne_zero (not_not_intro hexec)
  · rw [if_neg hexec]
    exact iff_of_true rfl hexec

theorem claimApproval_of_pending (h : row.status = .pending) :
    (claimApproval sub now row).1.status = .executing ∧
      (claimApproval sub now row).1.execStatus = .executing := by
  simp [claimApproval, h]

theorem claimExecution_of_pending (h : row.execStatus = .pending) :
    (claimExecution now row).1.status = row.status ∧
      (claimExecution now row).1.execStatus = .executing := by
  simp [claimExecution, h]

end RowFields

/-! ## Calls and steps -/

/-- The two entry points that can execute the DDL. -/
inductive Entry
  | approveApproval | executeWrite
  deriving DecidableEq, Repr

inductive Reply
  | gated | dbError | notFound | notAllowed
  | alreadyResolved (status : Status)
  | conflict
  | notApproved (status : Status)
  | claimFailed
  | execState (execStatus : ExecStatus) (execError : Option String)
  | executed (outcome : Except String Unit)
  | rejected
  | approval (status : Status) (execStatus : ExecStatus)
      (resolvedAt execError : Option String)

/-- How far a call has come.  After its claim an `approve_approval` call has
answered 202 and what goes on is the task it spawned. -/
inductive Call
  | idle
  | loaded (entry : Entry) (targetDbId ddlSql : String)
  | lost
  | claimed (entry : Entry) (targetDbId ddlSql : String)
  | running (entry : Entry)
  | finished (entry : Entry) (outcome : Except String Unit)
  | done (reply : Reply)

/-- The row, the calls, and what happened so far: how often
`execute_ddl_on_target_with_key` was started, how many approve claims
succeeded, and how the executions ended. -/
structure World where
  row : ApprovalRow
  calls : Nat → Call
  started : Nat
  approveClaims : Nat
  outcomes : List (Except String Unit)

def World.init (row : ApprovalRow) : World where
  row := row
  calls := fun _ => .idle
  started := 0
  approveClaims := 0
  outcomes := []

def World.setCall (w : World) (i : Nat) (c : Call) : World :=
  { w with calls := Function.update w.calls i c }

def World.setRow (w : World) (row : ApprovalRow) : World := { w with row := row }

section WorldFields
variable (w : World) (i j : Nat) (c : Call) (row : ApprovalRow)

@[simp] theorem setCall_calls :
    (w.setCall i c).calls j = if j = i then c else w.calls j := by
  simp [World.setCall, Function.update_apply]

@[simp] theorem setCall_row : (w.setCall i c).row = w.row := rfl

@[simp] theorem setCall_started : (w.setCall i c).started = w.started := rfl

@[simp] theorem setCall_approveClaims : (w.setCall i c).approveClaims = w.approveClaims := rfl

@[simp] theorem setCall_outcomes : (w.setCall i c).outcomes = w.outcomes := rfl

@[simp] theorem setRow_calls : (w.setRow row).calls = w.calls := rfl

@[simp] theorem setRow_row : (w.setRow row).row = row := rfl

@[simp] theorem setRow_started : (w.setRow row).started = w.started := rfl

@[simp] theorem setRow_approveClaims : (w.setRow row).approveClaims = w.approveClaims := rfl

@[simp] theorem setRow_outcomes : (w.setRow row).outcomes = w.outcomes := rfl

end WorldFields

/-- One SQL statement, or the start or end of an execution, of call `i`.
`sqlOk = false` is a statement that failed. -/
inductive Action
  | approveLoad (i : Nat) (gated sqlOk : Bool)
  | approveClaim (i : Nat) (sqlOk : Bool) (sub now : String)
  | executeLoad (i : Nat) (gated sqlOk : Bool) (sub : String)
  | executeClaim (i : Nat) (allowed sqlOk : Bool) (now : String)
  | currentExecState (i : Nat) (sqlOk : Bool)
  | startDdl (i : Nat)
  | finishDdl (i : Nat) (outcome : Except String Unit)
  | writeBack (i : Nat) (sqlOk : Bool)
  | reject (i : Nat) (gated sqlOk : Bool) (now : String)
  | getApproval (i : Nat) (sqlOk : Bool) (sub : String)

/-- What `approve_approval` makes of the row it loaded. -/
def approveLoaded (row : ApprovalRow) : Call :=
  if row.status ≠ .pending then .done (.alreadyResolved row.status)
  else .loaded .approveApproval row.targetDbId row.ddlSql

/-- What `execute_write` makes of the row it loaded; only the submitter sees it. -/
def executeLoaded (sub : String) (row : ApprovalRow) : Call :=
  if row.submitterId ≠ sub then .done .notFound
  else if row.status ≠ .approved then .done (.notApproved row.status)
  else .loaded .executeWrite row.targetDbId row.ddlSql

def getApproval (sub : String) (row : ApprovalRow) : Reply :=
  if row.submitterId ≠ sub then .notFound
  else .approval row.status row.execStatus row.resolvedAt row.execError

def step (w : World) : Action → Option World
  | .approveLoad i gated sqlOk =>
      match w.calls i with
      | .idle => some (w.setCall i
          (if gated then .done .gated
           else if !sqlOk then .done .dbError
           else approveLoaded w.row))
      | _ => none
  | .approveClaim i sqlOk sub now =>
      match w.calls i with
      | .loaded .approveApproval target ddl =>
          if !sqlOk then some (w.setCall i (.done .dbError))
          else if (claimApproval sub now w.row).2 = 0 then
            some (w.setCall i (.done .conflict))
          else some
            { (w.setRow (claimApproval sub now w.row).1).setCall i
                (.claimed .approveApproval target ddl) with
              approveClaims := w.approveClaims + 1 }
      | _ => none
  | .executeLoad i gated sqlOk sub =>
      match w.calls i with
      | .idle => some (w.setCall i
          (if gated then .done .gated
           else if !sqlOk then .done .dbError
           else executeLoaded sub w.row))
      | _ => none
  | .executeClaim i allowed sqlOk now =>
      match w.calls i with
      | .loaded .executeWrite target ddl =>
          if !allowed then some (w.setCall i (.done .notAllowed))
          else if !sqlOk then some (w.setCall i (.done .claimFailed))
          else if (claimExecution now w.row).2 = 0 then some (w.setCall i .lost)
          else some ((w.setRow (claimExecution now w.row).1).setCall i
            (.claimed .executeWrite target ddl))
      | _ => none
  | .currentExecState i sqlOk =>
      match w.calls i with
      | .lost => some (w.setCall i (.done
          (if sqlOk then .execState w.row.execStatus w.row.execError else .dbError)))
      | _ => none
  | .startDdl i =>
      match w.calls i with
      | .claimed entry _ _ =>
          some { w.setCall i (.running entry) with started := w.started + 1 }
      | _ => none
  | .finishDdl i outcome =>
      match w.calls i with
      | .running entry =>
          some { w.setCall i (.finished entry outcome) with
            outcomes := w.outcomes ++ [outcome] }
      | _ => none
  | .writeBack i sqlOk =>
      match w.calls i with
      | .finished _ outcome =>
          some ((w.setRow (if sqlOk then persistOutcome outcome w.row else w.row)).setCall i
            (.done (.executed outcome)))
      | _ => none
  | .reject i gated sqlOk now =>
      match w.calls i with
      | .idle =>
          if gated then some (w.setCall i (.done .gated))
          else some ((w.setRow (if sqlOk then rejectRow now w.row else w.row)).setCall i
            (.done .rejected))
      | _ => none
  | .getApproval i sqlOk sub =>
      match w.calls i with
      | .idle => some (w.setCall i (.done (if sqlOk then getApproval sub w.row else .dbError)))
      | _ => none

/-! ## What a step can do -/

/-- The steps again, sorted by what they change.  All the answers that leave
the row alone are one case. -/
inductive Effect (w : World) : Action → World → Prop
  | answered {a : Action} (i : Nat) (reply : Reply) : Effect w a (w.setCall i (.done reply))
  | lost {a : Action} (i : Nat) : Effect w a (w.setCall i .lost)
  | approveLoaded (i : Nat) (hstatus : w.row.status = .pending) :
      Effect w (.approveLoad i false true)
        (w.setCall i (.loaded .approveApproval w.row.targetDbId w.row.ddlSql))
  | executeLoaded (i : Nat) (sub : String) (hstatus : w.row.status = .approved) :
      Effect w (.executeLoad i false true sub)
        (w.setCall i (.loaded .executeWrite w.row.targetDbId w.row.ddlSql))
  | approveClaimed (i : Nat) (sub now target ddl : String)
      (hcall : w.calls i = .loaded .approveApproval target ddl)
      (hstatus : w.row.status = .pending) :
      Effect w (.approveClaim i true sub now)
        { (w.setRow (claimApproval sub now w.row).1).setCall i
            (.claimed .approveApproval target ddl) with
          approveClaims := w.approveClaims + 1 }
  | executeClaimed (i : Nat) (now target ddl : String)
      (hcall : w.calls i = .loaded .executeWrite target ddl)
      (hexec : w.row.execStatus = .pending) :
      Effect w (.executeClaim i true true now)
        ((w.setRow (claimExecution now w.row).1).setCall i (.claimed .executeWrite target ddl))
  | started (i : Nat) (entry : Entry) (target ddl : String)
      (hcall : w.calls i = .claimed entry target ddl) :
      Effect w (.startDdl i) { w.setCall i (.running entry) with started := w.started + 1 }
  | ended (i : Nat) (entry : Entry) (outcome : Except String Unit)
      (hcall : w.calls i = .running entry) :
      Effect w (.finishDdl i outcome)
        { w.setCall i (.finished entry outcome) with outcomes := w.outcomes ++ [outcome] }
  | wroteBack (i : Nat) (entry : Entry) (outcome : Except String Unit)
      (hcall : w.calls i = .finished entry outcome) :
      Effect w (.writeBack i true)
        ((w.setRow (persistOutcome outcome w.row)).setCall i (.done (.executed outcome)))
  | rejected (i : Nat) (now : String) :
      Effect w (.reject i false true now)
        ((w.setRow (rejectRow now w.row)).setCall i (.done .rejected))

theorem approveLoaded_cases (row : ApprovalRow) :
    (row.status = .pending ∧
        approveLoaded row = .loaded .approveApproval row.targetDbId row.ddlSql) ∨
      ∃ reply, approveLoaded row = .done reply := by
  unfold approveLoaded
  split_ifs with hstatus
  · exact Or.inr ⟨_, rfl⟩
  · exact Or.inl ⟨not_not.mp hstatus, rfl⟩

theorem executeLoaded_cases (sub : String) (row : ApprovalRow) :
    (row.status = .approved ∧
        executeLoaded sub row = .loaded .executeWrite row.targetDbId row.ddlSql) ∨
      ∃ reply, executeLoaded sub row = .done reply := by
  unfold executeLoaded
  split_ifs with hsub hstatus
  · exact Or.inr ⟨_, rfl⟩
  · exact Or.inr ⟨_, rfl⟩
  · exact Or.inl ⟨not_not.mp hstatus, rfl⟩

theorem effect_of_step {w w' : World} {a : Action} (h : step w a = some w') :
    Effect w a w' := by
  cases a with
  | approveLoad i gated sqlOk =>
      simp only [step] at h
      split at h
      · obtain rfl := Option.some.inj h
        cases gated with
        | true => exact .answered i _
        | false =>
            cases sqlOk with
            | false => exact .answered i _
            | true =>
                show Effect w _ (w.setCall i (approveLoaded w.row))
                rcases approveLoaded_cases w.row with ⟨hstatus, heq⟩ | ⟨reply, heq⟩
                · rw [heq]
                  exact .approveLoaded i hstatus
                · rw [heq]
                  exact .answered i reply
      · cases h
  | approveClaim i sqlOk sub now =>
      simp only [step] at h
      split at h
      next target ddl hcall =>
        cases sqlOk with
        | false =>
            obtain rfl := Option.some.inj h
            exact .answered i _
        | true =>
            simp only [Bool.not_true, Bool.false_eq_true, if_false] at h
            split_ifs at h with hrows
            · obtain rfl := Option.some.inj h
              exact .answered i _
            · obtain rfl := Option.some.inj h
              have hstatus := not_not.mp (mt (claimApproval_rows sub now w.row).mpr hrows)
              exact .approveClaimed i sub now target ddl hcall hstatus
      · cases h
  | executeLoad i gated sqlOk sub =>
      simp only [step] at h
      split at h
      · obtain rfl := Option.some.inj h
        cases gated with
        | true => exact .answered i _
        | false =>
            cases sqlOk with
            | false => exact .answered i _
            | true =>
                show Effect w _ (w.setCall i (executeLoaded sub w.row))
                rcases executeLoaded_cases sub w.row with ⟨hstatus, heq⟩ | ⟨reply, heq⟩
                · rw [heq]
                  exact .executeLoaded i sub hstatus
                · rw [heq]
                  exact .answered i reply
      · cases h
  | executeClaim i allowed sqlOk now =>
      simp only [step] at h
      split at h
      next target ddl hcall =>
        cases allowed with
        | false =>
            obtain rfl := Option.some.inj h
            exact .answered i _
        | true =>
            cases sqlOk with
            | false =>
                obtain rfl := Option.some.inj h
                exact .answered i _
            | true =>
                simp only [Bool.not_true, Bool.false_eq_true, if_false] at h
                split_ifs at h with hrows
                · obtain rfl := Option.some.inj h
                  exact .lost i
                · obtain rfl := Option.some.inj h
                  have hexec := not_not.mp (mt (claimExecution_rows now w.row).mpr hrows)
                  exact .executeClaimed i now target ddl hcall hexec
      · cases h
  | currentExecState i sqlOk =>
      simp only [step] at h
      split at h
      · cases h
        exact .answered i _
      · cases h
  | startDdl i =>
      simp only [step] at h
      split at h
      next entry target ddl hcall =>
        cases h
        exact .started i entry target ddl hcall
      · cases h
  | finishDdl i outcome =>
      simp only [step] at h
      split at h
      next entry hcall =>
        cases h
        exact .ended i entry outcome hcall
      · cases h
  | writeBack i sqlOk =>
      simp only [step] at h
      split at h
      next entry outcome hcall =>
        cases h
        cases sqlOk
        · exact .answered i _
        · exact .wroteBack i entry outcome hcall
      · cases h
  | reject i gated sqlOk now =>
      simp only [step] at h
      split at h
      · cases gated
        · cases h
          cases sqlOk
          · exact .answered i _
          · exact .rejected i now
        · cases h
          exact .answered i _
      · cases h
  | getApproval i sqlOk sub =>
      simp only [step] at h
      split at h
      · cases h
        exact .answered i _
      · cases h

/-- Runs from a row on which no call has begun. -/
def RunsFrom (row : ApprovalRow) (allowed : World → Action → Prop) (acts : List Action)
    (w : World) : Prop :=
  Run step allowed (World.init row) acts w

end Dbmaster.Approval.Workflow
