import Dbmaster.Gateway.Query
import Dbmaster.Lib.Json
import Dbmaster.Lib.Table
/-!
# Scheduled tasks

`create_task` and `update_task` on the rows of `scheduled_tasks`: what they refuse, and the row
that a call which is not refused leaves behind.
-/

namespace Dbmaster.Tasks.Handler

open Dbmaster.Lib Dbmaster.Lib.Table
open Dbmaster.Gateway.Query (HttpError)

/-! ## Rows and requests -/

structure ScheduledTask where
  id : String
  name : String
  taskType : String
  cronExpr : String
  config : String
  sourceDbId : String
  targetDbId : Option String
  notifyChannels : String
  enabled : Bool
  lastRunAt : Option String
  lastStatus : Option String
  createdAt : String
  /-- none is the time at which SQLite inserted the row -/
  updatedAt : Option String

structure CreateTaskRequest where
  name : String
  taskType : String
  cronExpr : String
  config : Json
  sourceDbId : String
  targetDbId : Option String
  notifyChannels : Option (List String)

structure UpdateTaskRequest where
  enabled : Option Bool
  name : Option String
  cronExpr : Option String
  config : Option Json
  targetDbId : Option String
  notifyChannels : Option (List String)

/-- The texts of documents. -/
structure SerdeJson where
  toString : Json → Option String
  fromStr : String → Option Json

/-- What a call meets: the entitlement, the mode of the server, the UUID, the clock, whether
a connection is found, and the error with which its statement fails. -/
structure Env where
  gated : Bool
  embeddedMode : Bool
  uuid : String
  now : String
  connectionExists : String → Except String Bool
  written : Except String Unit
  refetched : Except String Unit

/-! ## Refusals -/

def gateBlocked : HttpError :=
  ⟨403, "ENTITLEMENT_GATED",
    "License gated. Activate or renew your license to perform this action."⟩

def unsupportedInEmbedded : HttpError :=
  ⟨400, "UNSUPPORTED_IN_EMBEDDED",
    "schema drift and health check require a remote dbmaster-server deployment; the embedded local engine does not run them"⟩

def missing (side id : String) : HttpError :=
  ⟨404, "CONNECTION_NOT_FOUND", side ++ " connection not found: " ++ id ++
    ". Register the connection under Server connections before creating the task."⟩

def validationFailed : HttpError := ⟨500, "INTERNAL", "failed to validate task connections"⟩

def checkConnection (env : Env) (side id : String) : Option HttpError :=
  match env.connectionExists id with
  | .ok true => none
  | .ok false => some (missing side id)
  | .error _ => some validationFailed

def validateTaskConnections (env : Env) (body : CreateTaskRequest) : Option HttpError :=
  (checkConnection env "source" body.sourceDbId).or
    (body.targetDbId.bind (checkConnection env "target"))

/-- The SELECT after a write. -/
def answerRow (refetched : Except String Unit) (row : ScheduledTask) :
    Except HttpError ScheduledTask :=
  match refetched with
  | .ok () => .ok row
  | .error message => .error ⟨200, "FETCH_FAILED", message⟩

/-! ## The handlers -/

def channelsJson (urls : List String) : Json := .arr (urls.map .str)

section Handlers

variable (serde : SerdeJson)

def createdRow (env : Env) (body : CreateTaskRequest) : ScheduledTask where
  id := env.uuid
  name := body.name
  taskType := body.taskType
  cronExpr := body.cronExpr
  config := (serde.toString body.config).getD ""
  sourceDbId := body.sourceDbId
  targetDbId := body.targetDbId
  notifyChannels := (serde.toString (channelsJson (body.notifyChannels.getD []))).getD ""
  enabled := true
  lastRunAt := none
  lastStatus := none
  createdAt := env.now
  updatedAt := none

def createRefusal (tasks : List ScheduledTask) (env : Env) (body : CreateTaskRequest) :
    Option HttpError :=
  if env.gated then some gateBlocked
  else if env.embeddedMode ∧ body.taskType ∈ ["schema_drift", "health_check"] then
    some unsupportedInEmbedded
  else
    match validateTaskConnections env body with
    | some e => some e
    | none =>
        if tasks.any fun task => decide (task.id = env.uuid) then
          some ⟨200, "CREATE_FAILED", "UNIQUE constraint failed: scheduled_tasks.id"⟩
        else
          match env.written with
          | .error message => some ⟨200, "CREATE_FAILED", message⟩
          | .ok () => none

def createTask (tasks : List ScheduledTask) (env : Env) (body : CreateTaskRequest) :
    Except HttpError ScheduledTask × List ScheduledTask :=
  match createRefusal tasks env body with
  | some e => (.error e, tasks)
  | none =>
      let row := createdRow serde env body
      (answerRow env.refetched row, tasks ++ [row])

/-- What the UPDATE sets. -/
def UpdateTaskRequest.apply (body : UpdateTaskRequest) (now : String) (task : ScheduledTask) :
    ScheduledTask :=
  { task with
    enabled := body.enabled.getD task.enabled
    name := body.name.getD task.name
    cronExpr := body.cronExpr.getD task.cronExpr
    config :=
      match body.config with
      | none => task.config
      | some config => (serde.toString config).getD ""
    targetDbId := body.targetDbId.or task.targetDbId
    notifyChannels :=
      match body.notifyChannels with
      | none => task.notifyChannels
      | some urls => (serde.toString (channelsJson urls)).getD "[]"
    updatedAt := some now }

/-- No field is given. -/
def UpdateTaskRequest.isEmpty (body : UpdateTaskRequest) : Bool :=
  body.enabled.isNone && body.name.isNone && body.cronExpr.isNone && body.config.isNone &&
    body.targetDbId.isNone && body.notifyChannels.isNone

def updateRefusal (tasks : List ScheduledTask) (env : Env) (id : String)
    (body : UpdateTaskRequest) : Option HttpError :=
  if env.gated then some gateBlocked
  else if body.isEmpty then some ⟨400, "EMPTY_PATCH", "No updatable fields provided"⟩
  else
    match env.written with
    | .error message => some ⟨500, "DB_ERROR", message⟩
    | .ok () =>
        if tasks.any fun task => decide (task.id = id) then none
        else some ⟨404, "NOT_FOUND", "Task not found"⟩

def updateTask (tasks : List ScheduledTask) (env : Env) (id : String) (body : UpdateTaskRequest) :
    Except HttpError ScheduledTask × List ScheduledTask :=
  match updateRefusal tasks env id body with
  | some e => (.error e, tasks)
  | none =>
      let tasks := updateWhere (fun task => decide (task.id = id)) (body.apply serde env.now) tasks
      match tasks.find? fun task => decide (task.id = id) with
      | some row => (answerRow env.refetched row, tasks)
      | none => (.error ⟨200, "FETCH_FAILED", "no rows returned"⟩, tasks)

end Handlers

/-! ## What a call leaves -/

variable {serde : SerdeJson} {tasks : List ScheduledTask} {env : Env}

/-- The row is the one that a call of `create_task` or `update_task` with these channels has
written. -/
inductive WrittenWith (serde : SerdeJson) (urls : List String) : ScheduledTask → Prop
  | created (tasks : List ScheduledTask) (env : Env) (body : CreateTaskRequest)
      (hgiven : body.notifyChannels = some urls)
      (hdone : createRefusal tasks env body = none) :
      WrittenWith serde urls (createdRow serde env body)
  | updated (tasks : List ScheduledTask) (env : Env) (id : String) (body : UpdateTaskRequest)
      (old : ScheduledTask) (hold : old ∈ tasks) (hid : old.id = id)
      (hgiven : body.notifyChannels = some urls)
      (hdone : updateRefusal tasks env id body = none) :
      WrittenWith serde urls (body.apply serde env.now old)

/-- A row is one that was there, or the one that the call has written. -/
theorem mem_createTask {body : CreateTaskRequest} {task : ScheduledTask}
    (h : task ∈ (createTask serde tasks env body).2) :
    task ∈ tasks ∨ task = createdRow serde env body ∧ createRefusal tasks env body = none := by
  unfold createTask at h
  split at h
  case h_1 => exact Or.inl h
  case h_2 hdone =>
    rcases List.mem_append.mp h with hold | hnew
    · exact Or.inl hold
    · exact Or.inr ⟨List.mem_singleton.mp hnew, hdone⟩

theorem mem_updateTask {id : String} {body : UpdateTaskRequest} {task : ScheduledTask}
    (h : task ∈ (updateTask serde tasks env id body).2) :
    task ∈ tasks ∨ updateRefusal tasks env id body = none ∧
      ∃ old ∈ tasks, old.id = id ∧ task = body.apply serde env.now old := by
  unfold updateTask at h
  split at h
  case h_1 => exact Or.inl h
  case h_2 hdone =>
    have hrow : task ∈ updateWhere (fun task => decide (task.id = id))
        (body.apply serde env.now) tasks := by
      simp only [] at h
      split at h
      · exact h
      · exact h
    obtain ⟨old, hold, heq⟩ := mem_updateWhere.mp hrow
    by_cases hid : old.id = id
    · rw [if_pos (decide_eq_true hid)] at heq
      exact Or.inr ⟨hdone, old, hold, hid, heq.symm⟩
    · rw [decide_eq_false hid, if_neg Bool.false_ne_true] at heq
      exact Or.inl (heq ▸ hold)

end Dbmaster.Tasks.Handler
