import Dbmaster.Lib.Text
import Dbmaster.Lib.Transition
/-!
# Workspaces and their members

The tables `workspaces` and `workspace_members`, and any number of calls of
`create_workspace`, `join_workspace`, `leave_workspace`, `remove_member` and
`delete_workspace` that act on them one statement at a time.  Every statement may fail, and
a call may be dropped between two of them.
-/

namespace Dbmaster.Workspaces

open Dbmaster.Lib

/-! ## The tables -/

structure Workspace where
  id : String
  name : String
  ownerId : String
  inviteCode : String
  createdAt : String

structure WorkspaceMember where
  workspaceId : String
  userId : String
  role : String
  joinedAt : String

def WorkspaceMember.Admin (member : WorkspaceMember) : Prop := member.role = "admin"

/-- The primary key of `workspace_members`. -/
def WorkspaceMember.key (member : WorkspaceMember) : String × String :=
  (member.workspaceId, member.userId)

/-- The row of the creator. -/
def Workspace.creator (workspace : Workspace) : WorkspaceMember :=
  ⟨workspace.id, workspace.ownerId, "admin", workspace.createdAt⟩

/-- `SELECT role … WHERE workspace_id = ? AND user_id = ?` -/
def roleOf (members : List WorkspaceMember) (workspaceId userId : String) : Option String :=
  (members.find? fun member => decide (member.key = (workspaceId, userId))).map (·.role)

/-- `SELECT COUNT(*) … WHERE workspace_id = ? AND role = 'admin'` -/
def adminCount (members : List WorkspaceMember) (workspaceId : String) : Nat :=
  members.countP fun member => decide (member.workspaceId = workspaceId ∧ member.role = "admin")

/-! ## Calls -/

inductive AppError where
  | validation (message : String)
  | forbidden (message : String)
  | notFound (message : String)
  | conflict (message : String)
  | businessRuleViolation (message : String)
  /-- without a message where the database failed -/
  | internal (message : Option String)

structure WorkspaceListItem where
  id : String
  name : String
  ownerId : String
  inviteCode : String
  memberCount : Nat
  role : String
  createdAt : String

inductive Reply where
  | created (item : WorkspaceListItem)
  | membership (member : WorkspaceMember)
  | noContent

def Workspace.createdItem (workspace : Workspace) : WorkspaceListItem :=
  ⟨workspace.id, workspace.name, workspace.ownerId, workspace.inviteCode, 1, "admin",
    workspace.createdAt⟩

/-- With a `create_workspace` come the UUID it draws and the clock. -/
inductive Request where
  | create (sub name workspaceId now : String)
  | join (sub workspaceId inviteCode : String)
  | leave (sub workspaceId : String)
  | removeMember (sub workspaceId targetUserId : String)
  | delete (sub workspaceId : String)

/-- The statement a call comes to next. -/
inductive Phase where
  /-- `attempts` counts the codes that may still be tried -/
  | generating (workspaceId name sub now : String) (attempts : Nat)
  | creating (workspace : Workspace)
  | seating (workspace : Workspace)
  | finding (workspaceId sub inviteCode : String)
  | verifying (workspaceId sub inviteCode : String)
  | checking (workspaceId sub : String)
  | joining (member : WorkspaceMember)
  | leaving (workspaceId sub : String)
  | authorizing (workspaceId sub targetUserId : String)
  | targeting (workspaceId targetUserId : String)
  | counting (workspaceId userId refusal : String)
  | removing (workspaceId userId : String)
  | permitting (workspaceId sub : String)
  | deleting (workspaceId : String)
  /-- without a reply when the call was dropped -/
  | ended (reply : Option (Except AppError Reply))

def Phase.isEnded : Phase → Bool
  | .ended _ => true
  | _ => false

/-- The workspace that a call is creating. -/
def Phase.creates : Phase → Option String
  | .generating workspaceId _ _ _ _ => some workspaceId
  | .creating workspace | .seating workspace => some workspace.id
  | _ => none

/-- `CreateWorkspaceRequest::validate` -/
def validate (name : String) : Except AppError Unit :=
  let name := String.ofList (Text.trim name.toList)
  if name = "" ∨ 100 < name.utf8ByteSize then
    .error (.validation "Workspace name must be between 1 and 100 characters.")
  else .ok ()

/-- The start of `create_workspace`, with the name normalized. -/
def creation (sub name workspaceId now : String) : Phase :=
  match validate name with
  | .error error => .ended (some (.error error))
  | .ok () => .generating workspaceId name sub now 10

def Request.start : Request → Phase
  | .create sub name workspaceId now =>
      creation sub (String.ofList (Text.trim name.toList)) workspaceId now
  | .join sub workspaceId inviteCode => .finding workspaceId sub inviteCode
  | .leave sub workspaceId => .leaving workspaceId sub
  | .removeMember sub workspaceId targetUserId => .authorizing workspaceId sub targetUserId
  | .delete sub workspaceId => .permitting workspaceId sub

/-- The UUIDs that a request draws. -/
def Request.draws : Request → List String
  | .create _ _ workspaceId _ => [workspaceId]
  | _ => []

/-- `issued` are the UUIDs drawn so far. -/
structure State where
  workspaces : List Workspace
  members : List WorkspaceMember
  calls : List Phase
  issued : List String

def State.initial : State := ⟨[], [], [], []⟩

/-! ## Statements -/

/-- What a call meets at one statement: whether the database executes it, the clock, and
the code that `generate_code` draws. -/
structure Answer where
  ok : Bool
  now : String
  code : String

inductive Action where
  | call (request : Request)
  | statement (i : Nat) (answer : Answer)
  | drop (i : Nat)

def State.move (s : State) (i : Nat) (phase : Phase) : State :=
  { s with calls := s.calls.set i phase }

def State.hasWorkspace (s : State) (workspaceId : String) : Bool :=
  s.workspaces.any fun workspace => decide (workspace.id = workspaceId)

/-- The keys of `workspaces`. -/
def State.acceptsWorkspace (s : State) (workspace : Workspace) : Bool :=
  s.workspaces.all fun other =>
    decide (other.id ≠ workspace.id ∧ other.inviteCode ≠ workspace.inviteCode)

/-- The keys of `workspace_members`. -/
def State.acceptsMember (s : State) (member : WorkspaceMember) : Bool :=
  s.hasWorkspace member.workspaceId && s.members.all fun other => decide (other.key ≠ member.key)

def State.insertWorkspace (s : State) (i : Nat) (workspace : Workspace) : State :=
  { s.move i (.seating workspace) with workspaces := s.workspaces ++ [workspace] }

def State.insertMember (s : State) (i : Nat) (member : WorkspaceMember) (reply : Reply) : State :=
  { s.move i (.ended (some (.ok reply))) with members := s.members ++ [member] }

def State.deleteMember (s : State) (i : Nat) (workspaceId userId : String) : State :=
  { s.move i (.ended (some (.ok .noContent))) with
    members := s.members.filter fun member => decide (member.key ≠ (workspaceId, userId)) }

/-- `DELETE FROM workspaces`, and the members by `ON DELETE CASCADE`. -/
def State.deleteWorkspace (s : State) (i : Nat) (workspaceId : String) : State :=
  { s.move i (.ended (some (.ok .noContent))) with
    workspaces := s.workspaces.filter fun workspace => decide (workspace.id ≠ workspaceId)
    members := s.members.filter fun member => decide (member.workspaceId ≠ workspaceId) }

def requireAdmin (role : Option String) (message : String) : Except AppError Unit :=
  match role with
  | some role => if role = "admin" then .ok () else .error (.forbidden message)
  | none => .error (.notFound "Workspace not found.")

/-- What `leave_workspace` and `remove_member` do after the role has been read. -/
def departure (workspaceId userId role refusal : String) : Phase :=
  if role = "admin" then .counting workspaceId userId refusal else .removing workspaceId userId

def lastAdminLeaves : String :=
  "You are the last admin of this workspace. Delete the workspace or promote another member to admin first."

def lastAdminRemoved : String := "Cannot remove the last admin of the workspace."

/-- The next statement of the call, executed, and what follows up to the one after it. -/
def execute (toUppercase : String → String) (s : State) (i : Nat) (answer : Answer)
    (phase : Phase) : State :=
  let fail (error : AppError) := s.move i (.ended (some (.error error)))
  match phase with
  | .generating workspaceId name sub now attempts =>
      if s.workspaces.any fun workspace => decide (workspace.inviteCode = answer.code) then
        if attempts ≤ 1 then
          fail (.internal (some "Failed to generate unique invite code after 10 attempts"))
        else s.move i (.generating workspaceId name sub now (attempts - 1))
      else s.move i (.creating ⟨workspaceId, name, sub, answer.code, now⟩)
  | .creating workspace =>
      if s.acceptsWorkspace workspace then s.insertWorkspace i workspace
      else fail (.internal none)
  | .seating workspace =>
      if s.acceptsMember workspace.creator then
        s.insertMember i workspace.creator (.created workspace.createdItem)
      else fail (.internal none)
  | .finding workspaceId sub inviteCode =>
      if s.hasWorkspace workspaceId then s.move i (.verifying workspaceId sub inviteCode)
      else fail (.notFound "Workspace not found.")
  | .verifying workspaceId sub inviteCode =>
      let given := toUppercase (String.ofList (Text.trim inviteCode.toList))
      match s.workspaces.find? fun workspace => decide (workspace.id = workspaceId) with
      | some workspace =>
          if toUppercase workspace.inviteCode = given then s.move i (.checking workspaceId sub)
          else fail (.conflict "Invalid invite code.")
      | none => fail (.conflict "Invalid invite code.")
  | .checking workspaceId sub =>
      match roleOf s.members workspaceId sub with
      | some _ => fail (.conflict "You are already a member of this workspace.")
      | none => s.move i (.joining ⟨workspaceId, sub, "member", answer.now⟩)
  | .joining member =>
      if s.acceptsMember member then s.insertMember i member (.membership member)
      else fail (.internal none)
  | .leaving workspaceId sub =>
      match roleOf s.members workspaceId sub with
      | none => fail (.notFound "You are not a member of this workspace.")
      | some role => s.move i (departure workspaceId sub role lastAdminLeaves)
  | .authorizing workspaceId sub targetUserId =>
      match requireAdmin (roleOf s.members workspaceId sub)
          "Only workspace admins can remove members." with
      | .error error => fail error
      | .ok () => s.move i (.targeting workspaceId targetUserId)
  | .targeting workspaceId targetUserId =>
      match roleOf s.members workspaceId targetUserId with
      | none => fail (.notFound "Member not found in this workspace.")
      | some role => s.move i (departure workspaceId targetUserId role lastAdminRemoved)
  | .counting workspaceId userId refusal =>
      if adminCount s.members workspaceId ≤ 1 then fail (.businessRuleViolation refusal)
      else s.move i (.removing workspaceId userId)
  | .removing workspaceId userId => s.deleteMember i workspaceId userId
  | .permitting workspaceId sub =>
      match requireAdmin (roleOf s.members workspaceId sub)
          "Only workspace admins can delete the workspace." with
      | .error error => fail error
      | .ok () => s.move i (.deleting workspaceId)
  | .deleting workspaceId => s.deleteWorkspace i workspaceId
  | .ended _ => s

def State.statement (toUppercase : String → String) (s : State) (i : Nat) (answer : Answer)
    (phase : Phase) : State :=
  if answer.ok then execute toUppercase s i answer phase
  else s.move i (.ended (some (.error (.internal none))))

def step (toUppercase : String → String) (s : State) : Action → Option State
  | .call request =>
      -- `Uuid::new_v4` repeats no id
      if request.draws.all fun id => decide (id ∉ s.issued) then
        some { s with calls := s.calls ++ [request.start], issued := s.issued ++ request.draws }
      else none
  | .statement i answer =>
      match s.calls[i]? with
      | none => none
      | some phase =>
          if phase.isEnded then none else some (s.statement toUppercase i answer phase)
  | .drop i =>
      match s.calls[i]? with
      | none => none
      | some phase => if phase.isEnded then none else some (s.move i (.ended none))

end Dbmaster.Workspaces
