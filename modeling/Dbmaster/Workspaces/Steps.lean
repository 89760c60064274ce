import Dbmaster.Workspaces.Store
import Mathlib.Data.List.Nodup
/-!
# The steps of the workspace handlers

What one statement of a call does to the tables and the calls, and what holds of members
and of creations in every state.
-/

namespace Dbmaster.Workspaces

open Dbmaster.Lib.Transition

/-! ## What a step can do -/

/-- Not creating a workspace, and not about to write. -/
def Phase.Idle : Phase → Prop
  | .generating .. | .creating _ | .seating _ | .joining _ | .removing .. | .deleting _ => False
  | _ => True

/-- What `leave_workspace` and `remove_member` have seen before they delete. -/
def Removable (s : State) (workspaceId userId : String) : Prop :=
  (∃ role, roleOf s.members workspaceId userId = some role ∧ role ≠ "admin") ∨
    1 < adminCount s.members workspaceId

def Administered (s : State) (workspaceId : String) : Prop :=
  ∃ member ∈ s.members, member.workspaceId = workspaceId ∧ member.Admin

inductive Effect (s : State) : Action → State → Prop
  | called (request : Request) (hfresh : ∀ id ∈ request.draws, id ∉ s.issued) :
      Effect s (.call request)
        { s with calls := s.calls ++ [request.start], issued := s.issued ++ request.draws }
  | idled (a : Action) (i : Nat) (old phase : Phase) (hi : s.calls[i]? = some old)
      (hphase : phase.Idle) (ha : a = .drop i ∨ ∃ answer, a = .statement i answer ∧
        ∀ workspace, old = .seating workspace →
          answer.ok = false ∨ s.acceptsMember workspace.creator = false) :
      Effect s a (s.move i phase)
  | retried (i : Nat) (answer : Answer) (workspaceId name sub now : String)
      (attempts attempts' : Nat)
      (hi : s.calls[i]? = some (.generating workspaceId name sub now attempts)) :
      Effect s (.statement i answer) (s.move i (.generating workspaceId name sub now attempts'))
  | generated (i : Nat) (answer : Answer) (workspaceId name sub now : String) (attempts : Nat)
      (hi : s.calls[i]? = some (.generating workspaceId name sub now attempts)) :
      Effect s (.statement i answer)
        (s.move i (.creating ⟨workspaceId, name, sub, answer.code, now⟩))
  | created (i : Nat) (answer : Answer) (workspace : Workspace)
      (hi : s.calls[i]? = some (.creating workspace)) :
      Effect s (.statement i answer) (s.insertWorkspace i workspace)
  | seated (i : Nat) (answer : Answer) (workspace : Workspace) (reply : Reply)
      (hi : s.calls[i]? = some (.seating workspace))
      (haccepts : s.acceptsMember workspace.creator = true) :
      Effect s (.statement i answer) (s.insertMember i workspace.creator reply)
  | checked (i : Nat) (answer : Answer) (old : Phase) (member : WorkspaceMember)
      (hi : s.calls[i]? = some old) (hold : old.Idle) (hrole : member.role = "member") :
      Effect s (.statement i answer) (s.move i (.joining member))
  | joined (i : Nat) (answer : Answer) (member : WorkspaceMember) (reply : Reply)
      (hi : s.calls[i]? = some (.joining member)) (haccepts : s.acceptsMember member = true) :
      Effect s (.statement i answer) (s.insertMember i member reply)
  | departing (i : Nat) (answer : Answer) (old : Phase) (workspaceId userId : String)
      (hi : s.calls[i]? = some old) (hold : old.Idle) (h : Removable s workspaceId userId) :
      Effect s (.statement i answer) (s.move i (.removing workspaceId userId))
  | removed (i : Nat) (answer : Answer) (workspaceId userId : String)
      (hi : s.calls[i]? = some (.removing workspaceId userId)) :
      Effect s (.statement i answer) (s.deleteMember i workspaceId userId)
  | permitted (i : Nat) (answer : Answer) (old : Phase) (workspaceId : String)
      (hi : s.calls[i]? = some old) (hold : old.Idle) (hadmin : Administered s workspaceId) :
      Effect s (.statement i answer) (s.move i (.deleting workspaceId))
  | deleted (i : Nat) (answer : Answer) (workspaceId : String)
      (hi : s.calls[i]? = some (.deleting workspaceId)) :
      Effect s (.statement i answer) (s.deleteWorkspace i workspaceId)

theorem member_of_roleOf {members : List WorkspaceMember} {workspaceId userId role : String}
    (h : roleOf members workspaceId userId = some role) :
    ∃ member ∈ members, member.key = (workspaceId, userId) ∧ member.role = role := by
  obtain ⟨member, hfind, hrole⟩ := Option.map_eq_some_iff.mp h
  have hkey := List.find?_some
    (p := fun member : WorkspaceMember => decide (member.key = (workspaceId, userId))) hfind
  exact ⟨member, List.mem_of_find?_eq_some hfind, of_decide_eq_true hkey, hrole⟩

theorem administered_of_requireAdmin {s : State} {workspaceId userId message : String}
    (h : requireAdmin (roleOf s.members workspaceId userId) message = .ok ()) :
    Administered s workspaceId := by
  unfold requireAdmin at h
  split at h
  case h_1 role hrole =>
    split_ifs at h with hadmin
    obtain ⟨member, hmember, hkey, hrole'⟩ := member_of_roleOf hrole
    exact ⟨member, hmember, congrArg Prod.fst hkey, hrole'.trans hadmin⟩
  case h_2 => cases h

section Execute

variable {toUppercase : String → String} {s : State} {i : Nat}

theorem Phase.Idle.ne_seating {phase : Phase} (h : phase.Idle) (workspace : Workspace) :
    phase ≠ .seating workspace := by
  rintro rfl
  exact h

theorem effect_idle (answer : Answer) {old phase : Phase} (hi : s.calls[i]? = some old)
    (hphase : phase.Idle) (hold : ∀ workspace, old ≠ .seating workspace) :
    Effect s (.statement i answer) (s.move i phase) :=
  .idled _ i old phase hi hphase
    (Or.inr ⟨answer, rfl, fun workspace h => absurd h (hold workspace)⟩)

theorem effect_departure (answer : Answer) {old : Phase} {workspaceId userId role : String}
    (hi : s.calls[i]? = some old) (hold : old.Idle) (refusal : String)
    (hrole : roleOf s.members workspaceId userId = some role) :
    Effect s (.statement i answer)
      (s.move i (departure workspaceId userId role refusal)) := by
  unfold departure
  split_ifs with hadmin
  · exact effect_idle answer hi trivial hold.ne_seating
  · exact .departing i answer old workspaceId userId hi hold (Or.inl ⟨role, hrole, hadmin⟩)

theorem effect_of_execute (answer : Answer) {old : Phase} (hi : s.calls[i]? = some old)
    (hended : old.isEnded = false) :
    Effect s (.statement i answer) (execute toUppercase s i answer old) := by
  cases old with
  | generating workspaceId name sub now attempts =>
      simp only [execute]
      split_ifs
      · exact effect_idle answer hi trivial (by rintro _ ⟨⟩)
      · exact .retried i answer workspaceId name sub now attempts _ hi
      · exact .generated i answer workspaceId name sub now attempts hi
  | creating workspace =>
      simp only [execute]
      split_ifs
      · exact .created i answer workspace hi
      · exact effect_idle answer hi trivial (by rintro _ ⟨⟩)
  | seating workspace =>
      simp only [execute]
      split_ifs with haccepts
      · exact .seated i answer workspace _ hi haccepts
      · refine .idled _ i _ _ hi trivial (Or.inr ⟨answer, rfl, fun other h => Or.inr ?_⟩)
        cases h
        exact Bool.eq_false_iff.mpr haccepts
  | finding workspaceId sub inviteCode =>
      simp only [execute]
      split_ifs
      · exact effect_idle answer hi trivial (Phase.Idle.ne_seating trivial)
      · exact effect_idle answer hi trivial (Phase.Idle.ne_seating trivial)
  | verifying workspaceId sub inviteCode =>
      simp only [execute]
      split
      · split_ifs
        · exact effect_idle answer hi trivial (Phase.Idle.ne_seating trivial)
        · exact effect_idle answer hi trivial (Phase.Idle.ne_seating trivial)
      · exact effect_idle answer hi trivial (Phase.Idle.ne_seating trivial)
  | checking workspaceId sub =>
      simp only [execute]
      split
      · exact effect_idle answer hi trivial (Phase.Idle.ne_seating trivial)
      · exact .checked i answer _ _ hi trivial rfl
  | joining member =>
      simp only [execute]
      split_ifs with haccepts
      · exact .joined i answer member _ hi haccepts
      · exact effect_idle answer hi trivial (by rintro _ ⟨⟩)
  | leaving workspaceId sub =>
      simp only [execute]
      split
      · exact effect_idle answer hi trivial (Phase.Idle.ne_seating trivial)
      case h_2 role hrole => exact effect_departure answer hi trivial _ hrole
  | authorizing workspaceId sub targetUserId =>
      simp only [execute]
      split
      · exact effect_idle answer hi trivial (Phase.Idle.ne_seating trivial)
      · exact effect_idle answer hi trivial (Phase.Idle.ne_seating trivial)
  | targeting workspaceId targetUserId =>
      simp only [execute]
      split
      · exact effect_idle answer hi trivial (Phase.Idle.ne_seating trivial)
      case h_2 role hrole => exact effect_departure answer hi trivial _ hrole
  | counting workspaceId userId refusal =>
      simp only [execute]
      split_ifs with hcount
      · exact effect_idle answer hi trivial (Phase.Idle.ne_seating trivial)
      · exact .departing i answer _ workspaceId userId hi trivial (Or.inr (by omega))
  | removing workspaceId userId => exact .removed i answer workspaceId userId hi
  | permitting workspaceId sub =>
      simp only [execute]
      split
      · exact effect_idle answer hi trivial (Phase.Idle.ne_seating trivial)
      case h_2 hadmin =>
        exact .permitted i answer _ workspaceId hi trivial (administered_of_requireAdmin hadmin)
  | deleting workspaceId => exact .deleted i answer workspaceId hi
  | ended reply => cases hended

theorem effect_of_step {a : Action} {s' : State} (hstep : step toUppercase s a = some s') :
    Effect s a s' := by
  cases a with
  | call request =>
      simp only [step] at hstep
      split_ifs at hstep with hfresh
      obtain rfl := Option.some.inj hstep
      refine .called request fun id hid => ?_
      exact of_decide_eq_true (List.all_eq_true.mp hfresh id hid)
  | statement i answer =>
      simp only [step] at hstep
      split at hstep
      case h_1 => cases hstep
      case h_2 old hi =>
        split_ifs at hstep with hended
        obtain rfl := Option.some.inj hstep
        unfold State.statement
        split_ifs with hok
        · exact effect_of_execute answer hi (Bool.eq_false_iff.mpr hended)
        · exact .idled _ i old _ hi trivial
            (Or.inr ⟨answer, rfl, fun _ _ => Or.inl (Bool.eq_false_iff.mpr hok)⟩)
  | drop i =>
      simp only [step] at hstep
      split at hstep
      case h_1 => cases hstep
      case h_2 old hi =>
        split_ifs at hstep
        obtain rfl := Option.some.inj hstep
        exact .idled _ i old _ hi trivial (Or.inl rfl)

end Execute

/-! ## Calls after a step -/

/-- How a call came to its phase by the step. -/
inductive Entered (s s' : State) (k : Nat) : Phase → Prop
  | idle {phase : Phase} (h : phase.Idle) : Entered s s' k phase
  | called (workspaceId name sub now : String) (attempts : Nat) (hk : k = s.calls.length)
      (hfresh : workspaceId ∉ s.issued) (hdrawn : workspaceId ∈ s'.issued) :
      Entered s s' k (.generating workspaceId name sub now attempts)
  | generating {phase : Phase} (workspaceId name sub now : String) (attempts : Nat)
      (hk : s.calls[k]? = some (.generating workspaceId name sub now attempts))
      (hcreates : phase.creates = some workspaceId)
      (hseating : ∀ workspace, phase ≠ .seating workspace) : Entered s s' k phase
  | created (workspace : Workspace) (hk : s.calls[k]? = some (.creating workspace))
      (hrow : workspace ∈ s'.workspaces) : Entered s s' k (.seating workspace)
  | checked (member : WorkspaceMember) (hrole : member.role = "member") :
      Entered s s' k (.joining member)
  | departing (workspaceId userId : String) (h : Removable s workspaceId userId) :
      Entered s s' k (.removing workspaceId userId)
  | permitted (workspaceId : String) (h : Administered s workspaceId) :
      Entered s s' k (.deleting workspaceId)

theorem creation_cases {sub name workspaceId now : String} {phase : Phase}
    (h : creation sub name workspaceId now = phase) :
    phase.Idle ∨ phase = .generating workspaceId name sub now 10 := by
  unfold creation at h
  split at h
  · exact Or.inl (h ▸ trivial)
  · exact Or.inr h.symm

theorem start_cases {request : Request} {phase : Phase} (h : request.start = phase) :
    phase.Idle ∨ ∃ workspaceId name sub now,
      phase = .generating workspaceId name sub now 10 ∧ workspaceId ∈ request.draws := by
  cases request with
  | create sub name workspaceId now =>
      rw [Request.start] at h
      rcases creation_cases h with hidle | hstart
      · exact Or.inl hidle
      · exact Or.inr ⟨workspaceId, _, sub, now, hstart, List.mem_cons_self⟩
  | join => exact Or.inl (h ▸ trivial)
  | leave => exact Or.inl (h ▸ trivial)
  | removeMember => exact Or.inl (h ▸ trivial)
  | delete => exact Or.inl (h ▸ trivial)

theorem phase_of_effect {s s' : State} {a : Action} (heffect : Effect s a s') {k : Nat}
    {phase : Phase} (hk : s'.calls[k]? = some phase) :
    s.calls[k]? = some phase ∨ Entered s s' k phase := by
  cases heffect with
  | called request hfresh =>
      rcases of_getElem?_concat hk with ⟨hlength, hstart⟩ | hkept
      · rcases start_cases hstart.symm with hidle | ⟨workspaceId, name, sub, now, rfl, hdrawn⟩
        · exact Or.inr (.idle hidle)
        · exact Or.inr (.called workspaceId name sub now 10 hlength (hfresh _ hdrawn)
            (List.mem_append_right _ hdrawn))
      · exact Or.inl hkept
  | idled a i old new hi hidle _ => exact kept_or_of_set hk (.idle hidle)
  | retried i answer workspaceId name sub now attempts attempts' hi =>
      exact kept_or_of_set hk (.generating workspaceId name sub now attempts hi rfl fun _ => nofun)
  | generated i answer workspaceId name sub now attempts hi =>
      exact kept_or_of_set hk (.generating workspaceId name sub now attempts hi rfl fun _ => nofun)
  | created i answer workspace hi =>
      exact kept_or_of_set hk (.created workspace hi (List.mem_append_right _ List.mem_cons_self))
  | seated i answer workspace reply hi _ => exact kept_or_of_set hk (.idle trivial)
  | checked i answer old member hi _ hrole => exact kept_or_of_set hk (.checked member hrole)
  | joined i answer member reply hi _ => exact kept_or_of_set hk (.idle trivial)
  | departing i answer old workspaceId userId hi _ h =>
      exact kept_or_of_set hk (.departing workspaceId userId h)
  | removed i answer workspaceId userId hi => exact kept_or_of_set hk (.idle trivial)
  | permitted i answer old workspaceId hi _ h =>
      exact kept_or_of_set hk (.permitted workspaceId h)
  | deleted i answer workspaceId hi => exact kept_or_of_set hk (.idle trivial)

theorem Phase.Idle.creates {phase : Phase} (h : phase.Idle) : phase.creates = none := by
  cases phase <;> first | rfl | cases h

/-- The call is creating the workspace. -/
def Creates (calls : List Phase) (k : Nat) (workspaceId : String) : Prop :=
  ∃ phase, calls[k]? = some phase ∧ phase.creates = some workspaceId

theorem creates_of_effect {s s' : State} {a : Action} (heffect : Effect s a s') {k : Nat}
    {workspaceId : String} (h : Creates s'.calls k workspaceId) :
    Creates s.calls k workspaceId ∨
      (k = s.calls.length ∧ workspaceId ∉ s.issued ∧ workspaceId ∈ s'.issued) := by
  obtain ⟨phase, hk, hcreates⟩ := h
  rcases phase_of_effect heffect hk with hkept | hentered
  · exact Or.inl ⟨phase, hkept, hcreates⟩
  · cases hentered with
    | idle hidle =>
        rw [hidle.creates] at hcreates
        cases hcreates
    | called _ name sub now attempts hlength hfresh hdrawn =>
        obtain rfl := Option.some.inj hcreates
        exact Or.inr ⟨hlength, hfresh, hdrawn⟩
    | generating _ name sub now attempts hold hsame _ =>
        exact Or.inl ⟨_, hold, hsame.symm.trans hcreates⟩
    | created workspace hold _ => exact Or.inl ⟨_, hold, hcreates⟩
    | checked => cases hcreates
    | departing => cases hcreates
    | permitted => cases hcreates

/-! ## Rows after a step -/

theorem hasWorkspace_iff {s : State} {workspaceId : String} :
    s.hasWorkspace workspaceId = true ↔ ∃ workspace ∈ s.workspaces, workspace.id = workspaceId := by
  simp only [State.hasWorkspace, List.any_eq_true, decide_eq_true_eq]

theorem acceptsMember_iff {s : State} {member : WorkspaceMember} :
    s.acceptsMember member = true ↔
      (∃ workspace ∈ s.workspaces, workspace.id = member.workspaceId) ∧
        ∀ other ∈ s.members, other.key ≠ member.key := by
  simp only [State.acceptsMember, Bool.and_eq_true, hasWorkspace_iff, List.all_eq_true,
    decide_eq_true_eq]

theorem issued_of_effect {s s' : State} {a : Action} (heffect : Effect s a s') :
    ∀ id ∈ s.issued, id ∈ s'.issued := by
  intro id hid
  cases heffect with
  | called request _ => exact List.mem_append_left _ hid
  | _ => exact hid

/-- Where a row of `workspaces` comes from. -/
theorem workspace_of_effect {s s' : State} {a : Action} (heffect : Effect s a s')
    {workspace : Workspace} (h : workspace ∈ s'.workspaces) :
    workspace ∈ s.workspaces ∨ ∃ i : Nat, s.calls[i]? = some (.creating workspace) ∧
      s'.calls[i]? = some (.seating workspace) := by
  cases heffect with
  | created i answer workspace' hi =>
      rcases List.mem_append.mp h with hold | hnew
      · exact Or.inl hold
      · obtain rfl := List.mem_singleton.mp hnew
        exact Or.inr ⟨i, hi, List.getElem?_set_self (List.getElem?_eq_some_iff.mp hi).1⟩
  | deleted i answer workspaceId hi => exact Or.inl (List.mem_of_mem_filter h)
  | _ => exact Or.inl h

/-- Where a row of `workspaces` goes. -/
theorem workspace_kept {s s' : State} {a : Action} (heffect : Effect s a s')
    {workspace : Workspace} (h : workspace ∈ s.workspaces) :
    workspace ∈ s'.workspaces ∨ ((∃ i : Nat, s.calls[i]? = some (.deleting workspace.id)) ∧
      ∀ member ∈ s'.members, member.workspaceId ≠ workspace.id) := by
  cases heffect with
  | created i answer workspace' hi => exact Or.inl (List.mem_append_left _ h)
  | deleted i answer workspaceId hi =>
      by_cases hid : workspace.id = workspaceId
      · subst hid
        refine Or.inr ⟨⟨i, hi⟩, fun member hmember => ?_⟩
        exact of_decide_eq_true (List.mem_filter.mp hmember).2
      · exact Or.inl (List.mem_filter.mpr ⟨h, decide_eq_true hid⟩)
  | _ => exact Or.inl h

/-- The call makes the creator of its workspace an admin. -/
structure Seats (s : State) (a : Action) (s' : State) (i : Nat) (workspace : Workspace) : Prop where
  statement : ∃ answer, a = .statement i answer
  before : s.calls[i]? = some (.seating workspace)
  accepts : s.acceptsMember workspace.creator = true
  row : workspace.creator ∈ s'.members
  after : ¬ Creates s'.calls i workspace.id

theorem seats_of_seated {s : State} {i : Nat} (answer : Answer) {workspace : Workspace}
    (reply : Reply) (hi : s.calls[i]? = some (.seating workspace))
    (haccepts : s.acceptsMember workspace.creator = true) :
    Seats s (.statement i answer) (s.insertMember i workspace.creator reply) i workspace where
  statement := ⟨answer, rfl⟩
  before := hi
  accepts := haccepts
  row := List.mem_append_right _ List.mem_cons_self
  after := by
    rintro ⟨phase, hphase, hcreates⟩
    rcases of_getElem?_set hphase with ⟨-, rfl⟩ | ⟨hne, -⟩
    · cases hcreates
    · exact hne rfl

/-- Where a row of `workspace_members` comes from. -/
theorem member_of_effect {s s' : State} {a : Action} (heffect : Effect s a s')
    {member : WorkspaceMember} (h : member ∈ s'.members) :
    member ∈ s.members ∨
      (∃ i workspace, Seats s a s' i workspace ∧ member = workspace.creator) ∨
        ∃ i : Nat, s.calls[i]? = some (.joining member) ∧ s.acceptsMember member = true := by
  cases heffect with
  | seated i answer workspace reply hi haccepts =>
      rcases List.mem_append.mp h with hold | hnew
      · exact Or.inl hold
      · obtain rfl := List.mem_singleton.mp hnew
        exact Or.inr (Or.inl ⟨i, workspace, seats_of_seated answer reply hi haccepts, rfl⟩)
  | joined i answer member' reply hi haccepts =>
      rcases List.mem_append.mp h with hold | hnew
      · exact Or.inl hold
      · obtain rfl := List.mem_singleton.mp hnew
        exact Or.inr (Or.inr ⟨i, hi, haccepts⟩)
  | removed i answer workspaceId userId hi => exact Or.inl (List.mem_of_mem_filter h)
  | deleted i answer workspaceId hi => exact Or.inl (List.mem_of_mem_filter h)
  | _ => exact Or.inl h

/-- Where a row of `workspace_members` goes. -/
theorem member_kept {s s' : State} {a : Action} (heffect : Effect s a s')
    {member : WorkspaceMember} (h : member ∈ s.members) :
    member ∈ s'.members ∨
      (∃ i : Nat, s.calls[i]? = some (.removing member.workspaceId member.userId)) ∨
        ∀ workspace ∈ s'.workspaces, workspace.id ≠ member.workspaceId := by
  cases heffect with
  | seated i answer workspace reply hi _ => exact Or.inl (List.mem_append_left _ h)
  | joined i answer member' reply hi _ => exact Or.inl (List.mem_append_left _ h)
  | removed i answer workspaceId userId hi =>
      by_cases hkey : member.key = (workspaceId, userId)
      · obtain ⟨rfl, rfl⟩ := Prod.mk.inj hkey
        exact Or.inr (Or.inl ⟨i, hi⟩)
      · exact Or.inl (List.mem_filter.mpr ⟨h, decide_eq_true hkey⟩)
  | deleted i answer workspaceId hi =>
      by_cases hid : member.workspaceId = workspaceId
      · refine Or.inr (Or.inr fun workspace hworkspace => ?_)
        rw [hid]
        exact of_decide_eq_true (List.mem_filter.mp hworkspace).2
      · exact Or.inl (List.mem_filter.mpr ⟨h, decide_eq_true hid⟩)
  | _ => exact Or.inl h

/-- The call ends before it has made the creator an admin. -/
def Abandons (s : State) (a : Action) (i : Nat) (workspace : Workspace) : Prop :=
  a = .drop i ∨ ∃ answer, a = .statement i answer ∧
    (answer.ok = false ∨ s.acceptsMember workspace.creator = false)

theorem seating_kept {s s' : State} {a : Action} (heffect : Effect s a s') {k : Nat}
    {workspace : Workspace} (hk : s.calls[k]? = some (.seating workspace)) :
    s'.calls[k]? = some (.seating workspace) ∨ Seats s a s' k workspace ∨
      (Abandons s a k workspace ∧ s'.workspaces = s.workspaces ∧
        ∃ phase : Phase, phase.Idle ∧ s'.calls[k]? = some phase) := by
  -- another call's statement leaves the phase of this one
  have hother : ∀ (i : Nat) (old new : Phase), s.calls[i]? = some old →
      (∀ workspace, old ≠ .seating workspace) →
        (s.calls.set i new)[k]? = some (.seating workspace) := by
    intro i old new hi hold
    have hne : i ≠ k := by
      rintro rfl
      exact hold workspace (Option.some.inj (hi.symm.trans hk))
    rw [List.getElem?_set_ne hne]
    exact hk
  have hidle : ∀ {old : Phase}, old.Idle → ∀ workspace, old ≠ .seating workspace := by
    rintro old h workspace rfl
    exact h
  cases heffect with
  | called request _ =>
      left
      rw [List.getElem?_append_left (List.getElem?_eq_some_iff.mp hk).1]
      exact hk
  | idled a i old phase hi hphase ha =>
      by_cases hik : i = k
      · subst hik
        obtain rfl := Option.some.inj (hi.symm.trans hk)
        refine Or.inr (Or.inr ⟨?_, rfl, phase, hphase,
          List.getElem?_set_self (List.getElem?_eq_some_iff.mp hi).1⟩)
        rcases ha with rfl | ⟨answer, rfl, hfails⟩
        · exact Or.inl rfl
        · exact Or.inr ⟨answer, rfl, hfails workspace rfl⟩
      · left
        rw [State.move, List.getElem?_set_ne hik]
        exact hk
  | seated i answer workspace' reply hi haccepts =>
      by_cases hik : i = k
      · subst hik
        obtain rfl := Phase.seating.inj (Option.some.inj (hi.symm.trans hk))
        exact Or.inr (Or.inl (seats_of_seated answer reply hi haccepts))
      · left
        rw [State.insertMember, State.move, List.getElem?_set_ne hik]
        exact hk
  | retried i _ _ _ _ _ _ _ hi => exact Or.inl (hother i _ _ hi fun _ => nofun)
  | generated i _ _ _ _ _ _ hi => exact Or.inl (hother i _ _ hi fun _ => nofun)
  | created i _ _ hi => exact Or.inl (hother i _ _ hi fun _ => nofun)
  | checked i _ _ _ hi hold _ => exact Or.inl (hother i _ _ hi (hidle hold))
  | joined i _ _ _ hi _ => exact Or.inl (hother i _ _ hi fun _ => nofun)
  | departing i _ _ _ _ hi hold _ => exact Or.inl (hother i _ _ hi (hidle hold))
  | removed i _ _ _ hi => exact Or.inl (hother i _ _ hi fun _ => nofun)
  | permitted i _ _ _ hi hold _ => exact Or.inl (hother i _ _ hi (hidle hold))
  | deleted i _ _ hi => exact Or.inl (hother i _ _ hi fun _ => nofun)

theorem keys_of_effect {s s' : State} {a : Action} (heffect : Effect s a s')
    (h : (s.members.map (·.key)).Nodup) : (s'.members.map (·.key)).Nodup := by
  have hinsert : ∀ member, s.acceptsMember member = true →
      ((s.members ++ [member]).map (·.key)).Nodup := by
    intro member haccepts
    rw [List.map_append, List.map_singleton]
    apply List.Nodup.append h (List.nodup_singleton _)
    rw [List.disjoint_singleton, List.mem_map]
    rintro ⟨other, hother, hkey⟩
    exact (acceptsMember_iff.mp haccepts).2 other hother hkey
  cases heffect with
  | seated i answer workspace reply hi haccepts => exact hinsert _ haccepts
  | joined i answer member reply hi haccepts => exact hinsert _ haccepts
  | removed i answer workspaceId userId hi => exact h.sublist (List.filter_sublist.map _)
  | deleted i answer workspaceId hi => exact h.sublist (List.filter_sublist.map _)
  | _ => exact h

/-! ## What holds in every state -/

structure Sound (s : State) : Prop where
  rowIssued : ∀ workspace ∈ s.workspaces, workspace.id ∈ s.issued
  callIssued : ∀ k id, Creates s.calls k id → id ∈ s.issued
  alone : ∀ k k' id, Creates s.calls k id → Creates s.calls k' id → k = k'
  foreign : ∀ member ∈ s.members, ∃ workspace ∈ s.workspaces, workspace.id = member.workspaceId
  seating : ∀ (k : Nat) workspace, s.calls[k]? = some (.seating workspace) →
    ∃ row ∈ s.workspaces, row.id = workspace.id
  unseated : ∀ k id, Creates s.calls k id → ¬ Administered s id
  joining : ∀ (k : Nat) member, s.calls[k]? = some (.joining member) → member.role = "member"
  deleting : ∀ (k : Nat) id, s.calls[k]? = some (.deleting id) →
    id ∈ s.issued ∧ ∀ k', ¬ Creates s.calls k' id
  oneAdmin : ∀ member ∈ s.members, ∀ other ∈ s.members,
    member.workspaceId = other.workspaceId → member.Admin → other.Admin → member.key = other.key
  keys : (s.members.map (·.key)).Nodup

theorem sound_initial : Sound .initial where
  rowIssued := nofun
  callIssued := fun _ _ ⟨_, h, _⟩ => by cases h
  alone := fun _ _ _ ⟨_, h, _⟩ => by cases h
  foreign := nofun
  seating := nofun
  unseated := fun _ _ ⟨_, h, _⟩ => by cases h
  joining := nofun
  deleting := nofun
  oneAdmin := nofun
  keys := .nil

theorem Sound.issued_of_administered {s : State} (h : Sound s) {id : String}
    (hadmin : Administered s id) : id ∈ s.issued := by
  obtain ⟨member, hmember, hid, -⟩ := hadmin
  obtain ⟨workspace, hworkspace, hrow⟩ := h.foreign member hmember
  rw [← hid, ← hrow]
  exact h.rowIssued workspace hworkspace

/-- A workspace gets an admin from the call that creates it only. -/
theorem Sound.admin_of_effect {s s' : State} {a : Action} (h : Sound s)
    (heffect : Effect s a s') {member : WorkspaceMember} (hmember : member ∈ s'.members)
    (hadmin : member.Admin) :
    member ∈ s.members ∨ ∃ i workspace, Seats s a s' i workspace ∧ member = workspace.creator := by
  rcases member_of_effect heffect hmember with hold | hseated | ⟨i, hi, -⟩
  · exact Or.inl hold
  · exact Or.inr hseated
  · rw [WorkspaceMember.Admin, h.joining i member hi] at hadmin
    exact absurd hadmin (by decide)

section Step

variable {s s' : State} {a : Action}

theorem Sound.callIssued_step (h : Sound s) (heffect : Effect s a s') (k : Nat) (id : String)
    (hcreates : Creates s'.calls k id) : id ∈ s'.issued := by
  rcases creates_of_effect heffect hcreates with hold | ⟨-, -, hdrawn⟩
  · exact issued_of_effect heffect id (h.callIssued k id hold)
  · exact hdrawn

theorem Sound.alone_step (h : Sound s) (heffect : Effect s a s') (k k' : Nat) (id : String)
    (hk : Creates s'.calls k id) (hk' : Creates s'.calls k' id) : k = k' := by
  rcases creates_of_effect heffect hk with hold | ⟨hlength, hfresh, -⟩
  · rcases creates_of_effect heffect hk' with hold' | ⟨-, hfresh, -⟩
    · exact h.alone k k' id hold hold'
    · exact absurd (h.callIssued k id hold) hfresh
  · rcases creates_of_effect heffect hk' with hold' | ⟨hlength', -, -⟩
    · exact absurd (h.callIssued k' id hold') hfresh
    · exact hlength.trans hlength'.symm

theorem Sound.foreign_step (h : Sound s) (heffect : Effect s a s') (member : WorkspaceMember)
    (hmember : member ∈ s'.members) :
    ∃ workspace ∈ s'.workspaces, workspace.id = member.workspaceId := by
  have hbefore : ∃ workspace ∈ s.workspaces, workspace.id = member.workspaceId := by
    rcases member_of_effect heffect hmember with
      hold | ⟨i, workspace, hseats, rfl⟩ | ⟨i, -, haccepts⟩
    · exact h.foreign member hold
    · exact (acceptsMember_iff.mp hseats.accepts).1
    · exact (acceptsMember_iff.mp haccepts).1
  obtain ⟨workspace, hworkspace, hid⟩ := hbefore
  rcases workspace_kept heffect hworkspace with hkept | ⟨-, hgone⟩
  · exact ⟨workspace, hkept, hid⟩
  · exact absurd hid.symm (hgone member hmember)

theorem Sound.seating_step (h : Sound s) (heffect : Effect s a s') (k : Nat)
    (workspace : Workspace) (hk : s'.calls[k]? = some (.seating workspace)) :
    ∃ row ∈ s'.workspaces, row.id = workspace.id := by
  rcases phase_of_effect heffect hk with hkept | hentered
  · obtain ⟨row, hrow, hid⟩ := h.seating k workspace hkept
    rcases workspace_kept heffect hrow with hstays | ⟨⟨i, hi⟩, -⟩
    · exact ⟨row, hstays, hid⟩
    · exact absurd ⟨_, hkept, congrArg some hid.symm⟩ ((h.deleting i row.id hi).2 k)
  · cases hentered with
    | idle hidle => cases hidle
    | generating _ _ _ _ _ _ _ hseating => exact absurd rfl (hseating workspace)
    | created _ _ hrow => exact ⟨workspace, hrow, rfl⟩

/-- While a workspace is being created nobody is an admin of it. -/
theorem Sound.unseated_step (h : Sound s) (heffect : Effect s a s') (k : Nat) (id : String)
    (hcreates : Creates s'.calls k id) : ¬ Administered s' id := by
  rintro ⟨member, hmember, rfl, hadmin⟩
  have hbefore := creates_of_effect heffect hcreates
  rcases h.admin_of_effect heffect hmember hadmin with hold | ⟨i, workspace, hseats, rfl⟩
  · have hadministered : Administered s member.workspaceId := ⟨member, hold, rfl, hadmin⟩
    rcases hbefore with hcreating | ⟨-, hfresh, -⟩
    · exact h.unseated k _ hcreating hadministered
    · exact hfresh (h.issued_of_administered hadministered)
  · have hseating : Creates s.calls i workspace.id := ⟨_, hseats.before, rfl⟩
    rcases hbefore with hcreating | ⟨-, hfresh, -⟩
    · obtain rfl := h.alone k i workspace.id hcreating hseating
      exact hseats.after hcreates
    · exact hfresh (h.callIssued i workspace.id hseating)

theorem Sound.joining_step (h : Sound s) (heffect : Effect s a s') (k : Nat)
    (member : WorkspaceMember) (hk : s'.calls[k]? = some (.joining member)) :
    member.role = "member" := by
  rcases phase_of_effect heffect hk with hkept | hentered
  · exact h.joining k member hkept
  · cases hentered with
    | idle hidle => cases hidle
    | generating _ _ _ _ _ _ hcreates _ => cases hcreates
    | checked _ hrole => exact hrole

theorem Sound.deleting_step (h : Sound s) (heffect : Effect s a s') (k : Nat) (id : String)
    (hk : s'.calls[k]? = some (.deleting id)) :
    id ∈ s'.issued ∧ ∀ k', ¬ Creates s'.calls k' id := by
  have hbefore : id ∈ s.issued ∧ ∀ k', ¬ Creates s.calls k' id := by
    rcases phase_of_effect heffect hk with hkept | hentered
    · exact h.deleting k id hkept
    · cases hentered with
      | idle hidle => cases hidle
      | generating _ _ _ _ _ _ hcreates _ => cases hcreates
      | permitted _ hadmin =>
          exact ⟨h.issued_of_administered hadmin,
            fun k' hcreates => h.unseated k' id hcreates hadmin⟩
  refine ⟨issued_of_effect heffect id hbefore.1, fun k' hcreates => ?_⟩
  rcases creates_of_effect heffect hcreates with hold | ⟨-, hfresh, -⟩
  · exact hbefore.2 k' hold
  · exact hfresh hbefore.1

theorem Sound.oneAdmin_step (h : Sound s) (heffect : Effect s a s') (member : WorkspaceMember)
    (hmember : member ∈ s'.members) (other : WorkspaceMember) (hother : other ∈ s'.members)
    (hid : member.workspaceId = other.workspaceId) (hadmin : member.Admin)
    (hadmin' : other.Admin) : member.key = other.key := by
  rcases h.admin_of_effect heffect hmember hadmin with hold | ⟨i, workspace, hi, rfl⟩
  · rcases h.admin_of_effect heffect hother hadmin' with hold' | ⟨i, workspace, hi, rfl⟩
    · exact h.oneAdmin member hold other hold' hid hadmin hadmin'
    · exact absurd ⟨member, hold, hid, hadmin⟩ (h.unseated i workspace.id ⟨_, hi.before, rfl⟩)
  · have hcreates : Creates s.calls i workspace.id := ⟨_, hi.before, rfl⟩
    rcases h.admin_of_effect heffect hother hadmin' with hold' | ⟨j, workspace', hj, rfl⟩
    · exact absurd ⟨other, hold', hid.symm, hadmin'⟩ (h.unseated i workspace.id hcreates)
    · obtain rfl := h.alone i j workspace.id hcreates ⟨_, hj.before, congrArg some hid.symm⟩
      have hsame := hi.before.symm.trans hj.before
      obtain rfl := Phase.seating.inj (Option.some.inj hsame)
      rfl

theorem sound_step (heffect : Effect s a s') (h : Sound s) : Sound s' where
  rowIssued := by
    intro workspace hworkspace
    apply issued_of_effect heffect
    rcases workspace_of_effect heffect hworkspace with hold | ⟨i, hi, -⟩
    · exact h.rowIssued workspace hold
    · exact h.callIssued i workspace.id ⟨_, hi, rfl⟩
  callIssued := h.callIssued_step heffect
  alone := h.alone_step heffect
  foreign := h.foreign_step heffect
  seating := h.seating_step heffect
  unseated := h.unseated_step heffect
  joining := h.joining_step heffect
  deleting := h.deleting_step heffect
  oneAdmin := h.oneAdmin_step heffect
  keys := keys_of_effect heffect h.keys

end Step

theorem sound_run {toUppercase : String → String} {allowed : State → Action → Prop}
    {acts : List Action} {s : State} (hrun : Run (step toUppercase) allowed .initial acts s) :
    Sound s := by
  apply hrun.invariant ?_ sound_initial
  intro t a t' _ hstep h
  exact sound_step (effect_of_step hstep) h

end Dbmaster.Workspaces
