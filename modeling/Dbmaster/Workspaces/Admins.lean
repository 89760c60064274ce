import Dbmaster.Workspaces.Steps
import Mathlib.Data.Finset.Card
/-!
# An admin in every workspace

`create_workspace` inserts the workspace and its first admin in two statements without a
transaction.  Where the second follows the first, every workspace has an admin whatever
the other calls do; where it does not, the workspace never gets one.
-/

namespace Dbmaster.Workspaces

open Dbmaster.Lib.Transition

/-! ## What should hold -/

/-- No call is creating a workspace. -/
def State.Quiet (s : State) : Prop := ∀ phase ∈ s.calls, phase.creates = none

def AlwaysAdministered (toUppercase : String → String) (allowed : State → Action → Prop) : Prop :=
  ∀ acts s, Run (step toUppercase) allowed .initial acts s → s.Quiet →
    ∀ workspace ∈ s.workspaces, Administered s workspace.id

/-- The INSERT that makes the creator an admin is executed, while the creator is no member
and no call is about to delete the creator's membership. -/
def SeatsCreator (s : State) : Action → Prop
  | .call _ => True
  | .drop i => ∀ workspace, s.calls[i]? ≠ some (.seating workspace)
  | .statement i answer => ∀ workspace, s.calls[i]? = some (.seating workspace) →
      answer.ok = true ∧ (∀ member ∈ s.members, member.key ≠ workspace.creator.key) ∧
        ∀ k : Nat, s.calls[k]? ≠ some (.removing workspace.id workspace.ownerId)

/-! ## The invariant -/

structure Manned (s : State) : Prop where
  admin : ∀ workspace ∈ s.workspaces, Administered s workspace.id ∨
    ∃ (k : Nat) (creating : Workspace), s.calls[k]? = some (.seating creating) ∧
      creating.id = workspace.id
  removing : ∀ (k : Nat) workspaceId userId,
    s.calls[k]? = some (.removing workspaceId userId) →
      ∀ member ∈ s.members, member.key = (workspaceId, userId) → ¬ member.Admin

theorem Sound.adminCount_le_one {s : State} (h : Sound s) (workspaceId : String) :
    adminCount s.members workspaceId ≤ 1 := by
  rw [adminCount, List.countP_eq_length_filter, ← List.length_map (·.key),
    ← List.toFinset_card_of_nodup (h.keys.sublist (List.filter_sublist.map _))]
  apply Finset.card_le_one.mpr
  intro key hkey key' hkey'
  obtain ⟨member, hmember, rfl⟩ := List.mem_map.mp (List.mem_toFinset.mp hkey)
  obtain ⟨other, hother, rfl⟩ := List.mem_map.mp (List.mem_toFinset.mp hkey')
  obtain ⟨hin, hadmin⟩ := List.mem_filter.mp hmember
  obtain ⟨hin', hadmin'⟩ := List.mem_filter.mp hother
  obtain ⟨hid, hrole⟩ := of_decide_eq_true hadmin
  obtain ⟨hid', hrole'⟩ := of_decide_eq_true hadmin'
  exact h.oneAdmin member hin other hin' (hid.trans hid'.symm) hrole hrole'

section Step

variable {s s' : State} {a : Action}

theorem SeatsCreator.not_abandons (hallowed : SeatsCreator s a) (h : Sound s) {k : Nat}
    {workspace : Workspace} (hk : s.calls[k]? = some (.seating workspace)) :
    ¬ Abandons s a k workspace := by
  rintro (rfl | ⟨answer, rfl, hfails⟩)
  · exact hallowed workspace hk
  · obtain ⟨hok, hkeys, -⟩ := hallowed workspace hk
    rcases hfails with hfailed | hrefused
    · rw [hok] at hfailed
      cases hfailed
    · have haccepts := acceptsMember_iff.mpr ⟨h.seating k workspace hk, hkeys⟩
      rw [haccepts] at hrefused
      cases hrefused

theorem Manned.admin_step (heffect : Effect s a s') (hallowed : SeatsCreator s a)
    (hsound : Sound s) (h : Manned s) (workspace : Workspace)
    (hworkspace : workspace ∈ s'.workspaces) : Administered s' workspace.id ∨
      ∃ (k : Nat) (creating : Workspace), s'.calls[k]? = some (.seating creating) ∧
        creating.id = workspace.id := by
  rcases workspace_of_effect heffect hworkspace with hold | ⟨i, -, hi⟩
  · rcases h.admin workspace hold with ⟨member, hmember, hid, hadmin⟩ | ⟨k, creating, hk, hid⟩
    · rcases member_kept heffect hmember with hkept | ⟨i, hi⟩ | hgone
      · exact Or.inl ⟨member, hkept, hid, hadmin⟩
      · exact absurd hadmin (h.removing i _ _ hi member hmember rfl)
      · exact absurd hid.symm (hgone workspace hworkspace)
    · rcases seating_kept heffect hk with hkept | hseats | ⟨habandons, -⟩
      · exact Or.inr ⟨k, creating, hkept, hid⟩
      · exact Or.inl ⟨creating.creator, hseats.row, hid, rfl⟩
      · exact absurd habandons (hallowed.not_abandons hsound hk)
  · exact Or.inr ⟨i, workspace, hi, rfl⟩

/-- A role that was not `admin` when it was read does not become so. -/
theorem Manned.removing_step (heffect : Effect s a s') (hallowed : SeatsCreator s a)
    (hsound : Sound s) (h : Manned s) (k : Nat) (workspaceId userId : String)
    (hk : s'.calls[k]? = some (.removing workspaceId userId)) (member : WorkspaceMember)
    (hmember : member ∈ s'.members) (hkey : member.key = (workspaceId, userId)) :
    ¬ member.Admin := by
  intro hadmin
  have horigin := hsound.admin_of_effect heffect hmember hadmin
  rcases phase_of_effect heffect hk with hkept | hentered
  · rcases horigin with hold | ⟨i, workspace, hseats, rfl⟩
    · exact h.removing k workspaceId userId hkept member hold hkey hadmin
    · obtain ⟨answer, rfl⟩ := hseats.statement
      obtain ⟨rfl, rfl⟩ := Prod.mk.inj hkey
      exact (hallowed workspace hseats.before).2.2 k hkept
  · cases hentered with
    | idle hidle => cases hidle
    | generating _ _ _ _ _ _ hcreates _ => cases hcreates
    | departing _ _ hremovable =>
        rcases hremovable with ⟨role, hrole, hne⟩ | hcount
        · obtain ⟨other, hother, hkey', rfl⟩ := member_of_roleOf hrole
          have hsame : member.key = other.key := hkey.trans hkey'.symm
          rcases horigin with hold | ⟨i, workspace, hseats, rfl⟩
          · obtain rfl := List.inj_on_of_nodup_map hsound.keys hold hother hsame
            exact hne hadmin
          · exact (acceptsMember_iff.mp hseats.accepts).2 other hother hsame.symm
        · exact absurd (hsound.adminCount_le_one workspaceId) (by omega)

theorem manned_step (heffect : Effect s a s') (hallowed : SeatsCreator s a) (hsound : Sound s)
    (h : Manned s) : Manned s' :=
  ⟨h.admin_step heffect hallowed hsound, h.removing_step heffect hallowed hsound⟩

end Step

/-! ## Every run -/

theorem manned_run {toUppercase : String → String} {acts : List Action} {s : State}
    (hrun : Run (step toUppercase) SeatsCreator .initial acts s) : Sound s ∧ Manned s := by
  apply hrun.invariant (I := fun s => Sound s ∧ Manned s) ?_ ⟨sound_initial, nofun, nofun⟩
  intro t a t' hallowed hstep ⟨hsound, h⟩
  have heffect := effect_of_step hstep
  exact ⟨sound_step heffect hsound, manned_step heffect hallowed hsound h⟩

theorem alwaysAdministered_of_seatsCreator (toUppercase : String → String) :
    AlwaysAdministered toUppercase SeatsCreator := by
  intro acts s hrun hquiet workspace hworkspace
  obtain ⟨-, hmanned⟩ := manned_run hrun
  rcases hmanned.admin workspace hworkspace with hadmin | ⟨k, creating, hk, -⟩
  · exact hadmin
  · cases hquiet _ (List.mem_of_getElem? hk)

/-! ## A creation that is abandoned -/

/-- A workspace that nobody can administer or delete. -/
structure Orphaned (s : State) (id : String) : Prop where
  row : ∃ workspace ∈ s.workspaces, workspace.id = id
  admin : ¬ Administered s id
  creates : ∀ k, ¬ Creates s.calls k id
  deleting : ∀ k : Nat, s.calls[k]? ≠ some (.deleting id)

theorem orphaned_of_not_seats {s s' : State} {a : Action} (heffect : Effect s a s')
    (h : Sound s) {k : Nat} {workspace : Workspace}
    (hk : s.calls[k]? = some (.seating workspace))
    (hends : s'.calls[k]? ≠ some (.seating workspace)) (hnot : ¬ Seats s a s' k workspace) :
    Orphaned s' workspace.id := by
  have hcreates : Creates s.calls k workspace.id := ⟨_, hk, rfl⟩
  rcases seating_kept heffect hk with hkept | hseats | ⟨-, hworkspaces, phase, hidle, hphase⟩
  · exact absurd hkept hends
  · exact absurd hseats hnot
  · constructor
    · rw [hworkspaces]
      exact h.seating k workspace hk
    · rintro ⟨member, hmember, hid, hadmin⟩
      rcases h.admin_of_effect heffect hmember hadmin with hold | ⟨i, other, hseats, rfl⟩
      · exact h.unseated k workspace.id hcreates ⟨member, hold, hid, hadmin⟩
      · obtain rfl := h.alone i k workspace.id ⟨_, hseats.before, congrArg some hid⟩ hcreates
        have hsame := hseats.before.symm.trans hk
        obtain rfl := Phase.seating.inj (Option.some.inj hsame)
        exact hnot hseats
    · intro k' hk'
      rcases creates_of_effect heffect hk' with hold | ⟨-, hfresh, -⟩
      · obtain rfl := h.alone k' k workspace.id hold hcreates
        obtain ⟨phase', hphase', hcreating⟩ := hk'
        obtain rfl := Option.some.inj (hphase.symm.trans hphase')
        rw [hidle.creates] at hcreating
        cases hcreating
      · exact hfresh (h.callIssued k workspace.id hcreates)
    · intro k' hk'
      rcases phase_of_effect heffect hk' with hkept | hentered
      · exact (h.deleting k' workspace.id hkept).2 k hcreates
      · cases hentered with
        | idle hidle => cases hidle
        | generating _ _ _ _ _ _ hcreating _ => cases hcreating
        | permitted _ hadmin => exact h.unseated k workspace.id hcreates hadmin

theorem orphaned_step {s s' : State} {a : Action} (heffect : Effect s a s') (hsound : Sound s)
    {id : String} (h : Orphaned s id) : Orphaned s' id := by
  obtain ⟨workspace, hworkspace, rfl⟩ := h.row
  have hissued := hsound.rowIssued workspace hworkspace
  constructor
  · rcases workspace_kept heffect hworkspace with hkept | ⟨⟨i, hi⟩, -⟩
    · exact ⟨workspace, hkept, rfl⟩
    · exact absurd hi (h.deleting i)
  · rintro ⟨member, hmember, hid, hadmin⟩
    rcases hsound.admin_of_effect heffect hmember hadmin with hold | ⟨i, creating, hseats, rfl⟩
    · exact h.admin ⟨member, hold, hid, hadmin⟩
    · exact h.creates i ⟨_, hseats.before, congrArg some hid⟩
  · intro k hcreates
    rcases creates_of_effect heffect hcreates with hold | ⟨-, hfresh, -⟩
    · exact h.creates k hold
    · exact hfresh hissued
  · intro k hk
    rcases phase_of_effect heffect hk with hkept | hentered
    · exact h.deleting k hkept
    · cases hentered with
      | idle hidle => cases hidle
      | generating _ _ _ _ _ _ hcreates _ => cases hcreates
      | permitted _ hadmin => exact h.admin hadmin

theorem orphaned_run {toUppercase : String → String} {acts : List Action} {s t : State}
    (hrun : Run (step toUppercase) anyStep s acts t) (hsound : Sound s) {id : String}
    (h : Orphaned s id) : Orphaned t id := by
  have hboth : Sound t ∧ Orphaned t id := by
    apply hrun.invariant (I := fun s => Sound s ∧ Orphaned s id) ?_ ⟨hsound, h⟩
    intro u a u' _ hstep ⟨husound, huorphaned⟩
    have heffect := effect_of_step hstep
    exact ⟨sound_step heffect husound, orphaned_step heffect husound huorphaned⟩
  exact hboth.2

/-- Whatever is done before and afterwards. -/
theorem orphaned_for_good {toUppercase : String → String} {acts acts' : List Action}
    {s s' t : State} {a : Action} (hrun : Run (step toUppercase) anyStep .initial acts s)
    (hstep : step toUppercase s a = some s') (hrest : Run (step toUppercase) anyStep s' acts' t)
    {k : Nat} {workspace : Workspace} (hk : s.calls[k]? = some (.seating workspace))
    (hends : s'.calls[k]? ≠ some (.seating workspace)) (hnot : ¬ Seats s a s' k workspace) :
    Orphaned t workspace.id := by
  have hsound := sound_run hrun
  have heffect := effect_of_step hstep
  have horphaned := orphaned_of_not_seats heffect hsound hk hends hnot
  exact orphaned_run hrest (sound_step heffect hsound) horphaned

/-- A call that is dropped between its two INSERTs. -/
def halfCreated : List Action :=
  [.call (.create "ann" "Team" "w1" "2026-01-01T00:00:00+00:00"),
    .statement 0 ⟨true, "2026-01-01T00:00:01+00:00", "ABCDEF"⟩,
    .statement 0 ⟨true, "2026-01-01T00:00:01+00:00", ""⟩, .drop 0]

theorem halfCreated_orphans : ¬ AlwaysAdministered id anyStep := by
  intro halways
  have hrun : ∃ s workspace, exec (step id) .initial halfCreated = some s ∧
      s.workspaces = [workspace] ∧ s.members = [] ∧ s.calls = [.ended none] :=
    ⟨_, _, rfl, rfl, rfl, rfl⟩
  obtain ⟨s, workspace, hexec, hworkspaces, hmembers, hcalls⟩ := hrun
  have hquiet : s.Quiet := by
    intro phase hphase
    rw [hcalls] at hphase
    obtain rfl := List.mem_singleton.mp hphase
    rfl
  have hrow : workspace ∈ s.workspaces := by
    rw [hworkspaces]
    exact List.mem_cons_self
  obtain ⟨member, hmember, -⟩ := halways _ s (run_of_exec hexec) hquiet workspace hrow
  rw [hmembers] at hmember
  cases hmember

end Dbmaster.Workspaces
