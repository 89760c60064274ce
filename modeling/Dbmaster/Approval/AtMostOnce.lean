import Dbmaster.Approval.Workflow
import Mathlib.Tactic.ByContra
/-!
# One execution for each approval

`approve_approval` claims on `status`, `execute_write` on `exec_status`.  Both
claims end `exec_status = 'pending'`, which no statement ever restores, and a
pending `status` is never seen with a claimed `exec_status`; so the two locks
exclude each other, whatever rejections and write-backs come in between.
-/

namespace Dbmaster.Approval.AtMostOnce

open Dbmaster.Lib.Transition Dbmaster.Approval.Workflow

variable {w w' : World} {a : Action}

/-- The joint invariant of both status columns and the calls in flight. -/
structure Exclusive (w : World) : Prop where
  claimed_unstarted : ∀ i entry target ddl,
    w.calls i = .claimed entry target ddl → w.started = 0
  claimed_unique : ∀ i j entry entry' target target' ddl ddl',
    w.calls i = .claimed entry target ddl → w.calls j = .claimed entry' target' ddl' → i = j
  started_le : w.started ≤ 1
  unclaimed : w.row.execStatus = .pending →
    w.started = 0 ∧ ∀ i entry target ddl, w.calls i ≠ .claimed entry target ddl
  pending_exec : w.row.status = .pending → w.row.execStatus = .pending
  executeLoaded_status : ∀ i target ddl,
    w.calls i = .loaded .executeWrite target ddl → w.row.status ≠ .pending

theorem exclusive_init (row : ApprovalRow) (hrow : row.execStatus = .pending) :
    Exclusive (World.init row) where
  claimed_unstarted := by simp [World.init]
  claimed_unique := by simp [World.init]
  started_le := by simp [World.init]
  unclaimed := by simp [World.init]
  pending_exec := fun _ => hrow
  executeLoaded_status := by simp [World.init]

/-- A step that claims nothing and starts nothing, and makes neither column
pending again, keeps the invariant. -/
theorem Exclusive.frame {i : Nat} {c : Call} (h : Exclusive w)
    (hcalls : ∀ j, w'.calls j = if j = i then c else w.calls j)
    (hstarted : w'.started = w.started)
    (hexec : w'.row.execStatus = w.row.execStatus ∨ w'.row.execStatus ≠ .pending)
    (hstatus : w'.row.status = w.row.status ∨ w'.row.status ≠ .pending)
    (hboth : w'.row.execStatus ≠ .pending → w'.row.status ≠ .pending ∨
      w'.row.execStatus = w.row.execStatus)
    (hclaimed : ∀ entry target ddl, c ≠ .claimed entry target ddl)
    (hloaded : ∀ target ddl, c = .loaded .executeWrite target ddl →
      w'.row.status ≠ .pending) : Exclusive w' where
  claimed_unstarted := by
    intro j entry target ddl hj
    rw [hcalls] at hj
    split_ifs at hj with hji
    · exact absurd hj (hclaimed _ _ _)
    · rw [hstarted]
      exact h.claimed_unstarted j entry target ddl hj
  claimed_unique := by
    intro j k entry entry' target target' ddl ddl' hj hk
    rw [hcalls] at hj hk
    split_ifs at hj with hji
    · exact absurd hj (hclaimed _ _ _)
    split_ifs at hk with hki
    · exact absurd hk (hclaimed _ _ _)
    exact h.claimed_unique j k _ _ _ _ _ _ hj hk
  started_le := by
    rw [hstarted]
    exact h.started_le
  unclaimed := by
    intro hpending
    have hbefore : w.row.execStatus = .pending := by
      rcases hexec with heq | hne
      · rw [← heq]
        exact hpending
      · exact absurd hpending hne
    obtain ⟨hzero, hnone⟩ := h.unclaimed hbefore
    refine ⟨hstarted.trans hzero, ?_⟩
    intro j entry target ddl hj
    rw [hcalls] at hj
    split_ifs at hj with hji
    · exact hclaimed _ _ _ hj
    · exact hnone j entry target ddl hj
  pending_exec := by
    intro hpending
    by_contra hne
    rcases hboth hne with hsettled | heq
    · exact hsettled hpending
    · rcases hstatus with hsame | hmoved
      · rw [hsame] at hpending
        exact hne (heq.trans (h.pending_exec hpending))
      · exact hmoved hpending
  executeLoaded_status := by
    intro j target ddl hj
    rw [hcalls] at hj
    split_ifs at hj with hji
    · exact hloaded target ddl hj
    · rcases hstatus with hsame | hmoved
      · rw [hsame]
        exact h.executeLoaded_status j target ddl hj
      · exact hmoved

theorem Exclusive.claim {i : Nat} {entry : Entry} {target ddl : String} (h : Exclusive w)
    (hpending : w.row.execStatus = .pending)
    (hcalls : ∀ j, w'.calls j = if j = i then .claimed entry target ddl else w.calls j)
    (hstarted : w'.started = w.started) (hexec : w'.row.execStatus ≠ .pending)
    (hstatus : w'.row.status ≠ .pending) : Exclusive w' := by
  obtain ⟨hzero, hnone⟩ := h.unclaimed hpending
  have honly : ∀ j e t d, w'.calls j = .claimed e t d → j = i := by
    intro j e t d hj
    rw [hcalls] at hj
    split_ifs at hj with hji
    · exact hji
    · exact absurd hj (hnone j e t d)
  exact {
    claimed_unstarted := fun _ _ _ _ _ => hstarted.trans hzero
    claimed_unique := fun j k _ _ _ _ _ _ hj hk =>
      (honly j _ _ _ hj).trans (honly k _ _ _ hk).symm
    started_le := by omega
    unclaimed := fun hp => absurd hp hexec
    pending_exec := fun hp => absurd hp hstatus
    executeLoaded_status := fun _ _ _ _ => hstatus }

theorem Exclusive.start {i : Nat} {entry : Entry} {target ddl : String} (h : Exclusive w)
    (hcall : w.calls i = .claimed entry target ddl) :
    Exclusive { w.setCall i (.running entry) with started := w.started + 1 } := by
  have hzero := h.claimed_unstarted i entry target ddl hcall
  have hexec : w.row.execStatus ≠ .pending := fun hp =>
    (h.unclaimed hp).2 i entry target ddl hcall
  have hnone : ∀ j e t d, (w.setCall i (.running entry)).calls j ≠ .claimed e t d := by
    intro j e t d hj
    rw [setCall_calls] at hj
    split_ifs at hj with hji
    exact hji (h.claimed_unique j i _ _ _ _ _ _ hj hcall)
  exact {
    claimed_unstarted := fun j e t d hj => absurd hj (hnone j e t d)
    claimed_unique := fun j _ e _ t _ d _ hj => absurd hj (hnone j e t d)
    started_le := by simp [hzero]
    unclaimed := fun hp => absurd hp hexec
    pending_exec := h.pending_exec
    executeLoaded_status := by
      intro j t d hj
      simp only [setCall_calls] at hj
      split_ifs at hj
      exact h.executeLoaded_status j t d hj }

theorem exclusive_step (hstep : step w a = some w') (h : Exclusive w) : Exclusive w' := by
  cases effect_of_step hstep with
  | answered i reply =>
      exact h.frame (setCall_calls w i · _) rfl (.inl rfl) (.inl rfl) (by simp) (by simp)
        (by simp)
  | lost i =>
      exact h.frame (setCall_calls w i · _) rfl (.inl rfl) (.inl rfl) (by simp) (by simp)
        (by simp)
  | approveLoaded i hstatus =>
      exact h.frame (setCall_calls w i · _) rfl (.inl rfl) (.inl rfl) (by simp) (by simp)
        (by simp)
  | executeLoaded i sub hstatus =>
      exact h.frame (setCall_calls w i · _) rfl (.inl rfl) (.inl rfl) (by simp) (by simp)
        (by simp [hstatus])
  | approveClaimed i sub now target ddl hcall hstatus =>
      obtain ⟨hs, he⟩ := claimApproval_of_pending sub now w.row hstatus
      exact h.claim (h.pending_exec hstatus) (setCall_calls _ i · _) rfl
        (by simp [he]) (by simp [hs])
  | executeClaimed i now target ddl hcall hexec =>
      obtain ⟨hs, he⟩ := claimExecution_of_pending now w.row hexec
      have hstatus := h.executeLoaded_status i target ddl hcall
      exact h.claim hexec (setCall_calls _ i · _) rfl (by simp [he]) (by simpa [hs])
  | started i entry target ddl hcall => exact h.start hcall
  | ended i entry outcome hcall =>
      exact h.frame (setCall_calls w i · _) rfl (.inl rfl) (.inl rfl) (by simp) (by simp)
        (by simp)
  | wroteBack i entry outcome hcall =>
      exact h.frame (setCall_calls _ i · _) rfl (.inr (by simp)) (.inr (by simp)) (by simp)
        (by simp) (by simp)
  | rejected i now =>
      exact h.frame (setCall_calls _ i · _) rfl (.inl (by simp)) (.inr (by simp)) (by simp)
        (by simp) (by simp)

theorem exclusive_run {row : ApprovalRow} {acts : List Action}
    (hrow : row.execStatus = .pending) (hrun : RunsFrom row anyStep acts w) : Exclusive w :=
  Run.invariant (fun _ _ _ _ hstep => exclusive_step hstep) hrun (exclusive_init row hrow)

/-! ## The human gate -/

/-- Past the claim, or about to claim through `execute_write`. -/
def beyondGate : Call → Prop
  | .loaded .executeWrite _ _ | .claimed _ _ _ | .running _ | .finished _ _ => True
  | _ => False

/-- Until an approve claim succeeds nothing but a rejection can happen to a
submitted row. -/
structure Gate (w : World) : Prop where
  status : w.approveClaims = 0 → w.row.status = .pending ∨ w.row.status = .rejected
  calls : w.approveClaims = 0 → ∀ i, ¬ beyondGate (w.calls i)
  started : w.approveClaims = 0 → w.started = 0

theorem gate_init (row : ApprovalRow) (hrow : row.status = .pending) :
    Gate (World.init row) where
  status := fun _ => .inl hrow
  calls := by simp [World.init, beyondGate]
  started := fun _ => rfl

theorem Gate.setCall {i : Nat} {c : Call} (h : Gate w)
    (hcalls : ∀ j, w'.calls j = if j = i then c else w.calls j)
    (hstatus : w'.row.status = w.row.status ∨ w'.row.status = .rejected)
    (hclaims : w'.approveClaims = w.approveClaims) (hstarted : w'.started = w.started)
    (hc : ¬ beyondGate c) : Gate w' where
  status := by
    intro hzero
    rcases hstatus with heq | hrejected
    · rw [heq]
      exact h.status (hclaims ▸ hzero)
    · exact .inr hrejected
  calls := by
    intro hzero j
    rw [hcalls]
    split_ifs with hji
    · exact hc
    · exact h.calls (hclaims ▸ hzero) j
  started := fun hzero => hstarted.trans (h.started (hclaims ▸ hzero))

theorem Gate.opened (h : Gate w) {i : Nat} (hi : beyondGate (w.calls i)) :
    w.approveClaims ≠ 0 :=
  fun hzero => h.calls hzero i hi

theorem Gate.of_opened (h : w.approveClaims ≠ 0) : Gate w where
  status := fun hzero => absurd hzero h
  calls := fun hzero => absurd hzero h
  started := fun hzero => absurd hzero h

theorem gate_step (hstep : step w a = some w') (h : Gate w) : Gate w' := by
  cases effect_of_step hstep with
  | answered i reply =>
      exact h.setCall (setCall_calls w i · _) (.inl rfl) rfl rfl id
  | lost i => exact h.setCall (setCall_calls w i · _) (.inl rfl) rfl rfl id
  | approveLoaded i hstatus =>
      exact h.setCall (setCall_calls w i · _) (.inl rfl) rfl rfl id
  | executeLoaded i sub hstatus =>
      refine Gate.of_opened fun hzero => ?_
      rcases h.status hzero with hpending | hrejected
      · simp [hpending] at hstatus
      · simp [hrejected] at hstatus
  | approveClaimed i sub now target ddl hcall hstatus =>
      exact Gate.of_opened (Nat.succ_ne_zero _)
  | executeClaimed i now target ddl hcall hexec =>
      exact Gate.of_opened (h.opened (i := i) (by simp [hcall, beyondGate]))
  | started i entry target ddl hcall =>
      exact Gate.of_opened (h.opened (i := i) (by simp [hcall, beyondGate]))
  | ended i entry outcome hcall =>
      exact Gate.of_opened (h.opened (i := i) (by simp [hcall, beyondGate]))
  | wroteBack i entry outcome hcall =>
      exact Gate.of_opened (h.opened (i := i) (by simp [hcall, beyondGate]))
  | rejected i now =>
      exact h.setCall (setCall_calls _ i · _) (.inr rfl) rfl rfl id

theorem gate_run {row : ApprovalRow} {acts : List Action} (hrow : row.status = .pending)
    (hrun : RunsFrom row anyStep acts w) : Gate w :=
  Run.invariant (fun _ _ _ _ hstep => gate_step hstep) hrun (gate_init row hrow)

/-- For a submitted row, or a legacy row of any status, the DDL is started at
most once in every interleaving; a submitted row's only after an approve claim. -/
theorem ddl_started_at_most_once {row : ApprovalRow} {acts : List Action}
    (hrow : CreatedBySubmit row ∨ row.execStatus = .pending)
    (hrun : RunsFrom row anyStep acts w) :
    w.started ≤ 1 ∧ (CreatedBySubmit row → 0 < w.started → 0 < w.approveClaims) := by
  constructor
  · have hexec : row.execStatus = .pending := by
      rcases hrow with hsubmit | hexec
      · exact (createdBySubmit_pending hsubmit).2
      · exact hexec
    exact (exclusive_run hexec hrun).started_le
  · intro hsubmit hstarted
    have hgate := gate_run (createdBySubmit_pending hsubmit).1 hrun
    by_contra hnone
    have hzero : w.approveClaims = 0 := by omega
    have := hgate.started hzero
    omega

/-- Two reviewers race; the winner's task runs the DDL, and the loser's
retry through `execute_write` finds the row executed. -/
def racingApprovals : List Action :=
  [.approveLoad 0 false true, .approveLoad 1 false true,
    .approveClaim 0 true "alice" "t1", .approveClaim 1 true "bob" "t1", .startDdl 0,
    .finishDdl 0 (.ok ()), .writeBack 0 true, .executeLoad 2 false true "dev",
    .executeClaim 2 true true "t2", .currentExecState 2 true]

theorem ddl_started_at_most_once_racing :
    ∃ w, RunsFrom dropRequest anyStep racingApprovals w ∧ w.started ≤ 1 ∧
      0 < w.started ∧ 0 < w.approveClaims := by
  have hrun : RunsFrom dropRequest anyStep racingApprovals _ := run_of_exec rfl
  obtain ⟨hle, hgate⟩ := ddl_started_at_most_once (.inl createdBySubmit_dropRequest) hrun
  exact ⟨_, hrun, hle, by decide, hgate createdBySubmit_dropRequest (by decide)⟩

end Dbmaster.Approval.AtMostOnce
