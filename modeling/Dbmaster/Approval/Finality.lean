import Dbmaster.Approval.AtMostOnce
/-!
# Finality of decisions

`reject_approval` writes `status = 'rejected'` whatever the row says, where the
other statements name the status or `exec_status` they leave.  While that
`UPDATE` only meets rows that nobody has claimed and no `execute_write` is
about to claim, decisions are final and the row tells what ran.
-/

namespace Dbmaster.Approval.Finality

open Dbmaster.Lib.Transition Dbmaster.Approval.Workflow Dbmaster.Approval.AtMostOnce

variable {w w' : World} {a : Action}

/-- The two status columns and what really ran on the target agree. -/
structure Agrees (w : World) : Prop where
  started : 0 < w.started → w.row.status ≠ .rejected
  pending : w.row.execStatus = .pending → w.started = 0 ∧ w.outcomes = []
  executing : w.row.execStatus = .executing →
    w.row.status = .executing ∨ w.row.status = .approved
  approved : w.row.execStatus = .approved →
    w.row.status = .approved ∧ w.outcomes = [.ok ()]
  failed : w.row.execStatus = .failed →
    w.row.status = .failed ∧ ∃ err, w.outcomes = [.error err] ∧ w.row.execError = some err

/-- Decisions on `row` are final in the runs that `allowed` admits. -/
structure Final (row : ApprovalRow) (allowed : World → Action → Prop) : Prop where
  rejected : ∀ acts w more w', RunsFrom row allowed acts w → w.row.status = .rejected →
    Run step allowed w more w' → w'.started = w.started ∧ w'.row.status = .rejected
  agrees : ∀ acts w, RunsFrom row allowed acts w → Agrees w

/-! ## The unguarded rejection -/

/-- A rejection that lands between the claim and the start of the DDL. -/
theorem rejection_not_final : CreatedBySubmit dropRequest ∧ ¬ Final dropRequest anyStep := by
  refine ⟨createdBySubmit_dropRequest, fun hfinal => ?_⟩
  have hrun : RunsFrom dropRequest anyStep
      [.approveLoad 0 false true, .approveClaim 0 true "alice" "t1",
        .reject 1 false true "t2"] _ := run_of_exec rfl
  have hmore := hfinal.rejected _ _ [.startDdl 0] _ hrun rfl (run_of_exec rfl)
  exact absurd hmore.1 (by decide)

/-! ## Rejections that meet an unclaimed row -/

/-- An `UPDATE` of `reject_approval` is admitted while `exec_status` is pending
and no `execute_write` has passed its status check. -/
def rejectsUnclaimed (w : World) : Action → Prop
  | .reject _ false true _ =>
      w.row.execStatus = .pending ∧
        ∀ i target ddl, w.calls i ≠ .loaded .executeWrite target ddl
  | _ => True

def inFlight : Call → Prop
  | .claimed _ _ _ | .running _ | .finished _ _ => True
  | _ => False

/-- What the row says about the call in flight and about what ran. -/
structure Tracked (w : World) : Prop where
  unique : ∀ i j, inFlight (w.calls i) → inFlight (w.calls j) → i = j
  inFlight_exec : ∀ i, inFlight (w.calls i) → w.row.execStatus = .executing
  running : ∀ i entry, w.calls i = .running entry → 0 < w.started ∧ w.outcomes = []
  finished : ∀ i entry outcome, w.calls i = .finished entry outcome → w.outcomes = [outcome]
  unstarted : w.started = 0 → w.outcomes = []
  executing : w.row.execStatus = .executing →
    w.row.status = .executing ∨ w.row.status = .approved
  approved : w.row.execStatus = .approved →
    w.row.status = .approved ∧ w.outcomes = [.ok ()]
  failed : w.row.execStatus = .failed →
    w.row.status = .failed ∧ ∃ err, w.outcomes = [.error err] ∧ w.row.execError = some err
  rejected : w.row.status = .rejected → w.row.execStatus = .pending
  executeLoaded : ∀ i target ddl, w.calls i = .loaded .executeWrite target ddl →
    w.row.status ≠ .rejected ∧ (w.row.execStatus = .pending → w.row.status = .approved)

theorem tracked_init (row : ApprovalRow) (hrow : row.execStatus = .pending) :
    Tracked (World.init row) where
  unique := by simp [World.init, inFlight]
  inFlight_exec := by simp [World.init, inFlight]
  running := by simp [World.init]
  finished := by simp [World.init]
  unstarted := fun _ => rfl
  executing := by simp [World.init, hrow]
  approved := by simp [World.init, hrow]
  failed := by simp [World.init, hrow]
  rejected := fun _ => hrow
  executeLoaded := by simp [World.init]

theorem Tracked.setCall {c : Call} (h : Tracked w) (i : Nat) (hc : ¬ inFlight c)
    (hloaded : ∀ target ddl, c = .loaded .executeWrite target ddl →
      w.row.status = .approved) : Tracked (w.setCall i c) := by
  have hother : ∀ j, inFlight ((w.setCall i c).calls j) →
      (w.setCall i c).calls j = w.calls j := by
    intro j hj
    rw [setCall_calls] at hj ⊢
    split_ifs at hj ⊢ with hji
    · exact absurd hj hc
    · rfl
  exact {
    unique := fun j k hj hk => h.unique j k (hother j hj ▸ hj) (hother k hk ▸ hk)
    inFlight_exec := fun j hj => h.inFlight_exec j (hother j hj ▸ hj)
    running := fun j entry hj =>
      h.running j entry ((hother j (by simp only [hj, inFlight])).symm.trans hj)
    finished := fun j entry outcome hj =>
      h.finished j entry outcome ((hother j (by simp only [hj, inFlight])).symm.trans hj)
    unstarted := h.unstarted
    executing := h.executing
    approved := h.approved
    failed := h.failed
    rejected := h.rejected
    executeLoaded := by
      intro j target ddl hj
      rw [setCall_calls] at hj
      split_ifs at hj
      · have happroved := hloaded target ddl hj
        simp [happroved]
      · exact h.executeLoaded j target ddl hj }

theorem Tracked.none_inFlight (h : Tracked w) (hexec : w.row.execStatus = .pending) (i : Nat) :
    ¬ inFlight (w.calls i) := by
  intro hi
  have := h.inFlight_exec i hi
  simp [hexec] at this

theorem Tracked.claim {i : Nat} {entry : Entry} {target ddl : String} (h : Tracked w)
    (hpending : w.row.execStatus = .pending) (hzero : w.started = 0)
    (hcalls : ∀ j, w'.calls j = if j = i then .claimed entry target ddl else w.calls j)
    (houtcomes : w'.outcomes = w.outcomes) (hexec : w'.row.execStatus = .executing)
    (hstatus : w'.row.status = .executing ∨ w'.row.status = .approved) : Tracked w' := by
  have honly : ∀ j, inFlight (w'.calls j) → j = i := by
    intro j hj
    rw [hcalls] at hj
    split_ifs at hj with hji
    · exact hji
    · exact absurd hj (h.none_inFlight hpending j)
  have hempty : w'.outcomes = [] := houtcomes.trans (h.unstarted hzero)
  have hnotRejected : w'.row.status ≠ .rejected := by
    rcases hstatus with hs | hs <;> simp [hs]
  exact {
    unique := fun j k hj hk => (honly j hj).trans (honly k hk).symm
    inFlight_exec := fun _ _ => hexec
    running := by
      intro j _ hj
      have hji := honly j (by simp only [hj, inFlight])
      simp [hcalls, hji] at hj
    finished := by
      intro j _ outcome hj
      have hji := honly j (by simp only [hj, inFlight])
      simp [hcalls, hji] at hj
    unstarted := fun _ => hempty
    executing := fun _ => hstatus
    approved := by simp [hexec]
    failed := by simp [hexec]
    rejected := fun hr => absurd hr hnotRejected
    executeLoaded := fun _ _ _ _ => ⟨hnotRejected, by simp [hexec]⟩ }

theorem Tracked.advance {i : Nat} {c : Call} (h : Tracked w) (hi : inFlight (w.calls i))
    (hc : inFlight c) (hcalls : ∀ j, w'.calls j = if j = i then c else w.calls j)
    (hrow : w'.row = w.row) (hrunning : ∀ entry, c = .running entry → w'.outcomes = [])
    (hfinished : ∀ entry outcome, c = .finished entry outcome → w'.outcomes = [outcome])
    (hstarted : 0 < w'.started) : Tracked w' := by
  have honly : ∀ j, inFlight (w'.calls j) → j = i := by
    intro j hj
    rw [hcalls] at hj
    split_ifs at hj with hji
    · exact hji
    · exact h.unique j i hj hi
  have hat : ∀ j, inFlight (w'.calls j) → w'.calls j = c := by
    intro j hj
    rw [hcalls, if_pos (honly j hj)]
  have hexec := h.inFlight_exec i hi
  exact {
    unique := fun j k hj hk => (honly j hj).trans (honly k hk).symm
    inFlight_exec := fun _ _ => hrow ▸ hexec
    running := fun j entry hj =>
      ⟨hstarted, hrunning entry ((hat j (by simp only [hj, inFlight])).symm.trans hj)⟩
    finished := fun j entry outcome hj =>
      hfinished entry outcome ((hat j (by simp only [hj, inFlight])).symm.trans hj)
    unstarted := fun hzero => absurd hzero (Nat.pos_iff_ne_zero.mp hstarted)
    executing := hrow ▸ h.executing
    approved := by simp [hrow, hexec]
    failed := by simp [hrow, hexec]
    rejected := hrow ▸ h.rejected
    executeLoaded := by
      intro j target ddl hj
      rw [hcalls] at hj
      split_ifs at hj
      · simp [hj, inFlight] at hc
      · exact hrow ▸ h.executeLoaded j target ddl hj }

theorem Tracked.writeBack {i : Nat} {entry : Entry} {outcome : Except String Unit}
    (h : Tracked w) (hcall : w.calls i = .finished entry outcome) :
    Tracked ((w.setRow (persistOutcome outcome w.row)).setCall i
      (.done (.executed outcome))) := by
  have hi : inFlight (w.calls i) := by simp only [hcall, inFlight]
  have hnone : ∀ j, ¬ inFlight (((w.setRow (persistOutcome outcome w.row)).setCall i
      (.done (.executed outcome))).calls j) := by
    intro j hj
    rw [setCall_calls] at hj
    split_ifs at hj with hji
    · exact hj
    · exact hji (h.unique j i hj hi)
  have houtcomes := h.finished i entry outcome hcall
  exact {
    unique := fun j _ hj => absurd hj (hnone j)
    inFlight_exec := fun j hj => absurd hj (hnone j)
    running := fun j _ hj => absurd (by simp only [hj, inFlight]) (hnone j)
    finished := fun j _ _ hj => absurd (by simp only [hj, inFlight]) (hnone j)
    unstarted := h.unstarted
    executing := by cases outcome <;> simp [persistOutcome]
    approved := by cases outcome <;> simp [persistOutcome, houtcomes]
    failed := by cases outcome <;> simp [persistOutcome, houtcomes]
    rejected := by cases outcome <;> simp [persistOutcome]
    executeLoaded := by cases outcome <;> simp [persistOutcome] }

theorem Tracked.reject {i : Nat} {now : String} (h : Tracked w)
    (hexec : w.row.execStatus = .pending)
    (hnone : ∀ j target ddl, w.calls j ≠ .loaded .executeWrite target ddl) :
    Tracked ((w.setRow (rejectRow now w.row)).setCall i (.done .rejected)) := by
  have hground : ∀ j, ¬ inFlight (((w.setRow (rejectRow now w.row)).setCall i
      (.done .rejected)).calls j) := by
    intro j hj
    rw [setCall_calls] at hj
    split_ifs at hj with hji
    · exact hj
    · exact h.none_inFlight hexec j hj
  exact {
    unique := fun j _ hj => absurd hj (hground j)
    inFlight_exec := fun j hj => absurd hj (hground j)
    running := fun j _ hj => absurd (by simp only [hj, inFlight]) (hground j)
    finished := fun j _ _ hj => absurd (by simp only [hj, inFlight]) (hground j)
    unstarted := h.unstarted
    executing := by simp [hexec]
    approved := by simp [hexec]
    failed := by simp [hexec]
    rejected := fun _ => hexec
    executeLoaded := by
      intro j target ddl hj
      rw [setCall_calls] at hj
      split_ifs at hj
      exact absurd hj (hnone j target ddl) }

theorem tracked_step (hallowed : rejectsUnclaimed w a) (hstep : step w a = some w')
    (hexcl : Exclusive w) (h : Tracked w) : Tracked w' := by
  cases effect_of_step hstep with
  | answered i reply => exact h.setCall i id (by simp)
  | lost i => exact h.setCall i id (by simp)
  | approveLoaded i hstatus => exact h.setCall i id (by simp)
  | executeLoaded i sub hstatus => exact h.setCall i id (fun _ _ _ => hstatus)
  | approveClaimed i sub now target ddl hcall hstatus =>
      obtain ⟨hs, he⟩ := claimApproval_of_pending sub now w.row hstatus
      have hpending := hexcl.pending_exec hstatus
      exact h.claim hpending (hexcl.unclaimed hpending).1 (setCall_calls _ i · _) rfl he
        (.inl hs)
  | executeClaimed i now target ddl hcall hexec =>
      obtain ⟨hs, he⟩ := claimExecution_of_pending now w.row hexec
      have happroved := (h.executeLoaded i target ddl hcall).2 hexec
      exact h.claim hexec (hexcl.unclaimed hexec).1 (setCall_calls _ i · _) rfl he
        (.inr (hs.trans happroved))
  | started i entry target ddl hcall =>
      have houtcomes := h.unstarted (hexcl.claimed_unstarted i entry target ddl hcall)
      exact h.advance (i := i) (c := .running entry) (by simp only [hcall, inFlight]) trivial
        (setCall_calls w i · _) rfl (fun _ _ => houtcomes) (by simp) (Nat.succ_pos _)
  | ended i entry outcome hcall =>
      obtain ⟨hstarted, houtcomes⟩ := h.running i entry hcall
      refine h.advance (i := i) (c := .finished entry outcome)
        (by simp only [hcall, inFlight]) trivial (setCall_calls w i · _) rfl (by simp)
        ?_ hstarted
      intro entry' outcome' hc
      cases hc
      simp [houtcomes]
  | wroteBack i entry outcome hcall => exact h.writeBack hcall
  | rejected i now => exact h.reject hallowed.1 hallowed.2

/-! ## Runs -/

/-- Both invariants, along every run whose rejections meet unclaimed rows. -/
theorem tracked_run {row : ApprovalRow} {acts : List Action}
    (hrow : row.execStatus = .pending) (hrun : RunsFrom row rejectsUnclaimed acts w) :
    Exclusive w ∧ Tracked w :=
  Run.invariant (I := fun w => Exclusive w ∧ Tracked w)
    (fun _ _ _ hallowed hstep h =>
      ⟨exclusive_step hstep h.1, tracked_step hallowed hstep h.1 h.2⟩)
    hrun ⟨exclusive_init row hrow, tracked_init row hrow⟩

theorem agrees_of_tracked (hexcl : Exclusive w) (h : Tracked w) : Agrees w where
  started := by
    intro hstarted hrejected
    have := (hexcl.unclaimed (h.rejected hrejected)).1
    omega
  pending := fun hexec =>
    ⟨(hexcl.unclaimed hexec).1, h.unstarted (hexcl.unclaimed hexec).1⟩
  executing := h.executing
  approved := h.approved
  failed := h.failed

theorem rejected_step (hstep : step w a = some w') (h : Tracked w)
    (hrejected : w.row.status = .rejected) :
    w'.started = w.started ∧ w'.row.status = .rejected := by
  have hexec := h.rejected hrejected
  have hground := h.none_inFlight hexec
  cases effect_of_step hstep with
  | answered i reply => exact ⟨rfl, hrejected⟩
  | lost i => exact ⟨rfl, hrejected⟩
  | approveLoaded i hstatus => exact ⟨rfl, hrejected⟩
  | executeLoaded i sub hstatus => exact ⟨rfl, hrejected⟩
  | approveClaimed i sub now target ddl hcall hstatus => simp [hrejected] at hstatus
  | executeClaimed i now target ddl hcall _ =>
      exact absurd hrejected (h.executeLoaded i target ddl hcall).1
  | started i entry target ddl hcall =>
      exact absurd (by simp only [hcall, inFlight]) (hground i)
  | ended i entry outcome hcall =>
      exact absurd (by simp only [hcall, inFlight]) (hground i)
  | wroteBack i entry outcome hcall =>
      exact absurd (by simp only [hcall, inFlight]) (hground i)
  | rejected i now => exact ⟨rfl, rfl⟩

/-- Decisions are final, and the row tells what ran, in every interleaving in
which no rejection meets a claimed row or one an `execute_write` is about to
claim. -/
theorem decisions_final {row : ApprovalRow}
    (hrow : CreatedBySubmit row ∨ row.execStatus = .pending) :
    Final row rejectsUnclaimed := by
  have hexec : row.execStatus = .pending := by
    rcases hrow with hsubmit | hexec
    · exact (createdBySubmit_pending hsubmit).2
    · exact hexec
  constructor
  · intro acts w more w' hrun hrejected hmore
    obtain ⟨hexcl, htracked⟩ := tracked_run hexec hrun
    have hpres : ∀ s a t, rejectsUnclaimed s a → step s a = some t →
        (Exclusive s ∧ Tracked s ∧ s.started = w.started ∧ s.row.status = .rejected) →
        Exclusive t ∧ Tracked t ∧ t.started = w.started ∧ t.row.status = .rejected := by
      rintro s a t hallowed hstep ⟨hs, hs', hsame, hrej⟩
      obtain ⟨hstarted, hstatus⟩ := rejected_step hstep hs' hrej
      exact ⟨exclusive_step hstep hs, tracked_step hallowed hstep hs hs',
        hstarted.trans hsame, hstatus⟩
    exact (Run.invariant hpres hmore ⟨hexcl, htracked, rfl, hrejected⟩).2.2
  · intro acts w hrun
    obtain ⟨hexcl, htracked⟩ := tracked_run hexec hrun
    exact agrees_of_tracked hexcl htracked

/-- In particular for a submitted row. -/
theorem decisions_final_dropRequest : Final dropRequest rejectsUnclaimed :=
  decisions_final (.inl createdBySubmit_dropRequest)

end Dbmaster.Approval.Finality
