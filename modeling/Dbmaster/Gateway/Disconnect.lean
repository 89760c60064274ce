import Dbmaster.Gateway.Delivery
/-!
# The loop after the client is gone

A send to a closed channel fails at once and leaves the meta or the batch where it is, so
the branch that sends is taken again on the next turn.
-/

namespace Dbmaster.Gateway.Disconnect

open Dbmaster.Lib.Transition Dbmaster.Gateway.Stream

/-! ## The turns of the loop -/

/-- The branch that the select of the loop takes; none while all of them wait. -/
inductive Branch
  | interrupt (e : StreamQueryError)
  | reserve
  | next

def selected (req : Request) (w : World) (s : LoopState) (ready : Bool) : Option Branch :=
  match w.interrupted req.timeoutSecs with
  | some e => some (.interrupt e)
  | none =>
    if (s.metaPending.isSome || batchSize ≤ s.batch.length) &&
        (w.chan.closed || w.chan.hasRoom) then some .reserve
    else if s.batch.length < batchSize && ready then some .next
    else none

/-- The action completes a turn of the loop. -/
def turns (req : Request) (w : World) : Action → Bool
  | .poll ready _ =>
    match w.phase with
    | .streaming s => (selected req w s ready).isSome
    | _ => false
  | _ => false

def turnCount (req : Request) : World → List Action → Nat
  | _, [] => 0
  | w, a :: acts =>
    (if turns req w a then 1 else 0) +
      match step req w a with
      | some w' => turnCount req w' acts
      | none => 0

/-- The turn takes an item off the stream, or is the last one. -/
def Proceeds (s : LoopState) : Phase → Prop
  | .streaming s' => s'.rowCount = s.rowCount + 1
  | _ => True

/-- From here on every turn of the loop proceeds, and there are no more turns than rows up
to the limit, nor than rows that are left and the item that ends the stream. -/
structure KeepsGoing (req : Request) (source : Nat → StreamItem) (w : World)
    (s : LoopState) : Prop where
  proceeds : ∀ acts v sv a v', Run (step req) anyStep w acts v → v.phase = .streaming sv →
    turns req v a = true → step req v a = some v' → Proceeds sv v'.phase
  limited : ∀ acts v, Run (step req) anyStep w acts v →
    turnCount req w acts ≤ max req.rowLimit 1 - s.rowCount
  exhausted : ∀ acts v n, Run (step req) anyStep w acts v → s.rowCount ≤ n →
    (∀ row, source n ≠ .row row) → turnCount req w acts ≤ n + 1 - s.rowCount

/-! ## Nothing to send -/

/-- The next `k` items are rows, and the loop goes on after them. -/
def TakesRows (req : Request) (source : Nat → StreamItem) (s : LoopState) (k : Nat) : Prop :=
  ∀ j < k, (∃ row, source (s.rowCount + j) = .row row) ∧
    s.rowCount + j + 1 < max req.rowLimit 1

/-- No meta waits or will wait, and no batch gets full before the loop ends. -/
structure NothingToSend (req : Request) (source : Nat → StreamItem) (s : LoopState) : Prop where
  noMeta : s.metaPending = none
  firstTaken : s.rowCount = 0 → ¬ TakesRows req source s 1
  batch : ∀ k, TakesRows req source s k → s.batch.length + k < batchSize

variable {req : Request} {source : Nat → StreamItem} {w w' : World} {s : LoopState}

/-- The locals after a row that does not end the loop. -/
def afterRow (s : LoopState) (row : MappedRow) : LoopState where
  rowCount := s.rowCount + 1
  truncated := s.truncated
  batch := s.batch ++ [row.values]
  metaPending := if s.rowCount = 0 then some (row.columns, row.types) else s.metaPending

theorem takeRow_goes_on {rowLimit : Nat} (row : MappedRow)
    (h : s.rowCount + 1 < max rowLimit 1) : s.takeRow rowLimit row = .streaming (afterRow s row) := by
  unfold LoopState.takeRow
  exact if_neg (Nat.not_le.mpr h)

theorem takeRow_ends {rowLimit : Nat} (row : MappedRow)
    (h : max rowLimit 1 ≤ s.rowCount + 1) :
    ∃ pending info, s.takeRow rowLimit row = .flushing pending info := by
  unfold LoopState.takeRow
  simp only []
  rw [if_pos h]
  exact ⟨_, _, rfl⟩

theorem takesRows_one {row : MappedRow} (hrow : source s.rowCount = .row row)
    (hlimit : s.rowCount + 1 < max req.rowLimit 1) : TakesRows req source s 1 := by
  intro j hj
  obtain rfl : j = 0 := by omega
  exact ⟨⟨row, hrow⟩, hlimit⟩

theorem takesRows_succ {row : MappedRow} (hrow : source s.rowCount = .row row)
    (hlimit : s.rowCount + 1 < max req.rowLimit 1) (k : Nat) :
    TakesRows req source s (k + 1) ↔ TakesRows req source (afterRow s row) k := by
  have hshift : ∀ j, (afterRow s row).rowCount + j = s.rowCount + (j + 1) := by
    intro j
    show s.rowCount + 1 + j = _
    omega
  constructor
  · intro h j hj
    rw [hshift]
    exact h (j + 1) (by omega)
  · intro h j hj
    cases j with
    | zero => exact ⟨⟨row, hrow⟩, hlimit⟩
    | succ j =>
        have hlater := h j (by omega)
        rw [hshift] at hlater
        exact hlater

theorem NothingToSend.afterRow (h : NothingToSend req source s) {row : MappedRow}
    (hrow : source s.rowCount = .row row) (hlimit : s.rowCount + 1 < max req.rowLimit 1) :
    NothingToSend req source (afterRow s row) where
  noMeta := by
    have hfirst : s.rowCount ≠ 0 := fun hzero => h.firstTaken hzero (takesRows_one hrow hlimit)
    exact (if_neg hfirst).trans h.noMeta
  firstTaken hzero := absurd hzero (Nat.succ_ne_zero _)
  batch k htakes := by
    have hfits := h.batch (k + 1) ((takesRows_succ hrow hlimit k).mpr htakes)
    show (s.batch ++ [row.values]).length + k < batchSize
    rw [List.length_append, List.length_singleton]
    omega

theorem NothingToSend.room (h : NothingToSend req source s) : s.batch.length < batchSize :=
  h.batch 0 fun _ hj => absurd hj (Nat.not_lt_zero _)

/-! ## One poll with the channel closed -/

theorem interrupted_eq_none :
    w.interrupted req.timeoutSecs = none ↔ w.cancelled = false ∧ w.expired = false := by
  unfold World.interrupted
  cases w.cancelled <;> cases w.expired <;> simp

theorem poll_reserve (hquiet : w.interrupted req.timeoutSecs = none)
    (hclosed : w.chan.closed = true)
    (hwaits : (s.metaPending.isSome || decide (batchSize ≤ s.batch.length)) = true)
    (ready : Bool) :
    selected req w s ready = some .reserve ∧ pollStreaming req source w s ready = w := by
  unfold selected pollStreaming
  rw [hquiet, hwaits, hclosed]
  exact ⟨rfl, rfl⟩

theorem poll_next (hquiet : w.interrupted req.timeoutSecs = none)
    (hmeta : s.metaPending = none) (hbatch : s.batch.length < batchSize) (ready : Bool) :
    selected req w s ready = (if ready then some .next else none) ∧
      pollStreaming req source w s ready = if ready then
        { w with
          phase := match source s.rowCount with
            | .row row => s.takeRow req.rowLimit row
            | .failed e => .terminal (.error e)
            | .done => s.finish }
        else w := by
  have hfull : decide (batchSize ≤ s.batch.length) = false := decide_eq_false (by omega)
  unfold selected pollStreaming
  rw [hquiet, hmeta, hfull, decide_eq_true hbatch]
  refine ⟨rfl, ?_⟩
  cases ready with
  | false => rfl
  | true => cases source s.rowCount <;> rfl

theorem poll_interrupt {e : StreamQueryError} (hlate : w.interrupted req.timeoutSecs = some e)
    (ready : Bool) :
    pollStreaming req source w s ready = { w with phase := .terminal (.error e) } := by
  unfold pollStreaming
  rw [hlate]

/-! ## Runs on which nothing has to be sent -/

/-- The client is gone, and either the loop is about to be interrupted or nothing has to
be sent. -/
structure Clear (req : Request) (source : Nat → StreamItem) (w : World) : Prop where
  isClosed : w.chan.closed = true
  nothing : ∀ s, w.phase = .streaming s →
    w.cancelled = true ∨ w.expired = true ∨ NothingToSend req source s

theorem streaming_of_turns {a : Action} (h : turns req w a = true) :
    ∃ s, w.phase = .streaming s := by
  cases a with
  | poll ready elapsedMs =>
      cases hphase : w.phase with
      | streaming s => exact ⟨s, rfl⟩
      | _ =>
          rw [turns, hphase] at h
          cases h
  | _ => cases h

/-- What a step can do to the loop: nothing, leave it, or take one more row. -/
inductive Moves (req : Request) (source : Nat → StreamItem) (w : World) (a : Action)
    (w' : World) : Prop
  | stays (hturn : turns req w a = false) (hphase : w'.phase = w.phase)
  | leaves (hleft : ∀ s, w'.phase ≠ .streaming s)
  | takes (s : LoopState) (row : MappedRow) (hphase : w.phase = .streaming s)
      (hrow : source s.rowCount = .row row) (hlimit : s.rowCount + 1 < max req.rowLimit 1)
      (hnext : w'.phase = .streaming (afterRow s row))

theorem moves_poll (hleg : req.leg = .rows source) (hclear : Clear req source w)
    {ready : Bool} {elapsedMs : Nat} (hphase : w.phase = .streaming s)
    (hstep : step req w (.poll ready elapsedMs) = some w') :
    Moves req source w (.poll ready elapsedMs) w' ∧ w'.chan = w.chan ∧
      w'.cancelled = w.cancelled ∧ w'.expired = w.expired := by
  simp only [step, hphase, hleg, Option.some.injEq] at hstep
  cases hlate : w.interrupted req.timeoutSecs with
  | some e =>
      rw [poll_interrupt hlate] at hstep
      rw [← hstep]
      exact ⟨.leaves fun s hs => Phase.noConfusion hs, rfl, rfl, rfl⟩
  | none =>
      obtain ⟨hcancelled, hexpired⟩ := interrupted_eq_none.mp hlate
      have hnothing : NothingToSend req source s := by
        rcases hclear.nothing s hphase with h | h | h
        · rw [hcancelled] at h
          cases h
        · rw [hexpired] at h
          cases h
        · exact h
      obtain ⟨hselected, hpoll⟩ :=
        @poll_next req source w s hlate hnothing.noMeta hnothing.room ready
      rw [hpoll] at hstep
      cases ready with
      | false =>
          obtain rfl : w = w' := hstep
          refine ⟨.stays ?_ rfl, rfl, rfl, rfl⟩
          rw [turns, hphase]
          simp only []
          rw [hselected]
          rfl
      | true =>
          rw [if_pos rfl] at hstep
          rw [← hstep]
          refine ⟨?_, rfl, rfl, rfl⟩
          cases hitem : source s.rowCount with
          | failed e => exact .leaves fun s hs => Phase.noConfusion hs
          | done => exact .leaves fun s hs => Phase.noConfusion hs
          | row row =>
              by_cases hlimit : s.rowCount + 1 < max req.rowLimit 1
              · exact .takes s row hphase hitem hlimit (takeRow_goes_on row hlimit)
              · obtain ⟨pending, info, hends⟩ := takeRow_ends row (Nat.not_lt.mp hlimit)
                refine .leaves fun s' hs => ?_
                have hflush : Phase.flushing pending info = .streaming s' := hends.symm.trans hs
                cases hflush

theorem poll_elsewhere (h : ∀ s, w.phase ≠ .streaming s) {ready : Bool} {elapsedMs : Nat}
    (hstep : step req w (.poll ready elapsedMs) = some w') :
    (∀ s, w'.phase ≠ .streaming s) ∧ w'.chan.closed = w.chan.closed ∧
      w'.cancelled = w.cancelled ∧ w'.expired = w.expired := by
  cases hphase : w.phase with
  | streaming s => exact absurd hphase (h s)
  | ended outcome => simp only [step, hphase, reduceCtorEq] at hstep
  | flushing pending info =>
      simp only [step, hphase, Option.some.injEq] at hstep
      rw [← hstep]
      obtain ⟨-, -, hclosed, -⟩ := Delivery.pushAll_spec w.chan pending
      unfold pollFlushing
      split
      · exact ⟨fun s hs => Phase.noConfusion hs, rfl, rfl, rfl⟩
      · refine ⟨fun s hs => ?_, hclosed, rfl, rfl⟩
        simp only [] at hs
        split at hs <;> cases hs
  | document pending =>
      simp only [step, hphase, Option.some.injEq] at hstep
      rw [← hstep]
      obtain ⟨-, -, hclosed, -⟩ := Delivery.pushAll_spec w.chan pending
      unfold pollDocument
      split
      · exact ⟨fun s hs => Phase.noConfusion hs, rfl, rfl, rfl⟩
      · refine ⟨fun s hs => ?_, hclosed, rfl, rfl⟩
        simp only [] at hs
        split at hs <;> cases hs
  | executing result =>
      simp only [step, hphase, Option.some.injEq] at hstep
      rw [← hstep]
      unfold pollExecuting
      split
      · exact ⟨fun s hs => Phase.noConfusion hs, rfl, rfl, rfl⟩
      · split
        · exact ⟨fun s hs => Phase.noConfusion hs, rfl, rfl, rfl⟩
        · exact ⟨h, rfl, rfl, rfl⟩
  | terminal outcome =>
      simp only [step, hphase, Option.some.injEq] at hstep
      rw [← hstep]
      unfold pollTerminal
      split_ifs
      · exact ⟨fun s hs => Phase.noConfusion hs, rfl, rfl, rfl⟩
      · exact ⟨fun s hs => Phase.noConfusion hs, rfl, rfl, rfl⟩
      · exact ⟨h, rfl, rfl, rfl⟩

theorem moves_step (hleg : req.leg = .rows source) (hclear : Clear req source w) {a : Action}
    (hstep : step req w a = some w') :
    Moves req source w a w' ∧ w'.chan.closed = true ∧
      (w.cancelled = true → w'.cancelled = true) ∧ (w.expired = true → w'.expired = true) := by
  cases a with
  | poll ready elapsedMs =>
      by_cases hloop : ∃ s, w.phase = .streaming s
      · obtain ⟨s, hphase⟩ := hloop
        obtain ⟨hmoves, hchan, hcancelled, hexpired⟩ := moves_poll hleg hclear hphase hstep
        rw [hchan, hcancelled, hexpired]
        exact ⟨hmoves, hclear.isClosed, id, id⟩
      · obtain ⟨hleft, hclosed, hcancelled, hexpired⟩ :=
          poll_elsewhere (fun s hs => hloop ⟨s, hs⟩) hstep
        rw [hclosed, hcancelled, hexpired]
        exact ⟨.leaves hleft, hclear.isClosed, id, id⟩
  | receive =>
      obtain ⟨-, rfl⟩ := step_receive hstep
      exact ⟨.stays rfl rfl, hclear.isClosed, id, id⟩
  | disconnect =>
      obtain rfl := Option.some.inj hstep
      exact ⟨.stays rfl rfl, rfl, id, id⟩
  | cancel =>
      obtain rfl := Option.some.inj hstep
      exact ⟨.stays rfl rfl, hclear.isClosed, fun _ => rfl, id⟩
  | expire =>
      obtain rfl := Option.some.inj hstep
      exact ⟨.stays rfl rfl, hclear.isClosed, id, fun _ => rfl⟩

theorem clear_step (hleg : req.leg = .rows source) {a : Action}
    (hstep : step req w a = some w') (hclear : Clear req source w) : Clear req source w' := by
  obtain ⟨hmoves, hclosed, hcancelled, hexpired⟩ := moves_step hleg hclear hstep
  refine ⟨hclosed, fun s' hs' => ?_⟩
  cases hmoves with
  | stays _ hphase =>
      rw [hphase] at hs'
      exact (hclear.nothing s' hs').imp hcancelled (Or.imp_left hexpired)
  | leaves hleft => exact absurd hs' (hleft s')
  | takes s row hphase hrow hlimit hnext =>
      rw [hnext] at hs'
      obtain rfl := Phase.streaming.inj hs'
      exact (hclear.nothing s hphase).imp hcancelled
        (Or.imp hexpired fun hnothing => hnothing.afterRow hrow hlimit)

/-- The turns that are left when item `n` is the last. -/
def turnsLeft (n : Nat) : Phase → Nat
  | .streaming s => n + 1 - s.rowCount
  | _ => 0

theorem turnCount_le (hleg : req.leg = .rows source) {n : Nat}
    (hlast : ∀ row, source n = .row row → max req.rowLimit 1 ≤ n + 1) {acts : List Action}
    (hrun : Run (step req) anyStep w acts w') (hclear : Clear req source w)
    (hbefore : ∀ s, w.phase = .streaming s → s.rowCount ≤ n) :
    turnCount req w acts ≤ turnsLeft n w.phase := by
  induction hrun with
  | nil _ => exact Nat.zero_le _
  | @cons w t u a acts _ hstep _ ih =>
      have hcount : turnCount req w (a :: acts) =
          (if turns req w a then 1 else 0) + turnCount req t acts := by
        rw [turnCount, hstep]
      obtain ⟨hmoves, -⟩ := moves_step hleg hclear hstep
      have hrest := ih (clear_step hleg hstep hclear)
      rw [hcount]
      cases hmoves with
      | stays hturn hphase =>
          rw [hphase] at hrest
          rw [if_neg (by rw [hturn]; exact Bool.false_ne_true), Nat.zero_add]
          exact hrest hbefore
      | leaves hleft =>
          have hnone : turnsLeft n t.phase = 0 := by
            cases hphase : t.phase with
            | streaming s => exact absurd hphase (hleft s)
            | _ => rfl
          have hzero := hrest fun s hs => absurd hs (hleft s)
          rw [hnone] at hzero
          by_cases hturn : turns req w a = true
          · obtain ⟨s, hphase⟩ := streaming_of_turns hturn
            have hle := hbefore s hphase
            rw [if_pos hturn, hphase]
            show 1 + turnCount req t acts ≤ n + 1 - s.rowCount
            omega
          · rw [if_neg hturn]
            omega
      | takes s row hphase hrow hlimit hnext =>
          have hle := hbefore s hphase
          have hlt : s.rowCount < n := by
            rcases Nat.lt_or_eq_of_le hle with hlt | heq
            · exact hlt
            · rw [heq] at hrow hlimit
              exact absurd (hlast row hrow) (Nat.not_le.mpr hlimit)
          have hnew := hrest fun s' hs' => by
            rw [hnext] at hs'
            obtain rfl := Phase.streaming.inj hs'
            exact hlt
          rw [hnext] at hnew
          have hstep : turnsLeft n (.streaming (afterRow s row)) = n + 1 - (s.rowCount + 1) := rfl
          have hone : (if turns req w a = true then 1 else 0) ≤ 1 := by
            split <;> decide
          rw [hphase]
          show _ ≤ n + 1 - s.rowCount
          omega

theorem proceeds_of_left {phase : Phase} (h : ∀ s, phase ≠ .streaming s) :
    Proceeds s phase := by
  cases phase with
  | streaming s' => exact absurd rfl (h s')
  | _ => exact trivial

/-! ## What has to be sent stops the loop -/

/-- Every turn from here on takes an item or is the last. -/
def AlwaysProceeds (req : Request) (w : World) : Prop :=
  ∀ acts v s a v', Run (step req) anyStep w acts v → v.phase = .streaming s →
    turns req v a = true → step req v a = some v' → Proceeds s v'.phase

theorem AlwaysProceeds.later (h : AlwaysProceeds req w) {a : Action}
    (hstep : step req w a = some w') : AlwaysProceeds req w' := by
  intro acts v s b v' hrun
  exact h (a :: acts) v s b v' (.cons trivial hstep hrun)

/-- In the loop, nobody interrupts, and the client is gone. -/
structure Abandoned (req : Request) (w : World) (s : LoopState) : Prop where
  phase : w.phase = .streaming s
  quiet : w.interrupted req.timeoutSecs = none
  isClosed : w.chan.closed = true

theorem nothing_waits (hleg : req.leg = .rows source) (hgone : Abandoned req w s)
    (h : AlwaysProceeds req w) : s.metaPending = none ∧ s.batch.length < batchSize := by
  have hidle : (s.metaPending.isSome || decide (batchSize ≤ s.batch.length)) = false := by
    by_contra hwaits
    obtain ⟨hselected, hpoll⟩ := @poll_reserve req source w s hgone.quiet hgone.isClosed
      (Bool.not_eq_false _ ▸ hwaits) true
    have hturn : turns req w (.poll true 0) = true := by
      rw [turns, hgone.phase]
      simp only []
      rw [hselected]
      rfl
    have hstep : step req w (.poll true 0) = some w := by
      simp only [step, hgone.phase, hleg]
      rw [hpoll]
    have hsame := h [] w s (.poll true 0) w (.nil w) hgone.phase hturn hstep
    rw [hgone.phase] at hsame
    exact absurd hsame (Nat.succ_ne_self _).symm
  rw [Bool.or_eq_false_iff, decide_eq_false_iff_not] at hidle
  exact ⟨Option.not_isSome_iff_eq_none.mp (Bool.eq_false_iff.mp hidle.1),
    Nat.not_le.mp hidle.2⟩

theorem abandoned_afterRow (hleg : req.leg = .rows source) (hgone : Abandoned req w s)
    (h : AlwaysProceeds req w) {row : MappedRow} (hrow : source s.rowCount = .row row)
    (hlimit : s.rowCount + 1 < max req.rowLimit 1) :
    ∃ w', Abandoned req w' (afterRow s row) ∧ AlwaysProceeds req w' := by
  obtain ⟨hmeta, hroom⟩ := nothing_waits hleg hgone h
  obtain ⟨-, hpoll⟩ := @poll_next req source w s hgone.quiet hmeta hroom true
  simp only [if_true, hrow, takeRow_goes_on row hlimit] at hpoll
  have hstep : step req w (.poll true 0) =
      some { w with phase := .streaming (afterRow s row) } := by
    simp only [step, hgone.phase, hleg]
    rw [hpoll]
  exact ⟨{ w with phase := .streaming (afterRow s row) },
    ⟨rfl, hgone.quiet, hgone.isClosed⟩, h.later hstep⟩

theorem room_for (hleg : req.leg = .rows source) (k : Nat) :
    ∀ w s, Abandoned req w s → AlwaysProceeds req w → TakesRows req source s k →
      s.batch.length + k < batchSize := by
  induction k with
  | zero =>
      intro w s hgone h _
      exact (nothing_waits hleg hgone h).2
  | succ k ih =>
      intro w s hgone h htakes
      obtain ⟨⟨row, hrow⟩, hlimit⟩ := htakes 0 (Nat.succ_pos k)
      obtain ⟨w', hgone', h'⟩ := abandoned_afterRow hleg hgone h hrow hlimit
      have hfits := ih w' _ hgone' h' ((takesRows_succ hrow hlimit k).mp htakes)
      have hlength : (afterRow s row).batch.length = s.batch.length + 1 := by
        show (s.batch ++ [row.values]).length = _
        rw [List.length_append, List.length_singleton]
      omega

theorem nothingToSend_of_proceeds (hleg : req.leg = .rows source) (hgone : Abandoned req w s)
    (h : AlwaysProceeds req w) : NothingToSend req source s where
  noMeta := (nothing_waits hleg hgone h).1
  firstTaken hzero htakes := by
    obtain ⟨⟨row, hrow⟩, hlimit⟩ := htakes 0 Nat.one_pos
    obtain ⟨w', hgone', h'⟩ := abandoned_afterRow hleg hgone h hrow hlimit
    have hnone := (nothing_waits hleg hgone' h').1
    have hsome : (afterRow s row).metaPending = some (row.columns, row.types) := if_pos hzero
    rw [hsome] at hnone
    cases hnone
  batch k htakes := room_for hleg k w s hgone h htakes

/-! ## When the loop keeps going -/

theorem below_step {a : Action} (hstep : step req w a = some w')
    (h : ∀ s, w.phase = .streaming s → s.rowCount < max req.rowLimit 1) :
    ∀ s, w'.phase = .streaming s → s.rowCount < max req.rowLimit 1 := by
  cases a with
  | poll ready elapsedMs =>
      by_cases hloop : ∃ s, w.phase = .streaming s
      · obtain ⟨s, hphase⟩ := hloop
        have hbelow := h s hphase
        simp only [step, hphase] at hstep
        split at hstep
        case h_2 => cases hstep
        case h_1 source _ =>
          obtain rfl := Option.some.inj hstep
          intro s' hs'
          unfold pollStreaming at hs'
          split at hs'
          · cases hs'
          · split_ifs at hs'
            · exact h s' hs'
            · split at hs' <;> (obtain rfl := Phase.streaming.inj hs'; exact hbelow)
            · split at hs'
              case h_1 row _ =>
                by_cases hlimit : s.rowCount + 1 < max req.rowLimit 1
                · have hnext := hs'.symm.trans (takeRow_goes_on row hlimit)
                  obtain rfl := Phase.streaming.inj hnext
                  exact hlimit
                · obtain ⟨pending, info, hends⟩ := takeRow_ends row (Nat.not_lt.mp hlimit)
                  cases hends.symm.trans hs'
              case h_2 => cases hs'
              case h_3 => cases hs'
            · exact h s' hs'
      · intro s' hs'
        exact absurd hs' ((poll_elsewhere (fun s hs => hloop ⟨s, hs⟩) hstep).1 s')
  | receive =>
      obtain ⟨-, rfl⟩ := step_receive hstep
      exact h
  | disconnect =>
      obtain rfl := Option.some.inj hstep
      exact h
  | cancel =>
      obtain rfl := Option.some.inj hstep
      exact h
  | expire =>
      obtain rfl := Option.some.inj hstep
      exact h

theorem below_run {acts : List Action} (hrun : RunsFrom req acts w) :
    ∀ s, w.phase = .streaming s → s.rowCount < max req.rowLimit 1 := by
  refine Run.invariant (I := fun v => ∀ s, v.phase = .streaming s →
    s.rowCount < max req.rowLimit 1) (fun _ _ _ _ hstep h => below_step hstep h) hrun ?_
  intro s hs
  have hstart : req.leg.start = .streaming s := hs
  cases hleg : req.leg with
  | rows source =>
      rw [hleg] at hstart
      obtain rfl := Phase.streaming.inj hstart
      exact Nat.lt_of_lt_of_le Nat.one_pos (Nat.le_max_right _ _)
  | _ =>
      rw [hleg] at hstart
      cases hstart

/-- Once the client is gone, the loop keeps going if and only if it is about to be
interrupted, or no meta waits, no first row is still to come that does not end the loop,
and no batch gets full before the loop ends. -/
theorem keepsGoing_iff {acts : List Action} (hleg : req.leg = .rows source)
    (hrun : RunsFrom req acts w) (hphase : w.phase = .streaming s)
    (hclosed : w.chan.closed = true) :
    KeepsGoing req source w s ↔
      w.cancelled = true ∨ w.expired = true ∨ NothingToSend req source s := by
  constructor
  · intro h
    by_cases hcancelled : w.cancelled = true
    · exact Or.inl hcancelled
    by_cases hexpired : w.expired = true
    · exact Or.inr (Or.inl hexpired)
    right; right
    have hquiet : w.interrupted req.timeoutSecs = none :=
      interrupted_eq_none.mpr ⟨Bool.eq_false_iff.mpr hcancelled, Bool.eq_false_iff.mpr hexpired⟩
    exact nothingToSend_of_proceeds hleg ⟨hphase, hquiet, hclosed⟩ h.proceeds
  · intro h
    have hclear : Clear req source w := by
      refine ⟨hclosed, fun s' hs' => ?_⟩
      rw [hphase] at hs'
      obtain rfl := Phase.streaming.inj hs'
      exact h
    have hbelow := below_run hrun s hphase
    have hcount : ∀ acts v n, Run (step req) anyStep w acts v → s.rowCount ≤ n →
        (∀ row, source n = .row row → max req.rowLimit 1 ≤ n + 1) →
        turnCount req w acts ≤ n + 1 - s.rowCount := by
      intro acts v n hlater hle hlast
      have hbound := turnCount_le hleg hlast hlater hclear fun s' hs' => by
        rw [hphase] at hs'
        obtain rfl := Phase.streaming.inj hs'
        exact hle
      rw [hphase] at hbound
      exact hbound
    refine ⟨?_, ?_, ?_⟩
    · intro acts v sv a v' hlater hv hturn hstep
      have hlaterClear := hlater.invariant (fun _ _ _ _ hs hc => clear_step hleg hs hc) hclear
      cases (moves_step hleg hlaterClear hstep).1 with
      | stays hnoTurn _ =>
          rw [hturn] at hnoTurn
          cases hnoTurn
      | leaves hleft => exact proceeds_of_left hleft
      | takes s' row hphase' _ _ hnext =>
          rw [hv] at hphase'
          obtain rfl := Phase.streaming.inj hphase'
          rw [hnext]
          rfl
    · intro acts v hlater
      have hbound := hcount acts v (max req.rowLimit 1 - 1) hlater (by omega)
        fun _ _ => by omega
      omega
    · intro acts v n hlater hle hend
      exact hcount acts v n hlater hle fun row hrow => absurd hrow (hend row)

/-- A stream of two rows, of which one is asked for. -/
def oneOfTwo : Request where
  leg := .rows fun i => if i < 2 then .row ⟨["id"], [.int i], none⟩ else .done
  rowLimit := 1
  timeoutSecs := 30
  capacity := 4

/-- The client goes before the first row, which is the last one up to the limit. -/
theorem keepsGoing_iff_oneOfTwo :
    ∃ source w, oneOfTwo.leg = .rows source ∧ RunsFrom oneOfTwo [.disconnect] w ∧
      KeepsGoing oneOfTwo source w .init := by
  have hrun : RunsFrom oneOfTwo [.disconnect] _ := run_of_exec rfl
  refine ⟨_, _, rfl, hrun, (keepsGoing_iff rfl hrun rfl rfl).mpr (Or.inr (Or.inr ?_))⟩
  have hnone : ∀ source k, TakesRows oneOfTwo source .init (k + 1) → False :=
    fun source k h => absurd (h 0 (Nat.succ_pos k)).2 (by decide)
  refine ⟨rfl, fun _ h => hnone _ 0 h, fun k h => ?_⟩
  cases k with
  | zero => decide
  | succ k => exact (hnone _ k h).elim

/-- A stream of two rows, both of which are asked for. -/
def twoRows : Request := { oneOfTwo with rowLimit := 10 }

/-- The client goes while the meta waits: the send fails, and the next turn finds everything
as before. -/
theorem abandoned_meta_spins :
    ¬ ∀ req source acts w s, req.leg = .rows source → RunsFrom req acts w →
      w.phase = .streaming s → w.chan.closed = true → KeepsGoing req source w s := by
  intro hall
  have hrun : RunsFrom twoRows [.poll true 0, .disconnect] _ := run_of_exec rfl
  have hgoes := hall twoRows _ _ _ _ rfl hrun rfl rfl
  have hsame : (1 : Nat) = 1 + 1 :=
    hgoes.proceeds [] _ _ (.poll true 0) _ (.nil _) rfl rfl rfl
  exact absurd hsame (by decide)

end Dbmaster.Gateway.Disconnect
