import Dbmaster.Gateway.Delivery
import Dbmaster.Gateway.Execution
/-!
# The terminal event

Every leg ends its stream with one terminal event.  The fallback for a panic does so
when the channel has room; otherwise the event is lost.
-/

namespace Dbmaster.Gateway.Terminal

open Dbmaster.Lib Dbmaster.Lib.Transition Dbmaster.Gateway.Delivery Dbmaster.Gateway.Execution
open Dbmaster.Gateway.Stream hiding step Action

/-! ## The shape of a stream -/

/-- A meta and rows after it. -/
def Headed (sent : List StreamQueryEvent) : Prop :=
  ∃ (columns : List String) (types : Option (List String)) (batches : List (List Row)),
    sent = .metaEvent columns types :: batches.map StreamQueryEvent.rows

/-- At most one meta, rows only after it, and no terminal event. -/
def Unfinished (sent : List StreamQueryEvent) : Prop := sent = [] ∨ Headed sent

/-- One terminal event, and it is the last event. -/
def Finished (sent : List StreamQueryEvent) : Prop :=
  ∃ body last, sent = body ++ [last] ∧ Unfinished body ∧ last.isTerminal = true

theorem headed_meta (columns : List String) (types : Option (List String)) :
    Headed [.metaEvent columns types] := ⟨columns, types, [], rfl⟩

theorem Headed.append_rows {sent : List StreamQueryEvent} (h : Headed sent)
    (batches : List (List Row)) : Headed (sent ++ batches.map .rows) := by
  obtain ⟨columns, types, earlier, rfl⟩ := h
  exact ⟨columns, types, earlier ++ batches, by simp⟩

theorem Unfinished.left {sent rest : List StreamQueryEvent} (h : Unfinished (sent ++ rest)) :
    Unfinished sent := by
  rcases h with hnil | ⟨columns, types, batches, heq⟩
  · exact Or.inl (List.append_eq_nil_iff.mp hnil).1
  · cases sent with
    | nil => exact Or.inl rfl
    | cons event sent =>
        obtain ⟨rfl, htail⟩ := List.cons.inj heq
        obtain ⟨before, after, -, hbefore, -⟩ := List.map_eq_append_iff.mp htail.symm
        exact Or.inr ⟨columns, types, before, by rw [hbefore]⟩

theorem Unfinished.finish {sent : List StreamQueryEvent} (h : Unfinished sent)
    {last : StreamQueryEvent} (hlast : last.isTerminal = true) : Finished (sent ++ [last]) :=
  ⟨sent, last, rfl, h, hlast⟩

theorem isTerminal_terminalEvent (outcome : Except StreamQueryError CompleteInfo)
    (elapsedMs : Nat) : (terminalEvent outcome elapsedMs).isTerminal = true := by
  cases outcome <;> rfl

/-! ## The legs -/

/-- The locals of the loop and what was sent: no row yet, a meta that waits, or rows
behind the meta. -/
def LoopShape (s : LoopState) (sent : List StreamQueryEvent) : Prop :=
  (s.rowCount = 0 ∧ s.batch = [] ∧ s.metaPending = none ∧ sent = []) ∨
    (s.rowCount ≠ 0 ∧ s.metaPending.isSome = true ∧ sent = []) ∨
    (s.rowCount ≠ 0 ∧ s.metaPending = none ∧ Headed sent)

def PhaseShape (source : Leg) (sent : List StreamQueryEvent) : Phase → Prop
  | .streaming s => (∃ items, source = .rows items) ∧ LoopShape s sent
  | .flushing pending _ => Unfinished (sent ++ pending)
  | .document pending => Unfinished (sent ++ pending)
  | .executing _ => Unfinished sent
  | .terminal _ => Unfinished sent
  | .ended _ => Finished sent

def StageShape (sent : List StreamQueryEvent) : Stage → Prop
  | .opening => sent = []
  | .leg source phase => Stage.ofPhase source phase = .leg source phase ∧ PhaseShape source sent phase
  | .slicing pending _ => Unfinished (sent ++ pending)
  | .terminal _ => Unfinished sent
  | .ended _ => Finished sent

theorem unfinished_of_loopShape {s : LoopState} {sent : List StreamQueryEvent}
    (h : LoopShape s sent) : Unfinished sent := by
  rcases h with ⟨-, -, -, hnil⟩ | ⟨-, -, hnil⟩ | ⟨-, -, hheaded⟩
  · exact Or.inl hnil
  · exact Or.inl hnil
  · exact Or.inr hheaded

theorem unfinished_flushEvents {s : LoopState} {sent : List StreamQueryEvent}
    (h : LoopShape s sent) : Unfinished (sent ++ s.flushEvents) := by
  right
  unfold LoopState.flushEvents
  rcases h with ⟨hzero, hbatch, hmeta, rfl⟩ | ⟨hrows, hmeta, rfl⟩ | ⟨hrows, hmeta, hheaded⟩
  · rw [hmeta, if_neg (not_not.mpr hbatch), if_pos hzero]
    exact headed_meta _ _
  · obtain ⟨⟨columns, types⟩, hmeta'⟩ := Option.isSome_iff_exists.mp hmeta
    rw [hmeta']
    by_cases hbatch : s.batch = []
    · rw [if_neg (not_not.mpr hbatch), if_neg hrows]
      exact headed_meta _ _
    · rw [if_pos hbatch]
      exact ⟨columns, types, [s.batch], rfl⟩
  · rw [hmeta]
    by_cases hbatch : s.batch = []
    · rw [if_neg (not_not.mpr hbatch), if_neg hrows]
      simpa using hheaded
    · rw [if_pos hbatch]
      exact hheaded.append_rows [s.batch]

/-- A channel whose consumer is there, and which can hold an event. -/
structure ChanOk (chan : Chan) : Prop where
  isOpen : chan.closed = false
  holds : 0 < chan.capacity

theorem ChanOk.push {chan : Chan} (h : ChanOk chan) (event : StreamQueryEvent) :
    ChanOk (chan.push event) := ⟨h.isOpen, h.holds⟩

theorem ChanOk.pushAll {chan : Chan} (h : ChanOk chan) (pending : List StreamQueryEvent) :
    ChanOk (chan.pushAll pending).1 := by
  induction pending generalizing chan with
  | nil => exact h
  | cons event pending ih =>
      rw [Chan.pushAll, h.isOpen, if_neg Bool.false_ne_true]
      split
      · exact ih (h.push event)
      · exact h

theorem unfinished_pushAll {chan : Chan} {pending : List StreamQueryEvent}
    (hchan : ChanOk chan) (h : Unfinished (chan.sent ++ pending)) :
    Unfinished ((chan.pushAll pending).1.sent ++ (chan.pushAll pending).2) := by
  obtain ⟨pushed, hsent, -, -, hall⟩ := pushAll_spec chan pending
  rw [hsent, List.append_assoc, hall hchan.isOpen]
  exact h

/-! ## One poll of a leg -/

section Poll

variable {req : Request} {w w' : World} {source : Leg}

/-- What was sent fits the phase. -/
structure WorldShape (source : Leg) (w : World) : Prop where
  chan : ChanOk w.chan
  phase : PhaseShape source w.chan.sent w.phase

theorem loopShape_takeRow {s : LoopState} {sent : List StreamQueryEvent} (h : LoopShape s sent)
    (row : MappedRow) (truncated : Bool) :
    LoopShape ⟨s.rowCount + 1, truncated, s.batch ++ [row.values],
      if s.rowCount = 0 then some (row.columns, row.types) else s.metaPending⟩ sent := by
  right
  rcases h with ⟨hzero, -, -, hnil⟩ | ⟨hrows, hmeta, hnil⟩ | ⟨hrows, hmeta, hheaded⟩
  · left
    rw [if_pos hzero]
    exact ⟨Nat.succ_ne_zero _, rfl, hnil⟩
  · left
    rw [if_neg hrows]
    exact ⟨Nat.succ_ne_zero _, hmeta, hnil⟩
  · right
    rw [if_neg hrows]
    exact ⟨Nat.succ_ne_zero _, hmeta, hheaded⟩

theorem phaseShape_takeRow {items : Nat → StreamItem} {s : LoopState}
    {sent : List StreamQueryEvent} (h : LoopShape s sent) (rowLimit : Nat) (row : MappedRow) :
    PhaseShape (.rows items) sent (s.takeRow rowLimit row) := by
  unfold LoopState.takeRow
  simp only []
  split
  · exact unfinished_flushEvents (loopShape_takeRow h row true)
  · exact ⟨⟨items, rfl⟩, loopShape_takeRow h row s.truncated⟩

theorem worldShape_pollStreaming {items : Nat → StreamItem} {s : LoopState} {ready : Bool}
    (hchan : ChanOk w.chan) (h : LoopShape s w.chan.sent)
    (hphase : w.phase = .streaming s) :
    WorldShape (.rows items) (pollStreaming req items w s ready) := by
  have hsame : WorldShape (.rows items) w := ⟨hchan, by rw [hphase]; exact ⟨⟨items, rfl⟩, h⟩⟩
  unfold pollStreaming
  split
  case h_1 e _ => exact ⟨hchan, unfinished_of_loopShape h⟩
  case h_2 =>
    split
    case isTrue hsend =>
      rw [hchan.isOpen, if_neg Bool.false_ne_true]
      split
      case h_1 columns types hmeta =>
        rcases h with ⟨-, -, hnone, -⟩ | ⟨hrows, -, hnil⟩ | ⟨-, hnone, -⟩
        · rw [hmeta] at hnone
          cases hnone
        · refine ⟨hchan.push _, ⟨items, rfl⟩, Or.inr (Or.inr ⟨hrows, rfl, ?_⟩)⟩
          show Headed (w.chan.sent ++ [.metaEvent columns types])
          rw [hnil]
          exact headed_meta columns types
        · rw [hmeta] at hnone
          cases hnone
      case h_2 hmeta =>
        rcases h with ⟨-, hbatch, -, -⟩ | ⟨-, hsome, -⟩ | ⟨hrows, hnone, hheaded⟩
        · rw [hmeta, hbatch] at hsend
          cases hsend
        · rw [hmeta] at hsome
          cases hsome
        · refine ⟨hchan.push _, ⟨items, rfl⟩, Or.inr (Or.inr ⟨hrows, hnone, ?_⟩)⟩
          exact hheaded.append_rows [s.batch]
    case isFalse =>
      split
      case isFalse => exact hsame
      case isTrue =>
        split
        case h_1 row _ => exact ⟨hchan, phaseShape_takeRow h req.rowLimit row⟩
        case h_2 e _ => exact ⟨hchan, unfinished_of_loopShape h⟩
        case h_3 => exact ⟨hchan, unfinished_flushEvents h⟩

theorem worldShape_pushAll {pending : List StreamQueryEvent} {sentAll waiting : Phase}
    (hchan : ChanOk w.chan) (h : Unfinished (w.chan.sent ++ pending))
    (hall : ∀ sent, Unfinished sent → PhaseShape source sent sentAll)
    (hwaiting : ∀ sent, Unfinished (sent ++ (w.chan.pushAll pending).2) →
      PhaseShape source sent waiting) :
    WorldShape source { w with
      chan := (w.chan.pushAll pending).1
      phase := if (w.chan.pushAll pending).2 = [] then sentAll else waiting } := by
  have hpushed := unfinished_pushAll hchan h
  refine ⟨hchan.pushAll pending, ?_⟩
  simp only []
  split
  · exact hall _ hpushed.left
  · exact hwaiting _ hpushed

theorem worldShape_pollFlushing {pending : List StreamQueryEvent} {info : CompleteInfo}
    (hchan : ChanOk w.chan) (h : Unfinished (w.chan.sent ++ pending)) :
    WorldShape source (pollFlushing req w pending info) := by
  unfold pollFlushing
  split
  case h_1 => exact ⟨hchan, h.left⟩
  case h_2 => exact worldShape_pushAll hchan h (fun _ hsent => hsent) fun _ hsent => hsent

theorem worldShape_pollDocument {pending : List StreamQueryEvent}
    (hchan : ChanOk w.chan) (h : Unfinished (w.chan.sent ++ pending)) :
    WorldShape source (pollDocument req w pending) := by
  unfold pollDocument
  split
  case h_1 => exact ⟨hchan, h.left⟩
  case h_2 => exact worldShape_pushAll hchan h (fun _ hsent => hsent) fun _ hsent => hsent

theorem worldShape_pollExecuting {result : Except StreamQueryError Nat} {ready : Bool}
    (hchan : ChanOk w.chan) (h : Unfinished w.chan.sent)
    (hphase : w.phase = .executing result) :
    WorldShape source (pollExecuting req w result ready) := by
  unfold pollExecuting
  split
  case h_1 => exact ⟨hchan, h⟩
  case h_2 =>
    split
    · exact ⟨hchan, h⟩
    · exact ⟨hchan, by rw [hphase]; exact h⟩

theorem worldShape_pollTerminal {outcome : Except StreamQueryError CompleteInfo}
    {elapsedMs : Nat} (hchan : ChanOk w.chan) (h : Unfinished w.chan.sent)
    (hphase : w.phase = .terminal outcome) :
    WorldShape source (pollTerminal w outcome elapsedMs) := by
  unfold pollTerminal
  rw [hchan.isOpen, if_neg Bool.false_ne_true]
  split
  · exact ⟨hchan.push _, h.finish (isTerminal_terminalEvent outcome elapsedMs)⟩
  · exact ⟨hchan, by rw [hphase]; exact h⟩

theorem worldShape_poll {ready : Bool} {elapsedMs : Nat} (hleg : req.leg = source)
    (hstep : Stream.step req w (.poll ready elapsedMs) = some w') (h : WorldShape source w) :
    WorldShape source w' := by
  obtain ⟨hchan, hshape⟩ := h
  cases hphase : w.phase with
  | streaming s =>
      rw [hphase] at hshape
      obtain ⟨⟨items, rfl⟩, hloop⟩ := hshape
      simp only [Stream.step, hphase, hleg, Option.some.injEq] at hstep
      rw [← hstep]
      exact worldShape_pollStreaming hchan hloop hphase
  | flushing pending info =>
      rw [hphase] at hshape
      simp only [Stream.step, hphase, Option.some.injEq] at hstep
      rw [← hstep]
      exact worldShape_pollFlushing hchan hshape
  | document pending =>
      rw [hphase] at hshape
      simp only [Stream.step, hphase, Option.some.injEq] at hstep
      rw [← hstep]
      exact worldShape_pollDocument hchan hshape
  | executing result =>
      rw [hphase] at hshape
      simp only [Stream.step, hphase, Option.some.injEq] at hstep
      rw [← hstep]
      exact worldShape_pollExecuting hchan hshape hphase
  | terminal outcome =>
      rw [hphase] at hshape
      simp only [Stream.step, hphase, Option.some.injEq] at hstep
      rw [← hstep]
      exact worldShape_pollTerminal hchan hshape hphase
  | ended outcome =>
      simp only [Stream.step, hphase, reduceCtorEq] at hstep

end Poll

/-! ## One step of the task -/

theorem stageShape_ofPhase {source : Leg} {sent : List StreamQueryEvent} {phase : Phase}
    (h : PhaseShape source sent phase) : StageShape sent (.ofPhase source phase) := by
  cases phase with
  | terminal outcome => exact h
  | ended outcome => exact h
  | streaming s => exact ⟨rfl, h⟩
  | flushing pending info => exact ⟨rfl, h⟩
  | document pending => exact ⟨rfl, h⟩
  | executing result => exact ⟨rfl, h⟩

theorem stageShape_start (rowLimit : Nat) (answer : Answer) :
    StageShape [] (answer.start rowLimit) := by
  cases answer with
  | leg source =>
      apply stageShape_ofPhase
      cases source with
      | rows items => exact ⟨⟨items, rfl⟩, Or.inl ⟨rfl, rfl, rfl, rfl⟩⟩
      | document json => exact Or.inr ⟨["result"], none, [[[json]]], rfl⟩
      | execute result => exact Or.inl rfl
      | refused e => exact Or.inl rfl
  | redis columns rawRows => exact Or.inr ⟨columns, none, _, rfl⟩
  | tdengine columns rows => exact Or.inr ⟨columns.map (·.1), some (columns.map (·.2)), _, rfl⟩

/-- What was sent fits the stage of the task. -/
structure TaskShape (t : ExecTask) : Prop where
  chan : ChanOk t.chan
  stage : StageShape t.chan.sent t.stage

theorem taskShape_init : TaskShape .init := ⟨⟨rfl, by decide⟩, rfl⟩

theorem unfinished_of_leg {source : Leg} {sent : List StreamQueryEvent} {phase : Phase}
    (hphase : Stage.ofPhase source phase = .leg source phase)
    (h : PhaseShape source sent phase) : Unfinished sent := by
  cases phase with
  | terminal outcome => cases hphase
  | ended outcome => cases hphase
  | streaming s => exact unfinished_of_loopShape h.2
  | flushing pending info => exact h.left
  | document pending => exact h.left
  | executing result => exact h

theorem unfinished_of_running {t : ExecTask} (h : TaskShape t)
    (hrunning : ∀ outcome, t.stage ≠ .ended outcome) : Unfinished t.chan.sent := by
  obtain ⟨-, hstage⟩ := h
  cases hs : t.stage with
  | opening =>
      rw [hs] at hstage
      exact Or.inl hstage
  | leg source phase =>
      rw [hs] at hstage
      exact unfinished_of_leg hstage.1 hstage.2
  | slicing pending info =>
      rw [hs] at hstage
      exact hstage.left
  | terminal outcome =>
      rw [hs] at hstage
      exact hstage
  | ended outcome => exact absurd hs (hrunning outcome)

variable {req : TaskRequest} {t t' : ExecTask}

theorem taskShape_poll {ready : Bool} {elapsedMs : Nat}
    (hstep : pollTask req t ready elapsedMs = some t') (h : TaskShape t) : TaskShape t' := by
  obtain ⟨hchan, hstage⟩ := h
  unfold pollTask at hstep
  cases hs : t.stage with
  | opening =>
      rw [hs] at hstep
      cases hstep
  | ended outcome =>
      rw [hs] at hstep
      cases hstep
  | leg source phase =>
      rw [hs] at hstep hstage
      obtain ⟨w', hw', rfl⟩ := Option.map_eq_some_iff.mp hstep
      have hshape : WorldShape source (t.world phase) := ⟨hchan, hstage.2⟩
      obtain ⟨hchan', hphase'⟩ := worldShape_poll rfl hw' hshape
      exact ⟨hchan', stageShape_ofPhase hphase'⟩
  | slicing pending info =>
      rw [hs] at hstep hstage
      obtain rfl := Option.some.inj hstep
      unfold pollSlicing
      split
      case h_1 => exact ⟨hchan, hstage.left⟩
      case h_2 =>
        have hpushed := unfinished_pushAll hchan hstage
        refine ⟨hchan.pushAll pending, ?_⟩
        simp only []
        split
        · exact hpushed.left
        · exact hpushed
  | terminal outcome =>
      rw [hs] at hstep hstage
      obtain rfl := Option.some.inj hstep
      unfold sendTerminal
      rw [hchan.isOpen, if_neg Bool.false_ne_true]
      split
      · exact ⟨hchan.push _, hstage.finish (isTerminal_terminalEvent outcome elapsedMs)⟩
      · exact ⟨hchan, by rw [hs]; exact hstage⟩

/-- The consumer does not go away, and a panic finds room on the channel. -/
def PanicFindsRoom (t : ExecTask) (a : Action) : Prop :=
  a ≠ .disconnect ∧ ((∃ reason, a = .panic reason) → t.chan.hasRoom = true)

theorem taskShape_panic {reason : String} (hroom : t.chan.hasRoom = true)
    (hstep : step req t (.panic reason) = some t') (h : TaskShape t) : TaskShape t' := by
  have hpush : trySend t.chan (.error (panicError reason)) =
      t.chan.push (.error (panicError reason)) := by
    rw [trySend, h.chan.isOpen, if_neg Bool.false_ne_true, if_pos hroom]
  simp only [step] at hstep
  split at hstep
  case h_1 => cases hstep
  case h_2 hrunning =>
    obtain rfl := Option.some.inj hstep
    have hunfinished := unfinished_of_running h hrunning
    refine ⟨?_, ?_⟩
    · rw [hpush]
      exact h.chan.push _
    · show Finished (trySend t.chan (.error (panicError reason))).sent
      rw [hpush]
      exact hunfinished.finish rfl

theorem taskShape_step {a : Action} (hallowed : PanicFindsRoom t a)
    (hstep : step req t a = some t') (h : TaskShape t) : TaskShape t' := by
  cases a with
  | answer answer =>
      simp only [step] at hstep
      split at hstep
      case h_2 => cases hstep
      case h_1 hs =>
        obtain rfl := Option.some.inj hstep
        have hsent : t.chan.sent = [] := by
          have hstage := h.stage
          rw [hs] at hstage
          exact hstage
        refine ⟨h.chan, ?_⟩
        show StageShape t.chan.sent _
        rw [hsent]
        exact stageShape_start req.rowLimit answer
  | poll ready elapsedMs => exact taskShape_poll hstep h
  | panic reason => exact taskShape_panic (hallowed.2 ⟨reason, rfl⟩) hstep h
  | receive =>
      simp only [step] at hstep
      split at hstep
      case isTrue => cases hstep
      case isFalse =>
        obtain rfl := Option.some.inj hstep
        exact ⟨⟨h.chan.isOpen, h.chan.holds⟩, h.stage⟩
  | disconnect => exact absurd rfl hallowed.1
  | cancel =>
      obtain rfl := Option.some.inj hstep
      exact ⟨h.chan, h.stage⟩
  | expire =>
      obtain rfl := Option.some.inj hstep
      exact ⟨h.chan, h.stage⟩

theorem taskShape_run {acts : List Action} (hrun : Run (step req) PanicFindsRoom t acts t')
    (h : TaskShape t) : TaskShape t' :=
  hrun.invariant (fun _ _ _ hallowed hstep h => taskShape_step hallowed hstep h) h

/-! ## The stream ends -/

/-- Neither a panic nor the end of the consumer. -/
def Quiet : Action → Prop
  | .panic _ => False
  | .disconnect => False
  | _ => True

theorem run_quiet {a : Action} (hstep : step req t a = some t') (hquiet : Quiet a) :
    Run (step req) PanicFindsRoom t [a] t' := by
  refine .cons ⟨?_, ?_⟩ hstep (.nil t')
  · rintro rfl
    exact hquiet
  · rintro ⟨reason, rfl⟩
    exact hquiet.elim

theorem drain (req : TaskRequest) (n : Nat) (t : ExecTask) (hqueued : t.chan.queued = n) :
    ∃ acts, Run (step req) PanicFindsRoom t acts
      { t with chan := { t.chan with queued := 0 } } := by
  induction n generalizing t with
  | zero =>
      refine ⟨[], ?_⟩
      rw [← hqueued]
      exact .nil t
  | succ n ih =>
      have hstep : step req t .receive =
          some { t with chan := { t.chan with queued := t.chan.queued - 1 } } := by
        have hne : t.chan.queued ≠ 0 := by omega
        simp only [step]
        rw [if_neg hne]
      have hnext : t.chan.queued - 1 = n := by omega
      obtain ⟨acts, hrun⟩ :=
        ih { t with chan := { t.chan with queued := t.chan.queued - 1 } } hnext
      exact ⟨.receive :: acts, (run_quiet hstep trivial).append hrun⟩

theorem interrupted_of_expired (hexpired : t.expired = true) (timeoutSecs : Nat) :
    ∃ e, t.interrupted timeoutSecs = some e := by
  unfold ExecTask.interrupted
  rw [hexpired]
  cases t.cancelled with
  | true => exact ⟨.cancelled, rfl⟩
  | false => exact ⟨.timeout timeoutSecs, rfl⟩

theorem poll_leg_expired (req : TaskRequest) (hexpired : t.expired = true) {source : Leg} {phase : Phase}
    (hphase : Stage.ofPhase source phase = .leg source phase)
    (hshape : PhaseShape source t.chan.sent phase) :
    ∃ w outcome, Stream.step (req.stream source) (t.world phase) (.poll true 0) = some w ∧
      w.phase = .terminal outcome := by
  obtain ⟨e, he⟩ := interrupted_of_expired hexpired req.timeoutSecs
  have hw : (t.world phase).interrupted (req.stream source).timeoutSecs = some e := he
  cases phase with
  | terminal outcome => cases hphase
  | ended outcome => cases hphase
  | streaming s =>
      obtain ⟨⟨items, rfl⟩, -⟩ := hshape
      refine ⟨_, .error e, rfl, ?_⟩
      rw [pollStreaming, hw]
  | flushing pending info =>
      refine ⟨_, .ok info, rfl, ?_⟩
      rw [pollFlushing, hw]
  | document pending =>
      refine ⟨_, .error e, rfl, ?_⟩
      rw [pollDocument, hw]
  | executing result =>
      refine ⟨_, .error e, rfl, ?_⟩
      rw [pollExecuting, hw]

theorem poll_expired (req : TaskRequest) (h : TaskShape t) (hexpired : t.expired = true)
    (hstage : (∃ source phase, t.stage = .leg source phase) ∨
      ∃ pending info, t.stage = .slicing pending info) :
    ∃ t' outcome, step req t (.poll true 0) = some t' ∧ t'.stage = .terminal outcome := by
  have hshape := h.stage
  rcases hstage with ⟨source, phase, hs⟩ | ⟨pending, info, hs⟩
  · rw [hs] at hshape
    obtain ⟨w, outcome, hpoll, hw⟩ := poll_leg_expired req hexpired hshape.1 hshape.2
    refine ⟨t.after source w, outcome, ?_, ?_⟩
    · simp only [step, pollTask, hs, hpoll, Option.map_some]
    · simp only [ExecTask.after, hw, Stage.ofPhase]
  · obtain ⟨e, he⟩ := interrupted_of_expired hexpired req.timeoutSecs
    refine ⟨{ t with stage := .terminal (.error e) }, .error e, ?_, rfl⟩
    simp only [step, pollTask, hs, pollSlicing, he]

theorem reaches_terminal (req : TaskRequest) (h : TaskShape t)
    (hrunning : ∀ outcome, t.stage ≠ .ended outcome) :
    ∃ acts t' outcome, Run (step req) PanicFindsRoom t acts t' ∧
      t'.stage = .terminal outcome := by
  have hexpire : step req t .expire = some { t with expired := true } := rfl
  have hlate := run_quiet hexpire trivial
  have hshape := taskShape_run hlate h
  cases hs : t.stage with
  | opening =>
      have hanswer : step req t (.answer (.leg (.refused .cancelled))) =
          some { t with stage := .terminal (.error .cancelled) } := by
        simp only [step, hs, Answer.start, Leg.start, Stage.ofPhase]
      exact ⟨_, _, _, run_quiet hanswer trivial, rfl⟩
  | leg source phase =>
      obtain ⟨t', outcome, hstep, hs'⟩ :=
        poll_expired req hshape rfl (Or.inl ⟨source, phase, hs⟩)
      exact ⟨_, t', outcome, hlate.append (run_quiet hstep trivial), hs'⟩
  | slicing pending info =>
      obtain ⟨t', outcome, hstep, hs'⟩ :=
        poll_expired req hshape rfl (Or.inr ⟨pending, info, hs⟩)
      exact ⟨_, t', outcome, hlate.append (run_quiet hstep trivial), hs'⟩
  | terminal outcome => exact ⟨[], t, outcome, .nil t, hs⟩
  | ended outcome => exact absurd hs (hrunning outcome)

theorem send_of_room (req : TaskRequest) {outcome : Except StreamQueryError CompleteInfo}
    (h : TaskShape t) (hs : t.stage = .terminal outcome) (hroom : t.chan.hasRoom = true) :
    ∃ t', step req t (.poll true 0) = some t' ∧ t'.stage = .ended outcome := by
  refine ⟨{ t with chan := t.chan.push (terminalEvent outcome 0), stage := .ended outcome },
    ?_, rfl⟩
  simp only [step, pollTask, hs, sendTerminal, h.chan.isOpen, hroom, if_true,
    Bool.false_eq_true, if_false]

theorem can_end (req : TaskRequest) (h : TaskShape t) :
    ∃ acts t' outcome, Run (step req) PanicFindsRoom t acts t' ∧ t'.stage = .ended outcome ∧
      t'.chan.queued = 0 := by
  by_cases hended : ∃ outcome, t.stage = .ended outcome
  · obtain ⟨outcome, hs⟩ := hended
    obtain ⟨acts, hrun⟩ := drain req t.chan.queued t rfl
    exact ⟨acts, _, outcome, hrun, hs, rfl⟩
  · obtain ⟨acts, u, outcome, hrun, hs⟩ :=
      reaches_terminal req h fun outcome hs => hended ⟨outcome, hs⟩
    obtain ⟨acts', hdrain⟩ := drain req u.chan.queued u rfl
    have hempty := taskShape_run (hrun.append hdrain) h
    obtain ⟨v, hsend, hv⟩ := send_of_room req hempty hs (decide_eq_true hempty.chan.holds)
    obtain ⟨acts'', hlast⟩ := drain req v.chan.queued v rfl
    exact ⟨_, _, outcome, ((hrun.append hdrain).append (run_quiet hsend trivial)).append hlast,
      hv, rfl⟩

/-! ## One terminal event -/

/-- What the claims on the stream of an execution come to, for the runs with the allowed
steps: until it has ended there is no terminal event, once it has ended there is one and
it is the last, and it can always still end and be read to its end. -/
structure EndsOnce (req : TaskRequest) (allowed : ExecTask → Action → Prop) : Prop where
  running : ∀ acts t, Run (step req) allowed .init acts t →
    (∀ outcome, t.stage ≠ .ended outcome) → Unfinished t.chan.sent
  ended : ∀ acts t outcome, Run (step req) allowed .init acts t →
    t.stage = .ended outcome → Finished t.chan.sent
  ends : ∀ acts t, Run (step req) allowed .init acts t →
    ∃ more t' outcome, Run (step req) allowed t more t' ∧ t'.stage = .ended outcome ∧
      t'.chan.queued = 0

theorem endsOnce_of_panicFindsRoom (req : TaskRequest) : EndsOnce req PanicFindsRoom where
  running _ _ hrun hrunning := unfinished_of_running (taskShape_run hrun taskShape_init) hrunning
  ended acts t outcome hrun hs := by
    have hstage := (taskShape_run hrun taskShape_init).stage
    rw [hs] at hstage
    exact hstage
  ends _ _ hrun := can_end req (taskShape_run hrun taskShape_init)

/-- The consumer does not go away. -/
def KeepsReading (_ : ExecTask) (a : Action) : Prop := a ≠ .disconnect

/-! ## A panic with the channel full -/

/-- A long stream, whose rows are the same. -/
def nulls : Leg := .rows fun _ => .row ⟨["v"], [.null], none⟩

/-- The consumer has not read yet when the meta and three batches are on the channel; then
a row of the fourth makes the decoder panic. -/
def fullThenPanic : List Action :=
  .answer (.leg nulls) :: List.replicate 1504 (.poll true 0) ++ [.panic "not yet implemented"]

def endedSilently (t : ExecTask) : Bool :=
  t.chan.sent.all (fun event => !event.isTerminal) && match t.stage with
    | .ended _ => true
    | _ => false

theorem panic_full_silent : ¬ EndsOnce ⟨10000, 60⟩ KeepsReading := by
  intro hends
  have hsilent : ((exec (step ⟨10000, 60⟩) .init fullThenPanic).map endedSilently) =
      some true := by decide +kernel
  obtain ⟨t, hexec, ht⟩ := Option.map_eq_some_iff.mp hsilent
  rw [endedSilently, Bool.and_eq_true] at ht
  have hreads : ∀ a ∈ fullThenPanic, a ≠ .disconnect := by
    intro a ha
    rcases List.mem_append.mp ha with hbegin | hlast
    · rcases List.mem_cons.mp hbegin with rfl | hpoll
      · nofun
      · rw [(List.mem_replicate.mp hpoll).2]
        nofun
    · rw [List.mem_singleton.mp hlast]
      nofun
  have hrun := (run_of_exec hexec).of_forall_mem hreads
  cases hs : t.stage with
  | ended outcome =>
      obtain ⟨body, last, hsent, -, hlast⟩ := hends.ended _ _ outcome hrun hs
      have hnot := List.all_eq_true.mp ht.1 last (by rw [hsent]; simp)
      rw [hlast] at hnot
      cases hnot
  | _ =>
      rw [hs] at ht
      cases ht.2

end Dbmaster.Gateway.Terminal
