import Dbmaster.Gateway.Stream
import Mathlib.Data.List.Basic
import Mathlib.Tactic.ByContra
/-!
# What a completed stream delivered

`Complete` counts the rows taken from the target.  They have all been put on
the channel before it, unless the final flush was cut short, which drops at
most the last batch.
-/

namespace Dbmaster.Gateway.Delivery

open Dbmaster.Lib Dbmaster.Lib.Transition Dbmaster.Gateway.Stream

variable {req : Request} {w w' : World}

/-! ## Rows and events -/

@[simp] theorem delivered_nil : delivered [] = [] := rfl

@[simp] theorem delivered_append (xs ys : List StreamQueryEvent) :
    delivered (xs ++ ys) = delivered xs ++ delivered ys := by
  simp [delivered]

@[simp] theorem delivered_singleton (event : StreamQueryEvent) :
    delivered [event] = event.rowsOf := by
  simp [delivered]

theorem firstRows_succ {source : Nat → StreamItem} {n : Nat} {row : MappedRow}
    (h : source n = .row row) :
    (Leg.rows source).firstRows (n + 1) = (Leg.rows source).firstRows n ++ [row.values] := by
  simp [Leg.firstRows, List.range_succ, h]

theorem delivered_flushEvents (s : LoopState) : delivered s.flushEvents = s.batch := by
  have hmeta : delivered (s.metaPending.toList.map fun m => .metaEvent m.1 m.2) = [] := by
    cases s.metaPending <;> rfl
  unfold LoopState.flushEvents
  rw [delivered_append, hmeta, List.nil_append]
  split_ifs with hbatch hzero
  · rw [delivered_singleton]
    rfl
  · rw [not_not.mp hbatch]
    rfl
  · rw [not_not.mp hbatch]
    rfl

theorem flushEvents_not_terminal (s : LoopState) :
    ∀ event ∈ s.flushEvents, event.isTerminal = false := by
  intro event hmem
  unfold LoopState.flushEvents at hmem
  rcases List.mem_append.mp hmem with hmeta | hrest
  · obtain ⟨m, -, rfl⟩ := List.mem_map.mp hmeta
    rfl
  · split_ifs at hrest
    · rw [List.mem_singleton.mp hrest]
      rfl
    · rw [List.mem_singleton.mp hrest]
      rfl
    · cases hrest

/-- A row of sends puts a prefix of the events on the channel, all but the rest
unless it is closed. -/
theorem pushAll_spec (chan : Chan) (events : List StreamQueryEvent) :
    ∃ pushed, (chan.pushAll events).1.sent = chan.sent ++ pushed ∧
      (chan.pushAll events).1.closed = chan.closed ∧
      (∀ event ∈ pushed ++ (chan.pushAll events).2, event ∈ events) ∧
      (chan.closed = false → pushed ++ (chan.pushAll events).2 = events) := by
  induction events generalizing chan with
  | nil => exact ⟨[], by simp [Chan.pushAll]⟩
  | cons event events ih =>
      unfold Chan.pushAll
      split_ifs with hclosed hroom
      · obtain ⟨pushed, hsent, hstill, hmem, -⟩ := ih chan
        refine ⟨pushed, hsent, hstill, fun e he => List.mem_cons_of_mem _ (hmem e he), ?_⟩
        intro hopen
        rw [hclosed] at hopen
        cases hopen
      · obtain ⟨pushed, hsent, hstill, hmem, hall⟩ := ih (chan.push event)
        refine ⟨event :: pushed, ?_, hstill, ?_, ?_⟩
        · rw [hsent]
          simp [Chan.push]
        · intro e he
          rcases List.mem_cons.mp he with rfl | htail
          · exact List.mem_cons_self
          · exact List.mem_cons_of_mem _ (hmem e htail)
        · intro hopen
          rw [List.cons_append, hall hopen]
      · exact ⟨[], by simp⟩

theorem pushAll_suffix (chan : Chan) (events : List StreamQueryEvent) :
    (chan.pushAll events).2 <:+ events := by
  induction events generalizing chan with
  | nil => exact List.suffix_rfl
  | cons event events ih =>
      unfold Chan.pushAll
      split_ifs
      · exact (ih chan).trans (List.suffix_cons event events)
      · exact (ih (chan.push event)).trans (List.suffix_cons event events)
      · exact List.suffix_rfl

/-! ## The invariant -/

/-- `info` counts rows that are there, and all of them unless it is marked
truncated. -/
structure Counted (leg : Leg) (info : CompleteInfo) : Prop where
  count : (leg.firstRows info.rowCount).length = info.rowCount
  complete : info.truncated = false → leg.exhausted info.rowCount

/-- The events deliver the counted rows, up to a last batch when the flush was
cut. -/
def Accounts (leg : Leg) (events : List StreamQueryEvent) (cut : Bool)
    (info : CompleteInfo) : Prop :=
  ∃ dropped, leg.firstRows info.rowCount = delivered events ++ dropped ∧
    dropped.length ≤ batchSize ∧ (cut = false → dropped = [])

/-- Where the rows are that were taken from the target so far. -/
def PhaseOk (leg : Leg) (chan : Chan) (cut : Bool) : Phase → Prop
  | .streaming s =>
      (leg.firstRows s.rowCount).length = s.rowCount ∧
        delivered chan.sent ++ s.batch = leg.firstRows s.rowCount ∧
        s.batch.length ≤ batchSize ∧ s.truncated = false ∧ cut = false
  | .flushing pending info =>
      Counted leg info ∧ (delivered pending).length ≤ batchSize ∧ cut = false ∧
        (∀ event ∈ pending, event.isTerminal = false) ∧
        (chan.closed ∨ delivered chan.sent ++ delivered pending = leg.firstRows info.rowCount)
  | .document pending =>
      Counted leg ⟨1, false, none⟩ ∧ cut = false ∧
        (∀ event ∈ pending, event.isTerminal = false) ∧
        (chan.closed ∨ delivered chan.sent ++ delivered pending = leg.firstRows 1)
  | .executing _ =>
      delivered chan.sent = [] ∧ cut = false ∧ leg.firstRows 0 = [] ∧ leg.exhausted 0
  | .terminal (.ok info) =>
      Counted leg info ∧ (chan.closed ∨ Accounts leg chan.sent cut info)
  | .terminal (.error _) => True
  | .ended _ => True

/-- A `Complete` on the channel is the last event and accounts for its rows. -/
def Settled (leg : Leg) (cut : Bool) (sent : List StreamQueryEvent) : Prop :=
  ∀ before info elapsedMs after, sent = before ++ .complete info elapsedMs :: after →
    after = [] ∧ Counted leg info ∧ Accounts leg before cut info

def Phase.isEnded : Phase → Bool
  | .ended _ => true
  | _ => false

structure Inv (req : Request) (w : World) : Prop where
  phase : PhaseOk req.leg w.chan w.flushCut w.phase
  running : Phase.isEnded w.phase = false → ∀ event ∈ w.chan.sent, event.isTerminal = false
  settled : Settled req.leg w.flushCut w.chan.sent
  cut : w.flushCut = true → w.cancelled = true ∨ w.expired = true

theorem settled_of_not_terminal {leg : Leg} {cut : Bool} {sent : List StreamQueryEvent}
    (h : ∀ event ∈ sent, event.isTerminal = false) : Settled leg cut sent := by
  rintro before info elapsedMs after rfl
  have := h (.complete info elapsedMs) (by simp)
  cases this

theorem inv_init (req : Request) : Inv req (World.init req) where
  phase := by
    unfold World.init Leg.start
    cases req.leg with
    | rows source => exact ⟨rfl, rfl, Nat.zero_le _, rfl, rfl⟩
    | document json =>
        refine ⟨⟨rfl, fun _ => rfl⟩, rfl, ?_, .inr rfl⟩
        intro event hmem
        simp only [List.mem_cons, List.not_mem_nil, or_false] at hmem
        rcases hmem with rfl | rfl <;> rfl
    | execute result => exact ⟨rfl, rfl, rfl, rfl⟩
    | refused e => trivial
  running := fun _ event hmem => absurd hmem List.not_mem_nil
  settled := settled_of_not_terminal fun event hmem => absurd hmem List.not_mem_nil
  cut := fun h => absurd h (by simp [World.init])

/-! ## Steps -/

theorem Inv.environment (h : Inv req w) (hsent : w'.chan.sent = w.chan.sent)
    (hclosed : w.chan.closed = true → w'.chan.closed = true) (hphase : w'.phase = w.phase)
    (hcut : w'.flushCut = w.flushCut) (hcancelled : w.cancelled = true → w'.cancelled = true)
    (hexpired : w.expired = true → w'.expired = true) : Inv req w' where
  phase := by
    have hok := h.phase
    rw [hphase, hcut]
    cases hp : w.phase with
    | streaming s =>
        rw [hp] at hok
        simpa only [PhaseOk, hsent] using hok
    | flushing pending info =>
        rw [hp] at hok
        obtain ⟨h1, h2, h3, h4, h5⟩ := hok
        exact ⟨h1, h2, h3, h4, h5.imp hclosed (by rw [hsent]; exact id)⟩
    | document pending =>
        rw [hp] at hok
        obtain ⟨h1, h2, h3, h4⟩ := hok
        exact ⟨h1, h2, h3, h4.imp hclosed (by rw [hsent]; exact id)⟩
    | executing result =>
        rw [hp] at hok
        simpa only [PhaseOk, hsent] using hok
    | terminal outcome =>
        rw [hp] at hok
        cases outcome with
        | error e => trivial
        | ok info => exact ⟨hok.1, hok.2.imp hclosed (by rw [hsent]; exact id)⟩
    | ended outcome => trivial
  running := by
    rw [hphase, hsent]
    exact h.running
  settled := by
    rw [hcut, hsent]
    exact h.settled
  cut := by
    rw [hcut]
    exact fun hc => (h.cut hc).imp hcancelled hexpired

theorem Inv.advance (h : Inv req w) (hrunning : Phase.isEnded w.phase = false)
    (hphase : PhaseOk req.leg w'.chan w'.flushCut w'.phase)
    (hsent : ∃ pushed, w'.chan.sent = w.chan.sent ++ pushed ∧
      ∀ event ∈ pushed, event.isTerminal = false)
    (hcut : w'.flushCut = true → w'.cancelled = true ∨ w'.expired = true) : Inv req w' := by
  obtain ⟨pushed, hsent, hpushed⟩ := hsent
  have hall : ∀ event ∈ w'.chan.sent, event.isTerminal = false := by
    rw [hsent]
    intro event hmem
    rcases List.mem_append.mp hmem with hold | hnew
    · exact h.running hrunning event hold
    · exact hpushed event hnew
  exact ⟨hphase, fun _ => hall, settled_of_not_terminal hall, hcut⟩

theorem phaseOk_finish {source : Nat → StreamItem} {chan : Chan} {s : LoopState}
    (hcount : ((Leg.rows source).firstRows s.rowCount).length = s.rowCount)
    (hrows : delivered chan.sent ++ s.batch = (Leg.rows source).firstRows s.rowCount)
    (hbatch : s.batch.length ≤ batchSize)
    (hend : s.truncated = false → source s.rowCount = .done) :
    PhaseOk (.rows source) chan false s.finish := by
  have hflush := delivered_flushEvents s
  refine ⟨⟨hcount, hend⟩, ?_, rfl, flushEvents_not_terminal s, .inr ?_⟩
  · rw [hflush]
    exact hbatch
  · rw [hflush]
    exact hrows

theorem phaseOk_takeRow {source : Nat → StreamItem} {chan : Chan} {s : LoopState}
    {row : MappedRow} {rowLimit : Nat} (hrow : source s.rowCount = .row row)
    (hroom : s.batch.length < batchSize)
    (h : PhaseOk (.rows source) chan false (.streaming s)) :
    PhaseOk (.rows source) chan false (s.takeRow rowLimit row) := by
  obtain ⟨hcount, hrows, -, htruncated, -⟩ := h
  have hcount' : ((Leg.rows source).firstRows (s.rowCount + 1)).length = s.rowCount + 1 := by
    rw [firstRows_succ hrow, List.length_append, hcount]
    rfl
  have hrows' : delivered chan.sent ++ (s.batch ++ [row.values]) =
      (Leg.rows source).firstRows (s.rowCount + 1) := by
    rw [firstRows_succ hrow, ← hrows, List.append_assoc]
  have hbatch' : (s.batch ++ [row.values]).length ≤ batchSize := by
    rw [List.length_append, List.length_singleton]
    omega
  unfold LoopState.takeRow
  by_cases hlimit : max rowLimit 1 ≤ s.rowCount + 1
  · rw [if_pos hlimit]
    exact phaseOk_finish hcount' hrows' hbatch' (fun h => absurd h (by simp))
  · rw [if_neg hlimit]
    exact ⟨hcount', hrows', hbatch', htruncated, rfl⟩

theorem inv_pollStreaming {source : Nat → StreamItem} {s : LoopState} {ready : Bool}
    (hleg : req.leg = .rows source) (hphase : w.phase = .streaming s) (h : Inv req w) :
    Inv req (pollStreaming req source w s ready) := by
  have hrunning : Phase.isEnded w.phase = false := by rw [hphase]; rfl
  have hok := h.phase
  rw [hphase, hleg] at hok
  have hcut : w.flushCut = false := hok.2.2.2.2
  rw [hcut] at hok
  obtain ⟨hcount, hrows, hbatch, htruncated, -⟩ := id hok
  have hnocut : w.flushCut = true → w.cancelled = true ∨ w.expired = true := h.cut
  unfold pollStreaming
  split
  · exact h.advance hrunning trivial ⟨[], by simp⟩ hnocut
  split_ifs with hready hclosed hitem
  · exact h
  · split
    · refine h.advance hrunning ?_ ⟨[_], rfl, by simp [StreamQueryEvent.isTerminal]⟩ hnocut
      rw [hleg]
      refine ⟨hcount, ?_, hbatch, htruncated, hcut⟩
      simpa [Chan.push, StreamQueryEvent.rowsOf] using hrows
    · refine h.advance hrunning ?_ ⟨[_], rfl, by simp [StreamQueryEvent.isTerminal]⟩ hnocut
      rw [hleg]
      refine ⟨hcount, ?_, Nat.zero_le _, htruncated, hcut⟩
      simpa [Chan.push, StreamQueryEvent.rowsOf] using hrows
  · simp only [Bool.and_eq_true, decide_eq_true_eq] at hitem
    split
    case h_1 row hrow =>
      refine h.advance hrunning ?_ ⟨[], by simp⟩ hnocut
      rw [hleg]
      show PhaseOk _ _ w.flushCut _
      rw [hcut]
      exact phaseOk_takeRow hrow hitem.1 hok
    case h_2 e hfailed => exact h.advance hrunning trivial ⟨[], by simp⟩ hnocut
    case h_3 hdone =>
      refine h.advance hrunning ?_ ⟨[], by simp⟩ hnocut
      rw [hleg]
      show PhaseOk _ _ w.flushCut _
      rw [hcut]
      exact phaseOk_finish hcount hrows hbatch fun _ => hdone
  · exact h

theorem pushAll_account {chan : Chan} {pending : List StreamQueryEvent} {rows : List Row}
    (hpending : ∀ event ∈ pending, event.isTerminal = false)
    (hrows : chan.closed ∨ delivered chan.sent ++ delivered pending = rows) :
    (∀ event ∈ (chan.pushAll pending).2, event.isTerminal = false) ∧
      ((chan.pushAll pending).1.closed ∨
        delivered (chan.pushAll pending).1.sent ++ delivered (chan.pushAll pending).2 = rows) ∧
      ∃ pushed, (chan.pushAll pending).1.sent = chan.sent ++ pushed ∧
        ∀ event ∈ pushed, event.isTerminal = false := by
  obtain ⟨pushed, hsent, hclosed, hmem, hall⟩ := pushAll_spec chan pending
  refine ⟨fun e he => hpending e (hmem e (List.mem_append_right _ he)), ?_,
    pushed, hsent, fun e he => hpending e (hmem e (List.mem_append_left _ he))⟩
  rcases hrows with hwas | heq
  · exact .inl (by rw [hclosed]; exact hwas)
  · by_cases hopen : chan.closed = false
    · right
      rw [hsent, delivered_append, List.append_assoc, ← delivered_append, hall hopen, heq]
    · left
      rw [hclosed]
      exact Bool.not_eq_false _ ▸ hopen

theorem phaseOk_flushed {leg : Leg} {chan : Chan} {cut : Bool} {info : CompleteInfo}
    {rest : List StreamQueryEvent} (hcounted : Counted leg info)
    (haccount : chan.closed ∨ delivered chan.sent ++ delivered rest = leg.firstRows info.rowCount)
    (hempty : rest = []) : PhaseOk leg chan cut (.terminal (.ok info)) := by
  refine ⟨hcounted, haccount.imp id fun heq => ⟨[], ?_, Nat.zero_le _, fun _ => rfl⟩⟩
  rw [hempty, delivered_nil] at heq
  exact heq.symm

theorem interrupted_eq_some {timeoutSecs : Nat} {e : StreamQueryError}
    (h : w.interrupted timeoutSecs = some e) : w.cancelled = true ∨ w.expired = true := by
  unfold World.interrupted at h
  split_ifs at h with hcancelled hexpired
  · exact .inl hcancelled
  · exact .inr hexpired

theorem inv_pollFlushing {pending : List StreamQueryEvent} {info : CompleteInfo}
    (hphase : w.phase = .flushing pending info) (h : Inv req w) :
    Inv req (pollFlushing req w pending info) := by
  have hrunning : Phase.isEnded w.phase = false := by rw [hphase]; rfl
  have hok := h.phase
  rw [hphase] at hok
  obtain ⟨hcounted, hlength, hcut, hpending, hrows⟩ := hok
  unfold pollFlushing
  split
  case h_1 e hinterrupted =>
      refine h.advance hrunning ⟨hcounted, hrows.imp id fun heq => ?_⟩ ⟨[], by simp⟩
        fun _ => interrupted_eq_some hinterrupted
      exact ⟨delivered pending, heq.symm, hlength, fun hf => absurd hf (by simp)⟩
  case h_2 =>
      obtain ⟨hrest, haccount, hpushed⟩ := pushAll_account hpending hrows
      refine h.advance hrunning ?_ hpushed h.cut
      dsimp only
      split_ifs with hempty
      · exact phaseOk_flushed hcounted haccount hempty
      · refine ⟨hcounted, ?_, hcut, hrest, haccount⟩
        obtain ⟨done, hdone⟩ := pushAll_suffix w.chan pending
        have hsplit := congrArg (fun events => (delivered events).length) hdone
        simp only [delivered_append, List.length_append] at hsplit
        omega

theorem inv_pollDocument {pending : List StreamQueryEvent}
    (hphase : w.phase = .document pending) (h : Inv req w) :
    Inv req (pollDocument req w pending) := by
  have hrunning : Phase.isEnded w.phase = false := by rw [hphase]; rfl
  have hok := h.phase
  rw [hphase] at hok
  obtain ⟨hcounted, hcut, hpending, hrows⟩ := hok
  unfold pollDocument
  split
  · exact h.advance hrunning trivial ⟨[], by simp⟩ h.cut
  · obtain ⟨hrest, haccount, hpushed⟩ := pushAll_account hpending hrows
    refine h.advance hrunning ?_ hpushed h.cut
    dsimp only
    split_ifs with hempty
    · exact phaseOk_flushed hcounted haccount hempty
    · exact ⟨hcounted, hcut, hrest, haccount⟩

theorem inv_pollExecuting {result : Except StreamQueryError Nat} {ready : Bool}
    (hphase : w.phase = .executing result) (h : Inv req w) :
    Inv req (pollExecuting req w result ready) := by
  have hrunning : Phase.isEnded w.phase = false := by rw [hphase]; rfl
  have hok := h.phase
  rw [hphase] at hok
  obtain ⟨hdelivered, hcut, hrows, hend⟩ := hok
  unfold pollExecuting
  split
  · exact h.advance hrunning trivial ⟨[], by simp⟩ h.cut
  · split_ifs
    · refine h.advance hrunning ?_ ⟨[], by simp⟩ h.cut
      cases result with
      | error e => trivial
      | ok affected =>
          refine ⟨⟨by rw [hrows]; rfl, fun _ => hend⟩, .inr ⟨[], ?_, Nat.zero_le _, fun _ => rfl⟩⟩
          rw [hrows, hdelivered]
          rfl
    · exact h

theorem split_at_terminal {sent before after : List StreamQueryEvent}
    {last event : StreamQueryEvent} (hsent : ∀ e ∈ sent, e.isTerminal = false)
    (hevent : event.isTerminal = true) (h : sent ++ [last] = before ++ event :: after) :
    sent = before ∧ last = event ∧ after = [] := by
  rcases List.eq_nil_or_concat after with rfl | ⟨middle, final, rfl⟩
  · have hinj := List.append_inj' h rfl
    exact ⟨hinj.1, List.singleton_inj.mp hinj.2, rfl⟩
  · have hlist : sent ++ [last] = (before ++ event :: middle) ++ [final] := by
      simpa using h
    have hmem : event ∈ sent := by
      rw [(List.append_inj' hlist rfl).1]
      simp
    rw [hsent event hmem] at hevent
    cases hevent

theorem inv_pollTerminal {outcome : Except StreamQueryError CompleteInfo} {elapsedMs : Nat}
    (hphase : w.phase = .terminal outcome) (h : Inv req w) :
    Inv req (pollTerminal w outcome elapsedMs) := by
  have hrunning : Phase.isEnded w.phase = false := by rw [hphase]; rfl
  have hok := h.phase
  rw [hphase] at hok
  unfold pollTerminal
  split_ifs with hclosed hroom
  · exact ⟨trivial, fun hf => absurd hf (by simp [Phase.isEnded]), h.settled, h.cut⟩
  · refine ⟨trivial, fun hf => absurd hf (by simp [Phase.isEnded]), ?_, h.cut⟩
    intro before info ms after hsent
    have hsent' : w.chan.sent ++ [terminalEvent outcome elapsedMs] =
        before ++ .complete info ms :: after := hsent
    obtain ⟨hbefore, hlast, hafter⟩ := split_at_terminal (h.running hrunning) rfl hsent'
    subst hbefore
    cases outcome with
    | error e => cases hlast
    | ok info' =>
        cases hlast
        obtain ⟨hcounted, hclosed' | haccount⟩ := hok
        · exact absurd hclosed' hclosed
        · exact ⟨hafter, hcounted, haccount⟩
  · exact h

theorem inv_step {a : Action} (hstep : step req w a = some w') (h : Inv req w) :
    Inv req w' := by
  cases a with
  | poll ready elapsedMs =>
      simp only [step] at hstep
      split at hstep
      case h_1 s hphase =>
        split at hstep
        case h_1 source hleg =>
          cases hstep
          exact inv_pollStreaming hleg hphase h
        case h_2 => cases hstep
      case h_2 pending info hphase =>
        cases hstep
        exact inv_pollFlushing hphase h
      case h_3 pending hphase =>
        cases hstep
        exact inv_pollDocument hphase h
      case h_4 result hphase =>
        cases hstep
        exact inv_pollExecuting hphase h
      case h_5 outcome hphase =>
        cases hstep
        exact inv_pollTerminal hphase h
      case h_6 => cases hstep
  | receive =>
      obtain ⟨-, rfl⟩ := step_receive hstep
      exact h.environment rfl id rfl rfl id id
  | disconnect =>
      cases hstep
      exact h.environment rfl (fun _ => rfl) rfl rfl id id
  | cancel =>
      cases hstep
      exact h.environment rfl id rfl rfl (fun _ => rfl) id
  | expire =>
      cases hstep
      exact h.environment rfl id rfl rfl id (fun _ => rfl)

theorem inv_run {acts : List Action} (hrun : RunsFrom req acts w) : Inv req w :=
  Run.invariant (fun _ _ _ _ hstep => inv_step hstep) hrun (inv_init req)

/-! ## The count of a completed stream -/

/-- The count of every `Complete` is what the events before it delivered. -/
def CountsDelivered (leg : Leg) (sent : List StreamQueryEvent) : Prop :=
  ∀ before info elapsedMs after, sent = before ++ .complete info elapsedMs :: after →
    (delivered before).length = info.rowCount ∧
      delivered before = leg.firstRows info.rowCount ∧
      (info.truncated = false → leg.exhausted info.rowCount)

/-- A stream of one row. -/
def oneRow : Request where
  leg := .rows fun i => if i = 0 then .row ⟨["id"], [.int 1], none⟩ else .done
  rowLimit := 10
  timeoutSecs := 30
  capacity := 4

/-- The client cancels between the end of the stream and the flush. -/
def cancelBeforeFlush : List Action :=
  [.poll true 0, .poll true 0, .poll true 0, .cancel, .poll true 0, .poll true 1]

/-- Then `Complete` counts the row, which was never put on the channel. -/
theorem cancelled_flush_uncounted :
    ¬ ∀ req acts w, RunsFrom req acts w → CountsDelivered req.leg w.chan.sent := by
  intro hall
  have hrun : RunsFrom oneRow cancelBeforeFlush _ := run_of_exec rfl
  have hcount := hall _ _ _ hrun [.metaEvent ["id"] none] ⟨1, false, none⟩ 1 [] rfl
  exact absurd hcount.1 (by decide)

/-- When `Complete` is on the channel, it is the last event; the rows before it
are the first rows of the answer, in order, all those it counts unless the
cancellation or the deadline cut the final flush, which drops at most the last
batch; and an untruncated answer has no further rows. -/
theorem complete_accounts_for_rows {acts : List Action} (hrun : RunsFrom req acts w)
    (before : List StreamQueryEvent) (info : CompleteInfo) (elapsedMs : Nat)
    (after : List StreamQueryEvent)
    (hsent : w.chan.sent = before ++ .complete info elapsedMs :: after) :
    after = [] ∧
      (∃ dropped, req.leg.firstRows info.rowCount = delivered before ++ dropped ∧
        dropped.length ≤ batchSize ∧
        (dropped ≠ [] → w.flushCut = true ∧ (w.cancelled = true ∨ w.expired = true))) ∧
      (req.leg.firstRows info.rowCount).length = info.rowCount ∧
      (info.truncated = false → req.leg.exhausted info.rowCount) := by
  have hinv := inv_run hrun
  obtain ⟨hlast, hcounted, dropped, hrows, hlength, hcut⟩ :=
    hinv.settled before info elapsedMs after hsent
  refine ⟨hlast, ⟨dropped, hrows, hlength, fun hdropped => ?_⟩,
    hcounted.count, hcounted.complete⟩
  have hflush : w.flushCut = true := by
    by_contra hno
    exact hdropped (hcut (Bool.not_eq_true _ ▸ hno))
  exact ⟨hflush, hinv.cut hflush⟩

/-- A stream of three rows. -/
def threeRows : Request where
  leg := .rows fun i => if i < 3 then .row ⟨["id"], [.int i], none⟩ else .done
  rowLimit := 10
  timeoutSecs := 30
  capacity := 4

/-- Left alone, it delivers the three rows that it counts, and there are no more. -/
theorem complete_accounts_for_threeRows : ∃ w : World,
    RunsFrom threeRows (List.replicate 6 (.poll true 0) ++ [.poll true 1]) w ∧
      ∃ before, w.chan.sent = before ++ [.complete ⟨3, false, none⟩ 1] ∧
        delivered before = threeRows.leg.firstRows 3 ∧
        delivered before = [[.int 0], [.int 1], [.int 2]] ∧ threeRows.leg.exhausted 3 := by
  have hrun : RunsFrom threeRows (List.replicate 6 (.poll true 0) ++ [.poll true 1]) _ :=
    run_of_exec rfl
  refine ⟨_, hrun, [.metaEvent ["id"] none, .rows [[.int 0], [.int 1], [.int 2]]], rfl, ?_⟩
  obtain ⟨-, ⟨dropped, hrows, -, hcut⟩, -, hend⟩ := complete_accounts_for_rows hrun
    [.metaEvent ["id"] none, .rows [[.int 0], [.int 1], [.int 2]]] ⟨3, false, none⟩ 1 [] rfl
  have hnone : dropped = [] := by
    by_contra hdropped
    exact absurd (hcut hdropped).1 (by decide)
  rw [hnone, List.append_nil] at hrows
  exact ⟨hrows.symm, rfl, hend rfl⟩

end Dbmaster.Gateway.Delivery
