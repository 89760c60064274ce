import Dbmaster.Gateway.Delivery
/-!
# The batches of a row stream

A stream of rows that ends, whose consumer stays, is delivered as its meta and then its
first rows in batches, whatever the order in which the task and the consumer proceed.
-/

namespace Dbmaster.Gateway.Batches

open Dbmaster.Lib Dbmaster.Lib.Transition Dbmaster.Gateway.Stream Dbmaster.Gateway.Delivery

/-! ## The stream -/

/-- The rows, and then the end of the stream. -/
def sourceOf (rows : List MappedRow) (i : Nat) : StreamItem :=
  match rows[i]? with
  | some row => .row row
  | none => .done

def requestOf (rows : List MappedRow) (rowLimit timeoutSecs capacity : Nat) : Request where
  leg := .rows (sourceOf rows)
  rowLimit := rowLimit
  timeoutSecs := timeoutSecs
  capacity := capacity

/-- The task and the consumer, and nobody else. -/
def TaskOrConsumer : Action → Prop
  | .poll _ _ => True
  | .receive => True
  | _ => False

/-- What `stream_rows` has returned, before or after the terminal event. -/
def returned (w : World) : Option (Except StreamQueryError CompleteInfo) :=
  match w.phase with
  | .terminal outcome => some outcome
  | .ended outcome => some outcome
  | _ => none

theorem source_row {rows : List MappedRow} {i : Nat} {row : MappedRow}
    (h : sourceOf rows i = .row row) : rows[i]? = some row := by
  unfold sourceOf at h
  cases hget : rows[i]? with
  | none =>
      rw [hget] at h
      cases h
  | some found =>
      rw [hget] at h
      exact congrArg some (StreamItem.row.inj h)

theorem source_done {rows : List MappedRow} {i : Nat} (h : sourceOf rows i = .done) :
    rows.length ≤ i := by
  unfold sourceOf at h
  cases hget : rows[i]? with
  | none => exact List.getElem?_eq_none_iff.mp hget
  | some found =>
      rw [hget] at h
      cases h

theorem source_not_failed (rows : List MappedRow) (i : Nat) (e : StreamQueryError) :
    sourceOf rows i ≠ .failed e := by
  intro h
  unfold sourceOf at h
  cases hget : rows[i]? <;> rw [hget] at h <;> cases h

/-! ## Batches -/

/-- The column names and types come from the first row. -/
def metaOf : List MappedRow → StreamQueryEvent
  | [] => .metaEvent [] none
  | row :: _ => .metaEvent row.columns row.types

/-- The events are the meta and batches, none of them empty or too large; the first `n`
rows are those in the batches and those still held back. -/
def Filed (rows : List MappedRow) (n : Nat) (events : List StreamQueryEvent)
    (held : List Row) : Prop :=
  ∃ batches : List (List Row), events = metaOf rows :: batches.map .rows ∧
    (∀ batch ∈ batches, batch ≠ [] ∧ batch.length ≤ batchSize) ∧
    batches.flatten ++ held = (rows.take n).map MappedRow.values

variable {rows : List MappedRow} {n : Nat} {events : List StreamQueryEvent} {held : List Row}

theorem Filed.first {row : MappedRow} (h : rows[0]? = some row) :
    Filed rows 1 [.metaEvent row.columns row.types] [row.values] := by
  cases rows with
  | nil => cases h
  | cons head tail =>
      obtain rfl : head = row := Option.some.inj h
      refine ⟨[], rfl, ?_, rfl⟩
      intro batch hmem
      exact absurd hmem List.not_mem_nil

theorem Filed.none_taken (h : rows = []) : Filed rows 0 [.metaEvent [] none] [] := by
  subst h
  refine ⟨[], rfl, ?_, rfl⟩
  intro batch hmem
  exact absurd hmem List.not_mem_nil

theorem Filed.take (h : Filed rows n events held) {row : MappedRow} (hrow : rows[n]? = some row) :
    Filed rows (n + 1) events (held ++ [row.values]) := by
  obtain ⟨batches, hevents, hfine, hheld⟩ := h
  refine ⟨batches, hevents, hfine, ?_⟩
  calc batches.flatten ++ (held ++ [row.values])
      = (rows.take n).map MappedRow.values ++ [row.values] := by
        rw [← List.append_assoc, hheld]
    _ = (rows.take n ++ [row]).map MappedRow.values := by
        rw [List.map_append]
        rfl
    _ = (rows.take (n + 1)).map MappedRow.values := by
        rw [List.take_add_one, hrow]
        rfl

theorem Filed.send (h : Filed rows n events held) (hne : held ≠ [])
    (hsize : held.length ≤ batchSize) : Filed rows n (events ++ [.rows held]) [] := by
  obtain ⟨batches, hevents, hfine, hheld⟩ := h
  refine ⟨batches ++ [held], ?_, ?_, ?_⟩
  · rw [hevents, List.map_append]
    rfl
  · intro batch hmem
    rcases List.mem_append.mp hmem with hold | hnew
    · exact hfine batch hold
    · rw [List.mem_singleton.mp hnew]
      exact ⟨hne, hsize⟩
  · rw [List.flatten_append, List.append_nil, ← hheld]
    simp

/-! ## One turn of the loop -/

/-- The meta that has still to be sent. -/
def metaEvents (s : LoopState) : List StreamQueryEvent :=
  s.metaPending.toList.map fun m => .metaEvent m.1 m.2

/-- Nobody interrupts, and the consumer is there. -/
structure Undisturbed (capacity : Nat) (w : World) : Prop where
  isOpen : w.chan.closed = false
  capacity : w.chan.capacity = capacity
  cancelled : w.cancelled = false
  expired : w.expired = false

variable {req : Request} {w w' : World} {s : LoopState} {capacity : Nat}

theorem Undisturbed.interrupted (h : Undisturbed capacity w) (timeoutSecs : Nat) :
    w.interrupted timeoutSecs = none := by
  rw [World.interrupted, h.cancelled, h.expired]
  rfl

/-- What a turn of the loop does: it waits, or sends the meta, or sends the batch, or
takes an item; it does not wait when there is room and an item. -/
theorem pollStreaming_cases (h : Undisturbed capacity w) (source : Nat → StreamItem)
    (s : LoopState) (ready : Bool) :
    (pollStreaming req source w s ready = w ∧ (w.chan.hasRoom = true → ready = false)) ∨
    (∃ columns types, s.metaPending = some (columns, types) ∧
      pollStreaming req source w s ready =
        { w with
          chan := w.chan.push (.metaEvent columns types)
          phase := .streaming { s with metaPending := none } }) ∨
    (s.metaPending = none ∧ batchSize ≤ s.batch.length ∧
      pollStreaming req source w s ready =
        { w with
          chan := w.chan.push (.rows s.batch)
          phase := .streaming { s with batch := [] } }) ∨
    (s.batch.length < batchSize ∧ pollStreaming req source w s ready =
      { w with
        phase := match source s.rowCount with
          | .row row => s.takeRow req.rowLimit row
          | .failed e => .terminal (.error e)
          | .done => s.finish }) := by
  unfold pollStreaming
  rw [h.interrupted, h.isOpen, Bool.false_or]
  simp only [Bool.false_eq_true, if_false]
  by_cases hsend : ((s.metaPending.isSome || decide (batchSize ≤ s.batch.length)) &&
      w.chan.hasRoom) = true
  · rw [if_pos hsend]
    right
    cases hmeta : s.metaPending with
    | some m => exact Or.inl ⟨m.1, m.2, rfl, rfl⟩
    | none =>
        rw [hmeta, Option.isSome_none, Bool.false_or, Bool.and_eq_true, decide_eq_true_eq] at hsend
        exact Or.inr (Or.inl ⟨rfl, hsend.1, rfl⟩)
  · rw [if_neg hsend]
    by_cases htake : (decide (s.batch.length < batchSize) && ready) = true
    · rw [if_pos htake]
      right; right; right
      rw [Bool.and_eq_true, decide_eq_true_eq] at htake
      refine ⟨htake.1, ?_⟩
      cases source s.rowCount <;> rfl
    · rw [if_neg htake]
      left
      refine ⟨rfl, fun hroom => ?_⟩
      rw [hroom, Bool.and_true, Bool.or_eq_true, decide_eq_true_eq, not_or] at hsend
      have hbatch : s.batch.length < batchSize := by omega
      rw [decide_eq_true hbatch, Bool.true_and] at htake
      exact Bool.eq_false_iff.mpr htake

/-! ## What every turn keeps -/

/-- The account of a returned stream. -/
def Counted (rows : List MappedRow) (rowLimit : Nat) (info : CompleteInfo) : Prop :=
  info.rowCount = min rows.length rowLimit ∧ (info.truncated = false ↔ rows.length < rowLimit)

/-- The locals of the loop: no row was taken yet, or those taken are filed. -/
structure LoopOk (rows : List MappedRow) (rowLimit : Nat) (sent : List StreamQueryEvent)
    (s : LoopState) : Prop where
  truncated : s.truncated = false
  below : s.rowCount < rowLimit
  there : s.rowCount ≤ rows.length
  batch : s.batch.length ≤ batchSize
  filed : (s = .init ∧ sent = []) ∨
    (0 < s.rowCount ∧ Filed rows s.rowCount (sent ++ metaEvents s) s.batch)

def PhaseOk (rows : List MappedRow) (rowLimit : Nat) (sent : List StreamQueryEvent) :
    Phase → Prop
  | .streaming s => LoopOk rows rowLimit sent s
  | .flushing pending info =>
      Filed rows info.rowCount (sent ++ pending) [] ∧ Counted rows rowLimit info
  | .terminal outcome => ∃ info, outcome = .ok info ∧
      Filed rows info.rowCount sent [] ∧ Counted rows rowLimit info
  | .ended outcome => ∃ info events elapsedMs, outcome = .ok info ∧
      sent = events ++ [.complete info elapsedMs] ∧
      Filed rows info.rowCount events [] ∧ Counted rows rowLimit info
  | .document _ => False
  | .executing _ => False

variable {rowLimit timeoutSecs : Nat} {sent : List StreamQueryEvent}

theorem filed_flushEvents (h : Filed rows n (sent ++ metaEvents s) s.batch)
    (hrows : 0 < s.rowCount) (hbatch : s.batch.length ≤ batchSize) :
    Filed rows n (sent ++ s.flushEvents) [] := by
  have hflush : s.flushEvents =
      metaEvents s ++ if s.batch ≠ [] then [.rows s.batch]
        else if s.rowCount = 0 then [.metaEvent [] none] else [] := rfl
  rw [hflush, ← List.append_assoc]
  by_cases hempty : s.batch = []
  · rw [if_neg (not_not.mpr hempty), if_neg (by omega), List.append_nil]
    rw [hempty] at h
    exact h
  · rw [if_pos hempty]
    exact h.send hempty hbatch

theorem phaseOk_done (h : LoopOk rows rowLimit sent s) (hdone : sourceOf rows s.rowCount = .done) :
    PhaseOk rows rowLimit sent s.finish := by
  have hall : s.rowCount = rows.length := Nat.le_antisymm h.there (source_done hdone)
  have hbelow := h.below
  have hcounted : Counted rows rowLimit ⟨s.rowCount, s.truncated, none⟩ := by
    refine ⟨?_, fun _ => ?_, fun _ => h.truncated⟩
    · show s.rowCount = _
      omega
    · omega
  refine ⟨?_, hcounted⟩
  rcases h.filed with ⟨hinit, hsent⟩ | ⟨hrows, hfiled⟩
  · rw [hinit] at hall ⊢
    rw [hsent]
    exact .none_taken (List.length_eq_zero_iff.mp hall.symm)
  · exact filed_flushEvents hfiled hrows h.batch

theorem phaseOk_takeRow (h : LoopOk rows rowLimit sent s) {row : MappedRow}
    (hrow : sourceOf rows s.rowCount = .row row) (hroom : s.batch.length < batchSize) :
    PhaseOk rows rowLimit sent (s.takeRow rowLimit row) := by
  have hget := source_row hrow
  have hthere : s.rowCount < rows.length := (List.getElem?_eq_some_iff.mp hget).1
  have hbelow := h.below
  have hsize : (s.batch ++ [row.values]).length ≤ batchSize := by
    rw [List.length_append, List.length_singleton]
    omega
  -- the first row brings the meta, the others go behind it
  have hfiled : ∀ truncated, Filed rows (s.rowCount + 1) (sent ++ metaEvents
      ⟨s.rowCount + 1, truncated, s.batch ++ [row.values],
        if s.rowCount = 0 then some (row.columns, row.types) else s.metaPending⟩)
      (s.batch ++ [row.values]) := by
    intro truncated
    rcases h.filed with ⟨hinit, hsent⟩ | ⟨hrows, hfiled⟩
    · rw [hinit] at hget ⊢
      rw [hsent]
      exact .first hget
    · rw [if_neg (by omega)]
      exact hfiled.take hget
  unfold LoopState.takeRow
  simp only []
  split
  case isTrue hlimit =>
    refine ⟨filed_flushEvents (hfiled true) (Nat.succ_pos _) hsize, ?_, ?_⟩
    · show s.rowCount + 1 = _
      omega
    · refine ⟨fun h => absurd h Bool.noConfusion, fun h => ?_⟩
      omega
  case isFalse hlimit =>
    exact ⟨h.truncated, by show s.rowCount + 1 < _; omega, hthere, hsize,
      Or.inr ⟨Nat.succ_pos _, hfiled _⟩⟩

structure WorldOk (rows : List MappedRow) (rowLimit capacity : Nat) (w : World) : Prop where
  undisturbed : Undisturbed capacity w
  phase : PhaseOk rows rowLimit w.chan.sent w.phase

theorem WorldOk.streams (h : WorldOk rows rowLimit capacity w) :
    (∀ pending, w.phase ≠ .document pending) ∧ ∀ result, w.phase ≠ .executing result := by
  have hok := h.phase
  constructor
  · intro pending hphase
    rw [hphase] at hok
    exact hok
  · intro result hphase
    rw [hphase] at hok
    exact hok

theorem Undisturbed.push (h : Undisturbed capacity w) (event : StreamQueryEvent) (phase : Phase) :
    Undisturbed capacity { w with chan := w.chan.push event, phase := phase } :=
  ⟨h.isOpen, h.capacity, h.cancelled, h.expired⟩

theorem Undisturbed.pushAll (h : Undisturbed capacity w) (pending : List StreamQueryEvent)
    (phase : Phase) :
    Undisturbed capacity { w with chan := (w.chan.pushAll pending).1, phase := phase } := by
  have hkept : ∀ chan : Chan, (chan.pushAll pending).1.closed = chan.closed ∧
      (chan.pushAll pending).1.capacity = chan.capacity := by
    induction pending with
    | nil => exact fun chan => ⟨rfl, rfl⟩
    | cons event pending ih =>
        intro chan
        rw [Chan.pushAll]
        split
        · exact ih chan
        · split
          · exact ih (chan.push event)
          · exact ⟨rfl, rfl⟩
  exact ⟨(hkept w.chan).1.trans h.isOpen, (hkept w.chan).2.trans h.capacity, h.cancelled,
    h.expired⟩

theorem worldOk_pollStreaming (h : WorldOk rows rowLimit capacity w)
    (hphase : w.phase = .streaming s) (ready : Bool) :
    WorldOk rows rowLimit capacity
      (pollStreaming (requestOf rows rowLimit timeoutSecs capacity) (sourceOf rows) w s ready) := by
  obtain ⟨hquiet, hok⟩ := h
  have hloop : LoopOk rows rowLimit w.chan.sent s := by
    rw [hphase] at hok
    exact hok
  rcases pollStreaming_cases hquiet (sourceOf rows) s ready with
    ⟨hnext, -⟩ | ⟨columns, types, hmeta, hnext⟩ | ⟨hmeta, hfull, hnext⟩ | ⟨hroom, hnext⟩
  · rw [hnext]
    exact ⟨hquiet, hok⟩
  · rw [hnext]
    refine ⟨hquiet.push _ _, hloop.truncated, hloop.below, hloop.there, hloop.batch, ?_⟩
    rcases hloop.filed with ⟨hinit, -⟩ | ⟨hrows, hfiled⟩
    · rw [hinit] at hmeta
      cases hmeta
    · right
      refine ⟨hrows, ?_⟩
      have hevents : metaEvents s = [.metaEvent columns types] := by
        rw [metaEvents, hmeta]
        rfl
      rw [hevents] at hfiled
      show Filed rows s.rowCount ((w.chan.sent ++ [.metaEvent columns types]) ++ []) s.batch
      rw [List.append_nil]
      exact hfiled
  · rw [hnext]
    refine ⟨hquiet.push _ _, hloop.truncated, hloop.below, hloop.there, Nat.zero_le _, ?_⟩
    have hne : s.batch ≠ [] := by
      intro hempty
      rw [hempty] at hfull
      exact absurd hfull (by decide)
    rcases hloop.filed with ⟨hinit, -⟩ | ⟨hrows, hfiled⟩
    · rw [hinit] at hne
      exact absurd rfl hne
    · right
      refine ⟨hrows, ?_⟩
      have hevents : metaEvents s = [] := by
        rw [metaEvents, hmeta]
        rfl
      rw [hevents, List.append_nil] at hfiled
      show Filed rows s.rowCount ((w.chan.sent ++ [.rows s.batch]) ++ metaEvents s) []
      rw [hevents, List.append_nil]
      exact hfiled.send hne hloop.batch
  · rw [hnext]
    refine ⟨⟨hquiet.isOpen, hquiet.capacity, hquiet.cancelled, hquiet.expired⟩, ?_⟩
    cases hitem : sourceOf rows s.rowCount with
    | row row => exact phaseOk_takeRow hloop hitem hroom
    | failed e => exact absurd hitem (source_not_failed rows _ e)
    | done => exact phaseOk_done hloop hitem

theorem worldOk_pollFlushing {pending : List StreamQueryEvent} {info : CompleteInfo}
    (h : WorldOk rows rowLimit capacity w) (hphase : w.phase = .flushing pending info) :
    WorldOk rows rowLimit capacity (pollFlushing req w pending info) := by
  obtain ⟨hquiet, hok⟩ := h
  rw [hphase] at hok
  obtain ⟨hfiled, hcounted⟩ := hok
  obtain ⟨pushed, hsent, -, -, hall⟩ := pushAll_spec w.chan pending
  unfold pollFlushing
  rw [hquiet.interrupted]
  refine ⟨hquiet.pushAll pending _, ?_⟩
  have hafter : Filed rows info.rowCount
      ((w.chan.pushAll pending).1.sent ++ (w.chan.pushAll pending).2) [] := by
    rw [hsent, List.append_assoc, hall hquiet.isOpen]
    exact hfiled
  simp only []
  split
  case isTrue hempty =>
    rw [hempty, List.append_nil] at hafter
    exact ⟨info, rfl, hafter, hcounted⟩
  case isFalse => exact ⟨hafter, hcounted⟩

theorem worldOk_pollTerminal {outcome : Except StreamQueryError CompleteInfo} {elapsedMs : Nat}
    (h : WorldOk rows rowLimit capacity w) (hphase : w.phase = .terminal outcome) :
    WorldOk rows rowLimit capacity (pollTerminal w outcome elapsedMs) := by
  have hok := h.phase
  rw [hphase] at hok
  obtain ⟨info, rfl, hfiled, hcounted⟩ := hok
  unfold pollTerminal
  rw [h.undisturbed.isOpen, if_neg Bool.false_ne_true]
  split
  · exact ⟨h.undisturbed.push _ _, info, w.chan.sent, elapsedMs, rfl, rfl, hfiled, hcounted⟩
  · exact h

theorem WorldOk.polled (h : WorldOk rows rowLimit capacity w) {ready : Bool} {elapsedMs : Nat}
    (hstep : step (requestOf rows rowLimit timeoutSecs capacity) w (.poll ready elapsedMs) =
      some w') :
    (∃ s, w.phase = .streaming s ∧ w' = pollStreaming
      (requestOf rows rowLimit timeoutSecs capacity) (sourceOf rows) w s ready) ∨
    (∃ pending info, w.phase = .flushing pending info ∧
      w' = pollFlushing (requestOf rows rowLimit timeoutSecs capacity) w pending info) ∨
    ∃ outcome, w.phase = .terminal outcome ∧ w' = pollTerminal w outcome elapsedMs := by
  cases hphase : w.phase with
  | streaming s =>
      simp only [step, hphase, requestOf, Option.some.injEq] at hstep
      exact Or.inl ⟨s, rfl, hstep.symm⟩
  | flushing pending info =>
      simp only [step, hphase, Option.some.injEq] at hstep
      exact Or.inr (Or.inl ⟨pending, info, rfl, hstep.symm⟩)
  | terminal outcome =>
      simp only [step, hphase, Option.some.injEq] at hstep
      exact Or.inr (Or.inr ⟨outcome, rfl, hstep.symm⟩)
  | ended outcome => simp only [step, hphase, reduceCtorEq] at hstep
  | document pending => exact (h.streams.1 pending hphase).elim
  | executing result => exact (h.streams.2 result hphase).elim

theorem worldOk_step {a : Action} (hact : TaskOrConsumer a)
    (hstep : step (requestOf rows rowLimit timeoutSecs capacity) w a = some w')
    (h : WorldOk rows rowLimit capacity w) : WorldOk rows rowLimit capacity w' := by
  cases a with
  | poll ready elapsedMs =>
      rcases h.polled hstep with ⟨s, hphase, rfl⟩ | ⟨pending, info, hphase, rfl⟩ |
        ⟨outcome, hphase, rfl⟩
      · exact worldOk_pollStreaming h hphase ready
      · exact worldOk_pollFlushing h hphase
      · exact worldOk_pollTerminal h hphase
  | receive =>
      obtain ⟨-, rfl⟩ := step_receive hstep
      have hquiet := h.undisturbed
      exact ⟨⟨hquiet.isOpen, hquiet.capacity, hquiet.cancelled, hquiet.expired⟩, h.phase⟩
  | disconnect => exact hact.elim
  | cancel => exact hact.elim
  | expire => exact hact.elim

theorem worldOk_init (hlimit : 0 < rowLimit) :
    WorldOk rows rowLimit capacity (World.init (requestOf rows rowLimit timeoutSecs capacity)) where
  undisturbed := ⟨rfl, rfl, rfl, rfl⟩
  phase := ⟨rfl, hlimit, Nat.zero_le _, Nat.zero_le _, Or.inl ⟨rfl, rfl⟩⟩

theorem worldOk_run {acts : List Action} (hlimit : 0 < rowLimit)
    (hrun : Run (step (requestOf rows rowLimit timeoutSecs capacity))
      (fun _ a => TaskOrConsumer a) (World.init (requestOf rows rowLimit timeoutSecs capacity))
      acts w) : WorldOk rows rowLimit capacity w :=
  hrun.invariant (fun _ _ _ hact hstep h => worldOk_step hact hstep h) (worldOk_init hlimit)

/-! ## The loop comes to its end -/

/-- What is left to do for the task: a row is taken, sent in its batch and received. -/
def phaseWeight (rows : List MappedRow) : Phase → Nat
  | .streaming s => 8 * (rows.length - s.rowCount) + 2 * s.batch.length +
      2 * s.metaPending.toList.length + 10
  | .flushing pending _ => 2 * pending.length + 4
  | .terminal _ => 2
  | _ => 0

/-- What is left to do for the task and the consumer. -/
def weight (rows : List MappedRow) (w : World) : Nat := w.chan.queued + phaseWeight rows w.phase

theorem length_toList_le_one (m : Option (List String × Option (List String))) :
    m.toList.length ≤ 1 := by
  cases m with
  | none => exact Nat.zero_le 1
  | some m => exact Nat.le_refl 1

theorem length_flushEvents_le_two (s : LoopState) : s.flushEvents.length ≤ 2 := by
  have hmeta := length_toList_le_one s.metaPending
  unfold LoopState.flushEvents
  rw [List.length_append, List.length_map]
  split_ifs <;> simp only [List.length_singleton, List.length_nil] <;> omega

theorem phaseWeight_finish (s : LoopState) : phaseWeight rows s.finish ≤ 8 := by
  have hlen := length_flushEvents_le_two s
  show 2 * s.flushEvents.length + 4 ≤ 8
  omega

theorem phaseWeight_takeRow (hthere : s.rowCount < rows.length) (row : MappedRow) :
    phaseWeight rows (s.takeRow rowLimit row) < phaseWeight rows (.streaming s) := by
  have hold : phaseWeight rows (.streaming s) = 8 * (rows.length - s.rowCount) +
      2 * s.batch.length + 2 * s.metaPending.toList.length + 10 := rfl
  unfold LoopState.takeRow
  simp only []
  split
  case isTrue =>
    have hfinish := @phaseWeight_finish rows ⟨s.rowCount + 1, true, s.batch ++ [row.values],
      if s.rowCount = 0 then some (row.columns, row.types) else s.metaPending⟩
    omega
  case isFalse =>
    have hmeta := length_toList_le_one
      (if s.rowCount = 0 then some (row.columns, row.types) else s.metaPending)
    have hnew : phaseWeight rows (.streaming ⟨s.rowCount + 1, s.truncated,
        s.batch ++ [row.values],
        if s.rowCount = 0 then some (row.columns, row.types) else s.metaPending⟩) =
        8 * (rows.length - (s.rowCount + 1)) + 2 * (s.batch.length + 1) +
          2 * (if s.rowCount = 0 then some (row.columns, row.types)
            else s.metaPending).toList.length + 10 := by
      rw [phaseWeight, List.length_append, List.length_singleton]
    omega

theorem pollStreaming_lighter (h : WorldOk rows rowLimit capacity w)
    (hphase : w.phase = .streaming s) (ready : Bool) :
    (pollStreaming req (sourceOf rows) w s ready = w ∧ (w.chan.hasRoom = true → ready = false)) ∨
      weight rows (pollStreaming req (sourceOf rows) w s ready) < weight rows w := by
  have hold : weight rows w = w.chan.queued + (8 * (rows.length - s.rowCount) +
      2 * s.batch.length + 2 * s.metaPending.toList.length + 10) := by
    rw [weight, hphase]
    rfl
  rcases pollStreaming_cases h.undisturbed (sourceOf rows) s ready with
    ⟨hnext, hwait⟩ | ⟨columns, types, hmeta, hnext⟩ | ⟨hmeta, hfull, hnext⟩ | ⟨hroom, hnext⟩
  · exact Or.inl ⟨hnext, hwait⟩
  · right
    rw [hnext, hold, hmeta]
    show w.chan.queued + 1 + (8 * (rows.length - s.rowCount) + 2 * s.batch.length + 2 * 0 + 10) <
      w.chan.queued + (8 * (rows.length - s.rowCount) + 2 * s.batch.length + 2 * 1 + 10)
    omega
  · right
    rw [hnext, hold]
    show w.chan.queued + 1 + (8 * (rows.length - s.rowCount) + 2 * 0 +
      2 * s.metaPending.toList.length + 10) < _
    unfold batchSize at hfull
    omega
  · right
    rw [hnext]
    show w.chan.queued + phaseWeight rows _ < w.chan.queued + phaseWeight rows w.phase
    apply Nat.add_lt_add_left
    rw [hphase]
    cases hitem : sourceOf rows s.rowCount with
    | row row =>
        exact phaseWeight_takeRow (List.getElem?_eq_some_iff.mp (source_row hitem)).1 row
    | failed e => exact absurd hitem (source_not_failed rows _ e)
    | done =>
        have hfinish := @phaseWeight_finish rows s
        show phaseWeight rows s.finish < 8 * (rows.length - s.rowCount) + 2 * s.batch.length +
          2 * s.metaPending.toList.length + 10
        omega

theorem pushAll_moves {chan : Chan} (hopen : chan.closed = false)
    (pending : List StreamQueryEvent) :
    (chan.pushAll pending).1.queued + (chan.pushAll pending).2.length =
      chan.queued + pending.length := by
  induction pending generalizing chan with
  | nil => rfl
  | cons event pending ih =>
      rw [Chan.pushAll, hopen, if_neg Bool.false_ne_true]
      split
      · have hrest := @ih (chan.push event) hopen
        have hqueued : (chan.push event).queued = chan.queued + 1 := rfl
        rw [List.length_cons]
        omega
      · rfl

theorem pushAll_waits {chan : Chan} (hopen : chan.closed = false)
    (pending : List StreamQueryEvent) :
    (pending ≠ [] ∧ chan.pushAll pending = (chan, pending) ∧ chan.hasRoom = false) ∨
      (chan.pushAll pending).2 = [] ∨ (chan.pushAll pending).2.length < pending.length := by
  cases pending with
  | nil => exact Or.inr (Or.inl rfl)
  | cons event pending =>
      rw [Chan.pushAll, hopen, if_neg Bool.false_ne_true]
      by_cases hroom : chan.hasRoom = true
      · rw [if_pos hroom]
        right; right
        have hmoves := (pushAll_suffix (chan.push event) pending).length_le
        rw [List.length_cons]
        omega
      · rw [if_neg hroom]
        exact Or.inl ⟨List.cons_ne_nil _ _, rfl, Bool.eq_false_iff.mpr hroom⟩

theorem pollFlushing_lighter {pending : List StreamQueryEvent} {info : CompleteInfo}
    (h : Undisturbed capacity w) (hphase : w.phase = .flushing pending info) :
    (pollFlushing req w pending info = w ∧ w.chan.hasRoom = false) ∨
      weight rows (pollFlushing req w pending info) < weight rows w := by
  have hold : weight rows w = w.chan.queued + (2 * pending.length + 4) := by
    rw [weight, hphase]
    rfl
  have hmoves := pushAll_moves h.isOpen pending
  unfold pollFlushing
  rw [h.interrupted]
  simp only []
  rcases pushAll_waits h.isOpen pending with ⟨hne, hsame, hfull⟩ | hempty | hless
  · left
    rw [hsame, if_neg hne, ← hphase]
    exact ⟨rfl, hfull⟩
  · right
    rw [if_pos hempty, hold]
    show (w.chan.pushAll pending).1.queued + 2 < _
    omega
  · right
    rw [hold]
    split
    · show (w.chan.pushAll pending).1.queued + 2 < _
      omega
    · show (w.chan.pushAll pending).1.queued +
        (2 * (w.chan.pushAll pending).2.length + 4) < _
      omega

theorem pollTerminal_lighter {outcome : Except StreamQueryError CompleteInfo} {elapsedMs : Nat}
    (h : Undisturbed capacity w) (hphase : w.phase = .terminal outcome) :
    pollTerminal w outcome elapsedMs = w ∨
      weight rows (pollTerminal w outcome elapsedMs) < weight rows w := by
  unfold pollTerminal
  rw [h.isOpen, if_neg Bool.false_ne_true]
  split
  · right
    have hold : weight rows w = w.chan.queued + 2 := by
      rw [weight, hphase]
      rfl
    rw [hold]
    show w.chan.queued + 1 + 0 < _
    omega
  · exact Or.inl rfl

theorem receive_lighter (hstep : step req w .receive = some w') :
    weight rows w' < weight rows w := by
  obtain ⟨hqueued, rfl⟩ := step_receive hstep
  show w.chan.queued - 1 + phaseWeight rows w.phase < w.chan.queued + phaseWeight rows w.phase
  omega

/-- No step of the task or the consumer adds to what is left to do. -/
theorem step_lighter {a : Action} (hact : TaskOrConsumer a)
    (hstep : step (requestOf rows rowLimit timeoutSecs capacity) w a = some w')
    (h : WorldOk rows rowLimit capacity w) : w' = w ∨ weight rows w' < weight rows w := by
  cases a with
  | poll ready elapsedMs =>
      rcases h.polled hstep with ⟨s, hphase, rfl⟩ | ⟨pending, info, hphase, rfl⟩ |
        ⟨outcome, hphase, rfl⟩
      · exact (pollStreaming_lighter h hphase ready).imp_left And.left
      · exact (pollFlushing_lighter h.undisturbed hphase).imp_left And.left
      · exact pollTerminal_lighter h.undisturbed hphase
  | receive => exact Or.inr (receive_lighter hstep)
  | disconnect => exact hact.elim
  | cancel => exact hact.elim
  | expire => exact hact.elim

theorem poll_ready_lighter (h : WorldOk rows rowLimit capacity w) (hroom : w.chan.hasRoom = true)
    (hrunning : returned w = none) (elapsedMs : Nat) :
    ∃ w', step (requestOf rows rowLimit timeoutSecs capacity) w (.poll true elapsedMs) = some w' ∧
      weight rows w' < weight rows w := by
  cases hphase : w.phase with
  | streaming s =>
      refine ⟨pollStreaming (requestOf rows rowLimit timeoutSecs capacity) (sourceOf rows) w s true,
        by simp only [step, hphase, requestOf], ?_⟩
      rcases @pollStreaming_lighter rows (requestOf rows rowLimit timeoutSecs capacity) w s
        capacity rowLimit h hphase true with ⟨-, hwait⟩ | hless
      · exact absurd (hwait hroom) Bool.noConfusion
      · exact hless
  | flushing pending info =>
      refine ⟨pollFlushing (requestOf rows rowLimit timeoutSecs capacity) w pending info,
        by simp only [step, hphase], ?_⟩
      rcases @pollFlushing_lighter rows (requestOf rows rowLimit timeoutSecs capacity) w
        capacity pending info h.undisturbed hphase with ⟨-, hfull⟩ | hless
      · rw [hroom] at hfull
        cases hfull
      · exact hless
  | terminal outcome =>
      rw [returned, hphase] at hrunning
      cases hrunning
  | ended outcome =>
      rw [returned, hphase] at hrunning
      cases hrunning
  | document pending => exact (h.streams.1 pending hphase).elim
  | executing result => exact (h.streams.2 result hphase).elim

/-- Task and consumer both proceed again and again, and find an item when they do. -/
structure Fair (schedule : Nat → Action) : Prop where
  only : ∀ k, TaskOrConsumer (schedule k)
  task : ∀ k, ∃ j ≥ k, ∃ elapsedMs, schedule j = .poll true elapsedMs
  consumer : ∀ k, ∃ j ≥ k, schedule j = .receive

theorem run_trace {schedule : Nat → Action} (hfair : Fair schedule) (k : Nat) :
    ∃ acts, Run (step req) (fun _ a => TaskOrConsumer a) w acts
      (trace (step req) w schedule k) := by
  obtain ⟨acts, hrun⟩ := run_of_trace (step req) w schedule k
  refine ⟨acts, hrun.weaken ?_⟩
  rintro _ a ⟨j, rfl⟩
  exact hfair.only j

/-- A fair schedule brings the loop to its end. -/
theorem fair_returns {schedule : Nat → Action} (hfair : Fair schedule) (hlimit : 0 < rowLimit)
    (hcapacity : 0 < capacity) :
    ∃ k outcome, returned (trace (step (requestOf rows rowLimit timeoutSecs capacity))
      (World.init (requestOf rows rowLimit timeoutSecs capacity)) schedule k) = some outcome := by
  let req := requestOf rows rowLimit timeoutSecs capacity
  let states := trace (step req) (World.init req) schedule
  have hok : ∀ k, WorldOk rows rowLimit capacity (states k) := by
    intro k
    obtain ⟨acts, hrun⟩ := @run_trace req (World.init req) schedule hfair k
    exact worldOk_run hlimit hrun
  have hnext : ∀ k, states (k + 1) = (step req (states k) (schedule k)).getD (states k) :=
    fun _ => rfl
  have hdown : ∀ k, states (k + 1) = states k ∨
      weight rows (states (k + 1)) < weight rows (states k) := by
    intro k
    rw [hnext]
    cases hstep : step req (states k) (schedule k) with
    | none => exact Or.inl rfl
    | some w' => exact step_lighter (hfair.only k) hstep (hok k)
  have hmoves : ∀ k, ¬ (∃ outcome, returned (states k) = some outcome) →
      ∃ j ≥ k, states j = states k → states (j + 1) ≠ states k := by
    intro k hrunning
    have hnone : returned (states k) = none := by
      rw [Option.eq_none_iff_forall_not_mem]
      exact fun outcome hmem => hrunning ⟨outcome, hmem⟩
    have hlighter : ∀ j, states j = states k →
        (∃ w', step req (states k) (schedule j) = some w' ∧
          weight rows w' < weight rows (states k)) → states (j + 1) ≠ states k := by
      rintro j hkept ⟨w', hstep, hless⟩ hsame
      rw [hnext, hkept, hstep] at hsame
      rw [← hsame] at hless
      exact absurd hless (lt_irrefl _)
    by_cases hqueued : (states k).chan.queued = 0
    · obtain ⟨j, hj, elapsedMs, hpoll⟩ := hfair.task k
      refine ⟨j, hj, fun hkept => hlighter j hkept ?_⟩
      have hroom : (states k).chan.hasRoom = true := by
        rw [Chan.hasRoom, hqueued, (hok k).undisturbed.capacity]
        exact decide_eq_true hcapacity
      rw [hpoll]
      exact poll_ready_lighter (hok k) hroom hnone elapsedMs
    · obtain ⟨j, hj, hreceive⟩ := hfair.consumer k
      refine ⟨j, hj, fun hkept => hlighter j hkept ?_⟩
      rw [hreceive]
      have hstep : step req (states k) .receive = some { states k with
          chan := { (states k).chan with queued := (states k).chan.queued - 1 } } := by
        simp only [step]
        rw [if_neg hqueued]
      exact ⟨_, hstep, receive_lighter hstep⟩
  let goal : World → Prop := fun u => ∃ outcome, returned u = some outcome
  exact @exists_goal World states goal (weight rows) hdown hmoves

/-! ## What is delivered -/

/-- Of a stream of rows that ends, with the consumer there and nobody interrupting, one
meta is sent, then the first rows up to the limit in batches that are neither empty nor too
large; `Complete` counts them, and is not marked truncated only when the limit was not
reached.  A schedule on which the task and the consumer go on brings the loop there. -/
theorem rows_in_batches (rows : List MappedRow) (rowLimit timeoutSecs capacity : Nat)
    (hlimit : 1 ≤ rowLimit) (hcapacity : 1 ≤ capacity) :
    (∀ acts w outcome, Run (step (requestOf rows rowLimit timeoutSecs capacity))
        (fun _ a => TaskOrConsumer a) (World.init (requestOf rows rowLimit timeoutSecs capacity))
        acts w → returned w = some outcome →
      ∃ (info : CompleteInfo) (batches : List (List Row)) (last : List StreamQueryEvent),
        outcome = .ok info ∧
        w.chan.sent = metaOf rows :: batches.map .rows ++ last ∧
        (last = [] ∨ ∃ elapsedMs, last = [.complete info elapsedMs]) ∧
        (∀ batch ∈ batches, batch ≠ [] ∧ batch.length ≤ batchSize) ∧
        batches.flatten = (rows.take (min rows.length rowLimit)).map MappedRow.values ∧
        info.rowCount = min rows.length rowLimit ∧
        (info.truncated = false → rows.length < rowLimit)) ∧
    ∀ schedule, Fair schedule → ∃ k outcome,
      returned (trace (step (requestOf rows rowLimit timeoutSecs capacity))
        (World.init (requestOf rows rowLimit timeoutSecs capacity)) schedule k) =
          some outcome := by
  refine ⟨?_, fun schedule hfair => fair_returns hfair hlimit hcapacity⟩
  intro acts w outcome hrun hreturned
  have h := worldOk_run hlimit hrun
  have hok := h.phase
  cases hphase : w.phase with
  | terminal result =>
      rw [hphase] at hok
      rw [returned, hphase, Option.some.injEq] at hreturned
      obtain ⟨info, hinfo, ⟨batches, hsent, hfine, hflat⟩, hcount, htruncated⟩ := hok
      rw [List.append_nil, hcount] at hflat
      exact ⟨info, batches, [], hreturned.symm.trans hinfo, by rw [hsent, List.append_nil],
        Or.inl rfl, hfine, hflat, hcount, htruncated.mp⟩
  | ended result =>
      rw [hphase] at hok
      rw [returned, hphase, Option.some.injEq] at hreturned
      obtain ⟨info, events, elapsedMs, hinfo, hsent, ⟨batches, hevents, hfine, hflat⟩, hcount,
        htruncated⟩ := hok
      rw [List.append_nil, hcount] at hflat
      exact ⟨info, batches, [.complete info elapsedMs], hreturned.symm.trans hinfo,
        by rw [hsent, hevents], Or.inr ⟨elapsedMs, rfl⟩, hfine, hflat, hcount, htruncated.mp⟩
  | streaming s =>
      rw [returned, hphase] at hreturned
      cases hreturned
  | flushing pending info =>
      rw [returned, hphase] at hreturned
      cases hreturned
  | document pending => exact (h.streams.1 pending hphase).elim
  | executing result => exact (h.streams.2 result hphase).elim

/-- Three rows, of which two are asked for, over a channel that holds one event. -/
def threeRows : List MappedRow :=
  [⟨["id"], [.int 1], none⟩, ⟨["id"], [.int 2], none⟩, ⟨["id"], [.int 3], none⟩]

/-- The task and the consumer take turns. -/
def inTurn (k : Nat) : Action := if k % 2 = 0 then .poll true 0 else .receive

theorem fair_inTurn : Fair inTurn where
  only k := by
    unfold inTurn
    split <;> trivial
  task k := ⟨2 * k, by omega, 0, if_pos (by omega)⟩
  consumer k := ⟨2 * k + 1, by omega, if_neg (by omega)⟩

theorem rows_in_batches_two_of_three :
    ∃ (k : Nat) (acts : List Action) (info : CompleteInfo),
      Run (step (requestOf threeRows 2 30 1)) (fun _ a => TaskOrConsumer a)
        (World.init (requestOf threeRows 2 30 1)) acts
        (trace (step (requestOf threeRows 2 30 1)) (World.init (requestOf threeRows 2 30 1))
          inTurn k) ∧ info.rowCount = 2 := by
  obtain ⟨hdelivers, hreturns⟩ := rows_in_batches threeRows 2 30 1 (by decide) (by decide)
  obtain ⟨k, outcome, hreturned⟩ := hreturns inTurn fair_inTurn
  obtain ⟨acts, hrun⟩ := run_trace fair_inTurn k
  obtain ⟨info, -, -, -, -, -, -, -, hcount, -⟩ := hdelivers acts _ outcome hrun hreturned
  exact ⟨k, acts, info, hrun, hcount⟩

end Dbmaster.Gateway.Batches
