import Dbmaster.NativeCollector.OneSource
import Mathlib.Data.List.Chain
/-!
# Counts of digest differences

What the differences of the snapshots of a digest table add up to: never more than was
executed, and all that a statement's counter grew by where no counter goes back.
-/

namespace Dbmaster.NativeCollector.Counting

open Dbmaster.Lib.Transition
open Dbmaster.NativeCollector.Digest Dbmaster.NativeCollector.Collector
open Dbmaster.NativeCollector.OneSource

variable {T : Type}

/-! ## Deltas by key -/

def keyedDeltas (prev : Option PsSnapshot) (cur : List DigestRow) :
    List (List Char × PsDelta) :=
  match prev with
  | none => []
  | some prev =>
      if wentBack prev cur then []
      else cur.filterMap fun row => (diffRow prev row).map fun delta => (row.key, delta)

def emittedCount (key : List Char) (deltas : List (List Char × PsDelta)) : Int :=
  ((deltas.filter fun d => decide (d.1 = key)).map fun d => d.2.count).sum

/-- What the difference of a row counts. -/
def gain (prev : PsSnapshot) (row : DigestRow) : Int :=
  ((diffRow prev row).map PsDelta.count).getD 0

theorem keyedDeltas_snd (prev : Option PsSnapshot) (cur : List DigestRow) :
    (keyedDeltas prev cur).map Prod.snd = diffPsSnapshots prev cur := by
  cases prev with
  | none => rfl
  | some prev =>
      unfold keyedDeltas diffPsSnapshots
      dsimp only
      split_ifs
      · rfl
      · rw [List.map_filterMap]
        congr 1
        funext row
        rw [Option.map_map]
        exact Option.map_id' ..

theorem emittedCount_append (key : List Char) (deltas deltas' : List (List Char × PsDelta)) :
    emittedCount key (deltas ++ deltas') = emittedCount key deltas + emittedCount key deltas' := by
  rw [emittedCount, List.filter_append, List.map_append, List.sum_append]
  rfl

/-- The deltas of the rows one by one. -/
theorem emittedCount_rows (prev : PsSnapshot) (key : List Char) (rows : List DigestRow) :
    emittedCount key (rows.filterMap fun row =>
        (diffRow prev row).map fun delta => (row.key, delta)) =
      ((rows.filter fun row => decide (row.key = key)).map (gain prev)).sum := by
  induction rows with
  | nil => rfl
  | cons row rows ih =>
      have hsplit : emittedCount key ((row :: rows).filterMap fun row =>
          (diffRow prev row).map fun delta => (row.key, delta)) =
          (if row.key = key then gain prev row else 0) + emittedCount key (rows.filterMap fun row =>
            (diffRow prev row).map fun delta => (row.key, delta)) := by
        rw [List.filterMap_cons]
        unfold gain
        cases diffRow prev row with
        | none => simp
        | some delta =>
            by_cases hkey : row.key = key
            · simp [emittedCount, hkey]
            · simp [emittedCount, hkey]
      rw [hsplit, ih, List.filter_cons]
      by_cases hkey : row.key = key
      · rw [if_pos hkey, if_pos (decide_eq_true hkey), List.map_cons, List.sum_cons]
      · rw [if_neg hkey, if_neg (by simpa using hkey), zero_add]

/-- Where the keys are distinct, the row of a key counts alone. -/
theorem sum_filter_key {f : DigestRow → Int} {rows : List DigestRow}
    (hdistinct : (rows.map DigestRow.key).Nodup) {row : DigestRow} (hrow : row ∈ rows) :
    ((rows.filter fun r => decide (r.key = row.key)).map f).sum = f row := by
  induction rows with
  | nil => exact absurd hrow List.not_mem_nil
  | cons first rows ih =>
      rw [List.map_cons, List.nodup_cons] at hdistinct
      obtain ⟨hfirst, hrest⟩ := hdistinct
      rcases List.mem_cons.mp hrow with rfl | hmem
      · have hnone : (rows.filter fun r => decide (r.key = row.key)) = [] := by
          rw [List.filter_eq_nil_iff]
          intro r hr hkey
          exact hfirst (of_decide_eq_true hkey ▸ List.mem_map_of_mem hr)
        rw [List.filter_cons, if_pos (decide_eq_true rfl), hnone, List.map_cons, List.sum_cons,
          List.map_nil, List.sum_nil, add_zero]
      · have hne : first.key ≠ row.key := fun heq => hfirst (heq ▸ List.mem_map_of_mem hmem)
        rw [List.filter_cons_of_neg (by simpa using hne)]
        exact ih hrest hmem

theorem gain_of_get {prev : PsSnapshot} {row : DigestRow} {pc ptotal : Int}
    (h : prev.get row.key = some (pc, ptotal)) : gain prev row = max (row.countStar - pc) 0 := by
  unfold gain diffRow
  rw [h]
  dsimp only
  split_ifs with hle
  · exact (max_eq_right hle).symm
  · show row.countStar - pc = max (row.countStar - pc) 0
    omega

theorem gain_of_get_none {prev : PsSnapshot} {row : DigestRow} (h : prev.get row.key = none) :
    gain prev row = 0 := by
  unfold gain diffRow
  rw [h]
  rfl

/-- A snapshot knows the rows it was taken of. -/
theorem get_snapshotOf_of_mem {t : Nat} {rows : List DigestRow}
    (hdistinct : (rows.map DigestRow.key).Nodup) {row : DigestRow} (hrow : row ∈ rows) :
    ∃ ptotal, (snapshotOf t rows).get row.key = some (row.countStar, ptotal) := by
  have hsome : ((snapshotOf t rows).get row.key).isSome = true := by
    rw [PsSnapshot.get, Option.isSome_map, List.find?_isSome]
    refine ⟨(row.key, row.countStar, row.totalMs), ?_, decide_eq_true rfl⟩
    exact List.mem_reverse.mpr (List.mem_map_of_mem hrow)
  obtain ⟨⟨pc, ptotal⟩, hget⟩ := Option.isSome_iff_exists.mp hsome
  obtain ⟨other, hother, hkey, hcount⟩ := get_snapshotOf hget
  have hsame := List.inj_on_of_nodup_map hdistinct hother hrow hkey
  refine ⟨ptotal, ?_⟩
  rw [hget, ← hcount, hsame]

/-! ## A history and its snapshots -/

/-- A part of the digest table, in some order. -/
structure Selection (T : Type) where
  pick : List (DigestEntry T) → List (DigestEntry T)
  part : ∀ entries, (pick entries).Subperm entries

/-- What the collector reads. -/
def topSelection (a : Answers T) : Selection T where
  pick entries :=
    topDigests { State.initial with server := { Server.initial with digests := entries } } a
  part _ := (List.take_sublist _ _).subperm.trans (List.perm_insertionSort _ _).subperm

structure Watch (T : Type) where
  server : Server T
  /-- how often the statements of a key were executed, counted by the table or not -/
  executions : List Char → Int
  /-- the executions up to each snapshot -/
  executedAt : List (List Char → Int)
  snapshots : List (List DigestRow)
  persisted : Option PsSnapshot
  /-- the differences of the snapshots, with their keys -/
  emitted : List (List Char × PsDelta)
  collected : List PsDelta

def Watch.initial : Watch T := ⟨.initial, fun _ => 0, [], [], none, [], []⟩

inductive Event (T : Type)
  /-- something happens to the server -/
  | serve (act : Action T)
  /-- a snapshot is taken, compared with the one before and persisted -/
  | collect (sel : Selection T)

def Watch.rows (s : Watch T) (sel : Selection T) : List DigestRow :=
  (sel.pick s.server.digests).map DigestEntry.row

def executionsOf (act : Action T) (executions : List Char → Int) : List Char → Int :=
  match act with
  | .execute st _ _ => Function.update executions st.digest.key (executions st.digest.key + 1)
  | _ => executions

def step (s : Watch T) : Event T → Option (Watch T)
  | .serve act => some
      { s with server := serverStep s.server act, executions := executionsOf act s.executions }
  | .collect sel => some
      { s with
        executedAt := s.executedAt ++ [s.executions]
        snapshots := s.snapshots ++ [s.rows sel]
        persisted := some (snapshotOf s.server.executed (s.rows sel))
        emitted := s.emitted ++ keyedDeltas s.persisted (s.rows sel)
        collected := s.collected ++ diffPsSnapshots s.persisted (s.rows sel) }

theorem mem_of_mem_pick {sel : Selection T} {entries : List (DigestEntry T)}
    {entry : DigestEntry T} (h : entry ∈ sel.pick entries) : entry ∈ entries :=
  (sel.part entries).subset h

theorem mem_rows {s : Watch T} {sel : Selection T} {row : DigestRow} (h : row ∈ s.rows sel) :
    ∃ entry ∈ s.server.digests, entry.row = row := by
  obtain ⟨entry, hentry, rfl⟩ := List.mem_map.mp h
  exact ⟨entry, mem_of_mem_pick hentry, rfl⟩

theorem distinct_rows {s : Watch T} (h : WellNumbered s.server) (sel : Selection T) :
    ((s.rows sel).map DigestRow.key).Nodup := by
  obtain ⟨part, hperm, hsub⟩ := sel.part s.server.digests
  have hpart : (part.map fun entry => entry.id.key).Nodup := h.distinct.sublist (hsub.map _)
  have hkeys : (s.rows sel).map DigestRow.key =
      (sel.pick s.server.digests).map fun entry => entry.id.key := List.map_map ..
  rw [hkeys]
  exact (hperm.map _).nodup_iff.mp hpart

/-- An entry after one more execution. -/
theorem mem_countExecution_key {e : Execution T} {entries : List (DigestEntry T)}
    {entry : DigestEntry T} (h : entry ∈ countExecution e entries) :
    entry ∈ entries ∨ entry.id.key = e.digest.key ∧
      (entry.countStar = 1 ∨
        ∃ old ∈ entries, old.id = entry.id ∧ entry.countStar = old.countStar + 1) := by
  induction entries with
  | nil =>
      rw [List.mem_singleton.mp h]
      exact .inr ⟨rfl, .inl rfl⟩
  | cons first entries ih =>
      unfold countExecution at h
      split_ifs at h with hkey
      · rcases List.mem_cons.mp h with rfl | hrest
        · refine .inr ⟨hkey, .inr ⟨first, List.mem_cons_self, rfl, ?_⟩⟩
          exact List.length_append
        · exact .inl (List.mem_cons_of_mem _ hrest)
      · rcases List.mem_cons.mp h with rfl | hrest
        · exact .inl List.mem_cons_self
        · rcases ih hrest with hold | ⟨hsame, hone | ⟨old, hold, hid, hcount⟩⟩
          · exact .inl (List.mem_cons_of_mem _ hold)
          · exact .inr ⟨hsame, .inl hone⟩
          · exact .inr ⟨hsame, .inr ⟨old, List.mem_cons_of_mem _ hold, hid, hcount⟩⟩

/-! ## No count of more than was executed -/

/-- Up to the last snapshot. -/
def executedUpTo (key : List Char) (executedAt : List (List Char → Int)) : Int :=
  (executedAt.getLast?.map fun executions => executions key).getD 0

/-- From the first snapshot to the last. -/
def executedBetween (key : List Char) (executedAt : List (List Char → Int)) : Int :=
  executedUpTo key executedAt - (executedAt.head?.map fun executions => executions key).getD 0

theorem executedUpTo_concat (key : List Char) (executedAt : List (List Char → Int))
    (executions : List Char → Int) :
    executedUpTo key (executedAt ++ [executions]) = executions key := by
  rw [executedUpTo, List.getLast?_concat]
  rfl

theorem executedBetween_concat (key : List Char) {executedAt : List (List Char → Int)}
    (h : executedAt ≠ []) (executions : List Char → Int) :
    executedBetween key (executedAt ++ [executions]) =
      executedBetween key executedAt + (executions key - executedUpTo key executedAt) := by
  cases executedAt with
  | nil => exact absurd rfl h
  | cons first rest =>
      have hlast := executedUpTo_concat key (first :: rest) executions
      unfold executedBetween
      rw [hlast, List.cons_append, List.head?_cons, List.head?_cons]
      omega

/-- What was emitted was executed by the last snapshot, and what the next difference can add
was executed after it. -/
structure Bounded (s : Watch T) : Prop where
  numbered : WellNumbered s.server
  counts : ∀ snap, s.persisted = some snap → ∀ key pc ptotal,
    snap.get key = some (pc, ptotal) → 0 ≤ pc
  started : s.executedAt = [] → s.persisted = none
  since : ∀ key, executedUpTo key s.executedAt ≤ s.executions key
  emitted : ∀ key, emittedCount key s.emitted ≤ executedBetween key s.executedAt
  pending : ∀ snap, s.persisted = some snap → ∀ entry ∈ s.server.digests, ∀ pc ptotal,
    snap.get entry.id.key = some (pc, ptotal) →
      saturate entry.countStar - pc ≤
        s.executions entry.id.key - executedUpTo entry.id.key s.executedAt

theorem executionsOf_le (act : Action T) (executions : List Char → Int) (key : List Char) :
    executions key ≤ executionsOf act executions key := by
  cases act with
  | execute st logged counted =>
      simp only [executionsOf, Function.update_apply]
      split_ifs with hkey
      · rw [hkey]
        omega
      · exact le_refl _
  | configure | truncateSlowLog | truncateDigests | evictDigest | restartServer | tick =>
      exact le_refl _

theorem saturate_succ_le (n : Nat) : saturate (n + 1) ≤ saturate n + 1 := by
  unfold saturate
  omega

/-- Something that happens to the server counts at most what is executed. -/
theorem mem_digests_serverStep {server : Server T} {act : Action T} {entry : DigestEntry T}
    (h : entry ∈ (serverStep server act).digests) :
    entry ∈ server.digests ∨ ∃ st logged counted, act = .execute st logged counted ∧
      entry.id.key = st.digest.key ∧ (entry.countStar = 1 ∨
        ∃ old ∈ server.digests, old.id = entry.id ∧ entry.countStar = old.countStar + 1) := by
  cases act with
  | execute st logged counted =>
      simp only [serverStep, Server.execute] at h
      split_ifs at h
      · rcases mem_countExecution_key h with hold | hnew
        · exact .inl hold
        · exact .inr ⟨st, logged, counted, rfl, hnew⟩
      · exact .inl h
  | evictDigest id => exact .inl (List.mem_of_mem_filter h)
  | truncateDigests | restartServer => exact absurd h List.not_mem_nil
  | configure | truncateSlowLog | tick => exact .inl h

theorem bounded_serve {s : Watch T} (act : Action T) (h : Bounded s) :
    Bounded { s with
      server := serverStep s.server act
      executions := executionsOf act s.executions } where
  numbered := h.numbered.step act
  counts := h.counts
  started := h.started
  since key := (h.since key).trans (executionsOf_le act s.executions key)
  emitted := h.emitted
  pending snap hsnap entry hentry pc ptotal hget := by
    rcases mem_digests_serverStep hentry with hold | ⟨st, logged, counted, rfl, hkey, hnew⟩
    · have hbefore := h.pending snap hsnap entry hold pc ptotal hget
      have hle := executionsOf_le act s.executions entry.id.key
      dsimp only
      omega
    · have hmore : executionsOf (.execute st logged counted) s.executions entry.id.key =
          s.executions entry.id.key + 1 := by
        simp only [executionsOf, hkey, Function.update_self]
      have hsince := h.since entry.id.key
      have hpc := h.counts snap hsnap entry.id.key pc ptotal hget
      dsimp only
      rw [hmore]
      rcases hnew with hone | ⟨old, hold, hid, hcount⟩
      · rw [hone, show saturate 1 = 1 from rfl]
        omega
      · have hbefore := h.pending snap hsnap old hold pc ptotal (by rw [hid]; exact hget)
        have hsat := saturate_succ_le old.countStar
        rw [hid] at hbefore
        rw [hcount]
        omega

theorem emittedCount_collect {prev : Option PsSnapshot} {rows : List DigestRow}
    (hdistinct : (rows.map DigestRow.key).Nodup) (key : List Char) :
    emittedCount key (keyedDeltas prev rows) = 0 ∨
      ∃ snap, prev = some snap ∧ ∃ row ∈ rows, row.key = key ∧
        emittedCount key (keyedDeltas prev rows) = gain snap row := by
  cases prev with
  | none => exact .inl rfl
  | some snap =>
      unfold keyedDeltas
      dsimp only
      split_ifs with hback
      · exact .inl rfl
      · rw [emittedCount_rows]
        by_cases hrow : ∃ row ∈ rows, row.key = key
        · obtain ⟨row, hmem, rfl⟩ := hrow
          exact .inr ⟨snap, rfl, row, hmem, rfl, sum_filter_key hdistinct hmem⟩
        · left
          have hnone : (rows.filter fun row => decide (row.key = key)) = [] := by
            rw [List.filter_eq_nil_iff]
            exact fun row hmem hkey => hrow ⟨row, hmem, of_decide_eq_true hkey⟩
          rw [hnone]
          rfl

theorem emitted_collect {s : Watch T} (h : Bounded s) (sel : Selection T) (key : List Char) :
    emittedCount key (s.emitted ++ keyedDeltas s.persisted (s.rows sel)) ≤
      executedBetween key (s.executedAt ++ [s.executions]) := by
  have hemitted := h.emitted key
  have hsince := h.since key
  rw [emittedCount_append]
  by_cases hfirst : s.executedAt = []
  · rw [h.started hfirst, hfirst]
    rw [hfirst] at hemitted
    simpa [keyedDeltas, emittedCount, executedBetween, executedUpTo] using hemitted
  · rw [executedBetween_concat key hfirst]
    rcases emittedCount_collect (distinct_rows h.numbered sel) key with
      hzero | ⟨snap, hsnap, row, hrow, rfl, hgain⟩
    · rw [hzero]
      omega
    · obtain ⟨entry, hentry, rfl⟩ := mem_rows hrow
      rw [hgain]
      cases hget : snap.get entry.row.key with
      | none =>
          rw [gain_of_get_none hget]
          omega
      | some old =>
          obtain ⟨pc, ptotal⟩ := old
          have hpending : entry.row.countStar - pc ≤
              s.executions entry.row.key - executedUpTo entry.row.key s.executedAt :=
            h.pending snap hsnap entry hentry pc ptotal hget
          rw [gain_of_get hget]
          omega

theorem bounded_collect {s : Watch T} (sel : Selection T) (h : Bounded s) :
    Bounded { s with
      executedAt := s.executedAt ++ [s.executions]
      snapshots := s.snapshots ++ [s.rows sel]
      persisted := some (snapshotOf s.server.executed (s.rows sel))
      emitted := s.emitted ++ keyedDeltas s.persisted (s.rows sel)
      collected := s.collected ++ diffPsSnapshots s.persisted (s.rows sel) } where
  numbered := h.numbered
  counts snap hsnap key pc ptotal hget := by
    cases hsnap
    obtain ⟨row, hrow, -, rfl⟩ := get_snapshotOf hget
    obtain ⟨entry, -, rfl⟩ := mem_rows hrow
    show 0 ≤ saturate entry.countStar
    unfold saturate
    omega
  started hnone := absurd hnone (List.append_ne_nil_of_right_ne_nil _ (List.cons_ne_nil _ _))
  since key := (executedUpTo_concat key s.executedAt s.executions).le
  emitted key := emitted_collect h sel key
  pending snap hsnap entry hentry pc ptotal hget := by
    cases hsnap
    obtain ⟨row, hrow, hkey, hcount⟩ := get_snapshotOf hget
    obtain ⟨other, hother, rfl⟩ := mem_rows hrow
    have hsame : other = entry :=
      List.inj_on_of_nodup_map h.numbered.distinct hother hentry hkey
    have hsat : saturate entry.countStar = pc := by
      rw [← hsame]
      exact hcount
    have hupTo := executedUpTo_concat entry.id.key s.executedAt s.executions
    dsimp only
    omega

theorem bounded_run {acts : List (Event T)} {s t : Watch T} (h : Run step anyStep s acts t)
    (hs : Bounded s) : Bounded t := by
  refine h.invariant (fun s e t _ hstep hs => ?_) hs
  cases e with
  | serve act =>
      cases hstep
      exact bounded_serve act hs
  | collect sel =>
      cases hstep
      exact bounded_collect sel hs

theorem Bounded.initial : Bounded (Watch.initial : Watch T) where
  numbered := .initial
  counts _ hsnap := by cases hsnap
  started _ := rfl
  since _ := le_refl _
  emitted _ := le_refl _
  pending _ hsnap := by cases hsnap

/-! ## Counters that go on -/

/-- The key is in every snapshot, and no counter that two consecutive snapshots share goes
back from the one to the other. -/
structure Kept (key : List Char) (snapshots : List (List DigestRow)) : Prop where
  present : ∀ rows ∈ snapshots, ∃ row ∈ rows, row.key = key
  forward : snapshots.IsChain fun rows rows' => wentBack (snapshotOf 0 rows) rows' = false

def countIn (key : List Char) (rows : List DigestRow) : Int :=
  ((rows.find? fun row => decide (row.key = key)).map DigestRow.countStar).getD 0

/-- From the first snapshot to the last. -/
def growth (key : List Char) (snapshots : List (List DigestRow)) : Int :=
  (snapshots.getLast?.map (countIn key)).getD 0 - (snapshots.head?.map (countIn key)).getD 0

theorem countIn_of_mem {rows : List DigestRow} (hdistinct : (rows.map DigestRow.key).Nodup)
    {row : DigestRow} (hrow : row ∈ rows) : countIn row.key rows = row.countStar := by
  have hsome : (rows.find? fun r => decide (r.key = row.key)).isSome = true := by
    rw [List.find?_isSome]
    exact ⟨row, hrow, decide_eq_true rfl⟩
  obtain ⟨found, hfound⟩ := Option.isSome_iff_exists.mp hsome
  have hfind := List.find?_some hfound
  have hkey : found.key = row.key := of_decide_eq_true hfind
  have hsame := List.inj_on_of_nodup_map hdistinct (List.mem_of_find?_eq_some hfound) hrow hkey
  rw [countIn, hfound, hsame]
  rfl

/-- Between two snapshots that no counter goes back in, a key counts its growth. -/
theorem emittedCount_forward {t : Nat} {rows rows' : List DigestRow} {key : List Char}
    (hdistinct : (rows.map DigestRow.key).Nodup) (hdistinct' : (rows'.map DigestRow.key).Nodup)
    (hforward : wentBack (snapshotOf 0 rows) rows' = false)
    (hpresent : ∃ row ∈ rows, row.key = key) (hpresent' : ∃ row ∈ rows', row.key = key) :
    emittedCount key (keyedDeltas (some (snapshotOf t rows)) rows') =
      countIn key rows' - countIn key rows := by
  obtain ⟨row', hrow', rfl⟩ := hpresent'
  obtain ⟨row, hrow, hkey⟩ := hpresent
  obtain ⟨ptotal, hget⟩ := get_snapshotOf_of_mem (t := t) hdistinct hrow
  rw [hkey] at hget
  have hle : ¬ row'.countStar < row.countStar := by
    intro hlt
    have hback : wentBack (snapshotOf t rows) rows' = true := by
      rw [wentBack, List.any_eq_true]
      refine ⟨row', hrow', ?_⟩
      rw [hget]
      exact decide_eq_true hlt
    exact Bool.false_ne_true (hforward.symm.trans hback)
  have hnot : wentBack (snapshotOf t rows) rows' = false := hforward
  unfold keyedDeltas
  dsimp only
  rw [hnot, if_neg Bool.false_ne_true, emittedCount_rows, sum_filter_key hdistinct' hrow',
    gain_of_get hget, countIn_of_mem hdistinct' hrow', ← hkey, countIn_of_mem hdistinct hrow]
  omega

structure Telescoped (s : Watch T) : Prop where
  numbered : WellNumbered s.server
  distinct : ∀ rows ∈ s.snapshots, (rows.map DigestRow.key).Nodup
  last : ∃ t, s.persisted = s.snapshots.getLast?.map (snapshotOf t)
  exact : ∀ key, Kept key s.snapshots → emittedCount key s.emitted = growth key s.snapshots

theorem Kept.concat {key : List Char} {snapshots : List (List DigestRow)}
    {rows : List DigestRow} (h : Kept key (snapshots ++ [rows])) :
    Kept key snapshots ∧ (∃ row ∈ rows, row.key = key) ∧
      ∀ last ∈ snapshots.getLast?, wentBack (snapshotOf 0 last) rows = false := by
  obtain ⟨hchain, -, hlink⟩ := List.isChain_append.mp h.forward
  refine ⟨⟨fun r hr => h.present r (List.mem_append_left _ hr), hchain⟩, ?_, ?_⟩
  · exact h.present rows (List.mem_append_right _ (List.mem_singleton.mpr rfl))
  · exact fun last hlast => hlink last hlast rows rfl

theorem telescoped_collect {s : Watch T} (sel : Selection T) (h : Telescoped s) :
    Telescoped { s with
      executedAt := s.executedAt ++ [s.executions]
      snapshots := s.snapshots ++ [s.rows sel]
      persisted := some (snapshotOf s.server.executed (s.rows sel))
      emitted := s.emitted ++ keyedDeltas s.persisted (s.rows sel)
      collected := s.collected ++ diffPsSnapshots s.persisted (s.rows sel) } where
  numbered := h.numbered
  distinct rows hrows := by
    rcases List.mem_append.mp hrows with hold | hnew
    · exact h.distinct rows hold
    · rw [List.mem_singleton.mp hnew]
      exact distinct_rows h.numbered sel
  last := ⟨s.server.executed, by rw [List.getLast?_concat]; rfl⟩
  exact key hkept := by
    obtain ⟨hbefore, hpresent, hforward⟩ := hkept.concat
    obtain ⟨t, hlast⟩ := h.last
    have hemitted := h.exact key hbefore
    dsimp only
    rw [emittedCount_append, hemitted]
    cases hsnaps : s.snapshots.getLast? with
    | none =>
        have hnil : s.snapshots = [] := List.getLast?_eq_none_iff.mp hsnaps
        rw [hlast, hsnaps, hnil]
        simp [growth, keyedDeltas, emittedCount]
    | some last =>
        have hmem : last ∈ s.snapshots := List.mem_of_getLast? hsnaps
        have hhead : (s.snapshots ++ [s.rows sel]).head? = s.snapshots.head? := by
          cases hs : s.snapshots with
          | nil => rw [hs] at hmem; exact absurd hmem List.not_mem_nil
          | cons first rest => rfl
        have hgain := emittedCount_forward (t := t) (h.distinct last hmem)
          (distinct_rows h.numbered sel) (hforward last hsnaps) (hbefore.present last hmem) hpresent
        rw [hlast, hsnaps, Option.map_some, hgain, growth, growth, hhead, hsnaps,
          List.getLast?_concat]
        simp only [Option.map_some, Option.getD_some]
        omega

theorem telescoped_run {acts : List (Event T)} {s t : Watch T} (h : Run step anyStep s acts t)
    (hs : Telescoped s) : Telescoped t := by
  refine h.invariant (fun s e t _ hstep hs => ?_) hs
  cases e with
  | serve act =>
      cases hstep
      exact ⟨hs.numbered.step act, hs.distinct, hs.last, hs.exact⟩
  | collect sel =>
      cases hstep
      exact telescoped_collect sel hs

theorem Telescoped.initial : Telescoped (Watch.initial : Watch T) where
  numbered := .initial
  distinct _ hrows := absurd hrows List.not_mem_nil
  last := ⟨0, rfl⟩
  exact _ _ := rfl

/-- What is emitted are the differences that the collector computes. -/
theorem collected_run {acts : List (Event T)} {s t : Watch T} (h : Run step anyStep s acts t)
    (hs : s.emitted.map Prod.snd = s.collected) : t.emitted.map Prod.snd = t.collected := by
  refine h.invariant (I := fun s => s.emitted.map Prod.snd = s.collected)
    (fun s e t _ hstep hs => ?_) hs
  cases e with
  | serve act =>
      cases hstep
      exact hs
  | collect sel =>
      cases hstep
      dsimp only
      rw [List.map_append, hs, keyedDeltas_snd]

/-- The differences that the collector computes count for a key at most its executions from
the first snapshot to the last, and just the growth of its counter where it is in every
snapshot and no counter goes back between two of them. -/
theorem emittedCount_bounds (acts : List (Event T)) (s : Watch T)
    (h : Run step anyStep Watch.initial acts s) (key : List Char) :
    s.emitted.map Prod.snd = s.collected ∧
      emittedCount key s.emitted ≤ executedBetween key s.executedAt ∧
      (Kept key s.snapshots → emittedCount key s.emitted = growth key s.snapshots) :=
  ⟨collected_run h rfl, (bounded_run h .initial).emitted key, (telescoped_run h .initial).exact key⟩

/-! ## A counter that goes on -/

instance (key : List Char) (snapshots : List (List DigestRow)) : Decidable (Kept key snapshots) :=
  decidable_of_iff ((∀ rows ∈ snapshots, ∃ row ∈ rows, row.key = key) ∧
      snapshots.IsChain fun rows rows' => wentBack (snapshotOf 0 rows) rows' = false)
    ⟨fun h => ⟨h.1, h.2⟩, fun h => ⟨h.present, h.forward⟩⟩

def idA : DigestId := ⟨['a'], none, by decide, by decide⟩

def query (id : DigestId) : Event Nat :=
  .serve (.execute ⟨id, id.hex, none, none, 0, [], 0⟩ false true)

def topRead : Selection Nat := topSelection ⟨true, 0, true, fun _ => 0, true, fun _ => true, true⟩

/-- Two of the four executions are between the snapshots. -/
def twoBetween : List (Event Nat) :=
  [query idA, .collect topRead, query idA, query idA, .collect topRead, query idA]

theorem emittedCount_bounds_twoBetween : ∃ s, exec step Watch.initial twoBetween = some s ∧
    s.executions idA.key = 4 ∧ emittedCount idA.key s.emitted = 2 ∧
    2 ≤ executedBetween idA.key s.executedAt := by
  have hrun : ((exec step Watch.initial twoBetween).map fun s => (s.executions idA.key,
      decide (Kept idA.key s.snapshots), growth idA.key s.snapshots)) = some (4, true, 2) := by
    decide +kernel
  obtain ⟨s, hexec, hs⟩ := Option.map_eq_some_iff.mp hrun
  obtain ⟨hfour, hrest⟩ := Prod.mk.inj hs
  obtain ⟨hkept, hgrowth⟩ := Prod.mk.inj hrest
  obtain ⟨-, hle, hexact⟩ := emittedCount_bounds twoBetween s (run_of_exec hexec) idA.key
  have htwo := (hexact (of_decide_eq_true hkept)).trans hgrowth
  exact ⟨s, hexec, hfour, htwo, htwo ▸ hle⟩

/-! ## An entry that starts again -/

/-- The counter of the key starts from nothing. -/
def Event.restarts (key : List Char) : Event T → Bool
  | .serve .truncateDigests => true
  | .serve (.restartServer _ _ _) => true
  | .serve (.evictDigest id) => decide (id.key = key)
  | _ => false

def wholeTable : Selection T := ⟨fun entries => entries, fun entries => List.Subperm.refl entries⟩

def idB : DigestId := ⟨['b'], none, by decide, by decide⟩

/-- The entry of the second statement is evicted and made again between two snapshots. -/
def eviction : List (Event Nat) :=
  [query idA, query idB, query idB, .collect wholeTable, .serve (.evictDigest idB),
    query idB, query idA, .collect wholeTable]

theorem eviction_not_counted : ¬ ∀ (acts : List (Event Nat)) (s : Watch Nat) (key : List Char),
    Run step anyStep Watch.initial acts s → (∀ e ∈ acts, e.restarts key = false) →
      (∀ rows ∈ s.snapshots, ∃ row ∈ rows, row.key = key) →
      emittedCount key s.emitted = growth key s.snapshots := by
  intro hexact
  have hrun : ((exec step Watch.initial eviction).map fun s =>
      (emittedCount idA.key s.emitted, growth idA.key s.snapshots,
        s.snapshots.map fun rows => rows.any fun row => decide (row.key = idA.key))) =
      some (0, 1, [true, true]) := by
    decide +kernel
  obtain ⟨s, hexec, hs⟩ := Option.map_eq_some_iff.mp hrun
  obtain ⟨hemitted, hrest⟩ := Prod.mk.inj hs
  obtain ⟨hgrowth, hpresent⟩ := Prod.mk.inj hrest
  have hkeys : ∀ rows ∈ s.snapshots, ∃ row ∈ rows, row.key = idA.key := by
    intro rows hrows
    have hany : (rows.any fun row => decide (row.key = idA.key)) = true := by
      have hmem := List.mem_map_of_mem (f := fun rows : List DigestRow =>
        rows.any fun row => decide (row.key = idA.key)) hrows
      rw [hpresent] at hmem
      simpa using hmem
    obtain ⟨row, hrow, hkey⟩ := List.any_eq_true.mp hany
    exact ⟨row, hrow, of_decide_eq_true hkey⟩
  have hsame := hexact eviction s idA.key (run_of_exec hexec) (by decide +kernel) hkeys
  rw [hemitted, hgrowth] at hsame
  exact absurd hsame (by decide)

end Dbmaster.NativeCollector.Counting
