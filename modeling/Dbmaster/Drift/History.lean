import Dbmaster.Drift.Chain
/-!
# The stored history of a connection

Each row of `schema_snapshots` refers to the one stored before it on its connection: by the
hash it was compared with and by the number of drifts between the two.
-/

namespace Dbmaster.Drift.History

open Dbmaster.Lib Dbmaster.Lib.Table Dbmaster.Lib.Transition
open Dbmaster.Drift.Snapshot Dbmaster.Drift.Diff Dbmaster.Drift.Exactness Dbmaster.Drift.Runner
open Dbmaster.Drift.Chain

variable {T : Type}

/-- The snapshots of a connection, in the order in which they were stored. -/
def history (id : String) (rows : List (SnapshotRow T)) : List (SnapshotRow T) :=
  rows.filter fun row => decide (row.connectionId = id)

/-- The drifts since the prior snapshot; there are none since no snapshot. -/
def driftsSince (prior : Option (SnapshotRow T)) (row : SnapshotRow T) : List Drift :=
  prior.elim [] fun p => computeDrifts p.schemaJson row.schemaJson

/-- What a row says of the one stored before it. -/
structure LinkedTo (prior : Option (SnapshotRow T)) (row : SnapshotRow T) : Prop where
  priorHash : row.priorHash = prior.map SnapshotRow.schemaHash
  counted : row.changeCount.toNat = (driftsSince prior row).length % UInt32.size
  unchanged : ∀ p ∈ prior, p.schemaHash = row.schemaHash → row.changeCount = 0

/-- What a run writes into its row, given the one before. -/
structure Records (prior : Option (SnapshotRow T)) (row : SnapshotRow T) : Prop where
  priorHash : row.priorHash = prior.map SnapshotRow.schemaHash
  changeCount : row.changeCount = (compareWith prior row.schemaHash row.schemaJson).2.2

theorem history_concat (id : String) (rows : List (SnapshotRow T)) (new : SnapshotRow T) :
    history id (rows ++ [new]) =
      if new.connectionId = id then history id rows ++ [new] else history id rows := by
  unfold history
  rw [List.filter_append, List.filter_singleton]
  by_cases h : new.connectionId = id
  · rw [decide_eq_true h, if_pos h]
    rfl
  · rw [decide_eq_false h, if_neg h]
    exact List.append_nil _

theorem linkedTo_of_records {prior : Option (SnapshotRow T)} {row : SnapshotRow T}
    (h : Records prior row)
    (hhash : ∀ p ∈ prior, p.schemaHash = row.schemaHash →
      computeDrifts p.schemaJson row.schemaJson = []) : LinkedTo prior row := by
  have hcount := h.changeCount
  unfold compareWith at hcount
  cases prior with
  | none => exact ⟨h.priorHash, congrArg UInt32.toNat hcount, fun _ hp => nomatch hp⟩
  | some p =>
      by_cases heq : p.schemaHash = row.schemaHash
      · simp only [heq, ne_eq, not_true_eq_false, if_false] at hcount
        have hnone : driftsSince (some p) row = [] := hhash p rfl heq
        refine ⟨h.priorHash, ?_, fun _ _ _ => hcount⟩
        rw [hcount, hnone]
        rfl
      · simp only [ne_eq, heq, not_false_eq_true, if_true] at hcount
        refine ⟨h.priorHash, ?_, ?_⟩
        · rw [hcount, UInt32.toNat_ofNat']
          rfl
        · intro p' hp heq'
          obtain rfl := Option.some.inj hp
          exact absurd heq' heq

/-! ## One run -/

section Runs

variable [LinearOrder T] {digest : Json → String}

theorem increasing_snapshots {s : State T} (h : Chained digest s) :
    s.snapshots.Pairwise fun row other => row.capturedAt < other.capturedAt :=
  List.pairwise_map.mpr h.increasing

theorem runTaskInner_records {s : State T} (h : Chained digest s) {taskId : String}
    {env : Env T} {new : Report T}
    (hnew : runTaskInner digest s.tasks s.connections s.source s.snapshots taskId env = .ok new) :
    Records (history new.row.connectionId s.snapshots).getLast? new.row := by
  obtain ⟨task, conn, dbType, catalog, rfl⟩ := runTaskInner_report hnew
  have hprior : priorSnapshot conn s.snapshots env.pick = (history conn.id s.snapshots).getLast? :=
    fetchLatest_eq_getLast? (increasing_snapshots h) env.pick
  rw [hprior]
  exact ⟨rfl, rfl⟩

structure Recorded (digest : Json → String) (s : State T) : Prop where
  chained : Chained digest s
  records : ∀ id, Linked Records (history id s.snapshots)

theorem recorded_step {s s' : State T} {a : Action T} (hallowed : ClockAdvances s a)
    (hstep : step digest s a = some s') (h : Recorded digest s) : Recorded digest s' := by
  refine ⟨chained_step hallowed hstep h.chained, ?_⟩
  intro id
  cases a with
  | configure tasks connections =>
      obtain rfl := Option.some.inj hstep
      exact h.records id
  | alter connectionId catalog =>
      obtain rfl := Option.some.inj hstep
      exact h.records id
  | run taskId env =>
      simp only [step] at hstep
      split at hstep
      case h_1 =>
        obtain rfl := Option.some.inj hstep
        exact h.records id
      case h_2 new hnew =>
        obtain rfl := Option.some.inj hstep
        have hsnapshots : (s.reports ++ [new]).map Report.row = s.snapshots ++ [new.row] := by
          rw [List.map_append]
          rfl
        show Linked Records (history id ((s.reports ++ [new]).map Report.row))
        rw [hsnapshots, history_concat]
        split
        case isTrue heq =>
          have hrecords := runTaskInner_records h.chained hnew
          rw [heq] at hrecords
          exact linked_concat (h.records id) hrecords
        case isFalse => exact h.records id

theorem recorded_run {acts : List (Action T)} {s : State T}
    (hrun : Run (step digest) ClockAdvances .initial acts s) : Recorded digest s :=
  hrun.invariant (fun _ _ _ hallowed hstep h => recorded_step hallowed hstep h)
    ⟨chained_initial, fun _ => linked_nil _⟩

/-! ## Equal hashes -/

theorem hashed_of_mem {s : State T} (h : Chained digest s) {row : SnapshotRow T}
    (hrow : row ∈ s.snapshots) :
    ∃ r ∈ s.reports, row.schemaJson = r.seen ∧ row.schemaHash = canonicalHash digest r.seen := by
  obtain ⟨r, hr, rfl⟩ := List.mem_map.mp hrow
  exact ⟨r, hr, h.schemaJson r hr, h.schemaHash r hr⟩

theorem drifts_of_hash_eq {s : State T} (h : Chained digest s)
    (hdigest : NoCollision digest s.reports) {p q : SnapshotRow T} (hp : p ∈ s.snapshots)
    (hq : q ∈ s.snapshots) (hhash : p.schemaHash = q.schemaHash) :
    computeDrifts p.schemaJson q.schemaJson = [] := by
  obtain ⟨r, hr, hjson, hrhash⟩ := hashed_of_mem h hp
  obtain ⟨r', hr', hjson', hrhash'⟩ := hashed_of_mem h hq
  rw [hrhash, hrhash'] at hhash
  rw [hjson, hjson']
  exact computeDrifts_of_canonicalJson (hdigest r hr r' hr' hhash)

theorem linked_run {acts : List (Action T)} {s : State T}
    (hrun : Run (step digest) ClockAdvances .initial acts s)
    (hdigest : NoCollision digest s.reports) (id : String) :
    Linked LinkedTo (history id s.snapshots) := by
  have hrecorded := recorded_run hrun
  have hsub : ∀ row ∈ history id s.snapshots, row ∈ s.snapshots :=
    fun row hrow => (List.mem_filter.mp hrow).1
  refine (hrecorded.records id).imp ?_
  intro prior row hprior hrow hrecords
  apply linkedTo_of_records hrecords
  intro p hp
  exact drifts_of_hash_eq hrecorded.chained hdigest (hsub p (hprior p hp)) (hsub row hrow)

/-- While the clock moves forward, each stored snapshot refers to the one stored before it on
its connection. -/
theorem history_linked {acts : List (Action T)} {s : State T}
    (hrun : Run (step digest) ClockAdvances .initial acts s)
    (hdigest : NoCollision digest s.reports) (id : String) :
    Linked LinkedTo (history id s.snapshots) :=
  linked_run hrun hdigest id

end Runs

/-! ## Sample runs -/

/-- Whether there are tables, for a digest. -/
def emptiness (j : Json) : String :=
  match j.get "tables" with
  | some (.obj []) => "empty"
  | _ => "tables"

/-- The table of `public` is dropped between the runs. -/
theorem history_linked_dropped : ∃ p q : SnapshotRow Nat, p.schemaHash = "tables" ∧
    LinkedTo (some p) q ∧ q.changeCount = 1 := by
  have hrun : ∃ s r r', execChecked (step emptiness) clockPassed .initial droppedBetween = some s ∧
      s.reports = [r, r'] ∧ r.row.schemaHash = "tables" ∧ r'.row.schemaHash = "empty" ∧
      canonicalHash emptiness r.seen = "tables" ∧ canonicalHash emptiness r'.seen = "empty" ∧
      r'.row.changeCount = 1 ∧ history "c" s.snapshots = [r.row, r'.row] :=
    ⟨_, _, _, rfl, rfl, by decide +kernel, by decide +kernel, by decide +kernel,
      by decide +kernel, by decide +kernel, rfl⟩
  obtain ⟨s, r, r', hexec, hreports, hhash, hhash', hseen, hseen', hcount, hhistory⟩ := hrun
  have hdigest : NoCollision emptiness s.reports := by
    apply noCollision_of_two (a := r.seen) (b := r'.seen)
    · rw [hseen, hseen']
      decide
    · intro a ha
      rw [hreports, List.mem_pair] at ha
      rcases ha with rfl | rfl
      · exact Or.inl rfl
      · exact Or.inr rfl
  have hlinked := history_linked (run_of_execChecked clockAdvances_of_passed hexec) hdigest "c"
  rw [hhistory] at hlinked
  exact ⟨r.row, r'.row, hhash, hlinked [r.row] r'.row (List.prefix_refl _), hcount⟩

/-! ## Where the chain breaks -/

/-- Whatever the clock does, a row carries the hash of the row stored before it. -/
def PriorHashes [LinearOrder T] (digest : Json → String) : Prop :=
  ∀ acts (s : State T), Run (step digest) anyStep .initial acts s →
    NoCollision digest s.reports → ∀ id,
      Linked (fun prior row => row.priorHash = prior.map SnapshotRow.schemaHash)
        (history id s.snapshots)

/-- The count of a row is the number of the drifts. -/
def ExactCounts [LinearOrder T] (digest : Json → String) : Prop :=
  ∀ acts (s : State T), Run (step digest) ClockAdvances .initial acts s →
    NoCollision digest s.reports → ∀ id,
      Linked (fun prior row => row.changeCount.toNat = (driftsSince prior row).length)
        (history id s.snapshots)

/-- The clock is set back before the second run, which sees that the table is gone; the third
one sees no more than the second. -/
def clockSetBack : List (Action Nat) :=
  [.configure [⟨"t1", "first", none, "c", none⟩] [sampleConnection],
    .alter "c" sampleCatalog, .run "t1" (sampleEnv 2), .alter "c" Catalog.empty,
    .run "t1" (sampleEnv 1), .run "t1" (sampleEnv 3)]

theorem not_priorHashes : ¬ PriorHashes (T := Nat) emptiness := by
  intro h
  have hrun : ∃ s r m r', exec (step emptiness) .initial clockSetBack = some s ∧
      s.reports = [r, m, r'] ∧ r'.seen = m.seen ∧ canonicalHash emptiness r.seen = "tables" ∧
      canonicalHash emptiness m.seen = "empty" ∧ m.row.schemaHash = "empty" ∧
      r'.row.priorHash = some "tables" ∧ history "c" s.snapshots = [r.row, m.row, r'.row] :=
    ⟨_, _, _, _, rfl, rfl, rfl, by decide +kernel, by decide +kernel, by decide +kernel,
      by decide +kernel, rfl⟩
  obtain ⟨s, r, m, r', hexec, hreports, hsame, hseen, hseen', hhash, hprior, hhistory⟩ := hrun
  have hdigest : NoCollision emptiness s.reports := by
    apply noCollision_of_two (a := r.seen) (b := m.seen)
    · rw [hseen, hseen']
      decide
    · intro a ha
      simp only [hreports, List.mem_cons, List.not_mem_nil, or_false] at ha
      rcases ha with rfl | rfl | rfl
      · exact Or.inl rfl
      · exact Or.inr rfl
      · exact Or.inr hsame
  have hlinked := h _ s (run_of_exec hexec) hdigest "c"
  rw [hhistory] at hlinked
  have hthird : r'.row.priorHash = some m.row.schemaHash :=
    hlinked [r.row, m.row] r'.row (List.prefix_refl _)
  rw [hprior, hhash] at hthird
  exact absurd hthird (by decide)

def manyCatalog (n : Nat) : Catalog := ⟨(manyTables n).tables, wellFormed_manyTables n⟩

/-- Between the two runs `n` tables appear. -/
def growing (n : Nat) : List (Action Nat) :=
  [.configure [⟨"t1", "first", some (.obj [("pg_schemas", .arr [.str "s"])]), "c", none⟩]
      [sampleConnection],
    .run "t1" (sampleEnv 1), .alter "c" (manyCatalog n), .run "t1" (sampleEnv 2)]

theorem size_collect_manyCatalog (n : Nat) (database : String) (dbType : DbType) :
    (collect (manyCatalog n) database dbType ["s"]).tables.size = n := by
  have hall : (collect (manyCatalog n) database dbType ["s"]).tables.size =
      (manyTables n).tables.size := by
    apply Std.TreeMap.size_filter_eq_size_iff.mpr
    intro key h
    obtain ⟨i, -, hi, -⟩ := mem_manyTables (Std.TreeMap.getElem?_eq_some_getElem h)
    rw [hi]
    rfl
  rw [hall, size_manyTables]

theorem canonicalHash_emptiness (s : SchemaSnapshot) :
    canonicalHash emptiness s = "empty" ↔ s.tables.size = 0 := by
  rw [← Std.TreeMap.length_toList, List.length_eq_zero_iff]
  show emptiness (canonicalJson s) = "empty" ↔ _
  have hget : (canonicalJson s).get "tables" = some (entriesJson tableJson s.tables) := rfl
  unfold emptiness
  rw [hget, entriesJson]
  cases s.tables.toList with
  | nil => simp
  | cons e l => simp

theorem not_exactCounts : ¬ ExactCounts (T := Nat) emptiness := by
  intro h
  have hrun : ∀ n, ∃ s r r', execChecked (step emptiness) clockPassed .initial (growing n) = some s ∧
      s.reports = [r, r'] ∧ r.seen = collect .empty "shop" .postgres ["s"] ∧
      r'.seen = collect (manyCatalog n) "shop" .postgres ["s"] ∧
      history "c" s.snapshots = [r.row, r'.row] ∧ r.row.schemaJson = r.seen ∧
      r'.row.schemaJson = r'.seen :=
    fun n => ⟨_, _, _, rfl, rfl, rfl, rfl, rfl, rfl, rfl⟩
  obtain ⟨s, r, r', hexec, hreports, hseen, hseen', hhistory, hjson, hjson'⟩ := hrun UInt32.size
  have hrun := run_of_execChecked clockAdvances_of_passed hexec
  have hempty : r.seen.tables.isEmpty = true := by rw [hseen]; rfl
  have hsize : r'.seen.tables.size = UInt32.size := by rw [hseen', size_collect_manyCatalog]
  have hdigest : NoCollision emptiness s.reports := by
    apply noCollision_of_two (a := r.seen) (b := r'.seen)
    · intro heq
      have hnone : r.seen.tables.size = 0 := by rw [hseen]; rfl
      rw [(canonicalHash_emptiness r.seen).mpr hnone] at heq
      have hzero := (canonicalHash_emptiness r'.seen).mp heq.symm
      rw [hsize] at hzero
      exact absurd hzero (by decide)
    · intro a ha
      rw [hreports, List.mem_pair] at ha
      rcases ha with rfl | rfl
      · exact Or.inl rfl
      · exact Or.inr rfl
  have hexact := h _ s hrun hdigest "c"
  have hlinked := linked_run hrun hdigest "c"
  rw [hhistory] at hexact hlinked
  have hdrifts : (driftsSince (some r.row) r'.row).length = UInt32.size := by
    show (computeDrifts r.row.schemaJson r'.row.schemaJson).length = _
    rw [hjson, hjson', length_computeDrifts_of_isEmpty hempty, hsize]
  have hcount : r'.row.changeCount.toNat = (driftsSince (some r.row) r'.row).length :=
    hexact [r.row] r'.row (List.prefix_refl _)
  have hwrapped : r'.row.changeCount.toNat =
      (driftsSince (some r.row) r'.row).length % UInt32.size :=
    (hlinked [r.row] r'.row (List.prefix_refl _)).counted
  rw [hcount, hdrifts, Nat.mod_self] at hwrapped
  exact absurd hwrapped (by decide)

/-- After the clock is set back a run links to another row than the one stored before, and the
count of `2 ^ 32` drifts wraps. -/
theorem history_unlinked : ¬ PriorHashes (T := Nat) emptiness ∧ ¬ ExactCounts (T := Nat) emptiness :=
  ⟨not_priorHashes, not_exactCounts⟩

end Dbmaster.Drift.History
