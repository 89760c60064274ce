import Dbmaster.NativeCollector.Collector
import Dbmaster.Lib.Transition
/-!
# One source for an execution

An execution comes to `query_stats` by the slow log or by a digest difference, and a
difference covers what was executed since the reading before it: where the source is
not switched with executions of the other one outstanding.
-/

namespace Dbmaster.NativeCollector.OneSource

open Dbmaster.Lib.Transition
open Dbmaster.NativeCollector.Digest Dbmaster.NativeCollector.Collector

variable {T : Type}

/-! ## What should hold -/

def FromSlowLog (s : State T) (e : Execution T) : Prop :=
  ∃ sample ∈ s.samples, sample.origin = .slowLog e

def FromDigests (s : State T) (es : List (Execution T)) (since : Nat) : Prop :=
  ∃ sample ∈ s.samples, sample.origin = .digests es since

/-- No execution comes by both sources, and a difference covers only executions after the
reading of the digest table before it. -/
structure RecordedOnce (s : State T) : Prop where
  exclusive : ∀ e es since, FromSlowLog s e → FromDigests s es since → e ∉ es
  recent : ∀ es since, FromDigests s es since → ∀ e ∈ es, since < e.number

def AlwaysRecordedOnce [LinearOrder T] (normalizeDigest : List Char → List Char)
    (allowed : State T → Action T → Prop) : Prop :=
  ∀ acts s, Run (step normalizeDigest) allowed .initial acts s → RecordedOnce s

/-- The slow log is read where no row past the cursor was logged between the two readings
of a difference; the digest table is read where the stored snapshot is that of the reading
before and no row logged since was taken from the slow log. -/
def Unmixed [LinearOrder T] (s : State T) : Action T → Prop
  | .tick a => a.connects = true → a.reads = true →
      if s.server.slowLogUsable then
        ∀ e ∈ s.server.slowLog, slowStart s a < e.startTime →
          ∀ d ∈ s.differences, ¬ (d.1 < e.number ∧ e.number ≤ d.2)
      else if s.server.performanceSchema then
        ∀ snap, prevSnapshot s a = some snap →
          snap.t = s.lastReading ∧ ∀ e, FromSlowLog s e → e.number ≤ snap.t
      else True
  | _ => True

/-! ## The server -/

/-- The executions of an entry that a snapshot does not count came after it, unless its
count is at the top of its range. -/
def CountsBefore (snap : PsSnapshot) (entry : DigestEntry T) : Prop :=
  ∀ pc ptotal, snap.get entry.id.key = some (pc, ptotal) →
    (∀ e ∈ entry.executions.drop pc.toNat, snap.t < e.number) ∨ 9223372036854775807 ≤ pc

/-- The executions of the tables are numbered, and their digests are distinct. -/
structure WellNumbered (server : Server T) : Prop where
  slowLog : ∀ e ∈ server.slowLog, e.number ≤ server.executed
  digests : ∀ entry ∈ server.digests, ∀ e ∈ entry.executions, e.number ≤ server.executed
  distinct : (server.digests.map fun entry => entry.id.key).Nodup

theorem mem_countExecution {e : Execution T} {entries : List (DigestEntry T)}
    {entry : DigestEntry T} (h : entry ∈ countExecution e entries) :
    entry ∈ entries ∨ entry = ⟨e.digest, e.digestText, [e]⟩ ∨
      ∃ old ∈ entries, entry = { old with executions := old.executions ++ [e] } := by
  induction entries with
  | nil => exact .inr (.inl (List.mem_singleton.mp h))
  | cons first entries ih =>
      unfold countExecution at h
      split_ifs at h with hkey
      · rcases List.mem_cons.mp h with rfl | hrest
        · exact .inr (.inr ⟨first, List.mem_cons_self, rfl⟩)
        · exact .inl (List.mem_cons_of_mem _ hrest)
      · rcases List.mem_cons.mp h with rfl | hrest
        · exact .inl List.mem_cons_self
        · rcases ih hrest with hold | hnew | ⟨old, hold, heq⟩
          · exact .inl (List.mem_cons_of_mem _ hold)
          · exact .inr (.inl hnew)
          · exact .inr (.inr ⟨old, List.mem_cons_of_mem _ hold, heq⟩)

theorem keys_countExecution (e : Execution T) (entries : List (DigestEntry T)) :
    (countExecution e entries).map (fun entry => entry.id.key) =
      let keys := entries.map fun entry => entry.id.key
      if e.digest.key ∈ keys then keys else keys ++ [e.digest.key] := by
  induction entries with
  | nil => rfl
  | cons first entries ih =>
      unfold countExecution
      by_cases hkey : first.id.key = e.digest.key
      · rw [if_pos hkey]
        simp [hkey]
      · rw [if_neg hkey, List.map_cons, ih]
        simp only [List.map_cons, List.mem_cons, Ne.symm hkey, false_or]
        split_ifs <;> rfl

theorem countsBefore_append {snap : PsSnapshot} {entry : DigestEntry T} {e : Execution T}
    (he : snap.t < e.number) (h : CountsBefore snap entry) :
    CountsBefore snap { entry with executions := entry.executions ++ [e] } := by
  intro pc ptotal hget
  rcases h pc ptotal hget with hdrop | htop
  · refine .inl fun e' he' => ?_
    rw [List.drop_append] at he'
    rcases List.mem_append.mp he' with hold | hnew
    · exact hdrop e' hold
    · rw [List.mem_singleton.mp (List.mem_of_mem_drop hnew)]
      exact he
  · exact .inr htop

theorem countsBefore_of_later {snap : PsSnapshot} {entry : DigestEntry T}
    (h : ∀ e ∈ entry.executions, snap.t < e.number) : CountsBefore snap entry :=
  fun _ _ _ => .inl fun e he => h e (List.mem_of_mem_drop he)

theorem WellNumbered.initial : WellNumbered (Server.initial : Server T) where
  slowLog _ he := by cases he
  digests _ hentry := by cases hentry
  distinct := List.nodup_nil

theorem WellNumbered.execute {server : Server T} (st : Statement T) (logged counted : Bool)
    (h : WellNumbered server) : WellNumbered (server.execute st logged counted) := by
  have hlate : ∀ {e : Execution T}, e.number ≤ server.executed →
      e.number ≤ (server.execute st logged counted).executed := fun he => Nat.le_succ_of_le he
  constructor
  · intro e he
    simp only [Server.execute] at he
    split_ifs at he with hlog
    · rcases List.mem_append.mp he with hold | hnew
      · exact hlate (h.slowLog e hold)
      · rw [List.mem_singleton.mp hnew]
        exact le_rfl
    · exact hlate (h.slowLog e he)
  · intro entry hentry e he
    simp only [Server.execute] at hentry
    split_ifs at hentry with hcount
    · rcases mem_countExecution hentry with hold | rfl | ⟨old, hold, rfl⟩
      · exact hlate (h.digests entry hold e he)
      · rw [List.mem_singleton.mp he]
        exact le_rfl
      · rcases List.mem_append.mp he with hin | hnew
        · exact hlate (h.digests old hold e hin)
        · rw [List.mem_singleton.mp hnew]
          exact le_rfl
    · exact hlate (h.digests entry hentry e he)
  · simp only [Server.execute]
    split_ifs with hcount
    · rw [keys_countExecution]
      dsimp only
      split_ifs with hkey
      · exact h.distinct
      · rw [List.nodup_append_comm]
        exact List.nodup_cons.mpr ⟨hkey, h.distinct⟩
    · exact h.distinct

theorem WellNumbered.step {server : Server T} (act : Action T) (h : WellNumbered server) :
    WellNumbered (serverStep server act) := by
  cases act with
  | execute st logged counted => exact h.execute st logged counted
  | configure => exact ⟨h.slowLog, h.digests, h.distinct⟩
  | truncateSlowLog => exact ⟨by simp [serverStep], h.digests, h.distinct⟩
  | truncateDigests => exact ⟨h.slowLog, by simp [serverStep], List.nodup_nil⟩
  | evictDigest id =>
      refine ⟨h.slowLog, fun entry hentry => h.digests entry (List.mem_of_mem_filter hentry), ?_⟩
      exact h.distinct.sublist (List.filter_sublist.map _)
  | restartServer => exact ⟨h.slowLog, by simp [serverStep], List.nodup_nil⟩
  | tick a => exact h

/-- The snapshot was taken by now, and what it does not count came after it. -/
def Fits (snap : PsSnapshot) (server : Server T) : Prop :=
  snap.t ≤ server.executed ∧ ∀ entry ∈ server.digests, CountsBefore snap entry

theorem Fits.execute {snap : PsSnapshot} {server : Server T} (st : Statement T)
    (logged counted : Bool) (h : Fits snap server) :
    Fits snap (server.execute st logged counted) := by
  refine ⟨Nat.le_succ_of_le h.1, fun entry hentry => ?_⟩
  have hnew : snap.t < server.executed + 1 := Nat.lt_succ_of_le h.1
  simp only [Server.execute] at hentry
  split_ifs at hentry with hcount
  · rcases mem_countExecution hentry with hold | rfl | ⟨old, hold, rfl⟩
    · exact h.2 entry hold
    · refine countsBefore_of_later fun e he => ?_
      rw [List.mem_singleton.mp he]
      exact hnew
    · exact countsBefore_append hnew (h.2 old hold)
  · exact h.2 entry hentry

theorem Fits.step {snap : PsSnapshot} {server : Server T} (act : Action T)
    (h : Fits snap server) : Fits snap (serverStep server act) := by
  cases act with
  | execute st logged counted => exact h.execute st logged counted
  | configure | truncateSlowLog | tick => exact h
  | truncateDigests | restartServer => exact ⟨h.1, by simp [serverStep]⟩
  | evictDigest id => exact ⟨h.1, fun entry hentry => h.2 entry (List.mem_of_mem_filter hentry)⟩

/-! ## A reading of the digest table -/

/-- The snapshot of a reading counts all there is. -/
theorem fits_snapshotOf {server : Server T} {entries : List (DigestEntry T)}
    (hentries : ∀ entry ∈ entries, entry ∈ server.digests) (h : WellNumbered server) :
    Fits (snapshotOf server.executed (entries.map DigestEntry.row)) server := by
  refine ⟨le_rfl, fun entry hentry pc ptotal hget => ?_⟩
  obtain ⟨row, hrow, hkey, hcount⟩ := get_snapshotOf hget
  obtain ⟨other, hother, rfl⟩ := List.mem_map.mp hrow
  have hsame : other = entry :=
    List.inj_on_of_nodup_map h.distinct (hentries other hother) hentry hkey
  subst hsame
  have hpc : saturate other.executions.length = pc := hcount
  by_cases htop : (other.executions.length : Int) ≤ 9223372036854775807
  · refine .inl fun e he => ?_
    have hall : pc.toNat = other.executions.length := by
      rw [← hpc, saturate, min_eq_left htop, Int.toNat_natCast]
    rw [hall, List.drop_length] at he
    cases he
  · refine .inr ?_
    rw [← hpc, saturate, min_eq_right (le_of_not_ge htop)]

theorem mem_coveredDeltas {prev : Option PsSnapshot} {entries : List (DigestEntry T)}
    {delta : PsDelta × List (Execution T)} (h : delta ∈ coveredDeltas prev entries) :
    ∃ snap, prev = some snap ∧ ∃ entry ∈ entries,
      diffRow snap entry.row = some delta.1 ∧ delta.2 = covered snap entry := by
  cases prev with
  | none => cases h
  | some snap =>
      unfold coveredDeltas at h
      dsimp only at h
      split_ifs at h with hback
      · cases h
      · obtain ⟨entry, hentry, hmap⟩ := List.mem_filterMap.mp h
        obtain ⟨row, hrow, rfl⟩ := Option.map_eq_some_iff.mp hmap
        exact ⟨snap, rfl, entry, hentry, hrow, rfl⟩

/-- A difference covers executions after its snapshot, all of them by now. -/
theorem covered_between {snap : PsSnapshot} {server : Server T} {entry : DigestEntry T}
    {delta : PsDelta} (hentry : entry ∈ server.digests)
    (hdelta : diffRow snap entry.row = some delta) (hnumbered : WellNumbered server)
    (h : Fits snap server) :
    ∀ e ∈ covered snap entry, snap.t < e.number ∧ e.number ≤ server.executed := by
  intro e he
  obtain ⟨pc, ptotal, hget, hlt, -⟩ := diffRow_some hdelta
  have hget' : snap.get entry.id.key = some (pc, ptotal) := hget
  rw [covered_eq hget'] at he
  refine ⟨?_, hnumbered.digests entry hentry e (List.mem_of_mem_drop he)⟩
  rcases h.2 entry hentry pc ptotal hget' with hdrop | htop
  · exact hdrop e he
  · have hmax : saturate entry.countStar ≤ 9223372036854775807 := min_le_right _ _
    have hlt' : pc < saturate entry.countStar := hlt
    omega

theorem mem_of_mem_stored {α : Type} {inserts : Nat → Bool} {i : Nat} {items : List α}
    {item : α} (h : item ∈ stored inserts i items) : item ∈ items := by
  induction items generalizing i with
  | nil => exact h
  | cons first items ih =>
      unfold stored at h
      split_ifs at h with hin
      · rcases List.mem_cons.mp h with rfl | hrest
        · exact List.mem_cons_self
        · exact List.mem_cons_of_mem _ (ih hrest)
      · exact List.mem_cons_of_mem _ (ih h)

/-! ## Ticks -/

/-- The snapshot in the store fits the server, and every difference taken covers
executions between two readings. -/
structure Inv (s : State T) : Prop where
  numbered : WellNumbered s.server
  fits : ∀ snap, s.cursors psDigestSource = some (.snapshot snap) → Fits snap s.server
  between : ∀ es since, FromDigests s es since →
    ∃ d ∈ s.differences, ∀ e ∈ es, d.1 < e.number ∧ e.number ≤ d.2
  once : RecordedOnce s

theorem inv_initial : Inv (State.initial : State T) where
  numbered := .initial
  fits snap hsnap := by cases hsnap
  between es since h := by
    obtain ⟨sample, hsample, -⟩ := h
    cases hsample
  once := by
    constructor
    · rintro e es since ⟨sample, hsample, -⟩
      cases hsample
    · rintro es since ⟨sample, hsample, -⟩
      cases hsample

theorem Inv.serverStep {s : State T} (act : Action T) (h : Inv s) :
    Inv { s with server := serverStep s.server act } where
  numbered := h.numbered.step act
  fits snap hsnap := (h.fits snap hsnap).step act
  between := h.between
  once := ⟨h.once.exclusive, h.once.recent⟩

/-- A write of a cursor: all else stays, and a new snapshot has to fit. -/
theorem Inv.cursorPut {s : State T} {source : String} {cursor : CursorText T} (puts : Bool)
    (hcursor : ∀ snap, source = psDigestSource → cursor = .snapshot snap → Fits snap s.server)
    (h : Inv s) : Inv (cursorPut s source cursor puts) := by
  unfold Collector.cursorPut
  split_ifs with hputs
  · refine ⟨h.numbered, fun snap hsnap => ?_, h.between, h.once.exclusive, h.once.recent⟩
    dsimp only at hsnap
    rw [Function.update_apply] at hsnap
    split_ifs at hsnap with hsource
    · exact hcursor snap hsource.symm (Option.some.inj hsnap)
    · exact h.fits snap hsnap
  · exact h

section Tick

variable [LinearOrder T] {normalizeDigest : List Char → List Char} {s t : State T}

/-- The samples of a reading of the slow log. -/
def slowRead (normalizeDigest : List Char → List Char) (s : State T)
    (rows : List (Execution T)) : State T :=
  { s with samples := s.samples ++ rows.map (slowSample normalizeDigest) }

omit [LinearOrder T] in
theorem fromSlowLog_slowRead {rows : List (Execution T)} {e : Execution T} :
    FromSlowLog (slowRead normalizeDigest s rows) e ↔ FromSlowLog s e ∨ e ∈ rows := by
  constructor
  · rintro ⟨sample, hsample, horigin⟩
    rcases List.mem_append.mp hsample with hold | hnew
    · exact .inl ⟨sample, hold, horigin⟩
    · obtain ⟨e', he', rfl⟩ := List.mem_map.mp hnew
      cases horigin
      exact .inr he'
  · rintro (⟨sample, hsample, horigin⟩ | he)
    · exact ⟨sample, List.mem_append_left _ hsample, horigin⟩
    · exact ⟨_, List.mem_append_right _ (List.mem_map_of_mem he), rfl⟩

omit [LinearOrder T] in
theorem fromDigests_slowRead {rows : List (Execution T)} {es : List (Execution T)}
    {since : Nat} (h : FromDigests (slowRead normalizeDigest s rows) es since) :
    FromDigests s es since := by
  obtain ⟨sample, hsample, horigin⟩ := h
  rcases List.mem_append.mp hsample with hold | hnew
  · exact ⟨sample, hold, horigin⟩
  · obtain ⟨e, -, rfl⟩ := List.mem_map.mp hnew
    cases horigin

omit [LinearOrder T] in
theorem Inv.withSlowRows {rows : List (Execution T)}
    (hrows : ∀ e ∈ rows, ∀ d ∈ s.differences, ¬ (d.1 < e.number ∧ e.number ≤ d.2))
    (h : Inv s) : Inv (slowRead normalizeDigest s rows) where
  numbered := h.numbered
  fits := h.fits
  between es since hes := h.between es since (fromDigests_slowRead hes)
  once := by
    constructor
    · intro e es since he hes hmem
      have hes' := fromDigests_slowRead hes
      rcases fromSlowLog_slowRead.mp he with hold | hnew
      · exact h.once.exclusive e es since hold hes' hmem
      · obtain ⟨d, hd, hbetween⟩ := h.between es since hes'
        exact hrows e hnew d hd (hbetween e hmem)
    · intro es since hes
      exact h.once.recent es since (fromDigests_slowRead hes)

theorem Inv.collectSlowLog {a : Answers T}
    (hunmixed : a.reads = true → ∀ e ∈ s.server.slowLog, slowStart s a < e.startTime →
      ∀ d ∈ s.differences, ¬ (d.1 < e.number ∧ e.number ≤ d.2))
    (h : Inv s) : Inv (collectSlowLog normalizeDigest s a) := by
  unfold Collector.collectSlowLog
  split_ifs with hreads
  · have hrows : ∀ e ∈ stored a.inserts 0 (slowRows s (slowStart s a)),
        ∀ d ∈ s.differences, ¬ (d.1 < e.number ∧ e.number ≤ d.2) := by
      intro e he
      have hin := List.mem_filter.mp ((List.mem_insertionSort _).mp (mem_of_mem_stored he))
      exact hunmixed hreads e hin.1 (of_decide_eq_true hin.2)
    have hsamples : Inv (slowRead normalizeDigest s _) := h.withSlowRows hrows
    dsimp only
    split_ifs with hempty
    · exact hsamples
    · refine hsamples.cursorPut a.cursorPuts fun snap hsource _ => ?_
      exact absurd hsource (by decide)
  · exact h

/-- The samples of a reading of the digest table. -/
def digestRead (normalizeDigest : List Char → List Char) (s : State T)
    (prev : Option PsSnapshot) (deltas : List (PsDelta × List (Execution T))) : State T :=
  { s with
    samples := s.samples ++
      deltas.map fun delta => digestSample normalizeDigest delta.1 delta.2 s.lastReading
    lastReading := s.server.executed
    differences := s.differences ++ prev.toList.map fun snap => (snap.t, s.server.executed) }

variable {prev : Option PsSnapshot} {deltas : List (PsDelta × List (Execution T))}

omit [LinearOrder T] in
theorem fromSlowLog_digestRead {e : Execution T}
    (h : FromSlowLog (digestRead normalizeDigest s prev deltas) e) : FromSlowLog s e := by
  obtain ⟨sample, hsample, horigin⟩ := h
  rcases List.mem_append.mp hsample with hold | hnew
  · exact ⟨sample, hold, horigin⟩
  · obtain ⟨delta, -, rfl⟩ := List.mem_map.mp hnew
    cases horigin

omit [LinearOrder T] in
theorem fromDigests_digestRead {es : List (Execution T)} {since : Nat}
    (h : FromDigests (digestRead normalizeDigest s prev deltas) es since) :
    FromDigests s es since ∨ since = s.lastReading ∧ ∃ delta ∈ deltas, delta.2 = es := by
  obtain ⟨sample, hsample, horigin⟩ := h
  rcases List.mem_append.mp hsample with hold | hnew
  · exact .inl ⟨sample, hold, horigin⟩
  · obtain ⟨delta, hdelta, rfl⟩ := List.mem_map.mp hnew
    cases horigin
    exact .inr ⟨rfl, delta, hdelta, rfl⟩

omit [LinearOrder T] in
theorem Inv.withDeltas
    (hdeltas : ∀ delta ∈ deltas, ∃ snap, prev = some snap ∧
      ∀ e ∈ delta.2, snap.t < e.number ∧ e.number ≤ s.server.executed)
    (hprev : ∀ snap, prev = some snap → snap.t = s.lastReading ∧
      ∀ e, FromSlowLog s e → e.number ≤ snap.t)
    (h : Inv s) : Inv (digestRead normalizeDigest s prev deltas) where
  numbered := h.numbered
  fits := h.fits
  between es since hes := by
    rcases fromDigests_digestRead hes with hold | ⟨-, delta, hdelta, rfl⟩
    · obtain ⟨d, hd, hbetween⟩ := h.between es since hold
      exact ⟨d, List.mem_append_left _ hd, hbetween⟩
    · obtain ⟨snap, rfl, hbetween⟩ := hdeltas delta hdelta
      exact ⟨(snap.t, s.server.executed), List.mem_concat_self, hbetween⟩
  once := by
    constructor
    · intro e es since he hes hmem
      have he' := fromSlowLog_digestRead he
      rcases fromDigests_digestRead hes with hold | ⟨-, delta, hdelta, rfl⟩
      · exact h.once.exclusive e es since he' hold hmem
      · obtain ⟨snap, hsnap, hbetween⟩ := hdeltas delta hdelta
        have hbefore := (hprev snap hsnap).2 e he'
        have hafter := (hbetween e hmem).1
        omega
    · intro es since hes e hmem
      rcases fromDigests_digestRead hes with hold | ⟨rfl, delta, hdelta, rfl⟩
      · exact h.once.recent es since hold e hmem
      · obtain ⟨snap, hsnap, hbetween⟩ := hdeltas delta hdelta
        rw [← (hprev snap hsnap).1]
        exact (hbetween e hmem).1

omit [LinearOrder T] in
theorem Inv.collectMysqlPsDigest {a : Answers T}
    (hunmixed : a.reads = true → s.server.performanceSchema = true →
      ∀ snap, prevSnapshot s a = some snap →
        snap.t = s.lastReading ∧ ∀ e, FromSlowLog s e → e.number ≤ snap.t)
    (h : Inv s) : Inv (collectMysqlPsDigest normalizeDigest s a) := by
  unfold Collector.collectMysqlPsDigest
  split_ifs with hreads
  · have htop : ∀ entry ∈ topDigests s a, entry ∈ s.server.digests := fun entry hentry =>
      (List.mem_insertionSort _).mp (List.mem_of_mem_take hentry)
    have hstored : ∀ snap, prevSnapshot s a = some snap → Fits snap s.server := by
      intro snap hsnap
      obtain ⟨cursor, hcursor, hsnap'⟩ := Option.bind_eq_some_iff.mp hsnap
      unfold cursorGet at hcursor
      split_ifs at hcursor with hread
      cases cursor with
      | stamp t => cases hsnap'
      | snapshot _ =>
          cases hsnap'
          exact h.fits snap hcursor
    have hdeltas : ∀ delta ∈ stored a.inserts 0 (coveredDeltas (prevSnapshot s a)
        (topDigests s a)), ∃ snap, prevSnapshot s a = some snap ∧
          ∀ e ∈ delta.2, snap.t < e.number ∧ e.number ≤ s.server.executed := by
      intro delta hdelta
      obtain ⟨snap, hsnap, entry, hentry, hrow, hcovered⟩ :=
        mem_coveredDeltas (mem_of_mem_stored hdelta)
      refine ⟨snap, hsnap, ?_⟩
      rw [hcovered]
      exact covered_between (htop entry hentry) hrow h.numbered (hstored snap hsnap)
    obtain ⟨hread, hschema⟩ := Bool.and_eq_true_iff.mp hreads
    have hsamples : Inv (digestRead normalizeDigest s _ _) :=
      h.withDeltas hdeltas (hunmixed hread hschema)
    refine hsamples.cursorPut a.cursorPuts fun snap _ hsnap => ?_
    cases hsnap
    exact fits_snapshotOf htop h.numbered
  · exact h

theorem Inv.step {act : Action T} (hunmixed : Unmixed s act)
    (hstep : step normalizeDigest s act = some t) (h : Inv s) : Inv t := by
  cases act with
  | tick a =>
      cases hstep
      unfold collectMysql
      by_cases hconnects : a.connects = true
      · rw [hconnects, Bool.not_true, if_neg Bool.false_ne_true]
        by_cases husable : s.server.slowLogUsable = true
        · rw [if_pos husable]
          refine h.collectSlowLog fun hreads => ?_
          have hmixed := hunmixed hconnects hreads
          rwa [if_pos husable] at hmixed
        · rw [if_neg husable]
          refine h.collectMysqlPsDigest fun hreads hschema => ?_
          have hmixed := hunmixed hconnects hreads
          rwa [if_neg husable, if_pos hschema] at hmixed
      · rw [Bool.not_eq_true] at hconnects
        rw [hconnects]
        exact h
  | execute | configure | truncateSlowLog | truncateDigests | evictDigest | restartServer =>
      cases hstep
      exact h.serverStep _

/-- Where the sources are not mixed, every execution is recorded by one of them at most,
and a difference covers what was executed since the reading before it. -/
theorem recordedOnce_of_unmixed : AlwaysRecordedOnce normalizeDigest (Unmixed (T := T)) := by
  intro acts s hrun
  have hinv : Inv s := Run.invariant (fun _ _ _ hallowed hstep => Inv.step hallowed hstep) hrun
    inv_initial
  exact hinv.once

end Tick

/-! ## A source switched, and a snapshot not saved -/

theorem aa_bare : '|' ∉ "aa".toList := by decide

theorem shop_named : some "shop".toList ≠ some [] := by decide

def selectOne (startTime : Nat) : Statement Nat where
  digest := ⟨"aa".toList, some "shop".toList, aa_bare, shop_named⟩
  digestText := "SELECT ?".toList
  db := some "shop".toList
  sqlText := some "SELECT 1".toList
  startTime := startTime
  queryTime := "00:00:01.500000".toList
  timerWait := 1500000000000

def answers (hourAgo : Nat) (cursorPuts : Bool) : Answers Nat where
  connects := true
  hourAgo := hourAgo
  reads := true
  tie _ := 0
  cursorReads := true
  inserts _ := true
  cursorPuts := cursorPuts

/-- The slow log is on for one tick, between two readings of the digest table. -/
def switchedBack : List (Action Nat) :=
  [.execute (selectOne 1) false true,
   .tick (answers 0 true),
   .configure 1 "TABLE".toList,
   .execute (selectOne 2) true true,
   .tick (answers 1 true),
   .configure 0 "TABLE".toList,
   .tick (answers 2 true)]

/-- The snapshot of the second reading is not saved. -/
def unsaved : List (Action Nat) :=
  [.execute (selectOne 1) false true,
   .tick (answers 0 true),
   .execute (selectOne 2) false true,
   .tick (answers 1 false),
   .tick (answers 2 true)]

/-- The execution taken from the slow log is in the next digest difference too; and a
difference goes back behind the reading before it. -/
theorem recorded_twice :
    (∃ s : State Nat, Run (step id) anyStep .initial switchedBack s ∧
      FromSlowLog s ⟨selectOne 2, 2⟩ ∧ FromDigests s [⟨selectOne 2, 2⟩] 1) ∧
    (∃ s : State Nat, Run (step id) anyStep .initial unsaved s ∧
      FromDigests s [⟨selectOne 2, 2⟩] 2) ∧
    ¬ AlwaysRecordedOnce (T := Nat) id anyStep := by
  have hswitched : Run (step id) anyStep (.initial : State Nat) switchedBack _ :=
    run_of_exec rfl
  have hunsaved : Run (step id) anyStep (.initial : State Nat) unsaved _ := run_of_exec rfl
  refine ⟨⟨_, hswitched, ⟨_, List.mem_cons_self, rfl⟩,
    ⟨_, List.mem_cons_of_mem _ List.mem_cons_self, rfl⟩⟩,
    ⟨_, hunsaved, ⟨_, List.mem_cons_of_mem _ List.mem_cons_self, rfl⟩⟩, fun honce => ?_⟩
  have hexclusive := (honce _ _ hswitched).exclusive ⟨selectOne 2, 2⟩ [⟨selectOne 2, 2⟩] 1
    ⟨_, List.mem_cons_self, rfl⟩ ⟨_, List.mem_cons_of_mem _ List.mem_cons_self, rfl⟩
  exact hexclusive List.mem_cons_self

end Dbmaster.NativeCollector.OneSource
