import Dbmaster.NativeCollector.OneSource
import Dbmaster.NativeCollector.Redis
/-!
# Slow entries that are not lost

An entry that was read and not stored is read again where it stays beyond the cursor: the
cursor is raised to what was inserted, so nothing may be inserted at or after an entry whose
insert fails.
-/

namespace Dbmaster.NativeCollector

open Dbmaster.Lib Dbmaster.Lib.Transition Dbmaster.Mongo.ExtendedJson

theorem mem_stored_iff {α : Type} {inserts : Nat → Bool} {n : Nat} {items : List α} {x : α} :
    x ∈ Collector.stored inserts n items ↔
      ∃ i, items[i]? = some x ∧ inserts (n + i) = true := by
  induction items generalizing n with
  | nil => simp [Collector.stored]
  | cons item items ih =>
      have hstep : (∃ i, (item :: items)[i]? = some x ∧ inserts (n + i) = true) ↔
          (item = x ∧ inserts n = true) ∨
            ∃ i, items[i]? = some x ∧ inserts (n + 1 + i) = true := by
        constructor
        · rintro ⟨i, hi, htrue⟩
          cases i with
          | zero => exact .inl ⟨Option.some.inj hi, htrue⟩
          | succ i => exact .inr ⟨i, hi, by rw [Nat.add_assoc, Nat.add_comm 1]; exact htrue⟩
        · rintro (⟨rfl, htrue⟩ | ⟨i, hi, htrue⟩)
          · exact ⟨0, rfl, htrue⟩
          · exact ⟨i + 1, hi, by rw [Nat.add_comm i, ← Nat.add_assoc]; exact htrue⟩
      rw [hstep, Collector.stored]
      split_ifs with hinsert
      · rw [List.mem_cons, ih]
        simp only [hinsert, and_true, eq_comm]
      · rw [ih]
        simp only [hinsert, Bool.false_eq_true, and_false, false_or]

namespace Redis

open Dbmaster.Redis

/-! ## The entries of a Redis connection -/

def Stored (s : State) (e : LogEntry) : Prop := ∃ sample ∈ s.samples, sample.entry = e

def LogEntry.mark (e : LogEntry) : Nat := e.id.toInt.toNat

/-- The cursor has not reached the entry. -/
def Beyond (s : State) (e : LogEntry) : Prop := s.cursor.getD 0 < e.mark

/-- What was read is stored, or is beyond the cursor in what the next tick reads. -/
def NotLost (s : State) : Prop :=
  ∀ e ∈ s.fetched, Stored s e ∨ (e ∈ batch s ∧ Beyond s e)

/-- No entry is inserted that is newer than one of which the insert fails, or than one of a
command of the slow log, which is left out. -/
structure Ordered (s : State) (a : Answers) : Prop where
  inserts : Watermark.InOrder markOf a.inserts (attempts (lastId s a) (batch s))
  own : ∀ e ∈ batch s, ownCommand (e.args.map fromUtf8Lossy) = true →
    ∀ row ∈ Collector.stored a.inserts 0 (attempts (lastId s a) (batch s)), markOf row < e.mark

/-- The server drops no entry that was read and not stored, and no tick goes past one. -/
def Careful (s : State) : Action → Prop
  | .log _ maxLen => ∀ e ∈ s.fetched,
      Stored s e ∨ e ∈ s.server.slowLog.take (min maxLen slowlogBatch - 1)
  | .reset => ∀ e ∈ s.fetched, Stored s e
  | .restart => ∀ e ∈ s.fetched, Stored s e
  | .tick a => a.connects = true →
      (∀ e ∈ batch s, Stored s e ∨ Beyond s e) ∧ (a.cursorPuts = true → Ordered s a)

theorem readParts_reply (e : LogEntry) :
    readParts (respToJson e.reply) =
      some ⟨e.id.toInt, e.duration.toInt, e.args.map fromUtf8Lossy⟩ := by
  have hargs : (respItemsToJson (e.args.map .bulkString)).map (fun x => (x.asStr).getD "") =
      e.args.map fromUtf8Lossy := by
    rw [respItemsToJson_eq_map, List.map_map, List.map_map]
    rfl
  have hid : asInt (.int e.id.toInt) = some e.id.toInt := by rw [asInt, asI64_toInt, Option.map_some]
  have hdur : asInt (.int e.duration.toInt) = some e.duration.toInt := by
    rw [asInt, asI64_toInt, Option.map_some]
  simp only [LogEntry.reply, respToJson, respItemsToJson, List.cons_append, readParts, hid, hdur,
    asArray, Option.map_some, Option.getD_some, hargs]

/-- The parts of an entry that is inserted if it can be. -/
def LogEntry.row (e : LogEntry) : LogEntry × Parts :=
  (e, ⟨e.id.toInt, e.duration.toInt, e.args.map fromUtf8Lossy⟩)

theorem row_mem_attempts {last : Nat} {entries : List LogEntry} {e : LogEntry}
    (he : e ∈ entries) (hown : ownCommand (e.args.map fromUtf8Lossy) = false)
    (hlast : last < e.mark) : e.row ∈ attempts last entries := by
  have hid : last < e.id.toInt.toNat := hlast
  have hpos : ¬ e.id.toInt ≤ 0 := by omega
  have hafter : ¬ e.id.toInt.toNat ≤ last := by omega
  have heligible : eligible last e.row.2 = true := by
    simp only [eligible, LogEntry.row, hown, hpos, hafter, decide_false, Bool.or_false,
      Bool.not_false]
  apply List.mem_filterMap.mpr
  refine ⟨e, he, ?_⟩
  calc ((readParts (respToJson e.reply)).filter (eligible last)).map (fun parts => (e, parts))
      = ((some e.row.2).filter (eligible last)).map (fun parts => (e, parts)) := by
        rw [readParts_reply]
        rfl
    _ = some e.row := by rw [Option.filter_some, if_pos heligible]; rfl

/-! ### Steps -/

variable {toUppercase : List Char → List Char}

theorem lastId_le (s : State) (a : Answers) : lastId s a ≤ s.cursor.getD 0 := by
  unfold lastId
  split_ifs
  · exact le_rfl
  · exact Nat.zero_le _

theorem stored_or_beyond_tick {s : State} {a : Answers} {e : LogEntry} (hconnects : a.connects = true)
    (he : e ∈ batch s) (hbeyond : Beyond s e) (hordered : a.cursorPuts = true → Ordered s a) :
    Stored (collectRedis toUppercase s a) e ∨ Beyond (collectRedis toUppercase s a) e := by
  have hlast : lastId s a < e.mark := lt_of_le_of_lt (lastId_le s a) hbeyond
  rw [collectRedis, if_pos hconnects]
  by_cases hrow : e.row ∈ Collector.stored a.inserts 0 (attempts (lastId s a) (batch s))
  · left
    refine ⟨sampleOf toUppercase e.row, List.mem_append_right _ ?_, rfl⟩
    exact List.mem_map_of_mem hrow
  · right
    rw [Beyond]
    dsimp only
    split_ifs with hput
    · have horder := hordered hput.2
      rw [Option.getD_some]
      show Watermark.raised markOf _ _ < e.mark
      cases hown : ownCommand (e.args.map fromUtf8Lossy) with
      | true =>
          apply Watermark.raised_lt hlast
          exact horder.own e he hown
      | false =>
          have hattempt := row_mem_attempts he hown hlast
          apply Watermark.raised_lt_of_left (x := e.row) ?_ horder.inserts hattempt hrow hlast
          intro row
          simpa only [Nat.zero_add] using mem_stored_iff (n := 0)
    · exact hbeyond

theorem stored_tick {s : State} {a : Answers} {e : LogEntry} (h : Stored s e) :
    Stored (collectRedis toUppercase s a) e := by
  obtain ⟨sample, hsample, rfl⟩ := h
  unfold collectRedis
  split_ifs
  · exact ⟨sample, List.mem_append_left _ hsample, rfl⟩
  · exact ⟨sample, hsample, rfl⟩

theorem batch_tick (s : State) (a : Answers) : batch (collectRedis toUppercase s a) = batch s := by
  unfold collectRedis
  split_ifs <;> rfl

theorem notLost_tick {s : State} {a : Answers} (hcareful : Careful s (.tick a)) (hs : NotLost s) :
    NotLost (collectRedis toUppercase s a) := by
  cases hconnects : a.connects with
  | false =>
      have hsame : collectRedis toUppercase s a = s := by
        rw [collectRedis, if_neg (by simp [hconnects])]
      rw [hsame]
      exact hs
  | true =>
      obtain ⟨hread, hordered⟩ := hcareful hconnects
      have hbatch : ∀ e ∈ batch s, Stored (collectRedis toUppercase s a) e ∨
          Beyond (collectRedis toUppercase s a) e := by
        intro e he
        rcases hread e he with hstored | hbeyond
        · exact .inl (stored_tick hstored)
        · exact stored_or_beyond_tick hconnects he hbeyond hordered
      intro e he
      rw [batch_tick]
      have hfetched : e ∈ s.fetched ++ batch s := by
        rw [collectRedis, if_pos hconnects] at he
        exact he
      rcases List.mem_append.mp hfetched with hold | hnew
      · rcases hs e hold with hstored | ⟨hin, _⟩
        · exact .inl (stored_tick hstored)
        · exact (hbatch e hin).imp_right fun hbeyond => ⟨hin, hbeyond⟩
      · exact (hbatch e hnew).imp_right fun hbeyond => ⟨hnew, hbeyond⟩

theorem mem_batch_log {s : State} {command : SlowCommand} {maxLen : Nat} {e : LogEntry}
    (h : e ∈ s.server.slowLog.take (min maxLen slowlogBatch - 1)) :
    e ∈ (s.server.log command maxLen).slowLog.take slowlogBatch := by
  rw [Server.log, List.take_take, Nat.min_comm]
  cases hmin : min maxLen slowlogBatch with
  | zero =>
      rw [hmin] at h
      exact absurd h (by simp)
  | succ n =>
      rw [hmin, Nat.add_sub_cancel] at h
      rw [List.take_succ_cons]
      exact List.mem_cons_of_mem _ h

theorem notLost_step {s t : State} {act : Action} (hcareful : Careful s act)
    (hstep : step toUppercase s act = some t) (hs : NotLost s) : NotLost t := by
  cases act with
  | log command maxLen =>
      obtain rfl := Option.some.inj hstep
      intro e he
      rcases hcareful e he with hstored | hin
      · exact .inl hstored
      · rcases hs e he with hstored | ⟨_, hbeyond⟩
        · exact .inl hstored
        · exact .inr ⟨mem_batch_log hin, hbeyond⟩
  | reset | restart =>
      obtain rfl := Option.some.inj hstep
      intro e he
      exact .inl (hcareful e he)
  | tick a =>
      obtain rfl := Option.some.inj hstep
      exact notLost_tick hcareful hs

end Redis

namespace Collector

open Dbmaster.NativeCollector.OneSource

variable {T : Type} [LinearOrder T]

/-! ## The rows of a MySQL connection -/

/-- A state of the collector, and every row of the slow log that a tick was sent. -/
structure Watched (T : Type) where
  state : State T
  fetched : List (Execution T)

def Watched.initial : Watched T := ⟨.initial, []⟩

/-- The tick reads the slow log. -/
def ReadsSlowLog (s : State T) (a : Answers T) : Prop :=
  a.connects = true ∧ s.server.slowLogUsable = true ∧ a.reads = true

instance (s : State T) (a : Answers T) : Decidable (ReadsSlowLog s a) := instDecidableAnd

def fetchedBy (s : State T) : Action T → List (Execution T)
  | .tick a => if ReadsSlowLog s a then slowRows s (slowStart s a) else []
  | _ => []

def watchedStep (normalizeDigest : List Char → List Char) (w : Watched T) (act : Action T) :
    Option (Watched T) :=
  (step normalizeDigest w.state act).map fun t => ⟨t, w.fetched ++ fetchedBy w.state act⟩

/-- The cursor has not reached the row. -/
def Beyond (s : State T) (e : Execution T) : Prop :=
  ∀ t, (s.cursors mysqlSource).bind CursorText.stamp? = some t → t < e.startTime

/-- What was read is stored, or is beyond the cursor in the slow log. -/
def NotLost (w : Watched T) : Prop :=
  ∀ e ∈ w.fetched, FromSlowLog w.state e ∨ (e ∈ w.state.server.slowLog ∧ Beyond w.state e)

/-- A tick starts before every row that was read and not stored, reads no such row behind the
cursor, and inserts none that started with or after a row of which the insert fails; and the
slow log is truncated after all that was read is stored. -/
def Careful (w : Watched T) : Action T → Prop
  | .truncateSlowLog => ∀ e ∈ w.fetched, FromSlowLog w.state e
  | .tick a => ReadsSlowLog w.state a →
      (∀ e ∈ w.fetched, FromSlowLog w.state e ∨ slowStart w.state a < e.startTime) ∧
      (∀ e ∈ slowRows w.state (slowStart w.state a), FromSlowLog w.state e ∨ Beyond w.state e) ∧
      (a.cursorPuts = true → Watermark.InOrder (fun e : Execution T => e.startTime) a.inserts
        (slowRows w.state (slowStart w.state a)))
  | _ => True

theorem mem_slowRows {s : State T} {start : T} {e : Execution T} :
    e ∈ slowRows s start ↔ e ∈ s.server.slowLog ∧ start < e.startTime := by
  rw [slowRows, List.mem_insertionSort, List.mem_filter, decide_eq_true_iff]

/-! ### Steps -/

variable (normalizeDigest : List Char → List Char)

omit [LinearOrder T] in
theorem samples_cursorPut (s : State T) (source : String) (cursor : CursorText T) (puts : Bool) :
    (cursorPut s source cursor puts).samples = s.samples := by
  unfold cursorPut
  split_ifs <;> rfl

omit [LinearOrder T] in
theorem server_cursorPut (s : State T) (source : String) (cursor : CursorText T) (puts : Bool) :
    (cursorPut s source cursor puts).server = s.server := by
  unfold cursorPut
  split_ifs <;> rfl

omit [LinearOrder T] in
theorem cursorPut_self {s : State T} {source : String} {cursor : CursorText T} {puts : Bool} :
    (cursorPut s source cursor puts).cursors source =
      if puts then some cursor else s.cursors source := by
  unfold cursorPut
  split_ifs
  · exact Function.update_self source (some cursor) s.cursors
  · rfl

omit [LinearOrder T] in
theorem cursorPut_of_ne {s : State T} {source other : String} {cursor : CursorText T}
    {puts : Bool} (h : other ≠ source) :
    (cursorPut s source cursor puts).cursors other = s.cursors other := by
  unfold cursorPut
  split_ifs
  · exact Function.update_of_ne h (some cursor) s.cursors
  · rfl

omit [LinearOrder T] in
theorem fromSlowLog_mono {s t : State T} {e : Execution T} (h : s.samples <+: t.samples)
    (he : FromSlowLog s e) : FromSlowLog t e := by
  obtain ⟨sample, hsample, horigin⟩ := he
  exact ⟨sample, h.subset hsample, horigin⟩

theorem tick_of_not_reads {s : State T} {a : Answers T} (h : ¬ ReadsSlowLog s a) :
    s.samples <+: (collectMysql normalizeDigest s a).samples ∧
      (collectMysql normalizeDigest s a).server = s.server ∧
      (collectMysql normalizeDigest s a).cursors mysqlSource = s.cursors mysqlSource := by
  unfold collectMysql
  split_ifs with hoff husable
  · exact ⟨List.prefix_rfl, rfl, rfl⟩
  · have hreads : ¬ a.reads = true := by
      intro hreads
      exact h ⟨by simpa using hoff, husable, hreads⟩
    rw [collectSlowLog, if_neg hreads]
    exact ⟨List.prefix_rfl, rfl, rfl⟩
  · unfold collectMysqlPsDigest
    split_ifs
    · refine ⟨?_, server_cursorPut .., cursorPut_of_ne (by decide)⟩
      rw [samples_cursorPut]
      exact List.prefix_append ..
    · exact ⟨List.prefix_rfl, rfl, rfl⟩

/-- The rows that a tick stores of what it reads. -/
def storedRows (s : State T) (a : Answers T) : List (Execution T) :=
  stored a.inserts 0 (slowRows s (slowStart s a))

theorem collectMysql_of_reads {s : State T} {a : Answers T} (h : ReadsSlowLog s a) :
    collectMysql normalizeDigest s a = collectSlowLog normalizeDigest s a := by
  rw [collectMysql, if_neg (by simp [h.1]), if_pos h.2.1]

theorem tick_of_reads {s : State T} {a : Answers T} (h : ReadsSlowLog s a) :
    (collectMysql normalizeDigest s a).samples =
        s.samples ++ (storedRows s a).map (slowSample normalizeDigest) ∧
      (collectMysql normalizeDigest s a).server = s.server ∧
      ((collectMysql normalizeDigest s a).cursors mysqlSource = s.cursors mysqlSource ∨
        a.cursorPuts = true ∧ (collectMysql normalizeDigest s a).cursors mysqlSource =
          some (.stamp (Watermark.raised (fun e : Execution T => e.startTime) (slowStart s a)
            (storedRows s a)))) := by
  rw [collectMysql_of_reads normalizeDigest h, collectSlowLog, if_pos h.2.2]
  dsimp only
  split_ifs with hempty
  · exact ⟨rfl, rfl, .inl rfl⟩
  · refine ⟨samples_cursorPut .., server_cursorPut .., ?_⟩
    rw [cursorPut_self]
    split_ifs with hputs
    · exact .inr ⟨hputs, rfl⟩
    · exact .inl rfl

variable {normalizeDigest}

theorem stored_or_beyond_tick {s : State T} {a : Answers T} {e : Execution T}
    (hreads : ReadsSlowLog s a) (he : e ∈ slowRows s (slowStart s a)) (hbeyond : Beyond s e)
    (horder : a.cursorPuts = true → Watermark.InOrder (fun e : Execution T => e.startTime)
      a.inserts (slowRows s (slowStart s a))) :
    FromSlowLog (collectMysql normalizeDigest s a) e ∨
      Beyond (collectMysql normalizeDigest s a) e := by
  obtain ⟨hsamples, _, hcursor⟩ := tick_of_reads normalizeDigest hreads
  by_cases hrow : e ∈ storedRows s a
  · left
    refine ⟨slowSample normalizeDigest e, ?_, rfl⟩
    rw [hsamples]
    exact List.mem_append_right _ (List.mem_map_of_mem hrow)
  · right
    rcases hcursor with hsame | ⟨hputs, hraised⟩
    · rw [Beyond, hsame]
      exact hbeyond
    · intro t ht
      rw [hraised] at ht
      obtain rfl := Option.some.inj ht
      apply Watermark.raised_lt_of_left (x := e) ?_ (horder hputs) he hrow (mem_slowRows.mp he).2
      intro row
      unfold storedRows
      simpa only [Nat.zero_add] using mem_stored_iff (n := 0)

theorem notLost_tick {w : Watched T} {a : Answers T} (hcareful : Careful w (.tick a))
    (hw : NotLost w) :
    NotLost ⟨collectMysql normalizeDigest w.state a, w.fetched ++ fetchedBy w.state (.tick a)⟩ := by
  by_cases hreads : ReadsSlowLog w.state a
  · obtain ⟨hstart, hbehind, horder⟩ := hcareful hreads
    obtain ⟨hsamples, hserver, _⟩ := tick_of_reads normalizeDigest hreads
    have hmore : w.state.samples <+: (collectMysql normalizeDigest w.state a).samples := by
      rw [hsamples]
      exact List.prefix_append ..
    have hrow : ∀ e ∈ slowRows w.state (slowStart w.state a),
        FromSlowLog (collectMysql normalizeDigest w.state a) e ∨
          (e ∈ (collectMysql normalizeDigest w.state a).server.slowLog ∧
            Beyond (collectMysql normalizeDigest w.state a) e) := by
      intro e he
      rw [hserver]
      rcases hbehind e he with hstored | hbeyond
      · exact .inl (fromSlowLog_mono hmore hstored)
      · exact (stored_or_beyond_tick hreads he hbeyond horder).imp_right fun hafter =>
          ⟨(mem_slowRows.mp he).1, hafter⟩
    intro e he
    rw [fetchedBy, if_pos hreads] at he
    rcases List.mem_append.mp he with hold | hnew
    · rcases hw e hold with hstored | ⟨hin, _⟩
      · exact .inl (fromSlowLog_mono hmore hstored)
      · rcases hstart e hold with hstored | hafter
        · exact .inl (fromSlowLog_mono hmore hstored)
        · exact hrow e (mem_slowRows.mpr ⟨hin, hafter⟩)
    · exact hrow e hnew
  · obtain ⟨hmore, hserver, hcursor⟩ :=
      tick_of_not_reads normalizeDigest hreads
    intro e he
    rw [fetchedBy, if_neg hreads, List.append_nil] at he
    rcases hw e he with hstored | ⟨hin, hbeyond⟩
    · exact .inl (fromSlowLog_mono hmore hstored)
    · right
      rw [Beyond, hserver, hcursor]
      exact ⟨hin, hbeyond⟩

theorem notLost_step {w v : Watched T} {act : Action T} (hcareful : Careful w act)
    (hstep : watchedStep normalizeDigest w act = some v) (hw : NotLost w) : NotLost v := by
  obtain ⟨t, ht, rfl⟩ := Option.map_eq_some_iff.mp hstep
  cases act with
  | execute st logged counted =>
      obtain rfl := Option.some.inj ht
      intro e hmem
      have he : e ∈ w.fetched := by simpa only [fetchedBy, List.append_nil] using hmem
      rcases hw e he with hstored | ⟨hin, hbeyond⟩
      · exact .inl hstored
      · refine .inr ⟨?_, hbeyond⟩
        show e ∈ (w.state.server.execute st logged counted).slowLog
        rw [Server.execute]
        dsimp only
        split_ifs
        · exact List.mem_append_left _ hin
        · exact hin
  | configure | truncateDigests | evictDigest | restartServer =>
      obtain rfl := Option.some.inj ht
      intro e hmem
      have he : e ∈ w.fetched := by simpa only [fetchedBy, List.append_nil] using hmem
      exact hw e he
  | truncateSlowLog =>
      obtain rfl := Option.some.inj ht
      intro e hmem
      have he : e ∈ w.fetched := by simpa only [fetchedBy, List.append_nil] using hmem
      exact .inl (hcareful e he)
  | tick a =>
      obtain rfl := Option.some.inj ht
      exact notLost_tick hcareful hw

end Collector

/-! ## Both sources -/

/-- In every run in which no tick goes past an entry that it leaves, and the server drops
none, what was read is stored or beyond the cursor, and a tick reads it again. -/
theorem collected_notLost (toUppercase normalizeDigest : List Char → List Char) (T : Type)
    [LinearOrder T] :
    (∀ acts s, Run (Redis.step toUppercase) Redis.Careful .initial acts s → Redis.NotLost s) ∧
    (∀ acts (w : Collector.Watched T),
      Run (Collector.watchedStep normalizeDigest) Collector.Careful .initial acts w →
      Collector.NotLost w ∧
      ∀ a, Collector.Careful w (.tick a) → Collector.ReadsSlowLog w.state a →
        ∀ e ∈ w.fetched, OneSource.FromSlowLog w.state e ∨
          e ∈ Collector.fetchedBy w.state (.tick a)) := by
  constructor
  · intro acts s hrun
    apply hrun.invariant (I := Redis.NotLost) (fun s a t => Redis.notLost_step)
    intro e he
    cases he
  · intro acts w hrun
    have hw : Collector.NotLost w := by
      apply hrun.invariant (I := Collector.NotLost) (fun w a v => Collector.notLost_step)
      intro e he
      cases he
    refine ⟨hw, ?_⟩
    intro a hcareful hreads e he
    rcases hw e he with hstored | ⟨hin, _⟩
    · exact .inl hstored
    · rcases (hcareful hreads).1 e he with hstored | hafter
      · exact .inl hstored
      · right
        rw [Collector.fetchedBy, if_pos hreads]
        exact Collector.mem_slowRows.mpr ⟨hin, hafter⟩

def getCommand : Redis.SlowCommand := ⟨0, 5000, [[71, 69, 84], [107]], []⟩

/-- The newest of three entries is not inserted at first. -/
def calmRun : List Redis.Action :=
  [.log getCommand 1, .log getCommand 1, .log getCommand 128, .log getCommand 128,
    .tick ⟨true, true, fun i => decide (i ≠ 0), true⟩, .tick ⟨true, true, fun _ => true, true⟩]

/-- The last of three rows of the slow log is not inserted at first. -/
def calmLogRun : List (Collector.Action Nat) :=
  [.configure 1 "TABLE".toList, .execute (OneSource.selectOne 1) true false,
    .execute (OneSource.selectOne 2) true false, .execute (OneSource.selectOne 3) true false,
    .tick { OneSource.answers 0 true with inserts := fun i => decide (i ≠ 2) },
    .tick (OneSource.answers 0 true)]

theorem run_calmRun : ∃ s, Run (Redis.step id) Redis.Careful .initial calmRun s ∧
    s.cursor = some 3 ∧ s.samples.map (fun sample => sample.entry.serial) = [2, 1, 3] := by
  have hnone : ∀ (s : Redis.State) command maxLen, s.fetched = [] →
      Redis.Careful s (.log command maxLen) := by
    intro s command maxLen hfetched e he
    rw [hfetched] at he
    cases he
  refine ⟨_, .cons (hnone _ _ _ rfl) rfl (.cons (hnone _ _ _ rfl) rfl (.cons (hnone _ _ _ rfl) rfl
    (.cons (hnone _ _ _ rfl) rfl (.cons ?_ rfl (.cons ?_ rfl (.nil _)))))), ?_, ?_⟩
  · intro _
    refine ⟨fun e he => .inr ?_, fun _ => ⟨by decide +kernel, by decide +kernel⟩⟩
    revert e
    show ∀ e ∈ _, 0 < Redis.LogEntry.mark e
    decide +kernel
  · intro _
    refine ⟨List.forall_mem_cons.mpr ⟨.inr ?_, List.forall_mem_cons.mpr ⟨.inl ?_,
      List.forall_mem_cons.mpr ⟨.inl ?_, List.forall_mem_nil _⟩⟩⟩,
      fun _ => ⟨by decide +kernel, by decide +kernel⟩⟩
    · show 2 < _
      decide +kernel
    · exact ⟨_, List.mem_cons_self, rfl⟩
    · exact ⟨_, List.mem_cons_of_mem _ List.mem_cons_self, rfl⟩
  · decide +kernel
  · decide +kernel

theorem run_calmLogRun : ∃ w,
    Run (Collector.watchedStep id) Collector.Careful .initial calmLogRun w ∧
      w.fetched.map Collector.Execution.number = [1, 2, 3, 3] ∧ w.state.samples.length = 3 := by
  refine ⟨_, .cons trivial rfl (.cons trivial rfl (.cons trivial rfl (.cons trivial rfl
    (.cons ?_ rfl (.cons ?_ rfl (.nil _)))))), ?_, ?_⟩
  · intro _
    exact ⟨nofun, fun e he => .inr nofun, fun _ => by decide +kernel⟩
  · intro _
    refine ⟨?_, ?_, fun _ => by decide +kernel⟩
    · exact List.forall_mem_cons.mpr ⟨.inl ⟨_, List.mem_cons_self, rfl⟩,
        List.forall_mem_cons.mpr ⟨.inl ⟨_, List.mem_cons_of_mem _ List.mem_cons_self, rfl⟩,
          List.forall_mem_cons.mpr ⟨.inr (by decide +kernel), List.forall_mem_nil _⟩⟩⟩
    · refine List.forall_mem_cons.mpr ⟨.inr fun t ht => ?_, List.forall_mem_nil _⟩
      obtain rfl : (2 : Nat) = t := Option.some.inj ht
      decide
  · decide +kernel
  · decide +kernel

/-- What was not inserted at first is inserted by the next tick, of either source. -/
theorem calmRun_notLost :
    (∃ s, Run (Redis.step id) Redis.Careful .initial calmRun s ∧ s.cursor = some 3 ∧
        s.samples.map (fun sample => sample.entry.serial) = [2, 1, 3] ∧ Redis.NotLost s) ∧
      ∃ w, Run (Collector.watchedStep id) Collector.Careful .initial calmLogRun w ∧
        w.fetched.map Collector.Execution.number = [1, 2, 3, 3] ∧ w.state.samples.length = 3 ∧
        Collector.NotLost w := by
  obtain ⟨s, hrun, hcursor, hsamples⟩ := run_calmRun
  obtain ⟨w, hlog, hfetched, hlength⟩ := run_calmLogRun
  exact ⟨⟨s, hrun, hcursor, hsamples, (collected_notLost id id Nat).1 calmRun s hrun⟩,
    w, hlog, hfetched, hlength, ((collected_notLost id id Nat).2 calmLogRun w hlog).1⟩

/-- Of two entries the older one is not inserted, and the cursor goes past it. -/
def missedRun : List Redis.Action :=
  [.log getCommand 128, .log getCommand 128, .log getCommand 128,
    .tick ⟨true, true, fun i => decide (i = 0), true⟩]

theorem missedRun_not_notLost :
    ¬ ∀ toUppercase acts s, Run (Redis.step toUppercase) anyStep .initial acts s →
      Redis.NotLost s := by
  intro hall
  have hrun : ((exec (Redis.step id) .initial missedRun).map fun s => (s.cursor,
      s.samples.map fun sample => sample.entry.serial,
      s.fetched.map fun e => (e.serial, e.mark))) =
        some (some 2, [2], [(2, 2), (1, 1), (0, 0)]) := by
    decide +kernel
  obtain ⟨s, hexec, hs⟩ := Option.map_eq_some_iff.mp hrun
  injection hs with hcursor hrest
  injection hrest with hsamples hfetched
  have hmem : (1, 1) ∈ s.fetched.map fun e => (e.serial, e.mark) := by
    rw [hfetched]
    decide
  obtain ⟨e, he, hpair⟩ := List.mem_map.mp hmem
  injection hpair with hserial hmark
  rcases hall id missedRun s (run_of_exec hexec) e he with ⟨sample, hsample, rfl⟩ | ⟨_, hbeyond⟩
  · have hin := List.mem_map_of_mem (f := fun sample : Redis.Sample => sample.entry.serial) hsample
    rw [hsamples, hserial] at hin
    exact absurd hin (by decide)
  · rw [Redis.Beyond, hcursor, hmark] at hbeyond
    exact absurd hbeyond (by decide)

end Dbmaster.NativeCollector
