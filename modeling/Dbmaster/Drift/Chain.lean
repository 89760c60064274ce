import Dbmaster.Drift.Exactness
import Dbmaster.Drift.Runner
/-!
# The chain of snapshots of a connection

A run compares with the latest snapshot of its connection, whichever task took it.  While
the runs on a connection see the same schemas, each reports what has changed since the one
before it.
-/

namespace Dbmaster.Drift.Chain

open Dbmaster.Lib Dbmaster.Lib.Table Dbmaster.Lib.Transition
open Dbmaster.Drift.Snapshot Dbmaster.Drift.Diff Dbmaster.Drift.Exactness Dbmaster.Drift.Runner

variable {T : Type}

/-! ## Equal texts -/

/-- What the first map has, the second one has with the same text. -/
def Same {α : Type} (f : α → Json) (a b : NameMap α) : Prop :=
  ∀ (name : String) x, a[name]? = some x → ∃ y, b[name]? = some y ∧ f x = f y

theorem Same.refl {α : Type} (f : α → Json) (a : NameMap α) : Same f a a :=
  fun _ x hx => ⟨x, hx, rfl⟩

theorem same_of_entriesJson {α : Type} {f : α → Json} {a b : NameMap α}
    (h : entriesJson f a = entriesJson f b) : Same f a b := by
  intro name x hx
  have hmap : a.toList.map (fun e => (e.1, f e.2)) = b.toList.map fun e => (e.1, f e.2) :=
    Json.obj.inj h
  have hin : (name, f x) ∈ a.toList.map fun e => (e.1, f e.2) :=
    List.mem_map.mpr ⟨(name, x), Std.TreeMap.mem_toList_iff_getElem?_eq_some.mpr hx, rfl⟩
  rw [hmap] at hin
  obtain ⟨⟨name', y⟩, hy, heq⟩ := List.mem_map.mp hin
  obtain ⟨rfl, hxy⟩ := Prod.mk.inj heq
  exact ⟨y, Std.TreeMap.mem_toList_iff_getElem?_eq_some.mp hy, hxy.symm⟩

theorem ofOption_inj {α : Type} (f : α → Json) (hnull : ∀ a, f a ≠ .null)
    (hf : ∀ a b, f a = f b → a = b) {x y : Option α}
    (h : Json.ofOption f x = Json.ofOption f y) : x = y := by
  cases x with
  | none =>
      cases y with
      | none => rfl
      | some b => exact absurd h.symm (hnull b)
  | some a =>
      cases y with
      | none => exact absurd h (hnull a)
      | some b => rw [hf a b h]

theorem optStr_inj {x y : Option String} (h : Json.ofOption .str x = Json.ofOption .str y) :
    x = y :=
  ofOption_inj Json.str (fun _ => nofun) (fun _ _ => Json.str.inj) h

theorem optInt_inj {x y : Option Int} (h : Json.ofOption .int x = Json.ofOption .int y) :
    x = y :=
  ofOption_inj Json.int (fun _ => nofun) (fun _ _ => Json.int.inj) h

theorem strings_inj {x y : List String} (h : strings x = strings y) : x = y :=
  List.map_injective_iff.mpr (fun _ _ => Json.str.inj) (Json.arr.inj h)

theorem columnJson_inj {c c' : ColumnSchema} (h : columnJson c = columnJson c') : c = c' := by
  cases c
  cases c'
  simp only [columnJson, Json.obj.injEq, List.cons.injEq, Prod.mk.injEq, Json.str.injEq,
    Json.int.injEq, Json.bool.injEq, true_and, and_true] at h
  obtain ⟨rfl, rfl, rfl, rfl, hdefault, hlength, hprecision, hscale⟩ := h
  rw [optStr_inj hdefault, optInt_inj hlength, optInt_inj hprecision, optInt_inj hscale]

theorem pkSummary_inj (pk pk' : PrimaryKey) (h : pkSummary pk = pkSummary pk') : pk = pk' := by
  cases pk
  cases pk'
  simp only [pkSummary, Json.obj.injEq, List.cons.injEq, Prod.mk.injEq, true_and, and_true] at h
  rw [optStr_inj h.1, strings_inj h.2]

theorem onlyIn_eq_nil {α : Type} {f : α → Json} {a b : NameMap α} (h : Same f a b)
    (emit : String → α → Drift) : onlyIn a b emit = [] := by
  apply List.eq_nil_iff_forall_not_mem.mpr
  intro d hd
  obtain ⟨name, x, hx, hno, -⟩ := mem_onlyIn.mp hd
  obtain ⟨y, hy, -⟩ := h name x hx
  exact hno (mem_names.mpr ⟨y, hy⟩)

theorem inBoth_eq_nil {α : Type} {f : α → Json} {a b : NameMap α} (h : Same f a b)
    {compare : String → α → α → List Drift}
    (hcompare : ∀ name x y, f x = f y → compare name x y = []) : inBoth a b compare = [] := by
  apply List.eq_nil_iff_forall_not_mem.mpr
  intro d hd
  obtain ⟨name, x, y, hx, hy, hd⟩ := mem_inBoth.mp hd
  obtain ⟨y', hy', hxy⟩ := h name x hx
  rw [hy, Option.some.injEq] at hy'
  rw [hcompare name x y (hy' ▸ hxy)] at hd
  cases hd

theorem diffColumn_self (t : TableSchema) (name : String) (c : ColumnSchema) :
    diffColumn t name c c = [] := by
  simp [diffColumn, columnTypeDiffers]

theorem diffTable_eq_nil {t t' : TableSchema} (h : tableJson t = tableJson t') :
    diffTable t t' = [] := by
  simp only [tableJson, Json.obj.injEq, List.cons.injEq, Prod.mk.injEq, true_and, and_true] at h
  obtain ⟨-, -, hcolumns, hpk, hindexes, hfks⟩ := h
  have hkey : t.primaryKey = t'.primaryKey := 
    ofOption_inj pkSummary (fun _ => nofun) pkSummary_inj hpk
  have hcolumn : ∀ name c c', columnJson c = columnJson c' → diffColumn t' name c c' = [] := by
    intro name c c' heq
    rw [columnJson_inj heq, diffColumn_self]
  unfold diffTable diffTableColumns diffTablePk diffTableIndexes diffTableFks
  rw [onlyIn_eq_nil (same_of_entriesJson hcolumns.symm),
    onlyIn_eq_nil (same_of_entriesJson hcolumns),
    inBoth_eq_nil (same_of_entriesJson hcolumns) hcolumn,
    onlyIn_eq_nil (same_of_entriesJson hindexes.symm),
    onlyIn_eq_nil (same_of_entriesJson hindexes),
    onlyIn_eq_nil (same_of_entriesJson hfks.symm), onlyIn_eq_nil (same_of_entriesJson hfks),
    if_neg fun hne => hne hkey]
  rfl

theorem computeDrifts_eq_nil {a b : SchemaSnapshot} (hab : Same tableJson a.tables b.tables)
    (hba : Same tableJson b.tables a.tables) : computeDrifts a b = [] := by
  unfold computeDrifts
  rw [onlyIn_eq_nil hba, onlyIn_eq_nil hab,
    inBoth_eq_nil hab fun _ _ _ heq => diffTable_eq_nil heq]
  rfl

theorem computeDrifts_of_canonicalJson {a b : SchemaSnapshot}
    (h : canonicalJson a = canonicalJson b) : computeDrifts a b = [] := by
  simp only [canonicalJson, Json.obj.injEq, List.cons.injEq, Prod.mk.injEq, true_and,
    and_true] at h
  exact computeDrifts_eq_nil (same_of_entriesJson h.2.2) (same_of_entriesJson h.2.2.symm)

/-! ## What should hold -/

/-- `r'` is the next run on its connection after `r`. -/
def Follows (reports : List (Report T)) (r r' : Report T) : Prop :=
  ∃ i j : Nat, i < j ∧ reports[i]? = some r ∧ reports[j]? = some r' ∧ r.conn.id = r'.conn.id ∧
    ∀ (k : Nat) (m : Report T), i < k → k < j → reports[k]? = some m → m.conn.id ≠ r'.conn.id

def SameScope (r r' : Report T) : Prop := ∀ schema, schema ∈ r.scope ↔ schema ∈ r'.scope

/-- The tables in the scope of the later run are what they were. -/
def Unchanged (r r' : Report T) : Prop :=
  ∀ (key : String) (t : TableSchema), t.schema ∈ r'.scope →
    (r.catalog.tables[key]? = some t ↔ r'.catalog.tables[key]? = some t)

/-- The snapshots of the runs have different hashes when their texts differ. -/
def NoCollision (digest : Json → String) (reports : List (Report T)) : Prop :=
  ∀ r ∈ reports, ∀ r' ∈ reports, canonicalHash digest r.seen = canonicalHash digest r'.seen →
    canonicalJson r.seen = canonicalJson r'.seen

/-- The clock is past the snapshots taken so far. -/
def ClockAdvances [LinearOrder T] (s : State T) : Action T → Prop
  | .run _ env => ∀ r ∈ s.reports, r.row.capturedAt < env.now
  | _ => True

/-- What a run reports, in its outcome and its webhook, of the change since another one. -/
structure ReportsChange (r r' : Report T) : Prop where
  counted : r'.outcome.driftCount = UInt32.ofNat r'.drifts.length
  sent : ∀ url payload, r'.payload = some (url, payload) → payload.drifts = r'.drifts
  exact : Unambiguous r.seen r'.seen →
    (∀ kind object, (kind, object) ∈ r'.drifts.map locator ↔
      Differs r.seen r'.seen kind object) ∧ (r'.drifts.map locator).Nodup
  silent : Unchanged r r' → r'.drifts = []

/-- `r'` is the next run of its task after `r`. -/
def FollowsOwn (reports : List (Report T)) (r r' : Report T) : Prop :=
  ∃ i j : Nat, i < j ∧ reports[i]? = some r ∧ reports[j]? = some r' ∧ r.task.id = r'.task.id ∧
    ∀ (k : Nat) (m : Report T), i < k → k < j → reports[k]? = some m → m.task.id ≠ r'.task.id

/-- A task hears of the change since its own run before, whatever the other tasks of the
connection look at. -/
def Undisturbed [LinearOrder T] (digest : Json → String) : Prop :=
  ∀ acts (s : State T) r r', Run (step digest) ClockAdvances .initial acts s →
    NoCollision digest s.reports → FollowsOwn s.reports r r' → r.conn.id = r'.conn.id →
    SameScope r r' → ReportsChange r r'

/-! ## The rows -/

theorem ok_bind {α β ε : Type} {x : Except ε α} {f : α → Except ε β} {b : β}
    (h : x.bind f = .ok b) : ∃ a, x = .ok a ∧ f a = .ok b := by
  cases x with
  | error e => cases h
  | ok a => exact ⟨a, rfl, h⟩

theorem forall_mem_concat {P : Report T → Prop} {reports : List (Report T)} {new : Report T}
    (hold : ∀ r ∈ reports, P r) (hnew : P new) : ∀ r ∈ reports ++ [new], P r := by
  intro r hr
  rcases List.mem_append.mp hr with hin | hin
  · exact hold r hin
  · rw [List.mem_singleton.mp hin]
    exact hnew

/-- The last run on a connection. -/
def LastOn (reports : List (Report T)) (id : String) (r : Report T) : Prop :=
  ∃ i : Nat, reports[i]? = some r ∧ r.conn.id = id ∧
    ∀ (k : Nat) (m : Report T), i < k → reports[k]? = some m → m.conn.id ≠ id

theorem follows_concat {reports : List (Report T)} {new r r' : Report T}
    (h : Follows (reports ++ [new]) r r') :
    Follows reports r r' ∨ r' = new ∧ LastOn reports new.conn.id r := by
  obtain ⟨i, j, hij, hi, hj, hconn, hbetween⟩ := h
  have hlength : j < reports.length + 1 := by
    have hlt := (List.getElem?_eq_some_iff.mp hj).1
    rw [List.length_append, List.length_singleton] at hlt
    exact hlt
  have hold : ∀ k : Nat, k < reports.length → (reports ++ [new])[k]? = reports[k]? :=
    fun k hk => List.getElem?_append_left hk
  rw [hold i (by omega)] at hi
  by_cases hlt : j < reports.length
  · refine Or.inl ⟨i, j, hij, hi, by rw [← hold j hlt, hj], hconn, ?_⟩
    intro k m hik hkj hk
    exact hbetween k m hik hkj (by rw [hold k (by omega), hk])
  · obtain rfl : j = reports.length := by omega
    rw [List.getElem?_concat_length, Option.some.injEq] at hj
    subst hj
    refine Or.inr ⟨rfl, i, hi, hconn, ?_⟩
    intro k m hik hk
    have hklt := (List.getElem?_eq_some_iff.mp hk).1
    exact hbetween k m hik hklt (by rw [hold k hklt, hk])

theorem compareWith_count (prior : Option (SnapshotRow T)) (newHash : String)
    (snapshot : SchemaSnapshot) :
    (compareWith prior newHash snapshot).2.2 =
      UInt32.ofNat (compareWith prior newHash snapshot).1.length := by
  unfold compareWith
  cases prior with
  | none => rfl
  | some p =>
      by_cases hhash : p.schemaHash ≠ newHash
      · simp only [if_pos hhash]
      · simp only [if_neg hhash]
        rfl

theorem webhook_payload {drifts : List Drift} {url : Option String} {payload sent : WebhookPayload T}
    {delivered : Bool} {target : String}
    (h : (webhook drifts url payload delivered).1 = some (target, sent)) : sent = payload := by
  unfold webhook at h
  split at h
  · cases h
  · cases url with
    | none => cases h
    | some url => exact (Prod.mk.inj (Option.some.inj h)).2.symm

section Runs

variable [LinearOrder T] {digest : Json → String}

structure Chained (digest : Json → String) (s : State T) : Prop where
  increasing : s.reports.Pairwise fun r r' => r.row.capturedAt < r'.row.capturedAt
  connectionId : ∀ r ∈ s.reports, r.row.connectionId = r.conn.id
  schemaJson : ∀ r ∈ s.reports, r.row.schemaJson = r.seen
  schemaHash : ∀ r ∈ s.reports, r.row.schemaHash = canonicalHash digest r.seen
  counted : ∀ r ∈ s.reports, r.outcome.driftCount = UInt32.ofNat r.drifts.length
  sent : ∀ r ∈ s.reports, ∀ url payload, r.payload = some (url, payload) →
    payload.drifts = r.drifts
  compared : ∀ r r', Follows s.reports r r' →
    r'.drifts = (compareWith (some r.row) r'.row.schemaHash r'.seen).1

/-- What is in the report of a run that succeeds, given the snapshots there were. -/
structure Compares (digest : Json → String) (snapshots : List (SnapshotRow T)) (env : Env T)
    (r : Report T) : Prop where
  capturedAt : r.row.capturedAt = env.now
  connectionId : r.row.connectionId = r.conn.id
  schemaJson : r.row.schemaJson = r.seen
  schemaHash : r.row.schemaHash = canonicalHash digest r.seen
  drifts : r.drifts =
    (compareWith (priorSnapshot r.conn snapshots env.pick) r.row.schemaHash r.seen).1
  counted : r.outcome.driftCount = UInt32.ofNat r.drifts.length
  sent : ∀ url payload, r.payload = some (url, payload) → payload.drifts = r.drifts

theorem runTaskInner_report {tasks : List TaskRow} {connections : List ConnectionRow}
    {source : String → Catalog} {snapshots : List (SnapshotRow T)} {taskId : String} {env : Env T}
    {r : Report T}
    (h : runTaskInner digest tasks connections source snapshots taskId env = .ok r) :
    ∃ task conn dbType catalog, r = reportOf digest task conn dbType catalog
      (priorSnapshot conn snapshots env.pick) env := by
  unfold runTaskInner at h
  split at h
  case h_1 => cases h
  case h_2 task _ =>
    split at h
    case h_1 => cases h
    case h_2 conn _ =>
      obtain ⟨dbType, -, h⟩ := ok_bind h
      obtain ⟨-, -, h⟩ := ok_bind h
      obtain ⟨-, -, h⟩ := ok_bind h
      exact ⟨task, conn, dbType, source conn.id, (Except.ok.inj h).symm⟩

theorem runTaskInner_ok {tasks : List TaskRow} {connections : List ConnectionRow}
    {source : String → Catalog} {snapshots : List (SnapshotRow T)} {taskId : String} {env : Env T}
    {r : Report T}
    (h : runTaskInner digest tasks connections source snapshots taskId env = .ok r) :
    Compares digest snapshots env r := by
  obtain ⟨task, conn, dbType, catalog, rfl⟩ := runTaskInner_report h
  refine ⟨rfl, rfl, rfl, rfl, rfl, compareWith_count _ _ _, fun url payload hsent => ?_⟩
  rw [webhook_payload hsent]
  rfl

/-- The query for the prior snapshot finds the row of the last run on the connection. -/
theorem priorSnapshot_eq {s : State T} (h : Chained digest s) {conn : ConnectionRow}
    {r : Report T} (hlast : LastOn s.reports conn.id r) (pick : Nat) :
    priorSnapshot conn s.snapshots pick = some r.row := by
  obtain ⟨i, hi, hconn, hafter⟩ := hlast
  have hr := List.mem_of_getElem? hi
  apply fetchLatest_eq (List.mem_map_of_mem hr)
  · exact decide_eq_true ((h.connectionId r hr).trans hconn)
  · intro other hother hp
    obtain ⟨m, hm, rfl⟩ := List.mem_map.mp hother
    have hmconn : m.conn.id = conn.id := (h.connectionId m hm).symm.trans (of_decide_eq_true hp)
    obtain ⟨k, hk⟩ := List.mem_iff_getElem?.mp hm
    rcases Nat.lt_trichotomy k i with hlt | rfl | hgt
    · obtain ⟨hklt, hkm⟩ := List.getElem?_eq_some_iff.mp hk
      obtain ⟨hilt, hir⟩ := List.getElem?_eq_some_iff.mp hi
      have hincreasing := List.pairwise_iff_getElem.mp h.increasing k i hklt hilt hlt
      rw [hkm, hir] at hincreasing
      exact Or.inr hincreasing
    · rw [hi, Option.some.injEq] at hk
      exact Or.inl (by rw [hk])
    · exact absurd hmconn (hafter k m hgt hk)

theorem chained_step {s s' : State T} {a : Action T} (hallowed : ClockAdvances s a)
    (hstep : step digest s a = some s') (h : Chained digest s) : Chained digest s' := by
  cases a with
  | configure tasks connections =>
      obtain rfl := Option.some.inj hstep
      exact ⟨h.increasing, h.connectionId, h.schemaJson, h.schemaHash, h.counted, h.sent,
        h.compared⟩
  | alter connectionId catalog =>
      obtain rfl := Option.some.inj hstep
      exact ⟨h.increasing, h.connectionId, h.schemaJson, h.schemaHash, h.counted, h.sent,
        h.compared⟩
  | run taskId env =>
      simp only [step] at hstep
      split at hstep
      case h_1 =>
        obtain rfl := Option.some.inj hstep
        exact h
      case h_2 new hnew =>
        obtain rfl := Option.some.inj hstep
        have hcompares := runTaskInner_ok hnew
        refine ⟨?_, forall_mem_concat h.connectionId hcompares.connectionId,
          forall_mem_concat h.schemaJson hcompares.schemaJson,
          forall_mem_concat h.schemaHash hcompares.schemaHash,
          forall_mem_concat h.counted hcompares.counted,
          forall_mem_concat h.sent hcompares.sent, ?_⟩
        · refine List.pairwise_append.mpr ⟨h.increasing, List.pairwise_singleton _ _, ?_⟩
          intro r hr r' hr'
          rw [List.mem_singleton.mp hr', hcompares.capturedAt]
          exact hallowed r hr
        · intro r r' hfollows
          rcases follows_concat hfollows with hold | ⟨rfl, hlast⟩
          · exact h.compared r r' hold
          · rw [hcompares.drifts, priorSnapshot_eq h hlast env.pick]

theorem chained_initial : Chained digest (.initial : State T) := by
  have hnone : (State.initial : State T).reports = [] := rfl
  have hall : ∀ P : Report T → Prop, ∀ r ∈ (State.initial : State T).reports, P r := by
    intro P r hr
    rw [hnone] at hr
    cases hr
  refine ⟨?_, hall _, hall _, hall _, hall _, hall _, ?_⟩
  · rw [hnone]
    exact .nil
  · rintro r r' ⟨i, j, -, hi, -⟩
    rw [hnone, List.getElem?_nil] at hi
    cases hi

theorem chained_run {acts : List (Action T)} {s : State T}
    (hrun : Run (step digest) ClockAdvances .initial acts s) : Chained digest s :=
  hrun.invariant (fun _ _ _ hallowed hstep h => chained_step hallowed hstep h) chained_initial

end Runs

/-! ## The collection -/

theorem getElem?_collect (catalog : Catalog) (database : String) (dbType : DbType)
    (schemas : List String) (key : String) :
    (collect catalog database dbType schemas).tables[key]? =
      (catalog.tables[key]?).filter fun t => decide (t.schema ∈ schemas) :=
  Std.TreeMap.getElem?_filter'

theorem mem_collect {catalog : Catalog} {database : String} {dbType : DbType}
    {schemas : List String} {key : String} {t : TableSchema} :
    (collect catalog database dbType schemas).tables[key]? = some t ↔
      catalog.tables[key]? = some t ∧ t.schema ∈ schemas := by
  rw [getElem?_collect, Option.filter_eq_some_iff, decide_eq_true_iff]

theorem wellFormed_seen (r : Report T) : WellFormed r.seen :=
  fun key t h => r.catalog.keyed key t (mem_collect.mp h).1

theorem same_of_unchanged {r r' : Report T} (hscope : SameScope r r') (h : Unchanged r r') :
    Same tableJson r.seen.tables r'.seen.tables ∧ Same tableJson r'.seen.tables r.seen.tables := by
  constructor
  · intro key t ht
    obtain ⟨hin, hschema⟩ := mem_collect.mp ht
    have hschema' := (hscope t.schema).mp hschema
    exact ⟨t, mem_collect.mpr ⟨(h key t hschema').mp hin, hschema'⟩, rfl⟩
  · intro key t ht
    obtain ⟨hin, hschema⟩ := mem_collect.mp ht
    exact ⟨t, mem_collect.mpr ⟨(h key t hschema).mpr hin, (hscope t.schema).mpr hschema⟩, rfl⟩

/-! ## Every run -/

section Follows

variable [LinearOrder T] {digest : Json → String}

theorem drifts_eq_computeDrifts {s : State T} (h : Chained digest s)
    (hdigest : NoCollision digest s.reports) {r r' : Report T} (hr : r ∈ s.reports)
    (hr' : r' ∈ s.reports) (hfollows : Follows s.reports r r') :
    r'.drifts = computeDrifts r.seen r'.seen := by
  rw [h.compared r r' hfollows]
  unfold compareWith
  by_cases hhash : r.row.schemaHash = r'.row.schemaHash
  · have htext := hdigest r hr r' hr' (by rw [← h.schemaHash r hr, ← h.schemaHash r' hr', hhash])
    simp only [hhash, ne_eq, not_true_eq_false, if_false]
    rw [computeDrifts_of_canonicalJson htext]
  · simp only [ne_eq, hhash, not_false_eq_true, if_true]
    rw [h.schemaJson r hr]

/-- A run reports the change since the run before it on its connection, when both look at
the same schemas. -/
theorem follows_reportsChange {acts : List (Action T)} {s : State T}
    (hrun : Run (step digest) ClockAdvances .initial acts s)
    (hdigest : NoCollision digest s.reports) {r r' : Report T}
    (hfollows : Follows s.reports r r') (hscope : SameScope r r') : ReportsChange r r' := by
  have hchained := chained_run hrun
  obtain ⟨i, j, -, hi, hj, -⟩ := id hfollows
  have hmem := List.mem_of_getElem? hj
  have hdrifts := drifts_eq_computeDrifts hchained hdigest (List.mem_of_getElem? hi) hmem hfollows
  refine ⟨hchained.counted r' hmem, hchained.sent r' hmem, ?_, ?_⟩
  · intro hnames
    rw [hdrifts]
    exact ⟨mem_locators_iff (wellFormed_seen r) (wellFormed_seen r') hnames,
      nodup_computeDrifts (wellFormed_seen r) (wellFormed_seen r') hnames⟩
  · intro hunchanged
    obtain ⟨hthere, hback⟩ := same_of_unchanged hscope hunchanged
    rw [hdrifts, computeDrifts_eq_nil hthere hback]

end Follows

/-! ## Two tasks that look at one schema -/

def sampleTable (schema name : String) : TableSchema := ⟨schema, name, ∅, none, ∅, ∅⟩

def sampleCatalog : Catalog :=
  (Catalog.empty.add (sampleTable "public" "users")).add (sampleTable "audit" "log")

/-- The names of the tables, for a digest. -/
def sampleDigest (j : Json) : String :=
  match j.get "tables" with
  | some (.obj members) => ",".intercalate (members.map Prod.fst)
  | _ => ""

def sampleEnv (now : Nat) : Env Nat where
  decrypted := .ok ()
  audited := true
  opened := .ok ()
  canary := .readOnly
  collected := .ok ()
  fetched := true
  pick := 0
  snapId := "snapshot"
  now := now
  inserted := true
  delivered := true

/-- The clock, checked against the snapshots there are. -/
def clockPassed (s : State Nat) : Action Nat → Bool
  | .run _ env => s.reports.all fun r => decide (r.row.capturedAt < env.now)
  | _ => true

theorem clockAdvances_of_passed (s : State Nat) (a : Action Nat) (h : clockPassed s a = true) :
    ClockAdvances s a := by
  cases a with
  | run taskId env => exact fun r hr => of_decide_eq_true (List.all_eq_true.mp h r hr)
  | _ => trivial

def sampleConnection : ConnectionRow := ⟨"c", "shop", "postgres", some "shop", "source_drift"⟩

/-- The runs see one of two schemas, whose hashes differ. -/
theorem noCollision_of_two {digest : Json → String} {reports : List (Report T)}
    {a b : SchemaSnapshot} (hne : canonicalHash digest a ≠ canonicalHash digest b)
    (h : ∀ r ∈ reports, r.seen = a ∨ r.seen = b) : NoCollision digest reports := by
  intro r hr r' hr' heq
  rcases h r hr with hseen | hseen <;> rcases h r' hr' with hseen' | hseen' <;>
    rw [hseen, hseen'] at heq ⊢
  · exact absurd heq hne
  · exact absurd heq.symm hne

/-- Two tasks look at `public`, and a table there is dropped between their runs. -/
def droppedBetween : List (Action Nat) :=
  [.configure [⟨"t1", "first", none, "c", none⟩, ⟨"t2", "second", none, "c", none⟩]
      [sampleConnection],
    .alter "c" sampleCatalog, .run "t1" (sampleEnv 1),
    .alter "c" (Catalog.empty.add (sampleTable "audit" "log")), .run "t2" (sampleEnv 2)]

theorem follows_reportsChange_dropped : ∃ r r' : Report Nat, r.task.id ≠ r'.task.id ∧
    r'.drifts.map Drift.kind = [.tableDropped] ∧ ReportsChange r r' := by
  have hrun : ∃ s r r', execChecked (step sampleDigest) clockPassed .initial droppedBetween = some s ∧
      s.reports = [r, r'] ∧ r.conn.id = r'.conn.id ∧ r.scope = r'.scope ∧ r.task.id = "t1" ∧
      r'.task.id = "t2" ∧ canonicalHash sampleDigest r.seen = "public.users" ∧
      canonicalHash sampleDigest r'.seen = "" ∧ r'.drifts.map Drift.kind = [.tableDropped] :=
    ⟨_, _, _, rfl, rfl, rfl, rfl, rfl, rfl, by decide +kernel, by decide +kernel,
      by decide +kernel⟩
  obtain ⟨s, r, r', hexec, hreports, hconn, hscope, hr, hr', hhash, hhash', hkinds⟩ := hrun
  have hne : canonicalHash sampleDigest r.seen ≠ canonicalHash sampleDigest r'.seen := by
    rw [hhash, hhash']
    decide
  have hdigest : NoCollision sampleDigest s.reports := by
    apply noCollision_of_two hne
    intro a ha
    rw [hreports, List.mem_pair] at ha
    rcases ha with rfl | rfl
    · exact Or.inl rfl
    · exact Or.inr rfl
  have hfollows : Follows s.reports r r' := by
    rw [hreports]
    refine ⟨0, 1, by omega, rfl, rfl, hconn, fun k m hk hk' => ?_⟩
    omega
  refine ⟨r, r', by rw [hr, hr']; decide, hkinds, ?_⟩
  exact follows_reportsChange (run_of_execChecked clockAdvances_of_passed hexec) hdigest hfollows
    fun schema => by rw [hscope]

/-- The first task runs once more after the other one has reported the change. -/
def reportedOnce : List (Action Nat) := droppedBetween ++ [.run "t1" (sampleEnv 3)]

/-- The change since the task's own run before is reported once, by the other task. -/
theorem reported_by_the_other : ¬ Undisturbed (T := Nat) sampleDigest := by
  intro hundisturbed
  have hrun : ∃ s r m r',
      execChecked (step sampleDigest) clockPassed .initial reportedOnce = some s ∧
      s.reports = [r, m, r'] ∧ r.task.id = "t1" ∧ m.task.id = "t2" ∧ r'.task.id = "t1" ∧
      r.conn.id = r'.conn.id ∧ r.scope = r'.scope ∧ m.seen = r'.seen ∧
      r'.seen.tables.isEmpty = true ∧
      canonicalHash sampleDigest r.seen = "public.users" ∧
      canonicalHash sampleDigest r'.seen = "" ∧
      (computeDrifts r.seen r'.seen).map Drift.kind = [.tableDropped] ∧ r'.drifts = [] :=
    ⟨_, _, _, _, rfl, rfl, rfl, rfl, rfl, rfl, rfl, rfl, by decide +kernel, by decide +kernel,
      by decide +kernel, by decide +kernel, by decide +kernel⟩
  obtain ⟨s, r, m, r', hexec, hreports, hr, hm, hr', hconn, hscope, hseen, hempty, hrhash,
    hrhash', hkinds, hnone⟩ := hrun
  have hne : canonicalHash sampleDigest r.seen ≠ canonicalHash sampleDigest r'.seen := by
    rw [hrhash, hrhash']
    decide
  have hseens : ∀ a ∈ s.reports, a.seen = r.seen ∨ a.seen = r'.seen := by
    rw [hreports]
    simp only [List.mem_cons, List.not_mem_nil, or_false]
    rintro a (rfl | rfl | rfl)
    · exact Or.inl rfl
    · exact Or.inr hseen
    · exact Or.inr rfl
  have hdigest : NoCollision sampleDigest s.reports := noCollision_of_two hne hseens
  have hfollows : FollowsOwn s.reports r r' := by
    rw [hreports]
    refine ⟨0, 2, by omega, rfl, rfl, by rw [hr, hr'], fun k other hk hk' hother => ?_⟩
    obtain rfl : k = 1 := by omega
    obtain rfl := Option.some.inj hother
    rw [hm, hr']
    decide
  have hchange := hundisturbed _ s r r' (run_of_execChecked clockAdvances_of_passed hexec) hdigest
    hfollows hconn fun schema => by rw [hscope]
  have hnames : Unambiguous r.seen r'.seen := by
    intro t t' _ ht'
    have hmissing : r'.seen.tables[t'.qualifiedName]? = none :=
      Std.TreeMap.getElem?_of_isEmpty hempty
    cases hmissing.symm.trans ht'
  -- nothing is in the report, and the dropped table is among the differences
  obtain ⟨hexact, -⟩ := hchange.exact hnames
  obtain ⟨d, hd, -⟩ : ∃ d ∈ computeDrifts r.seen r'.seen, d.kind = .tableDropped := by
    have hmem : DriftKind.tableDropped ∈ (computeDrifts r.seen r'.seen).map Drift.kind := by
      rw [hkinds]
      exact List.mem_singleton.mpr rfl
    exact List.mem_map.mp hmem
  have hdiffers := (mem_locators_iff (wellFormed_seen r) (wellFormed_seen r') hnames d.kind
    d.object).mp (List.mem_map_of_mem hd)
  have hin := (hexact d.kind d.object).mpr hdiffers
  rw [hnone] at hin
  cases hin

end Dbmaster.Drift.Chain
