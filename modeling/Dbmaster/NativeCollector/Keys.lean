import Dbmaster.Lib.Joined
import Dbmaster.NativeCollector.OneSource
/-!
# Keys of digests

`psKey` joins a digest and the name of its schema, `diffPsSnapshots` takes the schema from the
key again, at its last separator, and the row of `query_stats` is put down to that schema.
-/

namespace Dbmaster.NativeCollector.Keys

open Dbmaster.Lib Dbmaster.Lib.Text Dbmaster.Lib.Transition
open Dbmaster.NativeCollector.Digest Dbmaster.NativeCollector.Collector

/-! ## A key taken apart -/

/-- Digest and schema of a key, as `rsplit_once` finds them; an empty part is no schema. -/
def splitKey (key : List Char) : Option (List Char × Option (List Char)) :=
  (rsplitOnce '|' key).map fun pair => (pair.1, if pair.2.isEmpty then none else some pair.2)

/-- Two pairs of digest and schema are read back from their keys, and have different keys if
they are different. -/
structure TellsApart (a b : List Char × Option (List Char)) : Prop where
  first : splitKey (psKey a.1 a.2) = some a
  second : splitKey (psKey b.1 b.2) = some b
  keys : a ≠ b → psKey a.1 a.2 ≠ psKey b.1 b.2

/-- Where there is a schema, its name is not empty and has no separator. -/
def Recoverable (schema : Option (List Char)) : Prop := ∀ name ∈ schema, name ≠ [] ∧ '|' ∉ name

theorem keySchema_eq (key : List Char) : keySchema key = (splitKey key).bind Prod.snd := by
  rw [keySchema, splitKey, Option.bind_map]
  rfl

theorem rsplitOnce_append {sep : Char} {right : List Char} (h : sep ∉ right) (left : List Char) :
    rsplitOnce sep (left ++ sep :: right) = some (left, right) := by
  have hreverse : (left ++ sep :: right).reverse = right.reverse ++ sep :: left.reverse := by
    rw [List.reverse_append, List.reverse_cons, List.append_assoc, List.singleton_append]
  rw [rsplitOnce, hreverse, splitOnce_append fun hmem => h (List.mem_reverse.mp hmem),
    Option.map_some, List.reverse_reverse, List.reverse_reverse]

theorem notMem_of_rsplitOnce {sep : Char} {text left right : List Char}
    (h : rsplitOnce sep text = some (left, right)) : sep ∉ right := by
  obtain ⟨pair, hsplit, hpair⟩ := Option.map_eq_some_iff.mp h
  have hright : pair.1.reverse = right := congrArg Prod.snd hpair
  rw [← hright, List.mem_reverse]
  exact (eq_append_of_splitOnce hsplit).1

theorem splitKey_psKey {hex : List Char} {schema : Option (List Char)} (h : Recoverable schema) :
    splitKey (psKey hex schema) = some (hex, schema) := by
  cases schema with
  | none =>
      rw [splitKey, psKey, Option.getD_none, rsplitOnce_append List.not_mem_nil]
      rfl
  | some name =>
      obtain ⟨hnamed, hbare⟩ := h name rfl
      rw [splitKey, psKey, Option.getD_some, rsplitOnce_append hbare, Option.map_some,
        if_neg (mt List.isEmpty_iff.mp hnamed)]

theorem recoverable_of_keySchema {key : List Char} {schema : Option (List Char)}
    (h : keySchema key = schema) : Recoverable schema := by
  intro name hname
  rw [Option.mem_def.mp hname] at h
  obtain ⟨pair, hsplit, hpair⟩ := Option.bind_eq_some_iff.mp h
  by_cases hempty : pair.2.isEmpty = true
  · rw [if_pos hempty] at hpair
    cases hpair
  · rw [if_neg hempty] at hpair
    rw [← Option.some.inj hpair]
    exact ⟨mt List.isEmpty_iff.mpr hempty, notMem_of_rsplitOnce hsplit⟩

theorem keySchema_psKey_iff (hex : List Char) (schema : Option (List Char)) :
    keySchema (psKey hex schema) = schema ↔ Recoverable schema := by
  constructor
  · exact recoverable_of_keySchema
  · intro h
    rw [keySchema_eq, splitKey_psKey h, Option.bind_some]

theorem splitKey_psKey_iff (hex : List Char) (schema : Option (List Char)) :
    splitKey (psKey hex schema) = some (hex, schema) ↔ Recoverable schema := by
  constructor
  · intro h
    have hschema : keySchema (psKey hex schema) = schema := by
      rw [keySchema_eq, h, Option.bind_some]
    exact recoverable_of_keySchema hschema
  · exact splitKey_psKey

/-- Pairs are told apart just where both schemas can be read back. -/
theorem tellsApart_iff (a b : List Char × Option (List Char)) :
    TellsApart a b ↔ Recoverable a.2 ∧ Recoverable b.2 := by
  constructor
  · intro h
    exact ⟨(splitKey_psKey_iff a.1 a.2).mp h.first, (splitKey_psKey_iff b.1 b.2).mp h.second⟩
  · rintro ⟨ha, hb⟩
    have hfirst : splitKey (psKey a.1 a.2) = some a := splitKey_psKey ha
    have hsecond : splitKey (psKey b.1 b.2) = some b := splitKey_psKey hb
    refine ⟨hfirst, hsecond, fun hne hkey => hne ?_⟩
    apply Option.some.inj
    rw [← hfirst, hkey, hsecond]

/-- A schema named `eu|app` is read back as `app`, and the delta is put down to that one. -/
theorem separator_in_schema :
    splitKey (psKey "5d41402abc4b2a76b9719d911017c592".toList (some "eu|app".toList)) =
        some ("5d41402abc4b2a76b9719d911017c592|eu".toList, some "app".toList) ∧
      (diffPsSnapshots
          (some ⟨1, [(psKey "5d41402abc4b2a76b9719d911017c592".toList (some "eu|app".toList),
            10, 100)]⟩)
          [⟨psKey "5d41402abc4b2a76b9719d911017c592".toList (some "eu|app".toList),
            "SELECT ?".toList, 15, 260⟩]).map PsDelta.schema = [some "app".toList] ∧
      ¬ ∀ a b, TellsApart a b := by
  refine ⟨by decide, by decide, fun h => ?_⟩
  have hsplit := (h ("5d41402abc4b2a76b9719d911017c592".toList, some "eu|app".toList)
    ([], none)).first
  exact absurd hsplit (by decide)

/-! ## Keys alone -/

theorem psKey_eq_join (hex : List Char) (schema : Option (List Char)) :
    psKey hex schema = Joined.join '|' [hex, schema.getD []] := by
  rw [Joined.join, List.intercalate_cons_cons, List.intercalate_singleton, List.append_assoc,
    List.singleton_append]
  rfl

/-- Two keys tell the pairs apart, unless these have the same pieces and the separators in other
parts. -/
theorem psKey_tells_iff (hex hex' : List Char) (schema schema' : Option (List Char)) :
    (psKey hex schema = psKey hex' schema' → hex = hex' ∧ schema.getD [] = schema'.getD []) ↔
      (Joined.pieces '|' [hex, schema.getD []] = Joined.pieces '|' [hex', schema'.getD []] →
        Joined.inner '|' [hex, schema.getD []] = Joined.inner '|' [hex', schema'.getD []]) := by
  rw [psKey_eq_join, psKey_eq_join,
    ← Joined.eq_of_join_iff (List.cons_ne_nil _ _) (List.cons_ne_nil _ _), List.cons.injEq,
    List.cons.injEq, and_iff_left rfl]

/-! ## The rows of a connection -/

section Rows

variable {T : Type}

/-- Every entry counts the executions of one digest. -/
def OneDigest (entries : List (DigestEntry T)) : Prop :=
  ∀ entry ∈ entries, ∀ e ∈ entry.executions, e.digest = entry.id

theorem oneDigest_countExecution (e : Execution T) {entries : List (DigestEntry T)}
    (h : OneDigest entries) : OneDigest (countExecution e entries) := by
  induction entries with
  | nil =>
      intro entry hentry e' he'
      rw [List.mem_singleton.mp hentry] at he' ⊢
      rw [List.mem_singleton.mp he']
  | cons first entries ih =>
      obtain ⟨hfirst, hrest⟩ := List.forall_mem_cons.mp h
      unfold countExecution
      split_ifs with hkey
      · refine List.forall_mem_cons.mpr ⟨fun e' he' => ?_, hrest⟩
        rcases List.mem_append.mp he' with hold | hnew
        · exact hfirst e' hold
        · rw [List.mem_singleton.mp hnew]
          exact DigestId.key_injective hkey.symm
      · exact List.forall_mem_cons.mpr ⟨hfirst, ih hrest⟩

theorem oneDigest_serverStep (act : Action T) {server : Server T} (h : OneDigest server.digests) :
    OneDigest (serverStep server act).digests := by
  cases act with
  | execute st logged counted =>
      simp only [serverStep, Server.execute]
      split_ifs
      · exact oneDigest_countExecution _ h
      · exact h
  | evictDigest id => exact fun entry hentry => h entry (List.mem_of_mem_filter hentry)
  | truncateDigests | restartServer => exact fun entry hentry => absurd hentry List.not_mem_nil
  | configure | truncateSlowLog | tick => exact h

/-- A row of the digest source is put down to the schema in the key of its executions. -/
structure Attributed (s : State T) : Prop where
  entries : OneDigest s.server.digests
  rows : ∀ sample ∈ s.samples, ∀ es since, sample.origin = .digests es since →
    ∀ e ∈ es, sample.stat.database = keySchema e.digest.key

theorem attributed_initial : Attributed (State.initial : State T) :=
  ⟨fun _ hentry => absurd hentry List.not_mem_nil,
    fun _ hsample => absurd hsample List.not_mem_nil⟩

theorem Attributed.cursorPut {s : State T} (h : Attributed s) (source : String)
    (cursor : CursorText T) (puts : Bool) : Attributed (cursorPut s source cursor puts) := by
  unfold Collector.cursorPut
  split_ifs
  · exact ⟨h.entries, h.rows⟩
  · exact h

theorem schema_of_diffRow {prev : PsSnapshot} {row : DigestRow} {delta : PsDelta}
    (h : diffRow prev row = some delta) : delta.schema = keySchema row.key := by
  unfold diffRow at h
  split at h
  case h_1 => cases h
  case h_2 =>
    split_ifs at h
    rw [← Option.some.inj h]

variable [LinearOrder T] {normalizeDigest : List Char → List Char}

theorem Attributed.collectSlowLog {s : State T} (h : Attributed s) (a : Answers T) :
    Attributed (collectSlowLog normalizeDigest s a) := by
  unfold Collector.collectSlowLog
  split_ifs with hreads
  · have hsamples : ∀ rows : List (Execution T), Attributed
        { s with samples := s.samples ++ rows.map (slowSample normalizeDigest) } := by
      refine fun rows => ⟨h.entries, fun sample hsample es since horigin => ?_⟩
      rcases List.mem_append.mp hsample with hold | hnew
      · exact h.rows sample hold es since horigin
      · obtain ⟨e, -, rfl⟩ := List.mem_map.mp hnew
        cases horigin
    dsimp only
    split_ifs with hempty
    · exact hsamples _
    · exact (hsamples _).cursorPut _ _ _
  · exact h

omit [LinearOrder T] in
theorem Attributed.collectMysqlPsDigest {s : State T} (h : Attributed s) (a : Answers T) :
    Attributed (collectMysqlPsDigest normalizeDigest s a) := by
  unfold Collector.collectMysqlPsDigest
  split_ifs with hreads
  · apply Attributed.cursorPut
    refine ⟨h.entries, fun sample hsample es since horigin => ?_⟩
    rcases List.mem_append.mp hsample with hold | hnew
    · exact h.rows sample hold es since horigin
    · obtain ⟨delta, hdelta, rfl⟩ := List.mem_map.mp hnew
      obtain ⟨snap, -, entry, hentry, hrow, hcovered⟩ :=
        OneSource.mem_coveredDeltas (OneSource.mem_of_mem_stored hdelta)
      have htable : entry ∈ s.server.digests :=
        (List.mem_insertionSort _).mp (List.mem_of_mem_take hentry)
      have hexecutions : covered snap entry = es := by
        rw [← hcovered]
        cases horigin
        rfl
      intro e he
      rw [← hexecutions] at he
      rw [h.entries entry htable e (List.mem_of_mem_drop he)]
      exact schema_of_diffRow hrow
  · exact h

theorem Attributed.step {s t : State T} {act : Action T} (h : Attributed s)
    (hstep : step normalizeDigest s act = some t) : Attributed t := by
  cases act with
  | tick a =>
      rw [← Option.some.inj hstep]
      unfold collectMysql
      split_ifs
      · exact h
      · exact h.collectSlowLog a
      · exact h.collectMysqlPsDigest a
  | execute | configure | truncateSlowLog | truncateDigests | evictDigest | restartServer =>
      rw [← Option.some.inj hstep]
      exact ⟨oneDigest_serverStep _ h.entries, h.rows⟩

/-- In every run, the executions behind a row of the digest source are put down to their own
schema just where its name has no separator. -/
theorem database_eq_schema_iff {acts : List (Action T)} {s : State T}
    (hrun : Run (step normalizeDigest) anyStep .initial acts s) {sample : Sample T}
    (hsample : sample ∈ s.samples) {es : List (Execution T)} {since : Nat}
    (horigin : sample.origin = .digests es since) {e : Execution T} (he : e ∈ es) :
    sample.stat.database = e.digest.schema ↔ ∀ name ∈ e.digest.schema, '|' ∉ name := by
  have hattributed : Attributed s :=
    Run.invariant (fun _ _ _ _ hstep h => h.step hstep) hrun attributed_initial
  rw [hattributed.rows sample hsample es since horigin e he, DigestId.key, keySchema_psKey_iff]
  constructor
  · intro h name hname
    exact (h name hname).2
  · intro h name hname
    refine ⟨fun hempty => e.digest.schema_named ?_, h name hname⟩
    rw [Option.mem_def.mp hname, hempty]

end Rows

end Dbmaster.NativeCollector.Keys
