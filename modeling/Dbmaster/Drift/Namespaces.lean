import Dbmaster.Drift.Assembly
import Mathlib.Data.List.Dedup
/-!
# Tables of different schemas

The assembly keeps the tables apart by the text `schema.name`, which is that of two tables
when a name has a dot at the right place.
-/

namespace Dbmaster.Drift.Namespaces

open Dbmaster.Lib.Grouping Dbmaster.Drift.Snapshot Dbmaster.Drift.Assembly

/-- There is one entry for each table that the rows name, and it has what the rows of the
table say. -/
structure LosesNothing (rows : CatalogRows) : Prop where
  oneEach : (rows.assemble.toList.map fun e => (e.2.schema, e.2.name)).Perm rows.ids.dedup
  exact : ∀ (key : String) t, rows.assemble[key]? = some t →
    HoldsExactly (rows.own (t.schema, t.name)) t

/-- The tables that the rows name have different keys. -/
def KeysApart (rows : CatalogRows) : Prop :=
  ∀ id ∈ rows.ids, ∀ other ∈ rows.ids, tableKey id = tableKey other → id = other

section Rows

variable {rows : CatalogRows}

theorem KeysApart.alone (h : KeysApart rows) {id : TableId} (hid : id ∈ rows.ids) :
    Alone rows id :=
  fun other hother hkey => h other hother id hid hkey

theorem key_of_mem {e : String × TableSchema} (h : e ∈ rows.assemble.toList) :
    (e.2.schema, e.2.name) ∈ rows.ids ∧ tableKey (e.2.schema, e.2.name) = e.1 :=
  named_of_assembled (Std.TreeMap.mem_toList_iff_getElem?_eq_some.mp h)

theorem nodup_assembled : (rows.assemble.toList.map fun e => (e.2.schema, e.2.name)).Nodup := by
  unfold List.Nodup
  rw [List.pairwise_map]
  apply Std.TreeMap.distinct_keys_toList.imp_of_mem
  intro e f he hf hne heq
  apply hne
  rw [← (key_of_mem he).2, ← (key_of_mem hf).2, heq]
  exact Std.ReflCmp.compare_self

theorem keysApart_of_losesNothing (h : LosesNothing rows) : KeysApart rows := by
  have hentry : ∀ id ∈ rows.ids, ∃ t, rows.assemble[tableKey id]? = some t ∧
      (t.schema, t.name) = id := by
    intro id hid
    have hin := h.oneEach.mem_iff.mpr (List.mem_dedup.mpr hid)
    obtain ⟨e, he, rfl⟩ := List.mem_map.mp hin
    have hget := Std.TreeMap.mem_toList_iff_getElem?_eq_some.mp he
    exact ⟨e.2, by rw [(key_of_mem he).2]; exact hget, rfl⟩
  intro id hid other hother hkey
  obtain ⟨t, ht, rfl⟩ := hentry id hid
  obtain ⟨t', ht', rfl⟩ := hentry other hother
  rw [hkey, ht', Option.some.injEq] at ht
  rw [ht]

theorem losesNothing_of_keysApart (h : KeysApart rows) : LosesNothing rows := by
  constructor
  · apply (List.perm_ext_iff_of_nodup nodup_assembled (List.nodup_dedup _)).mpr
    intro id
    rw [List.mem_dedup, List.mem_map]
    constructor
    · rintro ⟨e, he, rfl⟩
      exact (key_of_mem he).1
    · intro hid
      obtain ⟨t, ht⟩ := assembled_of_named hid
      obtain ⟨hnamed, hkey⟩ := named_of_assembled ht
      exact ⟨(tableKey id, t), Std.TreeMap.mem_toList_iff_getElem?_eq_some.mpr ht,
        h _ hnamed id hid hkey⟩
  · intro key t ht
    obtain ⟨hnamed, rfl⟩ := named_of_assembled ht
    exact assembled_holdsExactly ht hnamed (h.alone hnamed)

theorem keysApart_mySql (databaseName : String) (columns : List MySqlColumnRow)
    (indexes : List MySqlIndexRow) (foreignKeys : List MySqlFkRow) :
    KeysApart (.mySql databaseName columns indexes foreignKeys) := by
  have hdatabase : ∀ id ∈ (CatalogRows.mySql databaseName columns indexes foreignKeys).ids,
      id.1 = databaseName := by
    intro id hid
    simp only [CatalogRows.ids, List.mem_append, List.mem_map] at hid
    rcases hid with (⟨r, -, rfl⟩ | ⟨r, -, rfl⟩) | ⟨r, -, rfl⟩
    · rfl
    · rfl
    · rfl
  rintro ⟨schema, name⟩ hid ⟨schema', name'⟩ hother hkey
  obtain rfl : schema = databaseName := hdatabase _ hid
  obtain rfl : schema' = schema := hdatabase _ hother
  rw [tableKey_inj.mp hkey]

theorem takeWhile_dotless {text rest : List Char} (h : '.' ∉ text) :
    (text ++ '.' :: rest).takeWhile (fun c => decide (c ≠ '.')) = text := by
  have hall : ∀ c ∈ text, decide (c ≠ '.') = true := by
    intro c hc
    apply decide_eq_true
    rintro rfl
    exact h hc
  rw [List.takeWhile_append_of_pos hall, List.takeWhile_cons_of_neg (by decide), List.append_nil]

theorem keysApart_of_dotless (h : ∀ id ∈ rows.ids, '.' ∉ id.1.toList) : KeysApart rows := by
  rintro ⟨schema, name⟩ hid ⟨schema', name'⟩ hother hkey
  have htexts : schema.toList ++ '.' :: name.toList = schema'.toList ++ '.' :: name'.toList := by
    simpa [tableKey] using congrArg String.toList hkey
  have hschema := congrArg (List.takeWhile fun c => decide (c ≠ '.')) htexts
  rw [takeWhile_dotless (h _ hid), takeWhile_dotless (h _ hother)] at hschema
  obtain rfl := String.toList_inj.mp hschema
  rw [tableKey_inj.mp hkey]

end Rows

/-- Nothing is lost exactly when no two tables have the same `schema.name`. -/
theorem losesNothing_iff (rows : CatalogRows) : LosesNothing rows ↔ KeysApart rows :=
  ⟨keysApart_of_losesNothing, losesNothing_of_keysApart⟩

/-! ## Two tables under one key -/

def sampleColumn (schema table column : String) : PgColumnRow where
  tableName := table
  schemaName := schema
  columnName := column
  ordinalPosition := 1
  dataType := "integer"
  isNullable := "NO"
  columnDefault := none
  charMaxLength := none
  numericPrecision := none
  numericScale := none

/-- The table `c` of the schema `a.b` and the table `b.c` of the schema `a`. -/
def dottedRows : CatalogRows :=
  .pg [sampleColumn "a.b" "c" "id", sampleColumn "a" "b.c" "total"] [] []

theorem dotted_tables_merge : ¬ LosesNothing dottedRows := by
  intro h
  have hlength := h.oneEach.length_eq
  exact absurd hlength (by decide +kernel)

end Dbmaster.Drift.Namespaces
