import Dbmaster.Lib.Text
/-!
# Columns of indexes and foreign keys

`describe_pg` has the server join the column names of an index or a foreign key with commas and
takes the text apart again by `split_csv`.
-/

namespace Dbmaster.Metadata.CsvColumns

open Dbmaster.Lib

/-! ## One list of names -/

def splitCsv : Option (List Char) → List (List Char)
  | some joined => if joined.isEmpty then [] else (joined.splitOn ',').map Text.trim
  | none => []

/-- `string_agg(name, ',')`, which is NULL where there is no row. -/
def stringAgg (names : List (List Char)) : Option (List Char) :=
  if names.isEmpty then none else some ([','].intercalate names)

/-- A name without a comma that has no blanks around it. -/
def Survives (name : List Char) : Prop := ',' ∉ name ∧ Text.trim name = name

theorem mem_intercalate {names : List (List Char)} {name : List Char} {c : Char}
    (hname : name ∈ names) (hc : c ∈ name) : c ∈ [','].intercalate names := by
  induction names with
  | nil => cases hname
  | cons first rest ih =>
      cases rest with
      | nil =>
          rw [List.mem_singleton.mp hname] at hc
          simpa [List.intercalate] using hc
      | cons second rest =>
          rw [List.intercalate_cons_cons]
          rcases List.mem_cons.mp hname with rfl | hrest
          · exact List.mem_append_left _ (List.mem_append_left _ hc)
          · exact List.mem_append_right _ (ih hrest)

theorem splitCsv_stringAgg {first : List Char} {rest : List (List Char)}
    (hnamed : ∀ name ∈ first :: rest, name ≠ []) :
    splitCsv (stringAgg (first :: rest)) =
      (([','].intercalate (first :: rest)).splitOn ',').map Text.trim := by
  obtain ⟨c, more, hfirst⟩ := List.exists_cons_of_ne_nil (hnamed first List.mem_cons_self)
  have hmem : c ∈ [','].intercalate (first :: rest) :=
    mem_intercalate List.mem_cons_self (hfirst ▸ List.mem_cons_self)
  have hne : ([','].intercalate (first :: rest)).isEmpty = false :=
    List.isEmpty_eq_false_iff.mpr (List.ne_nil_of_mem hmem)
  rw [stringAgg, List.isEmpty_cons, if_neg Bool.false_ne_true, splitCsv, hne,
    if_neg Bool.false_ne_true]

theorem survives_of_mem_splitOn {text piece : List Char} (h : piece ∈ text.splitOn ',') :
    Survives (Text.trim piece) := by
  refine ⟨fun hcomma => Text.notMem_of_mem_splitOn h ?_, Text.trim_trim piece⟩
  obtain ⟨front, back, _, _, hpiece⟩ := Text.exists_trim piece
  rw [hpiece]
  exact List.mem_append_right front (List.mem_append_left back hcomma)

/-- A list of names is read back if and only if each of them survives. -/
theorem splitCsv_eq_iff {names : List (List Char)} (hnamed : ∀ name ∈ names, name ≠ []) :
    splitCsv (stringAgg names) = names ↔ ∀ name ∈ names, Survives name := by
  cases names with
  | nil => exact iff_of_true rfl (fun _ h => absurd h List.not_mem_nil)
  | cons first rest =>
      rw [splitCsv_stringAgg hnamed]
      constructor
      · intro h name hname
        rw [← h] at hname
        obtain ⟨piece, hpiece, rfl⟩ := List.mem_map.mp hname
        exact survives_of_mem_splitOn hpiece
      · intro h
        rw [List.splitOn_intercalate ',' (fun name hname => (h name hname).1)
          (List.cons_ne_nil _ _)]
        exact (List.map_congr_left fun name hname => (h name hname).2).trans (List.map_id _)

/-! ## A described table -/

structure PgAttribute where
  attnum : Int
  attname : List Char
  named : attname ≠ []

/-- The names of the key columns; a key without an attribute, an expression, has none. -/
def keyNames (attributes : List PgAttribute) (key : List Int) : List (List Char) :=
  key.flatMap fun attnum =>
    (attributes.filter fun a => a.attnum == attnum).map PgAttribute.attname

structure PgIndex where
  name : List Char
  unique : Bool
  primary : Bool
  indkey : List Int

structure PgForeignKey where
  conname : List Char
  conkey : List Int
  refTable : List Char
  refAttributes : List PgAttribute
  confkey : List Int

/-- The catalog rows of one relation, the indexes and constraints in the order of their names. -/
structure PgRelationRows where
  attributes : List PgAttribute
  indexes : List PgIndex
  foreignKeys : List PgForeignKey

structure IndexDetail where
  name : List Char
  columns : List (List Char)
  unique : Bool

structure ForeignKeyDetail where
  name : Option (List Char)
  columns : List (List Char)
  refTable : List Char
  refColumns : List (List Char)

structure TableDescription where
  primaryKey : List (List Char)
  indexes : List IndexDetail
  foreignKeys : List ForeignKeyDetail

def indexDetail (attributes : List PgAttribute) (i : PgIndex) : IndexDetail where
  name := i.name
  columns := splitCsv (stringAgg (keyNames attributes i.indkey))
  unique := i.unique

def foreignKeyDetail (attributes : List PgAttribute) (f : PgForeignKey) : ForeignKeyDetail where
  name := some f.conname
  columns := splitCsv (stringAgg (keyNames attributes f.conkey))
  refTable := f.refTable
  refColumns := splitCsv (stringAgg (keyNames f.refAttributes f.confkey))

def describePg (rel : PgRelationRows) : TableDescription where
  -- one row for each column, so that nothing is joined here
  primaryKey :=
    (rel.indexes.filter PgIndex.primary).flatMap fun i => keyNames rel.attributes i.indkey
  indexes := rel.indexes.map (indexDetail rel.attributes)
  foreignKeys := rel.foreignKeys.map (foreignKeyDetail rel.attributes)

/-- Every index and foreign key with its columns, those of a key beside the ones they refer to. -/
structure Exact (rel : PgRelationRows) : Prop where
  indexes : (describePg rel).indexes = rel.indexes.map fun i =>
    ⟨i.name, keyNames rel.attributes i.indkey, i.unique⟩
  foreignKeys : (describePg rel).foreignKeys = rel.foreignKeys.map fun f =>
    ⟨some f.conname, keyNames rel.attributes f.conkey, f.refTable,
      keyNames f.refAttributes f.confkey⟩
  pairs : (describePg rel).foreignKeys.map (fun f => f.columns.zip f.refColumns) =
    rel.foreignKeys.map fun f =>
      (keyNames rel.attributes f.conkey).zip (keyNames f.refAttributes f.confkey)

/-- Every name that an index or a foreign key uses survives. -/
structure Plain (rel : PgRelationRows) : Prop where
  index : ∀ i ∈ rel.indexes, ∀ name ∈ keyNames rel.attributes i.indkey, Survives name
  columns : ∀ f ∈ rel.foreignKeys, ∀ name ∈ keyNames rel.attributes f.conkey, Survives name
  refColumns : ∀ f ∈ rel.foreignKeys, ∀ name ∈ keyNames f.refAttributes f.confkey, Survives name

theorem keyNames_named {attributes : List PgAttribute} {key : List Int} :
    ∀ name ∈ keyNames attributes key, name ≠ [] := by
  intro name hname
  obtain ⟨_, _, hname⟩ := List.mem_flatMap.mp hname
  obtain ⟨a, _, rfl⟩ := List.mem_map.mp hname
  exact a.named

theorem columns_eq_iff (attributes : List PgAttribute) (key : List Int) :
    splitCsv (stringAgg (keyNames attributes key)) = keyNames attributes key ↔
      ∀ name ∈ keyNames attributes key, Survives name :=
  splitCsv_eq_iff keyNames_named

theorem plain_of_exact {rel : PgRelationRows} (h : Exact rel) : Plain rel := by
  have hindex := List.map_inj_left.mp h.indexes
  have hforeign := List.map_inj_left.mp h.foreignKeys
  constructor
  · intro i hi
    apply (columns_eq_iff rel.attributes i.indkey).mp
    exact congrArg IndexDetail.columns (hindex i hi)
  · intro f hf
    apply (columns_eq_iff rel.attributes f.conkey).mp
    exact congrArg ForeignKeyDetail.columns (hforeign f hf)
  · intro f hf
    apply (columns_eq_iff f.refAttributes f.confkey).mp
    exact congrArg ForeignKeyDetail.refColumns (hforeign f hf)

theorem exact_of_plain {rel : PgRelationRows} (h : Plain rel) : Exact rel := by
  have hforeign : (describePg rel).foreignKeys = rel.foreignKeys.map fun f =>
      ⟨some f.conname, keyNames rel.attributes f.conkey, f.refTable,
        keyNames f.refAttributes f.confkey⟩ := by
    refine List.map_congr_left fun f hf => ?_
    rw [foreignKeyDetail, (columns_eq_iff _ _).mpr (h.columns f hf),
      (columns_eq_iff _ _).mpr (h.refColumns f hf)]
  constructor
  · refine List.map_congr_left fun i hi => ?_
    rw [indexDetail, (columns_eq_iff _ _).mpr (h.index i hi)]
  · exact hforeign
  · rw [hforeign, List.map_map]
    rfl

/-- The names of a list, and the columns of a table, come back just where none has a comma or
blanks around it. -/
theorem columns_survive_iff {names : List (List Char)} (hnamed : ∀ name ∈ names, name ≠ [])
    (rel : PgRelationRows) :
    (splitCsv (stringAgg names) = names ↔ ∀ name ∈ names, Survives name) ∧
      (Exact rel ↔ Plain rel) :=
  ⟨splitCsv_eq_iff hnamed, plain_of_exact, exact_of_plain⟩

theorem columns_survive_pair :
    splitCsv (stringAgg ["id".toList, "order no".toList]) = ["id".toList, "order no".toList] :=
  (columns_survive_iff (by simp) ⟨[], [], []⟩).1.mpr (by
    intro name hname
    simp only [List.mem_cons, List.not_mem_nil, or_false] at hname
    rcases hname with rfl | rfl <;> exact ⟨by simp, by decide⟩)

/-- A foreign key on `a,b` and `c`. -/
def commaKey : PgRelationRows where
  attributes := [⟨1, "a,b".toList, by simp⟩, ⟨2, "c".toList, by simp⟩]
  indexes := []
  foreignKeys := [⟨"fk".toList, [1, 2], "parent".toList,
    [⟨1, "x".toList, by simp⟩, ⟨2, "y".toList, by simp⟩], [1, 2]⟩]

/-- A comma makes two columns of one and moves the pairs of a key, a blank is lost. -/
theorem comma_and_blank :
    splitCsv (stringAgg ["a,b".toList]) = ["a".toList, "b".toList] ∧
      splitCsv (stringAgg [" a".toList]) = ["a".toList] ∧
      (describePg commaKey).foreignKeys.map (fun f => f.columns.zip f.refColumns) =
        [[("a".toList, "x".toList), ("b".toList, "y".toList)]] ∧
      ¬ Exact commaKey := by
  refine ⟨by decide, by decide, by decide, fun h => ?_⟩
  have hcolumns := congrArg (List.map ForeignKeyDetail.columns) h.foreignKeys
  exact absurd hcolumns (by decide)

end Dbmaster.Metadata.CsvColumns
