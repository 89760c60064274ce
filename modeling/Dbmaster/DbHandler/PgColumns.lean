import Dbmaster.DbHandler.Execute
import Dbmaster.Lib.Join
import Mathlib.Data.List.Nodup
import Mathlib.Data.List.Perm.Basic
/-!
# The columns of a PostgreSQL table

`PostgresBackend::list_columns` over the views of the information schema, as the catalog defines
them: the columns of the table, joined with what is keyed under the name of a primary key.
-/

namespace Dbmaster.DbHandler.PgColumns

open Dbmaster.Lib Dbmaster.Gateway.Query

/-! ## The catalog -/

inductive ConstraintType
  | primaryKey | unique | foreignKey | check
  deriving DecidableEq, Repr

structure PgConstraint where
  schema : String
  table : String
  name : String
  type : ConstraintType
  columns : List String
  deriving DecidableEq

structure PgColumn where
  name : String
  ordinal : Nat
  dataType : String
  isNullable : Bool
  columnDefault : Option String
  deriving DecidableEq

structure PgTable where
  schema : String
  name : String
  columns : List PgColumn
  ordered : (columns.map PgColumn.ordinal).Pairwise (· < ·)

structure PgCatalog where
  tables : List PgTable
  constraints : List PgConstraint
  tableOnce : (tables.map fun t => (t.schema, t.name)).Nodup
  constraintOnce : (constraints.map fun k => (k.schema, k.table, k.name)).Nodup
  onePrimaryKey : ∀ k ∈ constraints, ∀ k' ∈ constraints, k.type = .primaryKey →
    k'.type = .primaryKey → k.schema = k'.schema → k.table = k'.table → k = k'
  keyOnce : ∀ k ∈ constraints, k.type = .primaryKey → k.columns.Nodup

namespace PgCatalog

/-- The columns of the public table of that name, in ordinal order. -/
def publicColumns (catalog : PgCatalog) (table : String) : List PgColumn :=
  (catalog.tables.filter fun t => t.name == table && t.schema == "public").flatMap
    PgTable.columns

/-- `information_schema.key_column_usage`: a row for each column of a key. -/
def keyColumnUsage (catalog : PgCatalog) : List (PgConstraint × String) :=
  (catalog.constraints.filter fun k => k.type != .check).flatMap fun k =>
    k.columns.map fun column => (k, column)

end PgCatalog

/-! ## `list_columns` -/

/-- How the driver reads the INT4 of a `CASE` into an `i64`, and what it says when it does not. -/
structure RowReader where
  readsInt4 : Bool
  mismatch : String

structure ColumnInfo where
  name : String
  dataType : String
  isPrimaryKey : Int
  isNullable : Int
  defaultValue : Option String

/-- The subquery: the table of the key column is compared, the schemas are not. -/
def keyedColumns (catalog : PgCatalog) (table : String) : List String :=
  catalog.constraints.flatMap fun tc =>
    (catalog.keyColumnUsage.filter fun kcu => tc.name == kcu.1.name &&
      (tc.type == .primaryKey && kcu.1.table == table)).map Prod.snd

def joinedRows (catalog : PgCatalog) (table : String) : List (PgColumn × Option String) :=
  (Join.leftJoin (fun c pk => c.name == pk) (catalog.publicColumns table)
    (keyedColumns catalog table)).mergeSort fun r r' => r.1.ordinal ≤ r'.1.ordinal

def columnInfo (row : PgColumn × Option String) : ColumnInfo where
  name := row.1.name
  dataType := row.1.dataType
  isPrimaryKey := if row.2.isSome then 1 else 0
  isNullable := if row.1.isNullable then 1 else 0
  defaultValue := row.1.columnDefault

def listColumns (reader : RowReader) (catalog : PgCatalog) (table : String) :
    Except HttpError (List ColumnInfo) :=
  let rows := joinedRows catalog table
  if rows.isEmpty || reader.readsInt4 then .ok (rows.map columnInfo)
  else .error (Execute.queryFailed reader.mismatch)

def columnJson (c : ColumnInfo) : Json :=
  .obj [("name", .str c.name), ("data_type", .str c.dataType),
    ("is_primary_key", .bool (c.isPrimaryKey != 0)), ("is_nullable", .bool (c.isNullable != 0)),
    ("default_value", .ofOption .str c.defaultValue)]

def columnsJson (rows : List ColumnInfo) : Json := .arr (rows.map columnJson)

/-! ## What is listed -/

/-- A column as the answer should have it. -/
def answer (c : PgColumn) (isKey : Bool) : Json :=
  .obj [("name", .str c.name), ("data_type", .str c.dataType), ("is_primary_key", .bool isKey),
    ("is_nullable", .bool c.isNullable), ("default_value", .ofOption .str c.columnDefault)]

/-- The primary key of the public table. -/
def primaryKey (catalog : PgCatalog) (table : String) : List PgConstraint :=
  catalog.constraints.filter fun k =>
    k.schema == "public" && (k.table == table && k.type == .primaryKey)

def primaryKeyColumns (catalog : PgCatalog) (table : String) : List String :=
  (primaryKey catalog table).flatMap PgConstraint.columns

/-- Each column of the public table once, in ordinal order, marked where it is in the primary
key of that table. -/
def Exact (reader : RowReader) (catalog : PgCatalog) (table : String) : Prop :=
  (listColumns reader catalog table).map columnsJson =
    .ok (.arr ((catalog.publicColumns table).map fun c =>
      answer c (decide (c.name ∈ primaryKeyColumns catalog table))))

/-- What is keyed under the name of a primary key, on a table of this name and by a column of
the public one, is the primary key of the public one itself. -/
def OwnKeysOnly (catalog : PgCatalog) (table : String) : Prop :=
  ∀ tc ∈ catalog.constraints, tc.type = .primaryKey →
    ∀ k ∈ catalog.constraints, k.type ≠ .check → k.table = table → tc.name = k.name →
      (∃ c ∈ catalog.publicColumns table, c.name ∈ k.columns) → tc = k ∧ k.schema = "public"

section Listing

variable {catalog : PgCatalog} {table : String}

/-! ## The join -/

theorem publicColumns_ordered :
    (catalog.publicColumns table).Pairwise fun c c' => c.ordinal < c'.ordinal := by
  have honce := (List.nodup_map_iff_inj_on catalog.tableOnce.of_map).mp catalog.tableOnce
  refine List.pairwise_flatMap.mpr ⟨fun t _ => List.pairwise_map.mp t.ordered, ?_⟩
  refine List.Pairwise.imp_of_mem ?_ (catalog.tableOnce.of_map.filter _)
  intro t t' ht ht' hne
  rw [List.mem_filter, Bool.and_eq_true, beq_iff_eq, beq_iff_eq] at ht ht'
  refine absurd (honce t ht.1 t' ht'.1 ?_) hne
  rw [ht.2.1, ht.2.2, ht'.2.1, ht'.2.2]

theorem joinedRows_eq : joinedRows catalog table =
    Join.leftJoin (fun c pk => c.name == pk) (catalog.publicColumns table)
      (keyedColumns catalog table) := by
  apply List.mergeSort_of_pairwise
  have hsorted := @Join.pairwise_leftJoin PgColumn String (fun c c' => c.ordinal ≤ c'.ordinal)
    (fun _ => Nat.le_refl _) (catalog.publicColumns table)
    (publicColumns_ordered.imp Nat.le_of_lt)
    (fun c pk => c.name == pk) (keyedColumns catalog table)
  exact hsorted.imp decide_eq_true

/-- How often a column is keyed under the name of a primary key. -/
def hits (catalog : PgCatalog) (table : String) (c : PgColumn) : Nat :=
  (keyedColumns catalog table).countP fun pk => c.name == pk

theorem columnJson_columnInfo (row : PgColumn × Option String) :
    columnJson (columnInfo row) = answer row.1 row.2.isSome := by
  have hkey : ((if row.2.isSome then (1 : Int) else 0) != 0) = row.2.isSome := by
    cases row.2.isSome <;> rfl
  have hnull : ((if row.1.isNullable then (1 : Int) else 0) != 0) = row.1.isNullable := by
    cases row.1.isNullable <;> rfl
  simp only [columnJson, columnInfo, answer, hkey, hnull]

theorem answers_eq :
    (joinedRows catalog table).map (fun row => columnJson (columnInfo row)) =
      (catalog.publicColumns table).flatMap fun c =>
        List.replicate (max 1 (hits catalog table c))
          (answer c (decide (0 < hits catalog table c))) := by
  have hrows : (joinedRows catalog table).map (fun row => columnJson (columnInfo row)) =
      (joinedRows catalog table).map fun row => answer row.1 row.2.isSome :=
    List.map_congr_left fun row _ => columnJson_columnInfo row
  rw [hrows, joinedRows_eq, Join.map_leftJoin_isSome]
  rfl

theorem joinedRows_isEmpty :
    (joinedRows catalog table).isEmpty = (catalog.publicColumns table).isEmpty := by
  have hrows := congrArg List.isEmpty (@answers_eq catalog table)
  rw [List.isEmpty_map] at hrows
  rw [hrows]
  cases catalog.publicColumns table with
  | nil => rfl
  | cons c columns =>
      rw [List.flatMap_cons, List.isEmpty_cons, List.isEmpty_eq_false_iff]
      have hpos : 0 < max 1 (hits catalog table c) := by omega
      simp [Nat.ne_of_gt hpos]

theorem answer_inj {c : PgColumn} {b b' : Bool} (h : answer c b = answer c b') : b = b' := by
  injection h with h
  injection h with _ h
  injection h with _ h
  injection h with h _
  injection h with _ h
  injection h

/-- Exactness, column by column. -/
theorem exact_iff_hits (reader : RowReader) : Exact reader catalog table ↔
    (catalog.publicColumns table = [] ∨ reader.readsInt4 = true) ∧
      ∀ c ∈ catalog.publicColumns table, max 1 (hits catalog table c) = 1 ∧
        decide (0 < hits catalog table c) =
          decide (c.name ∈ primaryKeyColumns catalog table) := by
  unfold Exact listColumns
  simp only [joinedRows_isEmpty]
  have hpos : ∀ c ∈ catalog.publicColumns table, 0 < max 1 (hits catalog table c) := by
    intro c _
    omega
  by_cases hread : ((catalog.publicColumns table).isEmpty || reader.readsInt4) = true
  · have hdone : catalog.publicColumns table = [] ∨ reader.readsInt4 = true := by
      simpa using hread
    rw [if_pos hread, and_iff_right hdone]
    have hmap : (Except.ok ((joinedRows catalog table).map columnInfo)).map columnsJson =
        (.ok (.arr ((joinedRows catalog table).map fun row => columnJson (columnInfo row))) :
          Except HttpError Json) := by
      simp [Except.map, columnsJson, Function.comp_def]
    rw [hmap, answers_eq, Except.ok.injEq, Json.arr.injEq,
      Join.flatMap_replicate_eq_map_iff hpos]
    refine forall₂_congr fun c _ => and_congr_right fun _ => ?_
    exact ⟨answer_inj, fun h => by rw [h]⟩
  · have hnot : ¬ (catalog.publicColumns table = [] ∨ reader.readsInt4 = true) := by
      simpa using hread
    rw [if_neg hread]
    refine iff_of_false (fun h => ?_) (fun h => hnot h.1)
    cases h

/-! ## What is keyed -/

/-- The pairs that the subquery joins. -/
def pairs (catalog : PgCatalog) (table : String) : List (PgConstraint × PgConstraint) :=
  (catalog.constraints.product catalog.constraints).filter fun p =>
    p.2.type != .check && (p.1.name == p.2.name && (p.1.type == .primaryKey && p.2.table == table))

/-- A key joined with itself, in the public schema. -/
def isOwn (p : PgConstraint × PgConstraint) : Bool := p.1 == p.2 && p.2.schema == "public"

theorem keyedColumns_eq :
    keyedColumns catalog table = (pairs catalog table).flatMap fun p => p.2.columns := by
  have hone : ∀ tc : PgConstraint, ∀ ks : List PgConstraint,
      (((ks.filter fun k => k.type != .check).flatMap fun k =>
        k.columns.map fun column => (k, column)).filter fun kcu => tc.name == kcu.1.name &&
          (tc.type == .primaryKey && kcu.1.table == table)).map Prod.snd =
        ((ks.map (Prod.mk tc)).filter fun p => p.2.type != .check &&
          (p.1.name == p.2.name && (p.1.type == .primaryKey && p.2.table == table))).flatMap
            fun p => p.2.columns := by
    intro tc ks
    have hchosen := Join.map_snd_filter_owned (fun k : PgConstraint => k.type != .check)
      (fun k => tc.name == k.name && (tc.type == .primaryKey && k.table == table))
      PgConstraint.columns ks
    rw [List.filter_map, List.flatMap_map]
    exact hchosen
  unfold keyedColumns PgCatalog.keyColumnUsage pairs List.product
  rw [List.filter_flatMap, List.flatMap_assoc]
  exact List.flatMap_congr fun tc _ => hone tc catalog.constraints

theorem nodup_pairs : (pairs catalog table).Nodup :=
  (catalog.constraintOnce.of_map.product catalog.constraintOnce.of_map).filter _

theorem own_perm : ((pairs catalog table).filter isOwn).Perm
    ((primaryKey catalog table).map fun k => (k, k)) := by
  have hinj : Function.Injective fun k : PgConstraint => (k, k) := fun _ _ h =>
    congrArg Prod.fst h
  have hkeys : ((primaryKey catalog table).map fun k => (k, k)).Nodup :=
    (catalog.constraintOnce.of_map.filter _).map hinj
  refine (List.perm_ext_iff_of_nodup (nodup_pairs.filter _) hkeys).mpr fun p => ?_
  obtain ⟨tc, k⟩ := p
  simp only [pairs, primaryKey, isOwn, List.mem_filter, List.mem_map, List.pair_mem_product,
    Bool.and_eq_true, beq_iff_eq, bne_iff_ne, Prod.mk.injEq]
  constructor
  · rintro ⟨⟨⟨_, hk⟩, _, _, htype, htable⟩, rfl, hschema⟩
    exact ⟨tc, ⟨hk, hschema, htable, htype⟩, rfl, rfl⟩
  · rintro ⟨_, ⟨hk, hschema, htable, htype⟩, rfl, rfl⟩
    exact ⟨⟨⟨hk, hk⟩, by rw [htype]; decide, rfl, htype, htable⟩, rfl, hschema⟩

theorem mem_primaryKey {k : PgConstraint} : k ∈ primaryKey catalog table ↔
    k ∈ catalog.constraints ∧ k.schema = "public" ∧ k.table = table ∧ k.type = .primaryKey := by
  simp [primaryKey]

theorem primaryKeyColumns_nodup : (primaryKeyColumns catalog table).Nodup := by
  refine List.nodup_flatMap.mpr ⟨fun k hk => ?_, ?_⟩
  · obtain ⟨hin, _, _, htype⟩ := mem_primaryKey.mp hk
    exact catalog.keyOnce k hin htype
  · refine List.Pairwise.imp_of_mem ?_ (catalog.constraintOnce.of_map.filter _)
    intro k k' hk hk' hne
    obtain ⟨hin, hschema, htable, htype⟩ := mem_primaryKey.mp hk
    obtain ⟨hin', hschema', htable', htype'⟩ := mem_primaryKey.mp hk'
    exact absurd (catalog.onePrimaryKey k hin k' hin' htype htype' (hschema.trans hschema'.symm)
      (htable.trans htable'.symm)) hne

/-- What is keyed by anything but the table's own primary key. -/
def strays (catalog : PgCatalog) (table : String) : List String :=
  ((pairs catalog table).filter fun p => !isOwn p).flatMap fun p => p.2.columns

theorem hits_eq (c : PgColumn) : hits catalog table c =
    (primaryKeyColumns catalog table).count c.name + (strays catalog table).count c.name := by
  have hcount : hits catalog table c = (keyedColumns catalog table).count c.name := by
    unfold hits List.count
    refine List.countP_congr fun pk _ => ?_
    rw [beq_iff_eq, beq_iff_eq]
    exact eq_comm
  have hperm := (List.filter_append_perm isOwn (pairs catalog table)).symm.flatMap_right
    fun p : PgConstraint × PgConstraint => p.2.columns
  have hown := (@own_perm catalog table).flatMap_right
    fun p : PgConstraint × PgConstraint => p.2.columns
  rw [List.flatMap_map] at hown
  rw [hcount, keyedColumns_eq, hperm.count_eq, List.flatMap_append, List.count_append,
    hown.count_eq]
  rfl

theorem mem_strays {column : String} : column ∈ strays catalog table ↔
    ∃ tc ∈ catalog.constraints, ∃ k ∈ catalog.constraints, k.type ≠ .check ∧ tc.name = k.name ∧
      tc.type = .primaryKey ∧ k.table = table ∧ ¬ (tc = k ∧ k.schema = "public") ∧
        column ∈ k.columns := by
  have hown : ∀ tc k : PgConstraint, (!isOwn (tc, k)) = true ↔
      ¬ (tc = k ∧ k.schema = "public") := by
    intro tc k
    rw [Bool.not_eq_true', ← Bool.not_eq_true, isOwn, Bool.and_eq_true, beq_iff_eq, beq_iff_eq]
  simp only [strays, pairs, List.mem_flatMap, List.mem_filter, Prod.exists, hown,
    List.pair_mem_product, Bool.and_eq_true, beq_iff_eq, bne_iff_ne]
  constructor
  · rintro ⟨tc, k, ⟨⟨⟨htc, hk⟩, hkey, hname, htype, htable⟩, hstray⟩, hin⟩
    exact ⟨tc, htc, k, hk, hkey, hname, htype, htable, hstray, hin⟩
  · rintro ⟨tc, htc, k, hk, hkey, hname, htype, htable, hstray, hin⟩
    exact ⟨tc, k, ⟨⟨⟨htc, hk⟩, hkey, hname, htype, htable⟩, hstray⟩, hin⟩

theorem ownKeysOnly_iff : OwnKeysOnly catalog table ↔
    ∀ c ∈ catalog.publicColumns table, (strays catalog table).count c.name = 0 := by
  simp only [List.count_eq_zero, mem_strays]
  constructor
  · rintro h c hc ⟨tc, htc, k, hk, hkey, hname, htype, htable, hstray, hin⟩
    exact hstray (h tc htc htype k hk hkey htable hname ⟨c, hc, hin⟩)
  · rintro h tc htc htype k hk hkey htable hname ⟨c, hc, hin⟩
    by_contra hstray
    exact h c hc ⟨tc, htc, k, hk, hkey, hname, htype, htable, hstray, hin⟩

/-- The list is exact just where the driver reads the flags and only the table's own primary
key meets a primary key's name. -/
theorem listColumns_exact_iff (reader : RowReader) (catalog : PgCatalog) (table : String) :
    Exact reader catalog table ↔
      catalog.publicColumns table = [] ∨
        reader.readsInt4 = true ∧ OwnKeysOnly catalog table := by
  have hcolumn : ∀ c : PgColumn, (max 1 (hits catalog table c) = 1 ∧
      decide (0 < hits catalog table c) = decide (c.name ∈ primaryKeyColumns catalog table)) ↔
        (strays catalog table).count c.name = 0 := by
    intro c
    have honce : (primaryKeyColumns catalog table).count c.name ≤ 1 :=
      List.nodup_iff_count_le_one.mp primaryKeyColumns_nodup c.name
    rw [hits_eq, decide_eq_decide, ← List.count_pos_iff]
    omega
  rw [exact_iff_hits, ownKeysOnly_iff]
  constructor
  · rintro ⟨hempty | hread, h⟩
    · exact .inl hempty
    · exact .inr ⟨hread, fun c hc => (hcolumn c).mp (h c hc)⟩
  · rintro (hempty | ⟨hread, h⟩)
    · refine ⟨.inl hempty, fun c hc => ?_⟩
      rw [hempty] at hc
      cases hc
    · exact ⟨.inr hread, fun c hc => (hcolumn c).mpr (h c hc)⟩

/-- A table `orders` in two schemas, its primary key `orders_pkey` in both. -/
def twoOrders : PgCatalog where
  tables := ["public", "archive"].map fun schema =>
    { schema := schema
      name := "orders"
      columns := [⟨"id", 1, "integer", false, none⟩, ⟨"note", 2, "text", true, none⟩]
      ordered := by simp }
  constraints := ["public", "archive"].map fun schema =>
    ⟨schema, "orders", "orders_pkey", .primaryKey, ["id"]⟩
  tableOnce := by decide
  constraintOnce := by decide
  onePrimaryKey := by decide
  keyOnce := by decide

/-- Each of the two names meets each of the two keys; a driver that does not read the flags
answers with an error instead. -/
theorem id_listed_four_times :
    (∀ reader : RowReader, ¬ Exact reader twoOrders "orders") ∧
      ∀ reader : RowReader,
        (listColumns reader twoOrders "orders").map (fun rows => rows.map ColumnInfo.name) =
          if reader.readsInt4 then .ok ["id", "id", "id", "id", "note"]
          else .error (Execute.queryFailed reader.mismatch) := by
  constructor
  · intro reader h
    have hid := ((exact_iff_hits reader).mp h).2 ⟨"id", 1, "integer", false, none⟩ (by decide)
    exact absurd hid.1 (by decide)
  · rintro ⟨readsInt4, mismatch⟩
    have hrows : ((joinedRows twoOrders "orders").map columnInfo).map ColumnInfo.name =
        ["id", "id", "id", "id", "note"] := by
      rw [joinedRows_eq]
      decide
    have hsome : (joinedRows twoOrders "orders").isEmpty = false := by
      rw [joinedRows_isEmpty]
      decide
    cases readsInt4 with
    | true =>
        simp only [listColumns, Bool.or_true, if_true]
        exact congrArg Except.ok hrows
    | false =>
        simp only [listColumns, hsome]
        rfl

end Listing

end Dbmaster.DbHandler.PgColumns
