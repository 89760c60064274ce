import Dbmaster.HealthCheck.Alert
import Dbmaster.Lib.Like
import Mathlib.Data.List.Nodup
/-!
# Tables without a primary key

The queries `MYSQL_MISSING_PK_SQL` and `PG_MISSING_PK_SQL` of the health check over the catalogs
that they read, and the lists that `collect_mysql_missing_pk` and `collect_pg_missing_pk` make of
the rows.
-/

namespace Dbmaster.HealthCheck.MissingPk

open Dbmaster.Lib
open Dbmaster.HealthCheck.Alert (MissingPkStats)

/-! ## MySQL -/

inductive TableType
  | baseTable | view | systemView
  deriving DecidableEq, Repr

structure MysqlTable where
  schema : String
  name : String
  type : TableType

structure MysqlConstraint where
  schema : String
  table : String
  isPrimaryKey : Bool

structure MysqlCatalog where
  tables : List MysqlTable
  constraints : List MysqlConstraint
  tableOnce : (tables.map fun t => (t.schema, t.name)).Nodup

def MysqlCatalog.hasPrimaryKey (catalog : MysqlCatalog) (t : MysqlTable) : Bool :=
  catalog.constraints.any fun c => c.schema == t.schema && (c.table == t.name && c.isPrimaryKey)

/-- The base tables of the bound schema for which no such constraint exists. -/
def mysqlMissingRows (catalog : MysqlCatalog) (database : String) : List MysqlTable :=
  catalog.tables.filter fun t =>
    t.schema == database && (t.type == .baseTable && !catalog.hasPrimaryKey t)

/-- `before` is the order of the collation. -/
def collectMysqlMissingPk (before : String → String → Bool) (catalog : MysqlCatalog)
    (database : String) : MissingPkStats where
  tables := ((mysqlMissingRows catalog database).mergeSort fun t t' => before t.name t'.name).map
    MysqlTable.name

def mysqlSystemSchemas : List String :=
  ["mysql", "information_schema", "performance_schema", "sys"]

/-- A user base table of the bound schema is named if and only if it has no primary key; nothing
else is named, and nothing twice. -/
structure MysqlExact (before : String → String → Bool) (catalog : MysqlCatalog)
    (database : String) : Prop where
  named : ∀ t ∈ catalog.tables, t.schema = database → t.type = .baseTable →
    database ∉ mysqlSystemSchemas →
      (t.name ∈ (collectMysqlMissingPk before catalog database).tables ↔
        catalog.hasPrimaryKey t = false)
  userOnly : ∀ name ∈ (collectMysqlMissingPk before catalog database).tables,
    database ∉ mysqlSystemSchemas ∧
      ∃ t ∈ catalog.tables, t.schema = database ∧ t.type = .baseTable ∧ t.name = name
  once : (collectMysqlMissingPk before catalog database).tables.Nodup

theorem mem_mysqlMissing (before : String → String → Bool) {catalog : MysqlCatalog}
    {database name : String} : name ∈ (collectMysqlMissingPk before catalog database).tables ↔
      ∃ t ∈ catalog.tables, (t.schema = database ∧ t.type = .baseTable ∧
        catalog.hasPrimaryKey t = false) ∧ t.name = name := by
  simp only [collectMysqlMissingPk, mysqlMissingRows, List.mem_map, List.mem_mergeSort,
    List.mem_filter, Bool.and_eq_true, beq_iff_eq, Bool.not_eq_true', and_assoc]

theorem mysqlMissing_nodup (before : String → String → Bool) (catalog : MysqlCatalog)
    (database : String) : (collectMysqlMissingPk before catalog database).tables.Nodup := by
  have honce := List.inj_on_of_nodup_map catalog.tableOnce
  have hrows : (mysqlMissingRows catalog database).Nodup := catalog.tableOnce.of_map.filter _
  refine (((List.mergeSort_perm _ _).nodup_iff).mpr hrows).map_on ?_
  intro t ht t' ht' hname
  rw [List.mem_mergeSort, mysqlMissingRows, List.mem_filter, Bool.and_eq_true, beq_iff_eq]
    at ht ht'
  refine honce ht.1 ht'.1 ?_
  rw [ht.2.1, ht'.2.1, hname]

theorem mysqlExact_iff (before : String → String → Bool) (catalog : MysqlCatalog)
    (database : String) : MysqlExact before catalog database ↔
      database ∉ mysqlSystemSchemas ∨ ∀ t ∈ catalog.tables, t.schema = database →
        t.type = .baseTable → catalog.hasPrimaryKey t = true := by
  constructor
  · intro h
    by_contra hnot
    obtain ⟨hsystem, hmissing⟩ := not_or.mp hnot
    apply hmissing
    intro t ht hschema htype
    by_contra hkey
    have hin := (mem_mysqlMissing before).mpr
      ⟨t, ht, ⟨hschema, htype, Bool.eq_false_iff.mpr hkey⟩, rfl⟩
    exact hsystem (h.userOnly t.name hin).1
  · intro h
    refine ⟨fun t ht hschema htype _ => ?_, fun name hname => ?_, mysqlMissing_nodup _ _ _⟩
    · rw [mem_mysqlMissing]
      constructor
      · rintro ⟨t', ht', ⟨hschema', _, hkey⟩, hname⟩
        have hsame : t' = t := List.inj_on_of_nodup_map catalog.tableOnce ht' ht
          (by rw [hschema', hschema, hname])
        rwa [hsame] at hkey
      · intro hkey
        exact ⟨t, ht, ⟨hschema, htype, hkey⟩, rfl⟩
    · obtain ⟨t, ht, ⟨hschema, htype, hkey⟩, hname⟩ := (mem_mysqlMissing before).mp hname
      refine ⟨?_, t, ht, hschema, htype, hname⟩
      rcases h with huser | hall
      · exact huser
      · rw [hall t ht hschema htype] at hkey
        cases hkey

/-! ## PostgreSQL -/

structure PgTable where
  schema : String
  name : String

/-- `rest` is what `pg_get_indexdef` writes behind `INDEX`. -/
structure PgIndex where
  schema : String
  table : String
  isPrimary : Bool
  isUnique : Bool
  rest : String

structure PgCatalog where
  tables : List PgTable
  indexes : List PgIndex
  tableOnce : (tables.map fun t => (t.schema, t.name)).Nodup

def PgIndex.indexdef (i : PgIndex) : List Char :=
  "CREATE ".toList ++ ((if i.isUnique then "UNIQUE ".toList else []) ++
    ("INDEX ".toList ++ i.rest.toList))

def PgIndex.isOn (i : PgIndex) (t : PgTable) : Bool := i.schema == t.schema && i.table == t.name

def PgCatalog.hasPrimaryKey (catalog : PgCatalog) (t : PgTable) : Bool :=
  catalog.indexes.any fun i => i.isOn t && i.isPrimary

def pgLike (pattern : String) (text : List Char) : Bool :=
  Like.like (· == ·) pattern.toList text

def pgMissingRows (catalog : PgCatalog) : List PgTable :=
  catalog.tables.filter fun t => !pgLike "pg_%" t.schema.toList &&
    !catalog.indexes.any fun i => i.isOn t && pgLike "%PRIMARY KEY%" i.indexdef

/-- What a row puts on the list. -/
def pgEntry (t : PgTable) : String := t.name

def collectPgMissingPk (before : String → String → Bool) (catalog : PgCatalog) :
    MissingPkStats where
  tables := ((pgMissingRows catalog).mergeSort fun t t' => before t.name t'.name).map pgEntry

/-- No schema of the server itself. -/
def PgTable.isUser (t : PgTable) : Bool :=
  t.schema != "information_schema" && !"pg_".toList.isPrefixOf t.schema.toList

/-- The list has an entry for a user table if and only if it has no primary key, none for any other
table, each qualified by its schema, and tables of different schemas do not share one. -/
def PgExact (before : String → String → Bool) (catalog : PgCatalog) : Prop :=
  ∃ rows : List PgTable, (collectPgMissingPk before catalog).tables = rows.map pgEntry ∧
    (∀ t ∈ catalog.tables, t.isUser = true → (t ∈ rows ↔ catalog.hasPrimaryKey t = false)) ∧
    (∀ t ∈ rows, t ∈ catalog.tables ∧ t.isUser = true) ∧
    (∀ t ∈ rows, pgEntry t = t.schema ++ "." ++ t.name) ∧
    ∀ t ∈ rows, ∀ t' ∈ rows, t.schema ≠ t'.schema → pgEntry t ≠ pgEntry t'

/-- The underscore of `pg_%` is a wildcard. -/
theorem pgLike_schema {schema : List Char} : pgLike "pg_%" schema = true ↔
    ∃ c rest, schema = 'p' :: 'g' :: c :: rest := by
  have hpattern : "pg_%".toList = ['p', 'g', '_'] ++ ['%'] := by decide
  rw [pgLike, hpattern, Like.like_append (by decide)]
  constructor
  · rintro ⟨found, rest, rfl, hfound, _⟩
    cases hfound with | cons hp hfound =>
    cases hfound with | cons hg hfound =>
    cases hfound with | cons _ hfound =>
    cases hfound
    rw [Like.Fits, beq_iff_eq, or_iff_right (by decide)] at hp hg
    exact ⟨_, rest, by rw [← hp, ← hg]; rfl⟩
  · rintro ⟨c, rest, rfl⟩
    refine ⟨['p', 'g', c], rest, rfl, ?_, Like.like_rest rest⟩
    exact .cons (.inr rfl) (.cons (.inr rfl) (.cons (.inl rfl) .nil))

theorem infix_append_iff {k : Char} {word before rest : List Char} (h : k ∉ before) :
    (k :: word) <:+: before ++ rest ↔ (k :: word) <:+: rest := by
  induction before with
  | nil => rfl
  | cons c before ih =>
      rw [List.mem_cons, not_or] at h
      rw [List.cons_append, List.infix_cons_iff, ih h.2, List.cons_prefix_cons,
        or_iff_right fun hprefix => h.1 hprefix.1]

/-- The words `PRIMARY KEY` come from what stands behind `INDEX`. -/
theorem pgLike_indexdef (i : PgIndex) : pgLike "%PRIMARY KEY%" i.indexdef = true ↔
    "PRIMARY KEY".toList <:+: i.rest.toList := by
  have hpattern : "%PRIMARY KEY%".toList = '%' :: ("PRIMARY KEY".toList ++ ['%']) := by decide
  have hlead : i.indexdef = ("CREATE ".toList ++ ((if i.isUnique then "UNIQUE ".toList else []) ++
      "INDEX ".toList)) ++ i.rest.toList := by
    unfold PgIndex.indexdef
    rw [List.append_assoc, List.append_assoc]
  have hpart : pgLike "%PRIMARY KEY%" i.indexdef = true ↔
      "PRIMARY KEY".toList <:+: i.indexdef := by
    rw [pgLike, hpattern]
    exact Like.like_part (by decide) (by decide)
  rw [hpart, hlead]
  exact infix_append_iff (by cases i.isUnique <;> decide)

/-- Every table outside the schemas `pg…` has an index whose definition mentions a primary key,
and every user table has one. -/
structure PgSilent (catalog : PgCatalog) : Prop where
  marked : ∀ t ∈ catalog.tables, (¬ ∃ c rest, t.schema.toList = 'p' :: 'g' :: c :: rest) →
    ∃ i ∈ catalog.indexes, i.isOn t = true ∧ "PRIMARY KEY".toList <:+: i.rest.toList
  keyed : ∀ t ∈ catalog.tables, t.isUser = true → catalog.hasPrimaryKey t = true

theorem mem_pgMissingRows {catalog : PgCatalog} {t : PgTable} : t ∈ pgMissingRows catalog ↔
    t ∈ catalog.tables ∧ (¬ ∃ c rest, t.schema.toList = 'p' :: 'g' :: c :: rest) ∧
      ¬ ∃ i ∈ catalog.indexes, i.isOn t = true ∧ "PRIMARY KEY".toList <:+: i.rest.toList := by
  have hany : (catalog.indexes.any fun i => i.isOn t && pgLike "%PRIMARY KEY%" i.indexdef) = true ↔
      ∃ i ∈ catalog.indexes, i.isOn t = true ∧ "PRIMARY KEY".toList <:+: i.rest.toList := by
    simp only [List.any_eq_true, Bool.and_eq_true, pgLike_indexdef]
  rw [pgMissingRows, List.mem_filter, Bool.and_eq_true, Bool.not_eq_true', Bool.not_eq_true',
    ← Bool.not_eq_true, ← Bool.not_eq_true, pgLike_schema, hany]

theorem pgMissingRows_eq_nil {catalog : PgCatalog} : pgMissingRows catalog = [] ↔
    ∀ t ∈ catalog.tables, (¬ ∃ c rest, t.schema.toList = 'p' :: 'g' :: c :: rest) →
      ∃ i ∈ catalog.indexes, i.isOn t = true ∧ "PRIMARY KEY".toList <:+: i.rest.toList := by
  rw [List.eq_nil_iff_forall_not_mem]
  simp only [mem_pgMissingRows, not_and, not_not]

theorem pgExact_iff (before : String → String → Bool) (catalog : PgCatalog) :
    PgExact before catalog ↔ PgSilent catalog := by
  constructor
  · rintro ⟨rows, htables, hnamed, _, hqualified, _⟩
    have hnone : rows = [] := by
      rw [List.eq_nil_iff_forall_not_mem]
      intro t ht
      have hlength := congrArg String.length (hqualified t ht)
      rw [pgEntry, String.length_append, String.length_append] at hlength
      have hdot : ".".length = 1 := rfl
      omega
    subst hnone
    refine ⟨pgMissingRows_eq_nil.mp ?_, fun t ht huser => ?_⟩
    · have hempty := congrArg List.length htables
      rw [collectPgMissingPk, List.length_map, List.length_mergeSort] at hempty
      exact List.length_eq_zero_iff.mp hempty
    · by_contra hkey
      exact absurd ((hnamed t ht huser).mpr (Bool.eq_false_iff.mpr hkey)) List.not_mem_nil
  · intro h
    refine ⟨[], ?_, fun t ht huser => ?_, nofun, nofun, nofun⟩
    · simp only [collectPgMissingPk, pgMissingRows_eq_nil.mpr h.marked, List.mergeSort_nil,
        List.map_nil]
    · rw [h.keyed t ht huser]
      exact iff_of_false List.not_mem_nil (Ne.symm Bool.false_ne_true)

/-- When the lists of the two engines name exactly the tables without a primary key. -/
theorem missing_pk_exact_iff (before : String → String → Bool) :
    (∀ (catalog : MysqlCatalog) (database : String), MysqlExact before catalog database ↔
      database ∉ mysqlSystemSchemas ∨ ∀ t ∈ catalog.tables, t.schema = database →
        t.type = .baseTable → catalog.hasPrimaryKey t = true) ∧
    ∀ catalog : PgCatalog, PgExact before catalog ↔ PgSilent catalog :=
  ⟨mysqlExact_iff before, pgExact_iff before⟩

/-- A table with a primary key, one of that name without, and one of the server itself. -/
def ordersTwice : PgCatalog where
  tables := [⟨"public", "orders"⟩, ⟨"archive", "orders"⟩, ⟨"information_schema", "sql_features"⟩]
  indexes := [⟨"public", "orders", true, true, "orders_pkey ON public.orders USING btree (id)"⟩]
  tableOnce := by decide

/-- All three are listed, two of them by the same name. -/
theorem all_listed :
    (pgMissingRows ordersTwice).map pgEntry = ["orders", "orders", "sql_features"] ∧
      ordersTwice.hasPrimaryKey ⟨"public", "orders"⟩ = true ∧
      ¬ PgExact (fun a b => decide (a ≤ b)) ordersTwice := by
  refine ⟨by decide, by decide, fun h => ?_⟩
  have hsilent := (pgExact_iff _ _).mp h
  have hkey := hsilent.keyed ⟨"archive", "orders"⟩ (by simp [ordersTwice]) (by decide)
  exact absurd hkey (by decide)

end Dbmaster.HealthCheck.MissingPk
