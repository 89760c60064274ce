import Dbmaster.DataSync.Writers
import Mathlib.Data.List.Forall2
import Mathlib.Data.List.Nodup
import Mathlib.Data.List.Perm.Basic
/-!
# The same row on every write path

The statements read back as the names and values they were built from; the
objects keep one member for each target, drop the constants and turn NULL into
the empty text.
-/

namespace Dbmaster.DataSync.SameRow

open Dbmaster.Lib Dbmaster.DataSync.Config Dbmaster.DataSync.Writers

variable {display : Json → String} {database : String} {cfg : DataSyncTaskConfig}

/-- A value for each mapped column, NULL where the source is NULL, and a value
for each constant column. -/
def intended (display : Json → String) (cfg : DataSyncTaskConfig) (row : SourceRow) :
    WrittenRow :=
  (cfg.columnMapping.columns.map fun c => (c.target, row c.source)) ++
    cfg.columnMapping.constants.map fun cst =>
      (cst.target, some (jsonValueToString display cst.value))

/-- The path writes the intended rows, up to the order of their columns. -/
def WritesIntended (display : Json → String) (database : String) (cfg : DataSyncTaskConfig)
    (rows : List SourceRow) (path : WritePath) : Prop :=
  List.Forall₂ List.Perm (written display database cfg path rows)
    (rows.map (intended display cfg))

/-- What the objects can carry: no constants, one column a target, no NULL. -/
structure Lossless (cfg : DataSyncTaskConfig) (row : SourceRow) : Prop where
  noConstants : cfg.columnMapping.constants = []
  distinct : (cfg.columnMapping.columns.map (·.target)).Nodup
  noNull : ∀ c ∈ cfg.columnMapping.columns, (row c.source).isSome = true

/-! ## Names and literals -/

theorem quote_eq (name : String) (dialect : Dialect) :
    (quote name dialect).toList = Quoted.quoted (delimiter dialect) name.toList := by
  have hmark : Text.replace "`" "``" name.toList = Quoted.double '`' name.toList :=
    Quoted.replace_eq_double '`' name.toList
  have hquote : Text.replace "\"" "\"\"" name.toList = Quoted.double '"' name.toList :=
    Quoted.replace_eq_double '"' name.toList
  cases dialect <;> simp [quote, delimiter, Quoted.quoted, hmark, hquote]

@[simp] theorem readName_quote (name : String) (dialect : Dialect) :
    readName dialect (quote name dialect) = name := by
  have hread := Quoted.readQuoted_quoted (delimiter dialect) name.toList [] (by simp)
  rw [List.append_nil, ← quote_eq] at hread
  rw [readName, hread]
  simp

theorem pushPgLiteral_some (s : String) :
    pushPgLiteral (some s) = Quoted.quoted '\'' s.toList ++ "::unknown".toList := by
  have hquote : Text.replace "'" "''" s.toList = Quoted.double '\'' s.toList :=
    Quoted.replace_eq_double '\'' s.toList
  simp [pushPgLiteral, hquote, Quoted.quoted]

@[simp] theorem read_pushPgLiteral (v : Option String) :
    (Value.literal (pushPgLiteral v)).read = v := by
  cases v with
  | none => rfl
  | some s =>
      have hread := Quoted.readQuoted_quoted '\'' s.toList "::unknown".toList (by decide)
      rw [Value.read, pushPgLiteral_some, hread]
      simp

/-! ## Statements -/

section Statements

variable {Row : Type} {dialect : Dialect} {tail : List String → Option String}
  {value : Row → ColumnSelect → Value} {constant : String → Value}

theorem rows_insertStatement (rows : List Row) :
    (insertStatement display cfg dialect tail value constant rows).elim []
        InsertStatement.rows =
      rows.map fun r =>
        (cfg.columnMapping.columns.map fun c => (c.target, (value r c).read)) ++
          cfg.columnMapping.constants.map fun cst =>
            (cst.target, (constant (jsonValueToString display cst.value)).read) := by
  cases rows with
  | nil => rfl
  | cons r rows =>
      have hrow : ∀ r : Row,
          ((targetColumns cfg dialect).map (readName dialect)).zip
            (((cfg.columnMapping.columns.map (value r)) ++
              cfg.columnMapping.constants.map fun cst =>
                constant (jsonValueToString display cst.value)).map Value.read) =
          (cfg.columnMapping.columns.map fun c => (c.target, (value r c).read)) ++
            cfg.columnMapping.constants.map fun cst =>
              (cst.target, (constant (jsonValueToString display cst.value)).read) := by
        intro r
        rw [targetColumns, List.map_append, List.map_append, List.zip_append (by simp)]
        simp only [List.map_map, List.zip_map', Function.comp_def, readName_quote]
      show InsertStatement.rows _ = _
      simp only [InsertStatement.rows, List.map_map, Function.comp_def, hrow]

end Statements

/-! ## Objects -/

theorem mem_keys_insertMember {key k : String} {value : Json} {members : JsonRow} :
    k ∈ (insertMember key value members).map Prod.fst ↔ k = key ∨ k ∈ members.map Prod.fst := by
  induction members with
  | nil => simp [insertMember]
  | cons m members ih =>
      rw [insertMember]
      by_cases hm : m.1 = key
      · rw [if_pos hm]
        simp [hm]
      · rw [if_neg hm, List.map_cons, List.mem_cons, ih, List.map_cons, List.mem_cons]
        exact or_left_comm

theorem nodup_keys_insertMember {key : String} {value : Json} {members : JsonRow}
    (h : (members.map Prod.fst).Nodup) :
    ((insertMember key value members).map Prod.fst).Nodup := by
  induction members with
  | nil => simp [insertMember]
  | cons m members ih =>
      rw [List.map_cons, List.nodup_cons] at h
      rw [insertMember]
      by_cases hm : m.1 = key
      · rw [if_pos hm, List.map_cons, List.nodup_cons, ← hm]
        exact h
      · rw [if_neg hm, List.map_cons, List.nodup_cons, mem_keys_insertMember]
        exact ⟨fun hmem => hmem.elim hm h.1, ih h.2⟩

theorem insertMember_of_notMem {key : String} {members : JsonRow} (value : Json)
    (h : key ∉ members.map Prod.fst) :
    insertMember key value members = members ++ [(key, value)] := by
  induction members with
  | nil => rfl
  | cons m members ih =>
      rw [List.map_cons, List.mem_cons, not_or] at h
      rw [insertMember, if_neg (Ne.symm h.1), ih h.2]
      rfl

theorem mem_of_mem_insertMember {key : String} {value : Json} {members : JsonRow}
    {m : String × Json} (h : m ∈ insertMember key value members) :
    m = (key, value) ∨ m ∈ members := by
  induction members with
  | nil => exact .inl (List.mem_singleton.mp h)
  | cons first members ih =>
      rw [insertMember] at h
      by_cases hfirst : first.1 = key
      · rw [if_pos hfirst, List.mem_cons] at h
        exact h.imp_right (List.mem_cons_of_mem first)
      · rw [if_neg hfirst, List.mem_cons] at h
        rcases h with hhere | hthere
        · exact .inr (by rw [hhere]; exact List.mem_cons_self)
        · exact (ih hthere).imp_right (List.mem_cons_of_mem first)

/-- The object built on the members there are already. -/
def insertAll (cols : List ColumnSelect) (value : ColumnSelect → Json) (members : JsonRow) :
    JsonRow :=
  cols.foldl (fun m c => insertMember c.target (value c) m) members

theorem nodup_keys_insertAll {cols : List ColumnSelect} {value : ColumnSelect → Json}
    {members : JsonRow} (h : (members.map Prod.fst).Nodup) :
    ((insertAll cols value members).map Prod.fst).Nodup := by
  induction cols generalizing members with
  | nil => exact h
  | cons c cols ih => exact ih (nodup_keys_insertMember h)

theorem mem_of_mem_insertAll {cols : List ColumnSelect} {value : ColumnSelect → Json}
    {members : JsonRow} {m : String × Json} (h : m ∈ insertAll cols value members) :
    (∃ c ∈ cols, m = (c.target, value c)) ∨ m ∈ members := by
  induction cols generalizing members with
  | nil => exact .inr h
  | cons c cols ih =>
      rcases ih h with ⟨d, hd, hm⟩ | hold
      · exact .inl ⟨d, List.mem_cons_of_mem c hd, hm⟩
      · exact (mem_of_mem_insertMember hold).imp_left fun hm => ⟨c, List.mem_cons_self, hm⟩

theorem insertAll_of_distinct {cols : List ColumnSelect} (value : ColumnSelect → Json)
    (members : JsonRow) (hdistinct : (cols.map (·.target)).Nodup)
    (hfresh : ∀ c ∈ cols, c.target ∉ members.map Prod.fst) :
    insertAll cols value members = members ++ cols.map fun c => (c.target, value c) := by
  induction cols generalizing members with
  | nil => exact (List.append_nil members).symm
  | cons c cols ih =>
      rw [List.map_cons, List.nodup_cons] at hdistinct
      show insertAll cols value (insertMember c.target (value c) members) = _
      have hnew := insertMember_of_notMem (value c) (hfresh c List.mem_cons_self)
      have hrest : ∀ d ∈ cols,
          d.target ∉ (insertMember c.target (value c) members).map Prod.fst := by
        intro d hd
        rw [mem_keys_insertMember, not_or]
        refine ⟨fun heq => hdistinct.1 ?_, hfresh d (List.mem_cons_of_mem c hd)⟩
        rw [← heq]
        exact List.mem_map_of_mem hd
      rw [ih _ hdistinct.2 hrest, hnew, List.append_assoc]
      rfl

/-! ## The paths -/

section Paths

variable {row : SourceRow} {rows : List SourceRow}

theorem find?_of_distinct {α : Type} {members : List (String × α)}
    (hdistinct : (members.map Prod.fst).Nodup) {m : String × α} (hm : m ∈ members) :
    (members.find? fun other => other.1 = m.1) = some m := by
  have hsome : (members.find? fun other => other.1 = m.1).isSome = true :=
    List.find?_isSome.mpr ⟨m, hm, decide_eq_true rfl⟩
  obtain ⟨other, hfind⟩ := Option.isSome_iff_exists.mp hsome
  have hkey : other.1 = m.1 := by simpa using List.find?_some hfind
  have hsame : other = m :=
    List.inj_on_of_nodup_map hdistinct (List.mem_of_find?_eq_some hfind) hm hkey
  rw [hfind, hsame]

theorem keys_fetched : (fetched cfg row).map Prod.fst = cfg.columnMapping.columns.map (·.target) :=
  List.map_map

theorem tryGet_fetched (hdistinct : (cfg.columnMapping.columns.map (·.target)).Nodup)
    {c : ColumnSelect} (hc : c ∈ cfg.columnMapping.columns) :
    tryGet (fetched cfg row) c.target = row c.source := by
  have hkeys : ((fetched cfg row).reverse.map Prod.fst).Nodup := by
    rw [List.map_reverse, List.nodup_reverse, keys_fetched]
    exact hdistinct
  have hmem : (c.target, row c.source) ∈ (fetched cfg row).reverse := by
    rw [List.mem_reverse]
    exact List.mem_map_of_mem hc
  rw [tryGet, find?_of_distinct hkeys hmem]
  rfl

theorem rowToJson_of_distinct (hdistinct : (cfg.columnMapping.columns.map (·.target)).Nodup) :
    rowToJson cfg.columnMapping.columns (fetched cfg row) =
      cfg.columnMapping.columns.map fun c => (c.target, .str ((row c.source).getD "")) := by
  have hall := insertAll_of_distinct
    (fun c => .str ((tryGet (fetched cfg row) c.target).getD "")) [] hdistinct
    (fun _ _ => List.not_mem_nil)
  rw [List.nil_append] at hall
  refine hall.trans (List.map_congr_left fun c hc => ?_)
  rw [tryGet_fetched hdistinct hc]

theorem getStr_rowToJson (hdistinct : (cfg.columnMapping.columns.map (·.target)).Nodup)
    {c : ColumnSelect} (hc : c ∈ cfg.columnMapping.columns) :
    getStr (rowToJson cfg.columnMapping.columns (fetched cfg row)) c.target =
      some ((row c.source).getD "") := by
  have hkeys : ((cfg.columnMapping.columns.map fun c =>
      (c.target, Json.str ((row c.source).getD ""))).map Prod.fst).Nodup := by
    rw [List.map_map]
    exact hdistinct
  rw [rowToJson_of_distinct hdistinct, getStr, Json.get,
    find?_of_distinct hkeys (List.mem_map_of_mem hc)]
  rfl

theorem written_sameDriver (hdistinct : (cfg.columnMapping.columns.map (·.target)).Nodup)
    {path : WritePath} (hpath : path = .mysqlToMysql ∨ path = .pgToPg) :
    written display database cfg path rows = rows.map (intended display cfg) := by
  have hrow : ∀ row : SourceRow,
      ((cfg.columnMapping.columns.map fun c =>
          (c.target, (Value.bound (tryGet (fetched cfg row) c.target)).read)) ++
        cfg.columnMapping.constants.map fun cst =>
          (cst.target, (Value.bound (some (jsonValueToString display cst.value))).read)) =
      intended display cfg row := by
    intro row
    rw [intended]
    congr 1
    refine List.map_congr_left fun c hc => ?_
    rw [tryGet_fetched hdistinct hc]
    rfl
  rcases hpath with rfl | rfl
  · show (insertStatement _ _ _ _ _ _ _).elim [] InsertStatement.rows = _
    rw [rows_insertStatement, List.map_map]
    exact List.map_congr_left fun row _ => hrow row
  · show (insertStatement _ _ _ _ _ _ _).elim [] InsertStatement.rows = _
    rw [rows_insertStatement, List.map_map]
    exact List.map_congr_left fun row _ => hrow row

theorem written_cross (hdistinct : (cfg.columnMapping.columns.map (·.target)).Nodup)
    {path : WritePath} (hpath : path = .mysqlToPg ∨ path = .pgToMysql) :
    written display database cfg path rows =
      rows.map fun row =>
        intended display cfg fun source => some ((row source).getD "") := by
  have hread : ∀ row : SourceRow, ∀ c ∈ cfg.columnMapping.columns,
      getStr (rowToJson cfg.columnMapping.columns (fetched cfg row)) c.target =
        some ((row c.source).getD "") := fun row c hc => getStr_rowToJson hdistinct hc
  rcases hpath with rfl | rfl
  · show (insertStatement _ _ _ _ _ _ _).elim [] InsertStatement.rows = _
    rw [rows_insertStatement, rowsToJson, List.map_map, List.map_map]
    refine List.map_congr_left fun row _ => ?_
    simp only [Function.comp_apply, read_pushPgLiteral, intended]
    congr 1
    exact List.map_congr_left fun c hc => by rw [hread row c hc]
  · show (insertStatement _ _ _ _ _ _ _).elim [] InsertStatement.rows = _
    rw [rows_insertStatement, rowsToJson, List.map_map, List.map_map]
    refine List.map_congr_left fun row _ => ?_
    simp only [Function.comp_apply, Value.read, intended]
    congr 1
    exact List.map_congr_left fun c hc => by rw [hread row c hc]

theorem rows_load (address : String) (lines : List JsonRow) :
    (if lines.isEmpty then none else some (LoadRequest.mk address lines)).elim []
        LoadRequest.rows =
      lines.map fun members => members.map fun m => (m.1, m.2.asStr) := by
  cases lines with
  | nil => rfl
  | cons line lines => rfl

theorem written_load {path : WritePath} (hpath : path = .toClickHouse ∨ path = .toDoris) :
    written display database cfg path rows =
      rows.map fun row => (rowToJson cfg.columnMapping.columns (fetched cfg row)).map
        fun m => (m.1, m.2.asStr) := by
  rcases hpath with rfl | rfl
  · show (clickHouseInsertBatch _ _ _).elim [] LoadRequest.rows = _
    rw [clickHouseInsertBatch, rows_load, rowsToJson, List.map_map, List.map_map]
    rfl
  · show (dorisInsertBatch _ _ _).elim [] LoadRequest.rows = _
    rw [dorisInsertBatch, rows_load, rowsToJson, List.map_map, List.map_map]
    rfl

theorem intended_of_lossless (h : Lossless cfg row) :
    (intended display cfg fun source => some ((row source).getD "")) =
      intended display cfg row := by
  rw [intended, intended]
  congr 1
  refine List.map_congr_left fun c hc => ?_
  obtain ⟨value, hvalue⟩ := Option.isSome_iff_exists.mp (h.noNull c hc)
  rw [hvalue]
  rfl

theorem loaded_of_lossless (h : Lossless cfg row) :
    ((rowToJson cfg.columnMapping.columns (fetched cfg row)).map fun m => (m.1, m.2.asStr)) =
      intended display cfg row := by
  rw [rowToJson_of_distinct h.distinct, ← intended_of_lossless h, intended, h.noConstants,
    List.map_nil, List.append_nil, List.map_map]
  rfl

theorem lossless_of_loaded
    (h : ((rowToJson cfg.columnMapping.columns (fetched cfg row)).map
      fun m => (m.1, m.2.asStr)).Perm (intended display cfg row)) :
    Lossless cfg row := by
  have hkeys : (((rowToJson cfg.columnMapping.columns (fetched cfg row)).map
      fun m => (m.1, m.2.asStr)).map Prod.fst).Nodup := by
    rw [List.map_map]
    exact nodup_keys_insertAll List.nodup_nil
  have htargets : ((cfg.columnMapping.columns.map (·.target)) ++
      cfg.columnMapping.constants.map (·.target)).Nodup := by
    have hperm := (h.map Prod.fst).nodup_iff.mp hkeys
    rwa [intended, List.map_append, List.map_map, List.map_map] at hperm
  obtain ⟨hdistinct, -, hapart⟩ := List.nodup_append.mp htargets
  have hsource : ∀ entry ∈ intended display cfg row,
      entry.1 ∈ cfg.columnMapping.columns.map (·.target) ∧ entry.2.isSome = true := by
    intro entry hentry
    obtain ⟨m, hm, rfl⟩ := List.mem_map.mp (h.mem_iff.mpr hentry)
    rcases mem_of_mem_insertAll hm with ⟨c, hc, rfl⟩ | hnil
    · exact ⟨List.mem_map_of_mem hc, rfl⟩
    · exact absurd hnil List.not_mem_nil
  refine ⟨?_, hdistinct, ?_⟩
  · rw [List.eq_nil_iff_forall_not_mem]
    intro cst hcst
    have hcolumn := (hsource _ (List.mem_append_right _ (List.mem_map_of_mem hcst))).1
    exact hapart _ hcolumn _ (List.mem_map_of_mem hcst) rfl
  · intro c hc
    exact (hsource _ (List.mem_append_left _ (List.mem_map_of_mem hc))).2

end Paths

/-! ## When the paths agree -/

/-- Every path writes the intended rows exactly when no row has a NULL in a
mapped column, no two columns share a target and there are no constants. -/
theorem writesIntended_iff (display : Json → String) (database : String)
    (cfg : DataSyncTaskConfig) (rows : List SourceRow) :
    (∀ path, WritesIntended display database cfg rows path) ↔
      ∀ row ∈ rows, Lossless cfg row := by
  constructor
  · intro hall row hrow
    have hload := hall .toClickHouse
    rw [WritesIntended, written_load (.inl rfl), List.forall₂_map_left_iff,
      List.forall₂_map_right_iff, List.forall₂_same] at hload
    exact lossless_of_loaded (hload row hrow)
  · intro hlossless path
    cases rows with
    | nil => cases path <;> exact .nil
    | cons row rows =>
        have hdistinct := (hlossless row List.mem_cons_self).distinct
        have hsame : written display database cfg path (row :: rows) =
            (row :: rows).map (intended display cfg) := by
          cases path with
          | mysqlToMysql => exact written_sameDriver hdistinct (.inl rfl)
          | pgToPg => exact written_sameDriver hdistinct (.inr rfl)
          | mysqlToPg =>
              rw [written_cross hdistinct (.inl rfl)]
              exact List.map_congr_left fun r hr => intended_of_lossless (hlossless r hr)
          | pgToMysql =>
              rw [written_cross hdistinct (.inr rfl)]
              exact List.map_congr_left fun r hr => intended_of_lossless (hlossless r hr)
          | toClickHouse =>
              rw [written_load (.inl rfl)]
              exact List.map_congr_left fun r hr => loaded_of_lossless (hlossless r hr)
          | toDoris =>
              rw [written_load (.inr rfl)]
              exact List.map_congr_left fun r hr => loaded_of_lossless (hlossless r hr)
        rw [WritesIntended, hsame]
        exact List.forall₂_same.mpr fun r _ => .refl r

/-- A mapping of two columns and a constant. -/
def usersConfig : DataSyncTaskConfig where
  source := { database := none, table := "users" }
  target := { database := none, table := "users_copy" }
  joinTables := []
  columnMapping :=
    { columns := [{ source := "main.id", target := "id" },
        { source := "main.email", target := "email" }]
      constants := [{ target := "origin", value := .str "crm" }] }
  batching := { timeField := "created_at", batchSize := none, start := none, batchRetries := none }
  targetStrategy := .append
  schedule := none

def userWithoutEmail : SourceRow := fun source => if source = "main.id" then some "7" else none

/-- One row, three different rows written. -/
theorem written_differ :
    written (fun _ => "") "default" usersConfig .mysqlToMysql [userWithoutEmail] =
        [[("id", some "7"), ("email", none), ("origin", some "crm")]] ∧
      written (fun _ => "") "default" usersConfig .mysqlToPg [userWithoutEmail] =
        [[("id", some "7"), ("email", some ""), ("origin", some "crm")]] ∧
      written (fun _ => "") "default" usersConfig .toClickHouse [userWithoutEmail] =
        [[("id", some "7"), ("email", some "")]] ∧
      ¬ ∀ path, WritesIntended (fun _ => "") "default" usersConfig [userWithoutEmail] path := by
  refine ⟨by decide +kernel, by decide +kernel, by decide +kernel, fun hall => ?_⟩
  have hload := hall .toClickHouse
  have hlength := (List.forall₂_cons.mp hload).1.length_eq
  exact absurd hlength (by decide +kernel)

end Dbmaster.DataSync.SameRow
