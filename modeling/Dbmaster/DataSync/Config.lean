import Dbmaster.Lib.Json
import Dbmaster.Lib.Text
import Dbmaster.DataSync.Cursor
/-!
# The configuration of a `data_sync` task and the SQL built from it
-/

namespace Dbmaster.DataSync.Config

open Dbmaster.Lib Dbmaster.DataSync.Cursor

structure SourceConfig where
  database : Option String
  table : String

structure TargetConfig where
  database : Option String
  table : String

structure JoinTable where
  table : String
  aliasName : Option String
  onClause : String
  database : Option String

structure ColumnSelect where
  source : String
  target : String

structure ConstantColumn where
  target : String
  value : Json

structure ColumnMapping where
  columns : List ColumnSelect
  constants : List ConstantColumn

structure BatchingConfig where
  timeField : String
  batchSize : Option UInt64
  start : Option String
  batchRetries : Option UInt32

inductive TargetStrategy where
  | append
  | truncate
  | upsert (key : String)
deriving DecidableEq

structure ScheduleConfig where
  cron : String

structure DataSyncTaskConfig where
  source : SourceConfig
  target : TargetConfig
  joinTables : List JoinTable
  columnMapping : ColumnMapping
  batching : BatchingConfig
  targetStrategy : TargetStrategy
  schedule : Option ScheduleConfig

def JoinTable.effectiveAlias (jt : JoinTable) : String := jt.aliasName.getD jt.table

/-! ## Validation -/

inductive ConfigError where
  | unsafeIdentifier (field : String)
  | invalidOnClause (field : String)
  | noColumns
  | invalidBatchSize
  | invalidStartDate
  | emptyCron
deriving DecidableEq

def ConfigError.text : ConfigError → String
  | .unsafeIdentifier field =>
      s!"unsafe identifier in field `{field}` (must match [A-Za-z_][A-Za-z0-9_]" ++
        "\x7b1,64\x7d)"
  | .invalidOnClause field =>
      s!"invalid ON clause in field `{field}` (expected `alias.col = alias.col`)"
  | .noColumns => "column_mapping must select at least one column or define a constant"
  | .invalidBatchSize => "batch_size must be > 0"
  | .invalidStartDate => "batching.start must be ISO8601 / RFC3339"
  | .emptyCron => "schedule.cron must not be empty"

def isSafeIdentifier (s : List Char) : Bool :=
  match s with
  | [] => false
  | first :: chars =>
      (first.isAlpha || first == '_') && chars.all (fun c => c.isAlphanum || c == '_') &&
        decide (s.length ≤ 64)

def isSafeQualified (s : List Char) : Bool :=
  match Text.splitOnce '.' s with
  | none => false
  | some (aliasName, col) => isSafeIdentifier aliasName && isSafeIdentifier col

def validateIdentifier (value field : String) : Except ConfigError Unit :=
  if isSafeIdentifier value.toList then .ok () else .error (.unsafeIdentifier field)

def validateIdentifierOpt (value : Option String) (field : String) : Except ConfigError Unit :=
  match value with
  | none => .ok ()
  | some s => validateIdentifier s field

def validateQualified (value field : String) : Except ConfigError Unit :=
  if isSafeQualified value.toList then .ok () else .error (.unsafeIdentifier field)

def validateOn (value field : String) : Except ConfigError Unit :=
  match Text.splitOnce '=' (Text.trim value.toList) with
  | none => .error (.invalidOnClause field)
  | some (lhs, rhs) =>
      if isSafeQualified (Text.trim lhs) && isSafeQualified (Text.trim rhs) then .ok ()
      else .error (.invalidOnClause field)

def rejectIf (p : Prop) [Decidable p] (e : ConfigError) : Except ConfigError Unit :=
  if p then .error e else .ok ()

/-- The loop `for (i, x) in xs.iter().enumerate()` over a check. -/
def checkEach {α : Type} (check : Nat → α → Except ConfigError Unit) :
    Nat → List α → Except ConfigError Unit
  | _, [] => .ok ()
  | i, x :: xs => do
      check i x
      checkEach check (i + 1) xs

def validateJoinTable (i : Nat) (jt : JoinTable) : Except ConfigError Unit := do
  validateIdentifier jt.table s!"join_tables[{i}].table"
  validateIdentifierOpt jt.database s!"join_tables[{i}].database"
  validateIdentifierOpt jt.aliasName s!"join_tables[{i}].alias"
  validateOn jt.onClause s!"join_tables[{i}].on"

def validateColumn (i : Nat) (c : ColumnSelect) : Except ConfigError Unit := do
  validateQualified c.source s!"column_mapping.columns[{i}].source"
  validateIdentifier c.target s!"column_mapping.columns[{i}].target"

def validateConstant (i : Nat) (c : ConstantColumn) : Except ConfigError Unit :=
  validateIdentifier c.target s!"column_mapping.constants[{i}].target"

def validateStart {T : Type} (chrono : Chrono T) (start : Option String) :
    Except ConfigError Unit :=
  match start with
  | none => .ok ()
  | some start =>
    if (chrono.parseFromRfc3339 start).isSome then .ok () else .error .invalidStartDate

def validateSchedule (schedule : Option ScheduleConfig) : Except ConfigError Unit :=
  match schedule with
  | none => .ok ()
  | some sched => rejectIf (Text.trim sched.cron.toList = []) .emptyCron

def validateStrategy (strategy : TargetStrategy) : Except ConfigError Unit :=
  match strategy with
  | .upsert key => validateIdentifier key "target_strategy.upsert_key"
  | .append | .truncate => .ok ()

/-- `DataSyncTaskConfig::validate` -/
def validate {T : Type} (chrono : Chrono T) (cfg : DataSyncTaskConfig) :
    Except ConfigError Unit := do
  validateIdentifierOpt cfg.source.database "source.database"
  validateIdentifier cfg.source.table "source.table"
  validateIdentifierOpt cfg.target.database "target.database"
  validateIdentifier cfg.target.table "target.table"
  checkEach validateJoinTable 0 cfg.joinTables
  rejectIf (cfg.columnMapping.columns.isEmpty ∧ cfg.columnMapping.constants.isEmpty) .noColumns
  checkEach validateColumn 0 cfg.columnMapping.columns
  checkEach validateConstant 0 cfg.columnMapping.constants
  validateIdentifier cfg.batching.timeField "batching.time_field"
  rejectIf (cfg.batching.batchSize = some 0) .invalidBatchSize
  validateStart chrono cfg.batching.start
  validateSchedule cfg.schedule
  validateStrategy cfg.targetStrategy

/-! ## The SQL text -/

inductive Dialect where
  | mySql
  | postgres
  | clickHouse
  | doris
deriving DecidableEq

def quote (name : String) : Dialect → String
  | .mySql | .clickHouse | .doris =>
      "`" ++ String.ofList (Text.replace "`" "``" name.toList) ++ "`"
  | .postgres => "\"" ++ String.ofList (Text.replace "\"" "\"\"" name.toList) ++ "\""

/-- `<db>.<table>`, without the database when there is none or it is empty. -/
def qualifiedTable (database default : Option String) (table : String) (dialect : Dialect) :
    String :=
  match database <|> default with
  | some d => if d.isEmpty then quote table dialect
      else quote d dialect ++ "." ++ quote table dialect
  | none => quote table dialect

def qualifiedMainTable (src : SourceConfig) (default : Option String) (dialect : Dialect) :
    String :=
  qualifiedTable src.database default src.table dialect

def qualifiedJoinTable (jt : JoinTable) (default : Option String) (dialect : Dialect) : String :=
  qualifiedTable jt.database default jt.table dialect

def joinClause (default : Option String) (dialect : Dialect) (jt : JoinTable) : String :=
  " LEFT JOIN " ++ qualifiedJoinTable jt default dialect ++ " AS " ++ jt.effectiveAlias ++
    " ON " ++ jt.onClause

def selectColumn (dialect : Dialect) (c : ColumnSelect) : String :=
  match dialect with
  | .mySql | .clickHouse | .doris =>
      "CAST(" ++ c.source ++ " AS CHAR) AS " ++ quote c.target dialect
  | .postgres => c.source ++ "::text AS " ++ quote c.target dialect

/-- The row limit of one batch. -/
def rowLimit (cfg : DataSyncTaskConfig) : Nat := (max (cfg.batching.batchSize.getD 10000) 1).toNat

/-- `build_select_sql`; `default` is the `default_database` of the connection. -/
def buildSelectSql (cfg : DataSyncTaskConfig) (default : Option String) (dialect : Dialect) :
    String :=
  let select := if cfg.columnMapping.columns.isEmpty then "*"
    else ", ".intercalate (cfg.columnMapping.columns.map (selectColumn dialect))
  let source := "FROM " ++ qualifiedMainTable cfg.source default dialect ++ " AS main" ++
    String.join (cfg.joinTables.map (joinClause default dialect))
  let timeCol := "main." ++ cfg.batching.timeField
  "SELECT " ++ select ++ " " ++ source ++ " WHERE " ++ timeCol ++ " >= __P0__ AND " ++
    timeCol ++ " < __P1__ ORDER BY " ++ timeCol ++ " LIMIT " ++ toString (rowLimit cfg)

def mysqlSelect (sql : String) : String :=
  String.ofList (Text.replace "__P1__" "?" (Text.replace "__P0__" "?" sql.toList))

def pgSelect (sql : String) : String :=
  String.ofList (Text.replace "__P1__" "$2" (Text.replace "__P0__" "$1" sql.toList))

/-- The query of `resolve_window_mysql`. -/
def probeMysql (cfg : DataSyncTaskConfig) : String :=
  "SELECT CAST(MIN(" ++ quote cfg.batching.timeField .mySql ++ ") AS CHAR), CAST(MAX(" ++
    quote cfg.batching.timeField .mySql ++ ") AS CHAR) FROM " ++ quote cfg.source.table .mySql

/-- The query of `resolve_window_pg`. -/
def probePg (cfg : DataSyncTaskConfig) : String :=
  "SELECT MIN(" ++ quote cfg.batching.timeField .postgres ++ ")::text, MAX(" ++
    quote cfg.batching.timeField .postgres ++ ")::text FROM " ++ quote cfg.source.table .postgres

/-! ## What validation guarantees -/

/-- Every check of `validate` passes. -/
structure Validated {T : Type} (chrono : Chrono T) (cfg : DataSyncTaskConfig) : Prop where
  source_database : validateIdentifierOpt cfg.source.database "source.database" = .ok ()
  source_table : validateIdentifier cfg.source.table "source.table" = .ok ()
  target_database : validateIdentifierOpt cfg.target.database "target.database" = .ok ()
  target_table : validateIdentifier cfg.target.table "target.table" = .ok ()
  join_tables : checkEach validateJoinTable 0 cfg.joinTables = .ok ()
  some_column : ¬ (cfg.columnMapping.columns.isEmpty ∧ cfg.columnMapping.constants.isEmpty)
  columns : checkEach validateColumn 0 cfg.columnMapping.columns = .ok ()
  constants : checkEach validateConstant 0 cfg.columnMapping.constants = .ok ()
  time_field : validateIdentifier cfg.batching.timeField "batching.time_field" = .ok ()
  batch_size : cfg.batching.batchSize ≠ some 0
  start : validateStart chrono cfg.batching.start = .ok ()
  schedule : validateSchedule cfg.schedule = .ok ()
  strategy : validateStrategy cfg.targetStrategy = .ok ()

/-- A check followed by others passes when both do. -/
theorem bind_ok {x : Except ConfigError Unit} {f : Unit → Except ConfigError Unit} :
    (x >>= f) = .ok () ↔ x = .ok () ∧ f () = .ok () := by
  cases x with
  | error e =>
      constructor
      · intro h
        cases h
      · intro h
        cases h.1
  | ok u => exact ⟨fun h => ⟨rfl, h⟩, fun h => h.2⟩

theorem rejectIf_ok {p : Prop} [Decidable p] {e : ConfigError} :
    rejectIf p e = .ok () ↔ ¬ p := by
  unfold rejectIf
  by_cases hp : p <;> simp [hp]

theorem validate_iff {T : Type} {chrono : Chrono T} {cfg : DataSyncTaskConfig} :
    validate chrono cfg = .ok () ↔ Validated chrono cfg := by
  unfold validate
  simp only [bind_ok, rejectIf_ok]
  constructor
  · rintro ⟨h1, h2, h3, h4, h5, h6, h7, h8, h9, h10, h11, h12, h13⟩
    exact ⟨h1, h2, h3, h4, h5, h6, h7, h8, h9, h10, h11, h12, h13⟩
  · rintro ⟨h1, h2, h3, h4, h5, h6, h7, h8, h9, h10, h11, h12, h13⟩
    exact ⟨h1, h2, h3, h4, h5, h6, h7, h8, h9, h10, h11, h12, h13⟩

theorem checkEach_ok {α : Type} {check : Nat → α → Except ConfigError Unit} {i : Nat}
    {xs : List α} (h : checkEach check i xs = .ok ()) {x : α} (hx : x ∈ xs) :
    ∃ j, check j x = .ok () := by
  induction xs generalizing i with
  | nil => cases hx
  | cons y xs ih =>
      rw [checkEach, bind_ok] at h
      rcases List.mem_cons.mp hx with rfl | hin
      · exact ⟨i, h.1⟩
      · exact ih h.2 hin

theorem validateIdentifier_ok {value field : String} :
    validateIdentifier value field = .ok () ↔ isSafeIdentifier value.toList = true := by
  unfold validateIdentifier
  by_cases h : isSafeIdentifier value.toList = true <;> simp [h]

theorem validateIdentifierOpt_ok {value : Option String} {field s : String}
    (h : validateIdentifierOpt value field = .ok ()) (hs : value = some s) :
    isSafeIdentifier s.toList = true := by
  subst hs
  exact validateIdentifier_ok.mp h

theorem validateQualified_ok {value field : String} (h : validateQualified value field = .ok ()) :
    isSafeQualified value.toList = true := by
  unfold validateQualified at h
  by_cases hsafe : isSafeQualified value.toList = true
  · exact hsafe
  · rw [if_neg hsafe] at h
    cases h

theorem isSafeIdentifier_head {s : List Char} (h : isSafeIdentifier s = true) :
    ∃ c rest, s = c :: rest ∧ (c.isAlpha = true ∨ c = '_') := by
  cases s with
  | nil => cases h
  | cons c rest =>
      simp only [isSafeIdentifier, Bool.and_eq_true, Bool.or_eq_true, beq_iff_eq] at h
      exact ⟨c, rest, rfl, h.1.1⟩

theorem isSafeIdentifier_mem {s : List Char} (h : isSafeIdentifier s = true) {c : Char}
    (hc : c ∈ s) : c.isAlphanum = true ∨ c = '_' := by
  cases s with
  | nil => cases hc
  | cons first rest =>
      simp only [isSafeIdentifier, Bool.and_eq_true, Bool.or_eq_true, beq_iff_eq,
        List.all_eq_true] at h
      rcases List.mem_cons.mp hc with rfl | hin
      · exact h.1.1.imp_left fun ha => by rw [Char.isAlphanum, ha, Bool.true_or]
      · exact h.1.2 c hin

theorem isSafeIdentifier_ne_nil {s : List Char} (h : isSafeIdentifier s = true) : s ≠ [] := by
  obtain ⟨c, rest, rfl, -⟩ := isSafeIdentifier_head h
  exact List.cons_ne_nil c rest

theorem notMem_of_isSafeIdentifier {s : List Char} (h : isSafeIdentifier s = true) {c : Char}
    (hc : ¬ (c.isAlphanum = true ∨ c = '_')) : c ∉ s :=
  fun hin => hc (isSafeIdentifier_mem h hin)

/-- A safe identifier, in the blanks that the checks trim. -/
def Padded (text : List Char) : Prop :=
  ∃ p w q, text = p ++ (w ++ q) ∧ isSafeIdentifier w = true ∧
    (∀ c ∈ p, Text.isWhitespace c = true) ∧ ∀ c ∈ q, Text.isWhitespace c = true

def PaddedReference (text : List Char) : Prop :=
  ∃ qualifier column, Text.splitOnce '.' text = some (qualifier, column) ∧
    Padded qualifier ∧ Padded column

theorem isSafeIdentifier_padded {s : List Char} (h : isSafeIdentifier s = true) : Padded s :=
  ⟨[], s, [], (List.append_nil s).symm, h, by simp, by simp⟩

theorem paddedReference_of_isSafeQualified {p t q : List Char} (h : isSafeQualified t = true)
    (hp : ∀ c ∈ p, Text.isWhitespace c = true) (hq : ∀ c ∈ q, Text.isWhitespace c = true) :
    PaddedReference (p ++ (t ++ q)) := by
  unfold isSafeQualified at h
  split at h
  case h_1 => cases h
  case h_2 qualifier column hsplit =>
    rw [Bool.and_eq_true] at h
    obtain ⟨hdot, rfl⟩ := Text.eq_append_of_splitOnce hsplit
    have hnone : '.' ∉ p ++ qualifier := by
      rw [List.mem_append, not_or]
      refine ⟨fun hin => ?_, hdot⟩
      exact absurd (hp _ hin) (by decide)
    refine ⟨p ++ qualifier, column ++ q, ?_, ⟨p, qualifier, [], by simp, h.1, hp, by simp⟩,
      ⟨[], column, q, rfl, h.2, by simp, hq⟩⟩
    have htext : p ++ (qualifier ++ '.' :: column ++ q) =
        (p ++ qualifier) ++ '.' :: (column ++ q) := by simp
    rw [htext, Text.splitOnce_append hnone]

theorem paddedReference_of_trim {p t q : List Char} (h : isSafeQualified (Text.trim t) = true)
    (hp : ∀ c ∈ p, Text.isWhitespace c = true) (hq : ∀ c ∈ q, Text.isWhitespace c = true) :
    PaddedReference (p ++ (t ++ q)) := by
  obtain ⟨a, b, ha, hb, ht⟩ := Text.exists_trim t
  have htext : p ++ (t ++ q) = (p ++ a) ++ (Text.trim t ++ (b ++ q)) := by
    conv_lhs => rw [ht]
    simp
  rw [htext]
  apply paddedReference_of_isSafeQualified h
  · exact fun c hc => (List.mem_append.mp hc).elim (hp c) (ha c)
  · exact fun c hc => (List.mem_append.mp hc).elim (hb c) (hq c)

/-- What passes has the shape that its check is about, up to blanks. -/
theorem validateOn_ok {value field : String} (h : validateOn value field = .ok ()) :
    ∃ l r, Text.splitOnce '=' value.toList = some (l, r) ∧
      PaddedReference l ∧ PaddedReference r := by
  unfold validateOn at h
  split at h
  case h_1 => cases h
  case h_2 lhs rhs hsplit =>
    split at h
    case isFalse => cases h
    case isTrue hsafe =>
      rw [Bool.and_eq_true] at hsafe
      obtain ⟨p, q, hp, hq, htext⟩ := Text.exists_trim value.toList
      obtain ⟨hnot, htrim⟩ := Text.eq_append_of_splitOnce hsplit
      have hnone : '=' ∉ p ++ lhs := by
        rw [List.mem_append, not_or]
        refine ⟨fun hin => ?_, hnot⟩
        exact absurd (hp _ hin) (by decide)
      refine ⟨p ++ lhs, rhs ++ q, ?_, ?_, ?_⟩
      · rw [← Text.splitOnce_append hnone, htext, htrim]
        simp
      · have hleft := paddedReference_of_trim hsafe.1 hp (q := []) (by simp)
        rwa [List.append_nil] at hleft
      · exact paddedReference_of_trim hsafe.2 (p := []) (by simp) hq

/-- A start that passes is an instant. -/
theorem Validated.start_parses {T : Type} {chrono : Chrono T} {cfg : DataSyncTaskConfig}
    (h : Validated chrono cfg) {start : String} (hstart : cfg.batching.start = some start) :
    ∃ t, parseCursor chrono start = some t := by
  have hcheck := h.start
  rw [hstart] at hcheck
  simp only [validateStart] at hcheck
  split at hcheck
  case isTrue hsome =>
    obtain ⟨t, ht⟩ := Option.isSome_iff_exists.mp hsome
    exact ⟨t, parseCursor_of_rfc3339 ht⟩
  case isFalse => cases hcheck

end Dbmaster.DataSync.Config
