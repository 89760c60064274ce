import Dbmaster.DataSync.Injection
/-!
# What the window probe looks at

The table and the column that `resolve_window_mysql` and `resolve_window_pg`
name, against those of the batch SELECT, as the source resolves them: the SELECT
qualifies its table and leaves its column bare, the probe does neither.
-/

namespace Dbmaster.DataSync.Probe

open Dbmaster.Lib Dbmaster.Lib.Tokens
open Dbmaster.DataSync.Cursor Dbmaster.DataSync.Config Dbmaster.DataSync.Etl
open Dbmaster.DataSync.Tokenizer Dbmaster.DataSync.Template Dbmaster.DataSync.Injection

/-! ## The names in the statements -/

/-- The text of a table and that of a column in a statement. -/
structure Refs where
  table : String
  column : String

def probeRefs (src : SourceKind) (cfg : DataSyncTaskConfig) : Refs where
  table := quote cfg.source.table (sourceDialect src)
  column := quote cfg.batching.timeField (sourceDialect src)

/-- As the statement is sent, with the sentinels rewritten. -/
def selectRefs (src : SourceKind) (cfg : DataSyncTaskConfig) (default : Option String) : Refs where
  table := sourceSelect src (qualifiedMainTable cfg.source default (sourceDialect src))
  column := sourceSelect src ("main." ++ cfg.batching.timeField)

/-- The statements of a run name their table and their column so. -/
structure Named (ctx : LoopCtx) (src : SourceKind) (probe select : Refs) : Prop where
  probe : (sourcePath ctx src).probeSql =
    match src with
    | .mySql => "SELECT CAST(MIN(" ++ probe.column ++ ") AS CHAR), CAST(MAX(" ++ probe.column ++
        ") AS CHAR) FROM " ++ probe.table
    | .postgres => "SELECT MIN(" ++ probe.column ++ ")::text, MAX(" ++ probe.column ++
        ")::text FROM " ++ probe.table
  select : ∃ before joins : List Char, (sourcePath ctx src).fetchSql.toList =
    before ++ " FROM ".toList ++ select.table.toList ++ " AS main".toList ++ joins ++
      " WHERE ".toList ++ select.column.toList ++ " >= ".toList ++ (mark src false).toList ++
      " AND ".toList ++ select.column.toList ++ " < ".toList ++ (mark src true).toList ++
      " ORDER BY ".toList ++ select.column.toList ++
      " LIMIT ".toList ++ (toString (rowLimit ctx.config)).toList

theorem named_refs (ctx : LoopCtx) (src : SourceKind) :
    Named ctx src (probeRefs src ctx.config) (selectRefs src ctx.config ctx.srcDatabase) := by
  refine ⟨by cases src <;> rfl, ?_⟩
  have hfixed : ∀ f ∈ [" FROM ", " AS main", " WHERE ", " >= ", " AND ", " < ", " ORDER BY ",
      " LIMIT "], ∀ a b, rewritten src (a ++ (f.toList ++ b)) =
        rewritten src a ++ (f.toList ++ rewritten src b) := by
    intro f hf
    have hchars : ∀ f ∈ [" FROM ", " AS main", " WHERE ", " >= ", " AND ", " < ", " ORDER BY ",
        " LIMIT "], (∀ c ∈ f.toList, c ∉ sentinelChars) ∧ f.toList ≠ [] := by decide
    exact rewritten_append_fixed (hchars f hf).1 (hchars f hf).2
  have hselect : ∀ b, rewritten src ("SELECT ".toList ++ b) = "SELECT ".toList ++ rewritten src b :=
    rewritten_append_of_forall (by decide)
  have hfrom : ∀ b, " ".toList ++ ("FROM ".toList ++ b) = " FROM ".toList ++ b := fun b => rfl
  have hlow : " >= __P0__ AND ".toList =
      " >= ".toList ++ ((sentinel false).toList ++ " AND ".toList) := by decide
  have hhigh : " < __P1__ ORDER BY ".toList =
      " < ".toList ++ ((sentinel true).toList ++ " ORDER BY ".toList) := by decide
  have hlimit : '_' ∉ (toString (rowLimit ctx.config)).toList := fun hc =>
    ((valid_rowLimit ctx.config).2 _ hc).2 (by decide)
  rw [fetchSql_eq, sourceSelect_text, selectRefs]
  unfold buildSelectSql
  generalize "main." ++ ctx.config.batching.timeField = timeCol
  generalize (if ctx.config.columnMapping.columns.isEmpty then "*" else _) = select
  generalize String.join _ = joins
  simp only [sourceSelect_text, String.toList_append, List.append_assoc, hlow, hhigh, hfrom]
  rw [hselect, hfixed " FROM " (by simp), hfixed " AS main" (by simp), hfixed " WHERE " (by simp),
    hfixed " >= " (by simp), hfixed " AND " (by simp), hfixed " < " (by simp),
    hfixed " ORDER BY " (by simp), hfixed " LIMIT " (by simp), rewritten_sentinel,
    rewritten_sentinel, rewritten_fixed hlimit]
  refine ⟨"SELECT ".toList ++ rewritten src select.toList, rewritten src joins.toList, ?_⟩
  simp only [List.append_assoc]

/-! ## What the source makes of them -/

variable {S : Type}

/-- How the source resolves names. -/
structure Server (S : Type) where
  /-- the schema that a name denotes -/
  schema : List Char → S
  /-- the schema in which the search path finds a table that is named alone -/
  searchPath : List Char → Option S

/-- A MySQL session looks in the database that it was opened on, if any. -/
def bareSchema (server : Server S) (default : Option String) (table : List Char) :
    SourceKind → Option S
  | .mySql => (default.filter (· ≠ "")).map fun d => server.schema d.toList
  | .postgres => server.searchPath table

/-- PostgreSQL keeps 63 bytes of a name; the names of a task are ASCII. -/
def kept : SourceKind → List Char → List Char
  | .mySql, name => name
  | .postgres, name => name.take 63

def tableOf (server : Server S) (src : SourceKind) (default : Option String)
    (text : List Char) : Option (Option S × List Char) :=
  match tokens src text with
  | [.quoted table] => some (bareSchema server default table src, kept src table)
  | [.quoted qualifier, .symbol ['.'], .quoted table] =>
      some (some (server.schema qualifier), kept src table)
  | _ => none

/-- MySQL compares the names of columns without case; PostgreSQL lowers those without quotes. -/
def columnNamed (src : SourceKind) (quoted : Bool) (name : List Char) : List Char :=
  if src = .postgres ∧ quoted then kept src name else Text.asciiLower (kept src name)

def columnOf (src : SourceKind) (text : List Char) : Option (List Char) :=
  match tokens src text with
  | [.quoted column] => some (columnNamed src true column)
  | [.word _, .symbol ['.'], .word column] => some (columnNamed src false column)
  | _ => none

/-- The probe and the SELECT are about one table and one column of it. -/
structure SameSource (server : Server S) (src : SourceKind) (cfg : DataSyncTaskConfig)
    (default : Option String) : Prop where
  table : tableOf server src default (probeRefs src cfg).table.toList =
    tableOf server src default (selectRefs src cfg default).table.toList
  column : columnOf src (probeRefs src cfg).column.toList =
    columnOf src (selectRefs src cfg default).column.toList

/-! ## When they agree -/

/-- What the SELECT puts before the table. -/
def qualifier (cfg : DataSyncTaskConfig) (default : Option String) : Option String :=
  (cfg.source.database <|> default).filter (· ≠ "")

def NoSentinel (text : List Char) : Prop :=
  ¬ "__P0__".toList <:+: text ∧ ¬ "__P1__".toList <:+: text

structure Aligned (server : Server S) (src : SourceKind) (cfg : DataSyncTaskConfig)
    (default : Option String) : Prop where
  table : NoSentinel cfg.source.table.toList
  /-- the qualifier names the schema where the source looks anyway -/
  schema : ∀ q, qualifier cfg default = some q → '\x00' ∉ q.toList ∧
    bareSchema server default cfg.source.table.toList src =
      some (server.schema (rewritten src q.toList))
  timeField : NoSentinel cfg.batching.timeField.toList
  lowerCase : src = .postgres →
    ∀ c ∈ kept src cfg.batching.timeField.toList, c.isUpper = false

section Names

variable {src : SourceKind} {name : List Char}

theorem length_rewritten_lt (src : SourceKind) (h : ¬ NoSentinel name) :
    (rewritten src name).length < name.length := by
  have hlow : (mark src false).toList.length < "__P0__".toList.length := by cases src <;> decide
  have hhigh : (mark src true).toList.length < "__P1__".toList.length := by cases src <;> decide
  unfold rewritten Text.replace
  by_cases hin : "__P0__".toList <:+: name
  · have hfirst := Replace.length_replaceFrom_lt hlow hin
    refine Nat.lt_of_le_of_lt ?_ hfirst
    exact Replace.length_replaceFrom_le (by decide) (Nat.le_of_lt hhigh) (Nat.zero_le _)
  · rw [Replace.replaceFrom_of_notInfix hin]
    apply Replace.length_replaceFrom_lt hhigh
    by_contra hno
    exact h ⟨hin, hno⟩

theorem mark_notMem (h : isSafeIdentifier name = true) : markChar src ∉ name :=
  notMem_of_isSafeIdentifier h (by cases src <;> decide)

theorem length_le_of_isSafeIdentifier (h : isSafeIdentifier name = true) : name.length ≤ 64 := by
  cases name with
  | nil => cases h
  | cons c rest =>
      simp only [isSafeIdentifier, Bool.and_eq_true, decide_eq_true_eq] at h
      exact h.2

theorem mark_mem_kept (src : SourceKind) (h : isSafeIdentifier name = true) (hno : ¬ NoSentinel name) :
    markChar src ∈ kept src (rewritten src name) := by
  have hshort := length_rewritten_lt src hno
  have hsafe := length_le_of_isSafeIdentifier h
  have hmark : markChar src ∈ rewritten src name := by
    apply mark_mem
    by_contra hnone
    exact hno (not_or.mp hnone)
  cases src with
  | mySql => exact hmark
  | postgres =>
      have hall : (rewritten .postgres name).take 63 = rewritten .postgres name :=
        List.take_of_length_le (by omega)
      show _ ∈ (rewritten .postgres name).take 63
      rw [hall]
      exact hmark

theorem mem_of_mem_kept {c : Char} (h : c ∈ kept src name) : c ∈ name := by
  cases src with
  | mySql => exact h
  | postgres => exact List.mem_of_mem_take h

theorem kept_rewritten_iff (h : isSafeIdentifier name = true) :
    kept src name = kept src (rewritten src name) ↔ NoSentinel name := by
  constructor
  · intro hsame
    by_contra hno
    have hmark := mark_mem_kept src h hno
    rw [← hsame] at hmark
    exact mark_notMem h (mem_of_mem_kept hmark)
  · intro hno
    rw [rewritten_eq_self hno.1 hno.2]

end Names

/-! ## What the source reads -/

section Reading

variable {src : SourceKind} {name text : List Char}

theorem tokens_name (hne : name ≠ []) (hnul : '\x00' ∉ name) :
    tokens src (Quoted.quoted (nameDelimiter src) name) = [.quoted name] := by
  rw [tokens_quoted, if_neg (not_or.mpr ⟨hne, hnul⟩)]

theorem tokens_append_dot {a : List Char}
    (ha : (lexer src).pending (lexer src).idle a = .symbol ['.'])
    (h : ∀ c ∈ text.head?, IsPlain src c ∨ c = nameDelimiter src) :
    tokens src (a ++ text) = tokens src a ++ tokens src text := by
  have hdot : '.' ∈ ['.', '(', '='] := by decide
  apply Lexer.tokens_append
  intro c hc
  rw [ha]
  exact extend_symbol_of_opens (h c hc) hdot

theorem tokens_qualified (q : List Char) :
    tokens src (Quoted.quoted (nameDelimiter src) q ++
        '.' :: Quoted.quoted (nameDelimiter src) name) =
      tokens src (Quoted.quoted (nameDelimiter src) q) ++
        .symbol ['.'] :: tokens src (Quoted.quoted (nameDelimiter src) name) := by
  have hparts : (lexer src).Parts
      ((lexer src).pending (lexer src).idle (Quoted.quoted (nameDelimiter src) q))
      ('.' :: Quoted.quoted (nameDelimiter src) name) := by
    intro c hc
    cases hc
    rw [pending_quoted]
    cases src <;> rfl
  have hdot : tokens src (['.'] ++ Quoted.quoted (nameDelimiter src) name) =
      tokens src ['.'] ++ tokens src (Quoted.quoted (nameDelimiter src) name) := by
    apply tokens_append_dot (by cases src <;> decide)
    intro c hc
    cases hc
    exact .inr rfl
  have hsymbol : tokens src ['.'] = [.symbol ['.']] := by cases src <;> decide
  rw [hsymbol] at hdot
  rw [tokens, Lexer.tokens_append hparts]
  exact congrArg _ hdot

theorem columnOf_main (h : ∀ c ∈ text, IsPlain src c) {column : List Char} :
    columnOf src ("main.".toList ++ text) = some column ↔
      ∃ word, tokens src text = [.word word] ∧ columnNamed src false word = column := by
  have hread : tokens src ("main.".toList ++ text) =
      [.word "main".toList, .symbol ['.']] ++ tokens src text := by
    have hmain : tokens src "main.".toList = [.word "main".toList, .symbol ['.']] := by
      cases src <;> decide
    rw [← hmain]
    apply tokens_append_dot (by cases src <;> decide)
    exact fun c hc => .inl (h c (List.mem_of_mem_head? hc))
  unfold columnOf
  rw [hread]
  generalize tokens src text = found
  constructor
  · intro hcolumn
    split at hcolumn
    · cases ‹_ = [Token.quoted _]›
    · rename_i hfound
      injection hfound with _ hfound
      injection hfound with _ hfound
      exact ⟨_, hfound, Option.some.inj hcolumn⟩
    · cases hcolumn
  · rintro ⟨word, rfl, rfl⟩
    rfl

theorem isPlain_of_isSafeIdentifier (h : isSafeIdentifier name = true) :
    ∀ c ∈ name, IsPlain src c := fun c hc => .inr (.inl (isWord_of_isSafeIdentifier h c hc))

theorem columnOf_sentinel (h : isSafeIdentifier name = true) (hno : ¬ NoSentinel name) :
    columnOf src ("main.".toList ++ rewritten src name) ≠ some (columnNamed src true name) := by
  have hplain : ∀ c ∈ rewritten src name, IsPlain src c :=
    isPlain_rewritten (isPlain_of_isSafeIdentifier h)
  have hkept := mark_mem_kept src h hno
  have hmark := mem_of_mem_kept hkept
  intro hsame
  obtain ⟨word, hword, hsame⟩ := (columnOf_main hplain).mp hsame
  cases src with
  | mySql =>
      have hplaceholder := placeholder_mem_tokens hplain hmark
      rw [hword] at hplaceholder
      cases List.mem_singleton.mp hplaceholder
  | postgres =>
      have hhead : ¬ (SourceKind.postgres = .postgres ∧
          (rewritten .postgres name).head? = some '$') := by
        rintro ⟨-, hdollar⟩
        obtain ⟨v, hv⟩ := List.head?_eq_some_iff.mp hdollar
        obtain ⟨t, rest, htokens, hname⟩ := tokens_dollar v
        rw [hv, htokens] at hword
        injection hword with ht
        rw [ht] at hname
        cases hname
      have hwords : ∀ c ∈ rewritten .postgres name, isWord c = true :=
        isWord_rewritten (isWord_of_isSafeIdentifier h)
      rw [tokens_word_of_letter hwords ⟨'$', hmark, by decide⟩ hhead] at hword
      injection hword with hword
      injection hword with hword
      rw [← hword] at hsame
      have hlower : '$' ∈ columnNamed .postgres false (rewritten .postgres name) :=
        List.mem_map.mpr ⟨'$', hkept, by decide⟩
      rw [hsame] at hlower
      have hin : markChar .postgres ∈ kept .postgres name := hlower
      exact mark_notMem h (mem_of_mem_kept hin)

theorem sameColumn_iff (h : isSafeIdentifier name = true) :
    columnOf src (Quoted.quoted (nameDelimiter src) name) =
        columnOf src ("main.".toList ++ rewritten src name) ↔
      NoSentinel name ∧ (src = .postgres → ∀ c ∈ kept src name, c.isUpper = false) := by
  have hprobe : columnOf src (Quoted.quoted (nameDelimiter src) name) =
      some (columnNamed src true name) := by
    unfold columnOf
    rw [tokens_name (isSafeIdentifier_ne_nil h) (notMem_of_isSafeIdentifier h (by decide))]
  rw [hprobe]
  by_cases hno : NoSentinel name
  · have hword : tokens src name = [.word name] := by
      obtain ⟨c, hc, -, hdigit⟩ := padded_letter (isSafeIdentifier_padded h)
      apply tokens_word_of_letter (isWord_of_isSafeIdentifier h) ⟨c, hc, hdigit⟩
      rintro ⟨-, hdollar⟩
      exact notMem_of_isSafeIdentifier h (by decide) (List.mem_of_mem_head? hdollar)
    have hselect : columnOf src ("main.".toList ++ name) = some (columnNamed src false name) :=
      (columnOf_main (isPlain_of_isSafeIdentifier h)).mpr ⟨name, hword, rfl⟩
    rw [rewritten_eq_self hno.1 hno.2, hselect, and_iff_right hno, Option.some.injEq]
    cases src with
    | mySql => exact iff_of_true rfl fun hpg => nomatch hpg
    | postgres =>
        show kept .postgres name = Text.asciiLower (kept .postgres name) ↔ _
        rw [eq_comm, Text.asciiLower_eq_self_iff, imp_iff_right rfl]
  · exact iff_of_false (fun hsame => columnOf_sentinel h hno hsame.symm) fun hboth => hno hboth.1

theorem selectRefs_table (src : SourceKind) (cfg : DataSyncTaskConfig) (default : Option String) :
    (selectRefs src cfg default).table.toList =
      match qualifier cfg default with
      | none => Quoted.quoted (nameDelimiter src) (rewritten src cfg.source.table.toList)
      | some q => Quoted.quoted (nameDelimiter src) (rewritten src q.toList) ++
          '.' :: Quoted.quoted (nameDelimiter src) (rewritten src cfg.source.table.toList) := by
  have hdot : ∀ a b, rewritten src (a ++ '.' :: b) = rewritten src a ++ '.' :: rewritten src b :=
    rewritten_append_cons (by decide)
  unfold selectRefs qualifiedMainTable qualifiedTable qualifier
  rw [sourceSelect_text]
  generalize (cfg.source.database <|> default) = database
  cases database with
  | none => simp only [Option.filter_none, quote_text, rewritten_quoted]
  | some d =>
      by_cases hd : d = ""
      · subst hd
        simp [Option.filter_some, quote_text, rewritten_quoted]
      · simp [Option.filter_some, hd, quote_text, rewritten_quoted, hdot]

theorem sameTable_iff {S : Type} (server : Server S) {cfg : DataSyncTaskConfig}
    (h : isSafeIdentifier cfg.source.table.toList = true) (src : SourceKind)
    (default : Option String) :
    tableOf server src default (probeRefs src cfg).table.toList =
        tableOf server src default (selectRefs src cfg default).table.toList ↔
      NoSentinel cfg.source.table.toList ∧
        ∀ q, qualifier cfg default = some q → '\x00' ∉ q.toList ∧
          bareSchema server default cfg.source.table.toList src =
            some (server.schema (rewritten src q.toList)) := by
  have hne : cfg.source.table.toList ≠ [] := isSafeIdentifier_ne_nil h
  have hnul : '\x00' ∉ cfg.source.table.toList := notMem_of_isSafeIdentifier h (by decide)
  have hprobe : tableOf server src default (probeRefs src cfg).table.toList =
      some (bareSchema server default cfg.source.table.toList src,
        kept src cfg.source.table.toList) := by
    unfold tableOf probeRefs
    rw [quote_text, tokens_name hne hnul]
  have htable : tokens src (Quoted.quoted (nameDelimiter src)
      (rewritten src cfg.source.table.toList)) = [.quoted (rewritten src cfg.source.table.toList)] :=
    tokens_name (rewritten_ne_nil hne) fun hin => hnul (nul_mem_rewritten.mp hin)
  have hkept : kept src cfg.source.table.toList = kept src (rewritten src cfg.source.table.toList) ↔
      NoSentinel cfg.source.table.toList := kept_rewritten_iff h
  rw [hprobe, selectRefs_table]
  cases hq : qualifier cfg default with
  | none =>
      unfold tableOf
      simp only [htable, Option.some.injEq, Prod.mk.injEq, hkept]
      constructor
      · rintro ⟨-, hno⟩
        exact ⟨hno, fun q hq => nomatch hq⟩
      · rintro ⟨hno, -⟩
        rw [rewritten_eq_self hno.1 hno.2]
        exact ⟨rfl, hno⟩
  | some q =>
      have hone : ∀ P : String → Prop, (∀ p, some q = some p → P p) ↔ P q := by simp
      have hqne : q.toList ≠ [] := by
        obtain ⟨-, hnonempty⟩ := Option.filter_eq_some_iff.mp hq
        rw [Ne, String.toList_eq_nil_iff]
        exact of_decide_eq_true hnonempty
      rw [hone]
      unfold tableOf
      simp only [tokens_qualified, htable]
      by_cases hbroken : '\x00' ∈ q.toList
      · rw [tokens_quoted, if_pos (.inr (nul_mem_rewritten.mpr hbroken))]
        exact iff_of_false (by simp) fun hboth => hboth.2.1 hbroken
      · rw [tokens_name (rewritten_ne_nil hqne) fun hin => hbroken (nul_mem_rewritten.mp hin)]
        simp only [List.singleton_append, Option.some.injEq, Prod.mk.injEq, hkept]
        exact ⟨fun hsame => ⟨hsame.2, hbroken, hsame.1⟩, fun hboth => ⟨hboth.2.2, hboth.1⟩⟩

/-- The two statements name their table and their column as `probeRefs` and `selectRefs` say, and
the names are about one source if and only if they are aligned. -/
theorem sameSource_iff {S T : Type} {chrono : Chrono T} (server : Server S)
    {cfg : DataSyncTaskConfig} (h : validate chrono cfg = .ok ()) (src : SourceKind)
    (default : Option String) :
    (∀ ctx : LoopCtx, ctx.config = cfg → ctx.srcDatabase = default →
        Named ctx src (probeRefs src cfg) (selectRefs src cfg default)) ∧
      (SameSource server src cfg default ↔ Aligned server src cfg default) := by
  have hvalidated := validate_iff.mp h
  have htable := sameTable_iff server (validateIdentifier_ok.mp hvalidated.source_table) src default
  have hcolumn : columnOf src (probeRefs src cfg).column.toList =
      columnOf src (selectRefs src cfg default).column.toList ↔
        NoSentinel cfg.batching.timeField.toList ∧ (src = .postgres →
          ∀ c ∈ kept src cfg.batching.timeField.toList, c.isUpper = false) := by
    unfold probeRefs selectRefs
    rw [quote_text, sourceSelect_text, String.toList_append,
      rewritten_append_of_forall (by decide)]
    exact sameColumn_iff (validateIdentifier_ok.mp hvalidated.time_field)
  refine ⟨?_, ?_, ?_⟩
  · rintro ctx rfl rfl
    exact named_refs ctx src
  · intro hsame
    obtain ⟨hname, hschema⟩ := htable.mp hsame.table
    obtain ⟨htime, hlower⟩ := hcolumn.mp hsame.column
    exact ⟨hname, hschema, htime, hlower⟩
  · intro haligned
    exact ⟨htable.mpr ⟨haligned.table, haligned.schema⟩,
      hcolumn.mpr ⟨haligned.timeField, haligned.lowerCase⟩⟩

end Reading

/-- A server whose schemas are known by their names. -/
def namedServer : Server (List Char) where
  schema name := name
  searchPath _ := some "public".toList

def publicTask : DataSyncTaskConfig where
  source := ⟨some "public", "orders"⟩
  target := ⟨none, "orders_copy"⟩
  joinTables := []
  columnMapping := ⟨[], [⟨"origin", .null⟩]⟩
  batching := ⟨"updated_at", none, none, none⟩
  targetStrategy := .append
  schedule := none

theorem sameSource_publicTask : SameSource namedServer .postgres publicTask (some "shop") := by
  have hvalid : validate civil publicTask = .ok () := by decide
  have hnone : ∀ name ∈ ["orders", "updated_at"], NoSentinel name.toList := by
    unfold NoSentinel
    decide
  apply (sameSource_iff namedServer hvalid .postgres _).2.mpr
  refine ⟨hnone "orders" (by simp), ?_, hnone "updated_at" (by simp), fun _ => by decide⟩
  intro q hq
  obtain rfl : "public" = q := Option.some.inj hq
  decide

/-- The table is in another database than the one of the connection. -/
def archiveTask : DataSyncTaskConfig :=
  { publicTask with source := ⟨some "archive", "orders"⟩ }

theorem archive_probe : validate civil archiveTask = .ok () ∧
    ¬ SameSource namedServer .mySql archiveTask (some "shop") := by
  refine ⟨by decide, fun hsame => ?_⟩
  have htable := hsame.table
  revert htable
  decide

end Dbmaster.DataSync.Probe
