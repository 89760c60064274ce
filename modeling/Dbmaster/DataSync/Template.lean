import Dbmaster.DataSync.SameRow
import Dbmaster.DataSync.Tokenizer
import Dbmaster.Lib.Replace
/-!
# The template of the batch SELECT

What `build_select_sql` is meant to say, token by token, and where the names of
the configuration stand in its text.
-/

namespace Dbmaster.DataSync.Template

open Dbmaster.Lib Dbmaster.Lib.Tokens
open Dbmaster.DataSync.Config Dbmaster.DataSync.Etl Dbmaster.DataSync.Tokenizer

/-- The words that a dialect does not take as names unless they are quoted or
follow a dot. -/
structure Keywords where
  reserved : List Char → Bool
  noDollar : ∀ word, reserved word = true → '$' ∉ word

def sourceDialect : SourceKind → Dialect
  | .mySql => .mySql
  | .postgres => .postgres

/-- The rewriting of the sentinels for the driver of the source. -/
def sourceSelect : SourceKind → String → String
  | .mySql => mysqlSelect
  | .postgres => pgSelect

theorem fetchSql_eq (ctx : LoopCtx) (src : SourceKind) :
    (sourcePath ctx src).fetchSql =
      sourceSelect src (buildSelectSql ctx.config ctx.srcDatabase (sourceDialect src)) := by
  cases src <;> rfl

/-! ## The template -/

inductive Slot where
  | fixed (text : String)
  | identifier (afterDot : Bool)
  | placeholder (text : String)

def Slot.admits (K : Keywords) : Slot → Token → Prop
  | .fixed text, .word t | .fixed text, .number t | .fixed text, .symbol t => t = text.toList
  | .identifier afterDot, .word t => afterDot = false → K.reserved t = false
  | .identifier _, .quoted _ => True
  | .placeholder text, .placeholder t => t = text.toList
  | _, _ => False

def Fits (K : Keywords) (template : List Slot) (found : List Token) : Prop :=
  List.Forall₂ (Slot.admits K) template found

def fixed (words : List String) : List Slot := words.map .fixed

def tableSlots (database default : Option String) : List Slot :=
  match database <|> default with
  | some d =>
      if d.isEmpty then [.identifier false]
      else [.identifier false, .fixed ".", .identifier true]
  | none => [.identifier false]

def referenceSlots : List Slot := [.identifier false, .fixed ".", .identifier true]

def columnSlots : SourceKind → List Slot
  | .mySql =>
      fixed ["CAST", "("] ++ referenceSlots ++ fixed ["AS", "CHAR", ")", "AS"] ++
        [.identifier false]
  | .postgres => referenceSlots ++ fixed ["::", "text", "AS"] ++ [.identifier false]

def selectSlots (src : SourceKind) : List ColumnSelect → List Slot
  | [] => fixed ["*"]
  | _ :: cols => columnSlots src ++ cols.flatMap fun _ => fixed [","] ++ columnSlots src

def joinSlots (default : Option String) (jt : JoinTable) : List Slot :=
  fixed ["LEFT", "JOIN"] ++ tableSlots jt.database default ++ fixed ["AS"] ++
    [.identifier false] ++ fixed ["ON"] ++ referenceSlots ++ fixed ["="] ++ referenceSlots

/-- The batch SELECT, with these in the places of the two bounds of the window. -/
def template (src : SourceKind) (cfg : DataSyncTaskConfig) (default : Option String)
    (low high : Slot) : List Slot :=
  fixed ["SELECT"] ++ selectSlots src cfg.columnMapping.columns ++
    fixed ["FROM"] ++ tableSlots cfg.source.database default ++ fixed ["AS", "main"] ++
    cfg.joinTables.flatMap (joinSlots default) ++
    fixed ["WHERE", "main", "."] ++ [.identifier true] ++ fixed [">="] ++ [low] ++
    fixed ["AND", "main", "."] ++ [.identifier true] ++ fixed ["<"] ++ [high] ++
    fixed ["ORDER", "BY", "main", "."] ++ [.identifier true] ++
    fixed ["LIMIT", toString (rowLimit cfg)]

def sentinel (high : Bool) : String := if high then "__P1__" else "__P0__"

/-- The bind placeholder of a driver. -/
def mark : SourceKind → Bool → String
  | .mySql, _ => "?"
  | .postgres, high => if high then "$2" else "$1"

/-! ## The layout of the text -/

/-- The texts between the names. -/
inductive Lead where
  | selectAll
  | firstColumn
  | nextColumn
  | dot
  | target
  | source
  | alias
  | join
  | on
  | equals
  | whereTime
  | atLeast
  | andTime
  | below
  | orderTime
  | limit

/-- It starts with what extends no name before it. -/
def Lead.later : Lead → Bool
  | .selectAll | .firstColumn => false
  | _ => true

def Lead.text (src : SourceKind) : Lead → String
  | .selectAll => "SELECT * FROM "
  | .firstColumn => if src = .mySql then "SELECT CAST(" else "SELECT "
  | .nextColumn => if src = .mySql then ", CAST(" else ", "
  | .dot => "."
  | .target => if src = .mySql then " AS CHAR) AS " else "::text AS "
  | .source => " FROM "
  | .alias => " AS "
  | .join => " LEFT JOIN "
  | .on => " ON "
  | .equals => "="
  | .whereTime => " WHERE main."
  | .atLeast => " >= "
  | .andTime => " AND main."
  | .below => " < "
  | .orderTime => " ORDER BY main."
  | .limit => " LIMIT "

def Lead.words (src : SourceKind) : Lead → List String
  | .selectAll => ["SELECT", "*", "FROM"]
  | .firstColumn => if src = .mySql then ["SELECT", "CAST", "("] else ["SELECT"]
  | .nextColumn => if src = .mySql then [",", "CAST", "("] else [","]
  | .dot => ["."]
  | .target => if src = .mySql then ["AS", "CHAR", ")", "AS"] else ["::", "text", "AS"]
  | .source => ["FROM"]
  | .alias => ["AS"]
  | .join => ["LEFT", "JOIN"]
  | .on => ["ON"]
  | .equals => ["="]
  | .whereTime => ["WHERE", "main", "."]
  | .atLeast => [">="]
  | .andTime => ["AND", "main", "."]
  | .below => ["<"]
  | .orderTime => ["ORDER", "BY", "main", "."]
  | .limit => ["LIMIT"]

inductive Part where
  | quoted (name : String) (afterDot : Bool)
  | name (text : List Char) (afterDot : Bool)
  | fixed (text : String)
  | window (high : Bool)

def Part.text (src : SourceKind) : Part → List Char
  | .quoted raw _ => Quoted.quoted (nameDelimiter src) raw.toList
  | .name raw _ => raw
  | .fixed raw => raw.toList
  | .window high => (sentinel high).toList

/-- What has to stand there, with these in the places of the bounds of the window. -/
def Part.slot (low high : Slot) : Part → Slot
  | .quoted _ afterDot => .identifier afterDot
  | .name _ afterDot => .identifier afterDot
  | .fixed text => .fixed text
  | .window bound => if bound then high else low

structure Segment where
  lead : Lead
  part : Part

def Segment.text (src : SourceKind) (s : Segment) : List Char :=
  (s.lead.text src).toList ++ s.part.text src

def Segment.slots (src : SourceKind) (low high : Slot) (s : Segment) : List Slot :=
  fixed (s.lead.words src) ++ [s.part.slot low high]

def tableSegments (lead : Lead) (database default : Option String) (table : String) :
    List Segment :=
  match database <|> default with
  | some d =>
      if d.isEmpty then [⟨lead, .quoted table false⟩]
      else [⟨lead, .quoted d false⟩, ⟨.dot, .quoted table true⟩]
  | none => [⟨lead, .quoted table false⟩]

def referenceSegments (lead : Lead) (text : List Char) : List Segment :=
  match Text.splitOnce '.' text with
  | some (qualifier, column) => [⟨lead, .name qualifier false⟩, ⟨.dot, .name column true⟩]
  | none => []

def columnSegments (lead : Lead) (c : ColumnSelect) : List Segment :=
  referenceSegments lead c.source.toList ++ [⟨.target, .quoted c.target false⟩]

def onSegments (text : List Char) : List Segment :=
  match Text.splitOnce '=' text with
  | some (l, r) => referenceSegments .on l ++ referenceSegments .equals r
  | none => []

def joinSegments (default : Option String) (jt : JoinTable) : List Segment :=
  tableSegments .join jt.database default jt.table ++
    ⟨.alias, .name jt.effectiveAlias.toList false⟩ :: onSegments jt.onClause.toList

def selectSegments (cfg : DataSyncTaskConfig) (default : Option String) : List Segment :=
  match cfg.columnMapping.columns with
  | [] => tableSegments .selectAll cfg.source.database default cfg.source.table
  | c :: cols =>
      columnSegments .firstColumn c ++ cols.flatMap (columnSegments .nextColumn) ++
        tableSegments .source cfg.source.database default cfg.source.table

def windowSegments (cfg : DataSyncTaskConfig) : List Segment :=
  [⟨.whereTime, .name cfg.batching.timeField.toList true⟩, ⟨.atLeast, .window false⟩,
    ⟨.andTime, .name cfg.batching.timeField.toList true⟩, ⟨.below, .window true⟩,
    ⟨.orderTime, .name cfg.batching.timeField.toList true⟩,
    ⟨.limit, .fixed (toString (rowLimit cfg))⟩]

def layout (cfg : DataSyncTaskConfig) (default : Option String) : List Segment :=
  selectSegments cfg default ++ ⟨.alias, .fixed "main"⟩ ::
    (cfg.joinTables.flatMap (joinSegments default) ++ windowSegments cfg)

/-! ### The layout spells the text -/

/-- Every reference and every ON clause has its shape. -/
structure Shaped (cfg : DataSyncTaskConfig) : Prop where
  columns : ∀ c ∈ cfg.columnMapping.columns, PaddedReference c.source.toList
  aliases : ∀ jt ∈ cfg.joinTables, Padded jt.effectiveAlias.toList
  on : ∀ jt ∈ cfg.joinTables, ∃ l r, Text.splitOnce '=' jt.onClause.toList = some (l, r) ∧
    PaddedReference l ∧ PaddedReference r
  timeField : Padded cfg.batching.timeField.toList

section Layout

variable {src : SourceKind} {cfg : DataSyncTaskConfig} {default : Option String}
  {low high : Slot} {lead : Lead} {text : List Char}

theorem quote_text (src : SourceKind) (name : String) :
    (quote name (sourceDialect src)).toList = Quoted.quoted (nameDelimiter src) name.toList := by
  rw [SameRow.quote_eq]
  cases src <;> rfl

theorem tableSegments_text (database : Option String) (table : String) :
    (tableSegments lead database default table).flatMap (Segment.text src) =
      (lead.text src).toList ++
        (qualifiedTable database default table (sourceDialect src)).toList := by
  unfold tableSegments qualifiedTable
  generalize (database <|> default) = qualifier
  cases qualifier with
  | some d =>
    by_cases hd : d.isEmpty = true
    · simp only [if_pos hd, List.flatMap_singleton, quote_text]
      rfl
    · simp only [if_neg hd]
      simp [Segment.text, Part.text, Lead.text, quote_text]
  | none =>
    show Segment.text src ⟨lead, .quoted table false⟩ ++ [] = _
    rw [quote_text, List.append_nil]
    rfl

theorem tableSegments_slots (database : Option String) (table : String) :
    (tableSegments lead database default table).flatMap (Segment.slots src low high) =
      fixed (lead.words src) ++ tableSlots database default := by
  unfold tableSegments tableSlots
  generalize (database <|> default) = qualifier
  cases qualifier with
  | some d =>
    by_cases hd : d.isEmpty = true
    · simp only [if_pos hd, List.flatMap_singleton]
      rfl
    · simp only [if_neg hd]
      simp [Segment.slots, Part.slot, Lead.words, fixed]
  | none => simp [Segment.slots, Part.slot, fixed]

theorem referenceSegments_text (h : PaddedReference text) :
    (referenceSegments lead text).flatMap (Segment.text src) = (lead.text src).toList ++ text := by
  obtain ⟨qualifier, column, hsplit, -, -⟩ := h
  obtain ⟨-, htext⟩ := Text.eq_append_of_splitOnce hsplit
  rw [referenceSegments, hsplit, htext]
  simp [Segment.text, Part.text, Lead.text]

theorem referenceSegments_slots (h : PaddedReference text) :
    (referenceSegments lead text).flatMap (Segment.slots src low high) =
      fixed (lead.words src) ++ referenceSlots := by
  obtain ⟨qualifier, column, hsplit, -, -⟩ := h
  rw [referenceSegments, hsplit]
  simp [Segment.slots, Part.slot, Lead.words, fixed, referenceSlots]

theorem columnSegments_text (src : SourceKind) {c : ColumnSelect} (h : PaddedReference c.source.toList) :
    (columnSegments .firstColumn c).flatMap (Segment.text src) =
        "SELECT ".toList ++ (selectColumn (sourceDialect src) c).toList ∧
      (columnSegments .nextColumn c).flatMap (Segment.text src) =
        ", ".toList ++ (selectColumn (sourceDialect src) c).toList := by
  have hquote := quote_text src c.target
  unfold columnSegments
  rw [List.flatMap_append, List.flatMap_append, referenceSegments_text h, referenceSegments_text h]
  cases src <;>
    simp_all [selectColumn, sourceDialect, Segment.text, Part.text, Lead.text]

theorem columnSegments_slots (src : SourceKind) (low high : Slot) {c : ColumnSelect}
    (h : PaddedReference c.source.toList) :
    (columnSegments .firstColumn c).flatMap (Segment.slots src low high) =
        fixed ["SELECT"] ++ columnSlots src ∧
      (columnSegments .nextColumn c).flatMap (Segment.slots src low high) =
        fixed [","] ++ columnSlots src := by
  unfold columnSegments
  rw [List.flatMap_append, List.flatMap_append, referenceSegments_slots h,
    referenceSegments_slots h]
  cases src <;> simp [columnSlots, Segment.slots, Part.slot, Lead.words, fixed]

theorem joinSegments_text {jt : JoinTable}
    (h : ∃ l r, Text.splitOnce '=' jt.onClause.toList = some (l, r) ∧
      PaddedReference l ∧ PaddedReference r) :
    (joinSegments default jt).flatMap (Segment.text src) =
      (joinClause default (sourceDialect src) jt).toList := by
  obtain ⟨l, r, hsplit, hl, hr⟩ := h
  obtain ⟨-, htext⟩ := Text.eq_append_of_splitOnce hsplit
  unfold joinSegments onSegments joinClause qualifiedJoinTable
  rw [hsplit, List.flatMap_append, tableSegments_text, List.flatMap_cons, List.flatMap_append,
    referenceSegments_text hl, referenceSegments_text hr]
  simp [Segment.text, Part.text, Lead.text, htext]

theorem joinSegments_slots {jt : JoinTable}
    (h : ∃ l r, Text.splitOnce '=' jt.onClause.toList = some (l, r) ∧
      PaddedReference l ∧ PaddedReference r) :
    (joinSegments default jt).flatMap (Segment.slots src low high) = joinSlots default jt := by
  obtain ⟨l, r, hsplit, hl, hr⟩ := h
  unfold joinSegments onSegments joinSlots
  rw [hsplit, List.flatMap_append, tableSegments_slots, List.flatMap_cons, List.flatMap_append,
    referenceSegments_slots hl, referenceSegments_slots hr]
  simp [Segment.slots, Part.slot, Lead.words, fixed]

theorem nextColumns_text (src : SourceKind) {cols : List ColumnSelect}
    (h : ∀ c ∈ cols, PaddedReference c.source.toList) (first : String) :
    first.toList ++ (cols.flatMap (columnSegments .nextColumn)).flatMap (Segment.text src) =
      (", ".intercalate (first :: cols.map (selectColumn (sourceDialect src)))).toList := by
  induction cols generalizing first with
  | nil => simp
  | cons c cols ih =>
      have hc := (columnSegments_text src (h c List.mem_cons_self)).2
      rw [List.flatMap_cons, List.flatMap_append, hc, List.map_cons,
        String.intercalate_cons_cons, String.toList_append, String.toList_append,
        ← ih (fun d hd => h d (List.mem_cons_of_mem c hd))]
      simp only [List.append_assoc]

theorem selectSegments_text (h : Shaped cfg) :
    (selectSegments cfg default).flatMap (Segment.text src) =
      ("SELECT " ++ (if cfg.columnMapping.columns.isEmpty then "*"
        else ", ".intercalate (cfg.columnMapping.columns.map (selectColumn (sourceDialect src)))) ++
        " FROM " ++ qualifiedMainTable cfg.source default (sourceDialect src)).toList := by
  have hcolumns := h.columns
  unfold selectSegments qualifiedMainTable
  generalize cfg.columnMapping.columns = columns at hcolumns ⊢
  cases columns with
  | nil =>
      simp only [tableSegments_text]
      simp [Lead.text]
  | cons c cols =>
      have hc := (columnSegments_text src (hcolumns c List.mem_cons_self)).1
      have hcols := nextColumns_text src
        (fun d hd => hcolumns d (List.mem_cons_of_mem c hd)) (selectColumn (sourceDialect src) c)
      simp only [List.flatMap_append, hc, tableSegments_text]
      rw [List.append_assoc "SELECT ".toList, hcols]
      simp [Lead.text]

theorem layout_text (h : Shaped cfg) :
    (buildSelectSql cfg default (sourceDialect src)).toList =
      (layout cfg default).flatMap (Segment.text src) := by
  have hjoins : (cfg.joinTables.flatMap (joinSegments default)).flatMap (Segment.text src) =
      (String.join (cfg.joinTables.map (joinClause default (sourceDialect src)))).toList := by
    rw [String.toList_join, List.flatMap_map, List.flatMap_assoc]
    exact List.flatMap_congr fun jt hjt => joinSegments_text (h.on jt hjt)
  -- where the layout cuts the texts of the format strings
  have hfrom : " FROM ".toList = " ".toList ++ "FROM ".toList := by decide
  have hmain : " AS main".toList = " AS ".toList ++ "main".toList := by decide
  have hwhere : " WHERE main.".toList = " WHERE ".toList ++ "main.".toList := by decide
  have hlow : " >= __P0__ AND ".toList = " >= ".toList ++ ("__P0__".toList ++ " AND ".toList) := by
    decide
  have hand : " AND main.".toList = " AND ".toList ++ "main.".toList := by decide
  have hhigh : " < __P1__ ORDER BY ".toList =
      " < ".toList ++ ("__P1__".toList ++ " ORDER BY ".toList) := by decide
  have horder : " ORDER BY main.".toList = " ORDER BY ".toList ++ "main.".toList := by decide
  unfold layout windowSegments buildSelectSql
  rw [List.flatMap_append, selectSegments_text h, List.flatMap_cons, List.flatMap_append, hjoins]
  simp only [Segment.text, Part.text, Lead.text, sentinel, List.flatMap_cons, List.flatMap_nil,
    List.append_nil, String.toList_append, List.append_assoc, hfrom, hmain, hwhere, hlow, hand,
    hhigh, horder, if_true, Bool.false_eq_true, if_false]

theorem layout_slots (h : Shaped cfg) :
    (layout cfg default).flatMap (Segment.slots src low high) =
      template src cfg default low high := by
  have hjoins : (cfg.joinTables.flatMap (joinSegments default)).flatMap
      (Segment.slots src low high) = cfg.joinTables.flatMap (joinSlots default) := by
    rw [List.flatMap_assoc]
    exact List.flatMap_congr fun jt hjt => joinSegments_slots (h.on jt hjt)
  have hselect : (selectSegments cfg default).flatMap (Segment.slots src low high) =
      fixed ["SELECT"] ++ selectSlots src cfg.columnMapping.columns ++ fixed ["FROM"] ++
        tableSlots cfg.source.database default := by
    have hcolumns := h.columns
    unfold selectSegments
    generalize cfg.columnMapping.columns = columns at hcolumns ⊢
    cases columns with
    | nil =>
        simp only [tableSegments_slots]
        simp [Lead.words, selectSlots, fixed]
    | cons c cols =>
        have hc := (columnSegments_slots src low high (hcolumns c List.mem_cons_self)).1
        have hcols : (cols.flatMap (columnSegments .nextColumn)).flatMap
            (Segment.slots src low high) =
            cols.flatMap fun _ => fixed [","] ++ columnSlots src := by
          rw [List.flatMap_assoc]
          exact List.flatMap_congr fun d hd =>
            (columnSegments_slots src low high (hcolumns d (List.mem_cons_of_mem c hd))).2
        simp only [List.flatMap_append, hc, tableSegments_slots, hcols]
        simp [Lead.words, selectSlots, fixed]
  unfold layout windowSegments template
  rw [List.flatMap_append, hselect, List.flatMap_cons, List.flatMap_append, hjoins]
  simp [Segment.slots, Part.slot, Lead.words, fixed]

end Layout

/-! ## The rewriting of the sentinels -/

/-- The rewriting on the characters of a text. -/
def rewritten (src : SourceKind) (text : List Char) : List Char :=
  Text.replace "__P1__" (mark src true) (Text.replace "__P0__" (mark src false) text)

def sentinelChars : List Char := "_P01".toList

section Leads

variable (src : SourceKind) (lead : Lead)

theorem text_ne_nil : (lead.text src).toList ≠ [] := by
  cases src <;> cases lead <;> decide

theorem text_head : ∀ c ∈ (lead.text src).toList.head?, c ∉ sentinelChars := by
  cases src <;> cases lead <;> decide

theorem text_last : ∀ c ∈ (lead.text src).toList.getLast?, c ∉ sentinelChars := by
  cases src <;> cases lead <;> decide

theorem text_underscore : '_' ∉ (lead.text src).toList := by
  cases src <;> cases lead <;> decide

/-- The text and the words of a lead are the same to the source. -/
theorem text_tokens : (tokens src (lead.text src).toList).map Token.code =
    (lead.words src).map fun word => some word.toList := by
  cases src <;> cases lead <;> decide

theorem pending_text : (lexer src).pending (lexer src).idle (lead.text src).toList ∈
    [State.gap, .symbol ['.'], .symbol ['('], .symbol ['=']] := by
  cases src <;> cases lead <;> decide

theorem parts_text (h : lead.later = true) :
    ∀ c ∈ (lead.text src).toList.head?, c ∈ [' ', ',', '.', '=', ':'] := by
  cases src <;> cases lead <;> first | decide | cases h

end Leads

def Segment.bound (src : SourceKind) (s : Segment) : List Char :=
  (s.lead.text src).toList ++ rewritten src (s.part.text src)

section Pieces

variable {src : SourceKind} {K : Keywords} {low high : Slot}

theorem sourceSelect_text (sql : String) :
    (sourceSelect src sql).toList = rewritten src sql.toList := by
  cases src <;> simp [sourceSelect, mysqlSelect, pgSelect, rewritten, mark]

/-- A sentinel does not reach into the text before a name, nor out of it. -/
theorem replace_pieces {pattern replacement : String}
    (hchars : ∀ c ∈ pattern.toList, c ∈ sentinelChars) (hunder : '_' ∈ pattern.toList)
    (part : Segment → List Char) (xs : List Segment) :
    Text.replace pattern replacement
        (xs.flatMap fun s => (s.lead.text src).toList ++ part s) =
      xs.flatMap fun s =>
        (s.lead.text src).toList ++ Text.replace pattern replacement (part s) := by
  have hne : pattern.toList ≠ [] := List.ne_nil_of_mem hunder
  unfold Text.replace
  rw [Replace.replaceFrom_flatMap]
  · apply List.flatMap_congr
    intro s _
    obtain ⟨init, d, hlast⟩ := (List.eq_nil_or_concat' _).resolve_left (text_ne_nil src s.lead)
    have hd : d ∉ pattern.toList := fun hd =>
      text_last src s.lead d (by rw [hlast]; simp) (hchars d hd)
    have hlead : Text.replaceFrom pattern.toList replacement.toList 0 (s.lead.text src).toList =
        (s.lead.text src).toList :=
      Replace.replaceFrom_of_notInfix (Replace.notInfix_of_notMem hunder (text_underscore src s.lead))
    rw [hlast] at hlead ⊢
    rw [Replace.replaceFrom_append_of_last hne hd, hlead]
  · intro s _
    obtain ⟨c, rest, hhead⟩ := List.exists_cons_of_ne_nil (text_ne_nil src s.lead)
    refine ⟨c, fun hc => text_head src s.lead c (by rw [hhead]; rfl) (hchars c hc),
      rest ++ part s, ?_⟩
    rw [hhead, List.cons_append]

theorem rewritten_layout (xs : List Segment) :
    rewritten src (xs.flatMap (Segment.text src)) = xs.flatMap (Segment.bound src) := by
  unfold rewritten Segment.text
  rw [replace_pieces (by decide) (by decide), replace_pieces (by decide) (by decide)]
  rfl

/-- A part that neither joins the text before it nor the text after it. -/
structure Sits (src : SourceKind) (part : List Char) : Prop where
  ne_nil : part ≠ []
  opens : ∀ c ∈ part.head?, IsPlain src c ∨ c = nameDelimiter src
  settles : ∀ c ∈ [' ', ',', '.', '=', ':'],
    extend src ((lexer src).pending (lexer src).idle part) c = none

theorem parts_of_opens {lead : Lead} {part : List Char} (h : Sits src part) :
    (lexer src).Parts ((lexer src).pending (lexer src).idle (lead.text src).toList) part := by
  intro c hc
  have hpending := pending_text src lead
  rw [List.mem_cons] at hpending
  rcases hpending with hgap | hsymbol
  · rw [hgap]
    rfl
  · have hd : ∃ d ∈ ['.', '(', '='],
        (lexer src).pending (lexer src).idle (lead.text src).toList = .symbol [d] := by
      simpa using hsymbol
    obtain ⟨d, hd, hstate⟩ := hd
    rw [hstate]
    exact extend_symbol_of_opens (h.opens c hc) hd

theorem tokens_piece {lead : Lead} {part : List Char} (h : Sits src part) :
    tokens src ((lead.text src).toList ++ part) =
      tokens src (lead.text src).toList ++ tokens src part :=
  Lexer.tokens_append (parts_of_opens h)

theorem tokens_pieces {part : Segment → List Char} {s : Segment} {xs : List Segment}
    (hsits : ∀ t ∈ s :: xs, Sits src (part t))
    (hlead : ∀ t ∈ xs, t.lead.later = true) :
    tokens src ((s :: xs).flatMap fun t => (t.lead.text src).toList ++ part t) =
      (s :: xs).flatMap fun t => tokens src (t.lead.text src).toList ++ tokens src (part t) := by
  have hpieces : (s :: xs).flatMap (fun t => tokens src ((t.lead.text src).toList ++ part t)) =
      (s :: xs).flatMap fun t => tokens src (t.lead.text src).toList ++ tokens src (part t) :=
    List.flatMap_congr fun t ht => tokens_piece (hsits t ht)
  rw [← hpieces]
  apply Lexer.tokens_flatMap_cons
    (K := fun t => ∀ c ∈ [' ', ',', '.', '=', ':'], extend src t c = none)
  · intro t ht state hstate c hc
    obtain ⟨d, rest, hhead⟩ := List.exists_cons_of_ne_nil (text_ne_nil src t.lead)
    apply hstate c
    apply parts_text src t.lead (hlead t ht)
    rw [hhead] at hc ⊢
    exact hc
  · intro t _ hnil
    exact text_ne_nil src t.lead (List.append_eq_nil_iff.mp hnil).1
  · intro t ht
    have h := hsits t ht
    rw [Lexer.pending_append, Lexer.pending_of_parts (parts_of_opens h) h.ne_nil]
    exact h.settles

theorem admits_fixed {text : String} {t : Token} :
    Slot.admits K (.fixed text) t ↔ t.code = some text.toList := by
  cases t <;> simp [Slot.admits, Token.code]

theorem fits_words (lead : Lead) :
    Fits K (fixed (lead.words src)) (tokens src (lead.text src).toList) := by
  have hwords := text_tokens src lead
  have hall : ∀ (words : List String) (found : List Token),
      found.map Token.code = words.map (fun word => some word.toList) →
        Fits K (fixed words) found := by
    intro words
    induction words with
    | nil =>
        intro found h
        rw [List.map_eq_nil_iff.mp h]
        exact .nil
    | cons word words ih =>
        intro found h
        obtain ⟨t, rest, rfl, ht, hrest⟩ := List.map_eq_cons_iff.mp h
        exact .cons (admits_fixed.mpr ht) (ih rest hrest)
  exact hall _ _ hwords

/-- The template is met part by part. -/
theorem fits_iff {part : Segment → List Char} {xs : List Segment}
    (h : ∀ s ∈ xs, tokens src (part s) ≠ []) :
    Fits K (xs.flatMap (Segment.slots src low high))
        (xs.flatMap fun s => tokens src (s.lead.text src).toList ++ tokens src (part s)) ↔
      ∀ s ∈ xs, Fits K [s.part.slot low high] (tokens src (part s)) := by
  have hwords : ∀ s : Segment, (fixed (s.lead.words src)).length =
      (tokens src (s.lead.text src).toList).length := fun s =>
    (fits_words (K := K) s.lead).length_eq
  have hone : ∀ s ∈ xs, [s.part.slot low high].length ≤ (tokens src (part s)).length :=
    fun s hs => List.length_pos_iff.mpr (h s hs)
  unfold Fits Segment.slots
  rw [forall₂_flatMap_iff]
  · apply forall₂_congr
    intro s hs
    rw [forall₂_append_iff (Nat.le_of_eq (hwords s)) (hone s hs)]
    exact and_iff_right (fits_words s.lead)
  · intro s hs
    rw [List.length_append, List.length_append, hwords s]
    exact Nat.add_le_add_left (hone s hs) _

end Pieces

end Dbmaster.DataSync.Template
