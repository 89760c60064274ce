import Dbmaster.Drift.Snapshot
import Dbmaster.Lib.Json
/-!
# The difference of two snapshots

`compute_drifts` and `summarize`.  The counters are 32-bit and wrap, as in the
release build.
-/

namespace Dbmaster.Drift.Diff

inductive DriftKind
  | tableAdded | tableDropped
  | columnAdded | columnDropped | columnTypeChanged | columnNullabilityChanged
  | indexAdded | indexDropped
  | pkChanged
  | fkAdded | fkDropped
deriving DecidableEq

/-- What drifted; a foreign key stands in the place of an index. -/
structure DriftObject where
  schema : Option String
  table : Option String
  column : Option String
  index : Option String

end Dbmaster.Drift.Diff

structure Dbmaster.Drift where
  kind : Dbmaster.Drift.Diff.DriftKind
  object : Dbmaster.Drift.Diff.DriftObject
  before : Dbmaster.Lib.Json
  after : Dbmaster.Lib.Json

namespace Dbmaster.Drift.Diff

open Dbmaster.Drift.Snapshot Dbmaster.Lib

/-! ## The values before and after -/

def strings (texts : List String) : Json := .arr (texts.map .str)

def columnTypeSummary (c : ColumnSchema) : Json :=
  .obj [("data_type", .str c.dataType),
    ("char_max_length", .ofOption .int c.charMaxLength),
    ("numeric_precision", .ofOption .int c.numericPrecision),
    ("numeric_scale", .ofOption .int c.numericScale)]

def columnFull (c : ColumnSchema) : Json :=
  .obj [("data_type", .str c.dataType),
    ("is_nullable", .bool c.isNullable),
    ("column_default", .ofOption .str c.columnDefault),
    ("char_max_length", .ofOption .int c.charMaxLength),
    ("numeric_precision", .ofOption .int c.numericPrecision),
    ("numeric_scale", .ofOption .int c.numericScale)]

def pkSummary (pk : PrimaryKey) : Json :=
  .obj [("name", .ofOption .str pk.name), ("columns", strings pk.columns)]

def indexSummary (ix : IndexSchema) : Json :=
  .obj [("columns", strings ix.columns), ("is_unique", .bool ix.isUnique)]

def fkSummary (fk : ForeignKey) : Json :=
  .obj [("columns", strings fk.columns),
    ("ref_schema", .ofOption .str fk.refSchema),
    ("ref_table", .str fk.refTable),
    ("ref_columns", strings fk.refColumns)]

def tableSummary (t : TableSchema) : Json :=
  .obj [("columns", .int t.columns.size),
    ("indexes", .int t.indexes.size),
    ("foreign_keys", .int t.foreignKeys.size)]

/-! ## The objects -/

def objectForTable (t : TableSchema) : DriftObject := ⟨some t.schema, some t.name, none, none⟩

def objectForColumn (t : TableSchema) (col : String) : DriftObject :=
  ⟨some t.schema, some t.name, some col, none⟩

def objectForIndex (t : TableSchema) (idx : String) : DriftObject :=
  ⟨some t.schema, some t.name, none, some idx⟩

def objectForFk (t : TableSchema) (fk : String) : DriftObject :=
  ⟨some t.schema, some t.name, none, some fk⟩

/-! ## The difference -/

/-- The loop over the entries of a map whose names the other map lacks. -/
def onlyIn {α : Type} (entries others : NameMap α) (emit : String → α → Drift) : List Drift :=
  (entries.toList.filter fun e => !others.contains e.1).map fun e => emit e.1 e.2

/-- The loop over the names that both maps have. -/
def inBoth {α : Type} (prior current : NameMap α) (compare : String → α → α → List Drift) :
    List Drift :=
  prior.toList.flatMap fun e =>
    match current[e.1]? with
    | none => []
    | some cur => compare e.1 e.2 cur

def columnTypeDiffers (a b : ColumnSchema) : Bool :=
  a.dataType ≠ b.dataType || a.charMaxLength ≠ b.charMaxLength ||
    a.numericPrecision ≠ b.numericPrecision || a.numericScale ≠ b.numericScale

/-- The comparison of a column that both tables have. -/
def diffColumn (current : TableSchema) (name : String) (pri cur : ColumnSchema) : List Drift :=
  (if columnTypeDiffers pri cur then
    [⟨.columnTypeChanged, objectForColumn current name, columnTypeSummary pri,
      columnTypeSummary cur⟩]
  else []) ++
  (if pri.isNullable ≠ cur.isNullable then
    [⟨.columnNullabilityChanged, objectForColumn current name, .bool pri.isNullable,
      .bool cur.isNullable⟩]
  else [])

def diffTableColumns (prior current : TableSchema) : List Drift :=
  (onlyIn current.columns prior.columns fun name col =>
    ⟨.columnAdded, objectForColumn current name, .null, columnFull col⟩) ++
  (onlyIn prior.columns current.columns fun name col =>
    ⟨.columnDropped, objectForColumn prior name, columnFull col, .null⟩) ++
  inBoth prior.columns current.columns (diffColumn current)

def diffTablePk (prior current : TableSchema) : List Drift :=
  if prior.primaryKey ≠ current.primaryKey then
    [⟨.pkChanged, objectForTable current, .ofOption pkSummary prior.primaryKey,
      .ofOption pkSummary current.primaryKey⟩]
  else []

def diffTableIndexes (prior current : TableSchema) : List Drift :=
  (onlyIn current.indexes prior.indexes fun name ix =>
    ⟨.indexAdded, objectForIndex current name, .null, indexSummary ix⟩) ++
  onlyIn prior.indexes current.indexes fun name ix =>
    ⟨.indexDropped, objectForIndex prior name, indexSummary ix, .null⟩

def diffTableFks (prior current : TableSchema) : List Drift :=
  (onlyIn current.foreignKeys prior.foreignKeys fun name fk =>
    ⟨.fkAdded, objectForFk current name, .null, fkSummary fk⟩) ++
  onlyIn prior.foreignKeys current.foreignKeys fun name fk =>
    ⟨.fkDropped, objectForFk prior name, fkSummary fk, .null⟩

def diffTable (prior current : TableSchema) : List Drift :=
  diffTableColumns prior current ++ diffTablePk prior current ++
    diffTableIndexes prior current ++ diffTableFks prior current

def computeDrifts (prior current : SchemaSnapshot) : List Drift :=
  (onlyIn current.tables prior.tables fun _ curTable =>
    ⟨.tableAdded, objectForTable curTable, .null, tableSummary curTable⟩) ++
  (onlyIn prior.tables current.tables fun _ priTable =>
    ⟨.tableDropped, objectForTable priTable, tableSummary priTable, .null⟩) ++
  inBoth prior.tables current.tables fun _ priTable curTable => diffTable priTable curTable

/-! ## The counts -/

structure DriftKindCounts where
  tableAdded : UInt32
  tableDropped : UInt32
  columnAdded : UInt32
  columnDropped : UInt32
  columnTypeChanged : UInt32
  columnNullabilityChanged : UInt32
  indexAdded : UInt32
  indexDropped : UInt32
  pkChanged : UInt32
  fkAdded : UInt32
  fkDropped : UInt32

def DriftKindCounts.default : DriftKindCounts := ⟨0, 0, 0, 0, 0, 0, 0, 0, 0, 0, 0⟩

def DriftKindCounts.total (c : DriftKindCounts) : UInt32 :=
  c.tableAdded + c.tableDropped + c.columnAdded + c.columnDropped + c.columnTypeChanged +
    c.columnNullabilityChanged + c.indexAdded + c.indexDropped + c.pkChanged + c.fkAdded +
    c.fkDropped

def DriftKindCounts.count (c : DriftKindCounts) : DriftKind → DriftKindCounts
  | .tableAdded => { c with tableAdded := c.tableAdded + 1 }
  | .tableDropped => { c with tableDropped := c.tableDropped + 1 }
  | .columnAdded => { c with columnAdded := c.columnAdded + 1 }
  | .columnDropped => { c with columnDropped := c.columnDropped + 1 }
  | .columnTypeChanged => { c with columnTypeChanged := c.columnTypeChanged + 1 }
  | .columnNullabilityChanged =>
      { c with columnNullabilityChanged := c.columnNullabilityChanged + 1 }
  | .indexAdded => { c with indexAdded := c.indexAdded + 1 }
  | .indexDropped => { c with indexDropped := c.indexDropped + 1 }
  | .pkChanged => { c with pkChanged := c.pkChanged + 1 }
  | .fkAdded => { c with fkAdded := c.fkAdded + 1 }
  | .fkDropped => { c with fkDropped := c.fkDropped + 1 }

def summarize (drifts : List Drift) : DriftKindCounts :=
  drifts.foldl (fun c d => c.count d.kind) .default

end Dbmaster.Drift.Diff
