import Dbmaster.DbHandler.Execute
import Dbmaster.Gateway.Stream
import Dbmaster.Lib.OrderedMap
import Mathlib.Data.List.Forall2
/-!
# Rows of a result by name and by position

`rows_to_json_mysql`, `rows_to_json_pg` and `rows_to_json_sqlite` answer a query with one map of
columns for each row; the stream of the gateway answers the same rows as arrays.
-/

namespace Dbmaster.DbHandler.ResultRows

open Dbmaster.Lib Dbmaster.Gateway.Stream

inductive Driver
  | mysql | pg | sqlite
  deriving DecidableEq, Repr

/-- The rows of one statement, with the name and the type of each column. -/
structure ResultSet (Raw : Type) where
  columns : List (String × String)
  rows : List Raw

section Encoders

-- the value in a column of a row: `decode_cell_mysql`, `decode_cell_pg`, `decode_cell_sqlite`
variable {Raw : Type} (decodeCell : Driver → Raw → Nat → Json)

def cells (driver : Driver) (columns : List (String × String)) (row : Raw) :
    List (String × Json) :=
  columns.zipIdx.map fun column => (column.1.1, decodeCell driver row column.2)

/-- The map of a row. -/
def rowMap (driver : Driver) (columns : List (String × String)) (row : Raw) :
    OrderedMap String Json :=
  OrderedMap.empty.insertAll (cells decodeCell driver columns row)

def rowsToJson (driver : Driver) (rs : ResultSet Raw) (limit : Nat) : Json :=
  if rs.rows.isEmpty then .obj [("columns", .arr []), ("rows", .arr [])]
  else .obj
    [("columns", .arr (rs.columns.map fun c => .str c.1)),
      ("columnTypes", .arr (rs.columns.map fun c =>
        .obj [("name", .str c.1), ("type", .str c.2)])),
      ("rows", .arr ((rs.rows.take limit).map fun row =>
        .obj (rowMap decodeCell driver rs.columns row).entries))]

def rowsToJsonMysql : ResultSet Raw → Nat → Json := rowsToJson decodeCell .mysql

def rowsToJsonPg : ResultSet Raw → Nat → Json := rowsToJson decodeCell .pg

def rowsToJsonSqlite : ResultSet Raw → Nat → Json := rowsToJson decodeCell .sqlite

/-- The answer of the backend. -/
def resultJson : Driver → ResultSet Raw → Nat → Json
  | .mysql => rowsToJsonMysql decodeCell
  | .pg => rowsToJsonPg decodeCell
  | .sqlite => rowsToJsonSqlite decodeCell

/-- `map_mysql_row`, `map_pg_row` and `map_sqlite_row`; SQLite names no types. -/
def mapRow (driver : Driver) (columns : List (String × String)) (row : Raw) : MappedRow where
  columns := columns.map Prod.fst
  values := (List.range columns.length).map (decodeCell driver row)
  types := if driver = .sqlite then none else some (columns.map Prod.snd)

def source (driver : Driver) (rs : ResultSet Raw) (n : Nat) : StreamItem :=
  match rs.rows[n]? with
  | some row => .row (mapRow decodeCell driver rs.columns row)
  | none => .done

end Encoders

/-! ## Reading the answer -/

def resultColumns (result : Json) : List String :=
  (((result.get "columns").bind Json.asArray).getD []).filterMap Json.asStr

def resultRows (result : Json) : List Json :=
  ((result.get "rows").bind Json.asArray).getD []

/-- The cell of a row at the position of a column. -/
def cellAt (result row : Json) (i : Nat) : Option Json :=
  (resultColumns result)[i]?.bind fun name => row.get name

variable {Raw : Type} {decodeCell : Driver → Raw → Nat → Json} {driver : Driver}

/-- Row by row and position by position, the answer has the cell that the stream delivers. -/
def Lossless (decodeCell : Driver → Raw → Nat → Json) (driver : Driver) (rs : ResultSet Raw)
    (limit : Nat) : Prop :=
  List.Forall₂ (fun row cells => ∀ i < cells.length,
      cellAt (resultJson decodeCell driver rs limit) row i = cells[i]?)
    (resultRows (resultJson decodeCell driver rs limit))
    ((Leg.rows (source decodeCell driver rs)).firstRows limit)

/-- Columns of one name hold the same in every row of the answer. -/
def Unambiguous (decodeCell : Driver → Raw → Nat → Json) (driver : Driver) (rs : ResultSet Raw)
    (limit : Nat) : Prop :=
  ∀ row ∈ rs.rows.take limit, ∀ i < rs.columns.length, ∀ j < rs.columns.length,
    rs.columns[i]?.map Prod.fst = rs.columns[j]?.map Prod.fst →
      decodeCell driver row i = decodeCell driver row j

theorem rowsToJson_eq (rs : ResultSet Raw) (limit : Nat) :
    rowsToJson decodeCell driver rs limit =
      Execute.rowsToJson
        ⟨rs.columns, rs.rows.map fun row => .obj (rowMap decodeCell driver rs.columns row).entries⟩
        limit := by
  unfold rowsToJson Execute.rowsToJson
  rw [List.isEmpty_map, ← List.map_take]

theorem resultJson_eq : resultJson decodeCell driver = rowsToJson decodeCell driver := by
  cases driver <;> rfl

theorem firstRows_source (rs : ResultSet Raw) (limit : Nat) :
    (Leg.rows (source decodeCell driver rs)).firstRows limit =
      (rs.rows.take limit).map fun row => (mapRow decodeCell driver rs.columns row).values := by
  have hitems : (Leg.rows (source decodeCell driver rs)).firstRows limit =
      (List.range limit).filterMap fun i =>
        rs.rows[i]?.map fun row => (mapRow decodeCell driver rs.columns row).values := by
    refine List.filterMap_congr fun i _ => ?_
    unfold source
    cases rs.rows[i]? <;> rfl
  rw [hitems]
  clear hitems
  induction limit with
  | zero => rfl
  | succ n ih =>
      rw [List.range_succ, List.filterMap_append, List.take_add_one, List.map_append, ← ih]
      cases hrow : rs.rows[n]? <;> simp [hrow]

/-! ## What the answer holds -/

theorem rowsToJson_empty (columns : List (String × String)) (limit : Nat) :
    resultRows (rowsToJson decodeCell driver ⟨columns, []⟩ limit) = [] := rfl

theorem resultColumns_rowsToJson {rs : ResultSet Raw} (h : rs.rows ≠ []) (limit : Nat) :
    resultColumns (rowsToJson decodeCell driver rs limit) = rs.columns.map Prod.fst := by
  have hcolumns : (rowsToJson decodeCell driver rs limit).get "columns" =
      some (.arr (rs.columns.map fun c => .str c.1)) := by
    rw [rowsToJson, if_neg (by simpa using h)]
    rfl
  rw [resultColumns, hcolumns, ← Json.filterMap_asStr_map_str (rs.columns.map Prod.fst),
    List.map_map]
  rfl

theorem resultRows_rowsToJson {rs : ResultSet Raw} (h : rs.rows ≠ []) (limit : Nat) :
    resultRows (rowsToJson decodeCell driver rs limit) =
      (rs.rows.take limit).map fun row =>
        .obj (rowMap decodeCell driver rs.columns row).entries := by
  have hrows : (rowsToJson decodeCell driver rs limit).get "rows" =
      some (.arr ((rs.rows.take limit).map fun row =>
        .obj (rowMap decodeCell driver rs.columns row).entries)) := by
    rw [rowsToJson, if_neg (by simpa using h)]
    rfl
  rw [resultRows, hrows]
  rfl

/-! ## One row -/

theorem getElem_cells (columns : List (String × String)) (row : Raw) (i : Nat) :
    (cells decodeCell driver columns row)[i]? =
      columns[i]?.map fun c => (c.1, decodeCell driver row i) := by
  simp [cells, List.getElem?_zipIdx, Function.comp_def]

theorem getElem_values (columns : List (String × String)) (row : Raw) {i : Nat}
    (hi : i < columns.length) :
    (mapRow decodeCell driver columns row).values[i]? = some (decodeCell driver row i) := by
  simp [mapRow, hi]

theorem mem_cells {columns : List (String × String)} {row : Raw} {e : String × Json} :
    e ∈ cells decodeCell driver columns row ↔
      ∃ i < columns.length, columns[i]?.map Prod.fst = some e.1 ∧
        e.2 = decodeCell driver row i := by
  rw [List.mem_iff_getElem?]
  constructor
  · rintro ⟨i, hi⟩
    rw [getElem_cells] at hi
    obtain ⟨c, hc, rfl⟩ := Option.map_eq_some_iff.mp hi
    exact ⟨i, (List.getElem?_eq_some_iff.mp hc).1, by rw [hc]; rfl, rfl⟩
  · rintro ⟨i, hi, hname, hvalue⟩
    obtain ⟨c, hc, hname⟩ := Option.map_eq_some_iff.mp hname
    refine ⟨i, ?_⟩
    rw [getElem_cells, hc, Option.map_some, hname, ← hvalue]

/-- The map of a row gives back the cell of every position just where equal names have equal
cells. -/
theorem rowMap_lookup_iff (columns : List (String × String)) (row : Raw) :
    (∀ i < columns.length, (columns[i]?.map Prod.fst).bind
        (rowMap decodeCell driver columns row).lookup = some (decodeCell driver row i)) ↔
      ∀ i < columns.length, ∀ j < columns.length,
        columns[i]?.map Prod.fst = columns[j]?.map Prod.fst →
          decodeCell driver row i = decodeCell driver row j := by
  have hname : ∀ i < columns.length, ∃ name, columns[i]?.map Prod.fst = some name := by
    intro i hi
    exact ⟨_, by rw [List.getElem?_eq_getElem hi]; rfl⟩
  have hlookup := @OrderedMap.lookup_insertAll_iff String Json _ (cells decodeCell driver columns row)
  constructor
  · intro h i hi j hj hsame
    have hboth := h i hi
    rw [hsame, h j hj] at hboth
    exact (Option.some.inj hboth).symm
  · intro h i hi
    obtain ⟨name, hi'⟩ := hname i hi
    rw [hi', Option.bind_some]
    refine hlookup.mpr (fun e he e' he' hkey => ?_) (name, decodeCell driver row i)
      (mem_cells.mpr ⟨i, hi, hi', rfl⟩)
    obtain ⟨k, hk, hkname, hkvalue⟩ := mem_cells.mp he
    obtain ⟨l, hl, hlname, hlvalue⟩ := mem_cells.mp he'
    rw [hkvalue, hlvalue]
    exact h k hk l hl (by rw [hkname, hlname, hkey])

/-! ## Whole answers -/

/-- No cell is lost if and only if columns of one name hold the same in every row; the answer is
that of the handler, whose rows are these maps. -/
theorem lossless_iff (decodeCell : Driver → Raw → Nat → Json) (driver : Driver)
    (rs : ResultSet Raw) (limit : Nat) :
    (Lossless decodeCell driver rs limit ↔ Unambiguous decodeCell driver rs limit) ∧
      resultJson decodeCell driver rs limit =
        Execute.rowsToJson
          ⟨rs.columns, rs.rows.map fun row =>
            .obj (rowMap decodeCell driver rs.columns row).entries⟩ limit := by
  refine ⟨?_, by rw [resultJson_eq, rowsToJson_eq]⟩
  by_cases hrows : rs.rows = []
  · refine iff_of_true ?_ fun row hrow => by simp [hrows] at hrow
    rw [Lossless, resultJson_eq, firstRows_source, hrows]
    have hempty : rs = ⟨rs.columns, []⟩ := by rw [← hrows]
    rw [hempty, rowsToJson_empty]
    simp
  · unfold Lossless Unambiguous
    rw [resultJson_eq, firstRows_source, resultRows_rowsToJson hrows, List.forall₂_map_left_iff,
      List.forall₂_map_right_iff, List.forall₂_same]
    refine forall₂_congr fun row _ => ?_
    rw [← rowMap_lookup_iff]
    have hlength : (mapRow decodeCell driver rs.columns row).values.length =
        rs.columns.length := by simp [mapRow]
    rw [hlength]
    refine forall₂_congr fun i hi => ?_
    rw [getElem_values _ _ hi, cellAt, resultColumns_rowsToJson hrows, List.getElem?_map]
    rfl

/-- Users joined with their orders, both with an id. -/
def joinedRows : ResultSet (List Json) := ⟨[("id", "INT4"), ("id", "INT4")], [[.int 1, .int 2]]⟩

/-- The first of two columns of one name is lost. -/
theorem joined_id_lost :
    resultJson (fun _ row i => row[i]?.getD .null) .pg joinedRows 100 = .obj
        [("columns", .arr [.str "id", .str "id"]),
          ("columnTypes", .arr [.obj [("name", .str "id"), ("type", .str "INT4")],
            .obj [("name", .str "id"), ("type", .str "INT4")]]),
          ("rows", .arr [.obj [("id", .int 2)]])] ∧
      ¬ Lossless (fun _ row i => row[i]?.getD .null) .pg joinedRows 100 := by
  refine ⟨rfl, fun h => ?_⟩
  have hcell := (List.forall₂_cons.mp h).1 0 (by decide)
  have hwrong : some (Json.int 2) = some (Json.int 1) := hcell
  injection hwrong with hwrong
  injection hwrong with hwrong
  exact absurd hwrong (by decide)

end Dbmaster.DbHandler.ResultRows
