import Std.Data.TreeMap
/-!
# Schema snapshots

The tables of a database with their columns, primary key, indexes and foreign keys,
in maps that iterate in the order of their keys.
-/

namespace Dbmaster.Drift.Snapshot

/-- `BTreeMap` with names as its keys. -/
abbrev NameMap (α : Type) := Std.TreeMap String α

inductive DbType
  | mySql | postgres
deriving DecidableEq

structure ColumnSchema where
  name : String
  ordinal : Int
  dataType : String
  isNullable : Bool
  columnDefault : Option String
  charMaxLength : Option Int
  numericPrecision : Option Int
  numericScale : Option Int

structure PrimaryKey where
  name : Option String
  columns : List String

structure IndexSchema where
  name : String
  columns : List String
  isUnique : Bool

structure ForeignKey where
  name : String
  columns : List String
  refSchema : Option String
  refTable : String
  refColumns : List String

structure TableSchema where
  schema : String
  name : String
  columns : NameMap ColumnSchema
  primaryKey : Option PrimaryKey
  indexes : NameMap IndexSchema
  foreignKeys : NameMap ForeignKey

def TableSchema.qualifiedName (t : TableSchema) : String := t.schema ++ "." ++ t.name

structure SchemaSnapshot where
  database : String
  dbType : DbType
  tables : NameMap TableSchema

/-- Two keys are the same when their names and column lists are. -/
instance : DecidableEq PrimaryKey := fun a b =>
  decidable_of_iff (a.name = b.name ∧ a.columns = b.columns) (by
    cases a
    cases b
    simp)

end Dbmaster.Drift.Snapshot
