import Dbmaster.Lib.Quoted
/-!
# Names of PostgreSQL relations

`pg_display_name`, by which `list_tables` names a relation, and `PgRelation::parse`, by which
`describe_table` finds it again.
-/

namespace Dbmaster.Metadata.PgNames

open Dbmaster.Lib

/-! ## Display names -/

@[ext]
structure PgObject where
  schema : List Char
  relname : List Char
  deriving DecidableEq

/-- The name, and the schema where it is not `public`. -/
def pgDisplayName (schema relname : List Char) : List Char × Option (List Char) :=
  if schema = "public".toList then (relname, none)
  else (schema ++ '.' :: relname, some schema)

def PgObject.displayName (o : PgObject) : List Char := (pgDisplayName o.schema o.relname).1

/-! ## Addressing -/

def splitPgQualified (table : List Char) : Option (List Char × List Char) :=
  let parts := table.splitOn '.'
  let first := parts[0]?.getD []
  let second := parts[1]?.getD []
  match parts[2]?, first.isEmpty, second.isEmpty with
  | none, false, false => some (first, second)
  | _, _, _ => none

/-- The two SQL fragments that locate a relation. -/
inductive Regclass
  | bare
  | qualified
  deriving DecidableEq

def Regclass.sql : Regclass → String
  | .bare => "to_regclass(quote_ident($1))"
  | .qualified => "to_regclass(quote_ident($1) || '.' || quote_ident($2))"

structure PgRelation where
  regclass : Regclass
  params : List (List Char)

namespace PgRelation

def parse (table : List Char) : PgRelation :=
  match splitPgQualified table with
  | some (schema, name) => ⟨.qualified, [schema, name]⟩
  | none => ⟨.bare, [table]⟩

def schema (rel : PgRelation) : Option (List Char) :=
  match rel.params with
  | [schema, _] => some schema
  | _ => none

def objectName (rel : PgRelation) : List Char := rel.params.getLast?.getD []

end PgRelation

/-! ## The server -/

structure Server where
  objects : List PgObject
  searchPath : List (List Char)
  quoteIdent : List Char → List Char
  /-- how `to_regclass` reads the text of a name -/
  readName : List Char → Option (List (List Char))

namespace Server

/-- The object of that name in the first schema of the path that has one. -/
def firstHit (server : Server) (relname : List Char) : Option PgObject :=
  server.searchPath.findSome? fun schema =>
    server.objects.find? fun o => o.schema == schema && o.relname == relname

def toRegclass (server : Server) (text : List Char) : Option PgObject :=
  match server.readName text with
  | some [relname] => server.firstHit relname
  | some [schema, relname] =>
      server.objects.find? fun o => o.schema == schema && o.relname == relname
  | _ => none

/-- What `quote_ident` writes is read as that identifier, for the names in use. -/
structure Lawful (server : Server) : Prop where
  bare : ∀ o ∈ server.objects,
    server.readName (server.quoteIdent o.relname) = some [o.relname]
  qualified : ∀ o ∈ server.objects,
    server.readName (server.quoteIdent o.schema ++ '.' :: server.quoteIdent o.relname) =
      some [o.schema, o.relname]

/-- The value of the SQL fragment with its parameters bound. -/
def locate (server : Server) (rel : PgRelation) : Option PgObject :=
  match rel.regclass, rel.params with
  | .bare, [name] => server.toRegclass (server.quoteIdent name)
  | .qualified, [schema, name] =>
      server.toRegclass (server.quoteIdent schema ++ '.' :: server.quoteIdent name)
  | _, _ => none

theorem find_object {server : Server} {o : PgObject} (ho : o ∈ server.objects) :
    (server.objects.find? fun x => x.schema == o.schema && x.relname == o.relname) =
      some o := by
  cases hfind : server.objects.find? fun x => x.schema == o.schema && x.relname == o.relname with
  | none =>
      have hall := List.find?_eq_none.mp hfind o ho
      simp at hall
  | some x =>
      have hx := List.find?_some hfind
      simp only [Bool.and_eq_true, beq_iff_eq] at hx
      rw [PgObject.ext hx.1 hx.2]

end Server

/-! ## Parsing -/

/-- A name that is not empty and has no dot. -/
def Plain (name : List Char) : Prop := name ≠ [] ∧ '.' ∉ name

theorem not_plain_qualified (schema name : List Char) : ¬ Plain (schema ++ '.' :: name) :=
  fun h => h.2 (List.mem_append_right schema List.mem_cons_self)

theorem splitPgQualified_eq_some {table schema name : List Char} :
    splitPgQualified table = some (schema, name) ↔
      table = schema ++ '.' :: name ∧ Plain schema ∧ Plain name := by
  constructor
  · intro h
    have hpieces : ∀ piece ∈ table.splitOn '.', '.' ∉ piece := fun piece hpiece =>
      Text.notMem_of_mem_splitOn hpiece
    have htable : ['.'].intercalate (table.splitOn '.') = table := List.intercalate_splitOn '.'
    unfold splitPgQualified at h
    simp only [] at h
    match hsplit : table.splitOn '.' with
    | [] => exact absurd hsplit (List.splitOn_ne_nil '.' table)
    | [first] =>
        rw [hsplit] at h
        simp at h
    | [first, second] =>
        rw [hsplit] at h hpieces htable
        simp only [List.getElem?_cons_zero, List.getElem?_cons_succ, List.getElem?_nil,
          Option.getD_some] at h
        split at h
        case h_1 hfirst hsecond =>
          cases h
          rw [List.isEmpty_eq_false_iff] at hfirst hsecond
          exact ⟨by rw [← htable]; simp [List.intercalate], ⟨hfirst, hpieces _ (by simp)⟩,
            hsecond, hpieces _ (by simp)⟩
        case h_2 => cases h
    | first :: second :: third :: rest =>
        rw [hsplit] at h
        cases h
  · rintro ⟨rfl, ⟨hschema, hdot⟩, hname, hdot'⟩
    unfold splitPgQualified
    simp only []
    rw [List.splitOn_append_cons_self_of_not_mem hdot, List.splitOn_eq_singleton hdot']
    simp [List.isEmpty_eq_false_iff.mpr hschema, List.isEmpty_eq_false_iff.mpr hname]

theorem parse_params (table : List Char) :
    (PgRelation.parse table = ⟨.bare, [table]⟩ ∧ splitPgQualified table = none) ∨
      ∃ schema name, PgRelation.parse table = ⟨.qualified, [schema, name]⟩ ∧
        splitPgQualified table = some (schema, name) := by
  unfold PgRelation.parse
  cases hsplit : splitPgQualified table with
  | none => exact .inl ⟨rfl, rfl⟩
  | some pair => exact .inr ⟨pair.1, pair.2, rfl, rfl⟩

theorem parse_of_plain {name : List Char} (h : Plain name) :
    PgRelation.parse name = ⟨.bare, [name]⟩ := by
  rcases parse_params name with hbare | ⟨schema, second, _, hsplit⟩
  · exact hbare.1
  · obtain ⟨rfl, _⟩ := splitPgQualified_eq_some.mp hsplit
    exact absurd h (not_plain_qualified schema second)

theorem parse_qualified {schema name : List Char} (hschema : Plain schema) (hname : Plain name) :
    PgRelation.parse (schema ++ '.' :: name) = ⟨.qualified, [schema, name]⟩ := by
  unfold PgRelation.parse
  rw [splitPgQualified_eq_some.mpr ⟨rfl, hschema, hname⟩]

/-! ## Names that are fed back -/

/-- The names of the object have no dot. -/
def PgObject.Plain (o : PgObject) : Prop := PgNames.Plain o.schema ∧ PgNames.Plain o.relname

theorem displayName_cases (o : PgObject) :
    (o.schema = "public".toList ∧ o.displayName = o.relname) ∨
      (o.schema ≠ "public".toList ∧ o.displayName = o.schema ++ '.' :: o.relname) := by
  unfold PgObject.displayName pgDisplayName
  split
  case isTrue hpublic => exact .inl ⟨hpublic, rfl⟩
  case isFalse hother => exact .inr ⟨hother, rfl⟩

theorem locate_displayName {server : Server} (hserver : server.Lawful) {o : PgObject}
    (ho : o ∈ server.objects) (hplain : o.Plain)
    (hpath : o.schema = "public".toList → server.firstHit o.relname = some o) :
    server.locate (PgRelation.parse o.displayName) = some o := by
  rcases displayName_cases o with ⟨hpublic, hname⟩ | ⟨_, hname⟩
  · rw [hname, parse_of_plain hplain.2]
    change server.toRegclass (server.quoteIdent o.relname) = some o
    rw [Server.toRegclass, hserver.bare o ho]
    exact hpath hpublic
  · rw [hname, parse_qualified hplain.1 hplain.2]
    change server.toRegclass
      (server.quoteIdent o.schema ++ '.' :: server.quoteIdent o.relname) = some o
    rw [Server.toRegclass, hserver.qualified o ho]
    exact Server.find_object ho

theorem displayName_inj {o o' : PgObject} (hplain : o.Plain) (hplain' : o'.Plain)
    (h : o.displayName = o'.displayName) : o = o' := by
  rcases displayName_cases o with ⟨hpublic, hname⟩ | ⟨_, hname⟩ <;>
    rcases displayName_cases o' with ⟨hpublic', hname'⟩ | ⟨_, hname'⟩ <;>
    rw [hname, hname'] at h
  · exact PgObject.ext (hpublic.trans hpublic'.symm) h
  · exact absurd (h ▸ hplain.2) (not_plain_qualified _ _)
  · exact absurd (h ▸ hplain'.2) (not_plain_qualified _ _)
  · have hsplit := splitPgQualified_eq_some.mpr ⟨rfl, hplain⟩
    rw [h, splitPgQualified_eq_some.mpr ⟨rfl, hplain'⟩] at hsplit
    injection hsplit with hpair
    injection hpair with hschema hrelname
    exact PgObject.ext hschema.symm hrelname.symm

/-- What is bound is the input, in two parts only if it is two names and a dot. -/
theorem parse_params_join (input : List Char) :
    ['.'].intercalate (PgRelation.parse input).params = input ∧
      ∀ schema name, (PgRelation.parse input).params = [schema, name] →
        Plain schema ∧ Plain name := by
  rcases parse_params input with ⟨hparse, _⟩ | ⟨schema, name, hparse, hsplit⟩
  · rw [hparse]
    refine ⟨by simp [List.intercalate], fun schema name h => ?_⟩
    injection h with _ h
    cases h
  · obtain ⟨hinput, hplain⟩ := splitPgQualified_eq_some.mp hsplit
    rw [hparse]
    refine ⟨by rw [hinput]; simp [List.intercalate], fun schema' name' h => ?_⟩
    injection h with hschema h
    injection h with hname _
    exact hschema ▸ hname ▸ hplain

/-- Every name `list_tables` shows addresses its object, no two objects share one, and no input
is bound as anything but itself. -/
theorem names_feed_back :
    (∀ (server : Server) (o : PgObject), server.Lawful → o ∈ server.objects → o.Plain →
      (o.schema = "public".toList → server.firstHit o.relname = some o) →
      server.locate (PgRelation.parse o.displayName) = some o) ∧
    (∀ o o' : PgObject, o.Plain → o'.Plain → o.displayName = o'.displayName → o = o') ∧
    ∀ input : List Char,
      ['.'].intercalate (PgRelation.parse input).params = input ∧
        (PgRelation.parse input).params.length ≤ 2 ∧
        ∀ schema name, (PgRelation.parse input).params = [schema, name] →
          Plain schema ∧ Plain name := by
  refine ⟨fun server o hserver ho hplain hpath => locate_displayName hserver ho hplain hpath,
    fun o o' hplain hplain' h => displayName_inj hplain hplain' h, fun input => ?_⟩
  obtain ⟨hjoin, htwo⟩ := parse_params_join input
  refine ⟨hjoin, ?_, htwo⟩
  rcases parse_params input with ⟨hparse, _⟩ | ⟨schema, name, hparse, _⟩
  all_goals
    rw [hparse]
    simp

/-- A server that quotes every name. -/
def quotingServer (objects : List PgObject) (searchPath : List (List Char)) : Server where
  objects := objects
  searchPath := searchPath
  quoteIdent := Quoted.quoted '"'
  readName text :=
    match Quoted.readQuoted '"' text with
    | some (first, []) => some [first]
    | some (first, '.' :: rest) =>
        (Quoted.readQuoted '"' rest).bind fun second =>
          if second.2 = [] then some [first, second.1] else none
    | _ => none

theorem quotingServer_lawful (objects : List PgObject) (searchPath : List (List Char)) :
    (quotingServer objects searchPath).Lawful where
  bare o _ := by
    have hread := Quoted.readQuoted_quoted '"' o.relname [] (by simp)
    rw [List.append_nil] at hread
    simp [quotingServer, hread]
  qualified o _ := by
    have hname := Quoted.readQuoted_quoted '"' o.relname [] (by simp)
    have hschema := Quoted.readQuoted_quoted '"' o.schema ('.' :: Quoted.quoted '"' o.relname)
      (by simp)
    rw [List.append_nil] at hname
    simp [quotingServer, hschema, hname]

theorem names_feed_back_orders :
    (quotingServer [⟨"audit".toList, "orders".toList⟩, ⟨"public".toList, "orders".toList⟩]
      ["public".toList]).locate (PgRelation.parse "orders".toList) =
      some ⟨"public".toList, "orders".toList⟩ ∧
    PgObject.displayName ⟨"audit".toList, "orders".toList⟩ ≠
      PgObject.displayName ⟨"public".toList, "orders".toList⟩ := by
  have haudit : PgObject.Plain ⟨"audit".toList, "orders".toList⟩ :=
    ⟨⟨by simp, by simp⟩, by simp, by simp⟩
  have hpublic : PgObject.Plain ⟨"public".toList, "orders".toList⟩ :=
    ⟨⟨by simp, by simp⟩, by simp, by simp⟩
  constructor
  · exact names_feed_back.1 _ ⟨"public".toList, "orders".toList⟩ (quotingServer_lawful _ _)
      (by simp [quotingServer]) hpublic (fun _ => by decide)
  · intro h
    have hsame := names_feed_back.2.1 _ _ haudit hpublic h
    exact absurd (congrArg PgObject.schema hsame) (by decide)

end Dbmaster.Metadata.PgNames
