import Dbmaster.Lib.Distinct
import Dbmaster.Metadata.Describe
import Dbmaster.Mongo.Cursor
import Dbmaster.Redis.Resp
import Mathlib.Data.Char
import Mathlib.Data.List.Dedup
import Mathlib.Data.List.Lex
/-!
# Stores without a schema

What `list_tables` and `describe_table` make of Redis and MongoDB: namespaces of the keys that a
`SCAN` comes across while others write, and columns from a sample of documents.
-/

namespace Dbmaster.Metadata.Sampled

open Dbmaster.Lib Dbmaster.Lib.Distinct Dbmaster.Mongo
open Dbmaster.Metadata.CsvColumns (IndexDetail)
open Dbmaster.Metadata.Describe
open Dbmaster.Redis (Resp)

/-! ## Redis -/

/-- `scan` replies to `SCAN cursor MATCH pattern COUNT 500`, by the pattern, the commands before it in
the loop and the cursor. -/
structure RedisServer where
  connected : Bool
  scan : Name → Nat → Name → Except (List Char) Resp
  typeOf : Name → Except (List Char) Resp

def scanKeys : Resp → List Name
  | .array items => items.filterMap fun item =>
    match item with
    | .bulkString b => some (Utf8.lossy b)
    | _ => none
  | _ => []

def scanReply : Resp → Except MetadataError (Name × List Name)
  | .array (.bulkString next :: batch :: _) => .ok (Utf8.lossy next, scanKeys batch)
  | .array (_ :: _ :: _) => .error ⟨"QUERY_FAILED", "malformed SCAN cursor".toList⟩
  | .array _ => .error ⟨"QUERY_FAILED", "malformed SCAN response".toList⟩
  | _ => .error ⟨"QUERY_FAILED", "unexpected SCAN response shape".toList⟩

section Scan

variable (server : RedisServer)

def scanRound (pattern : Name) (round : Nat) (cursor : Name) :
    Except MetadataError (Name × List Name) := do
  scanReply (← (server.scan pattern round cursor).mapError queryFailed)

def scanLoop (pattern : Name) (cap : Nat) :
    Nat → Nat → Name → List Name → Option (Except MetadataError (List Name))
  | 0, _, _, _ => none
  | fuel + 1, round, cursor, keys =>
    match scanRound server pattern round cursor with
    | .error e => some (.error e)
    | .ok (next, batch) =>
      if cap ≤ (keys ++ batch).length ∨ next = ['0'] then some (.ok (keys ++ batch))
      else scanLoop pattern cap fuel (round + 1) next (keys ++ batch)

def redisScanAll (fuel : Nat) (pattern : Name) (cap : Nat) :
    Option (Except MetadataError (List Name)) :=
  scanLoop server pattern cap fuel 0 ['0'] []

end Scan

def rootNamespace : Name := "(root)".toList

/-- The segment before the first colon. -/
def namespaceOf (key : Name) : Name :=
  let segment := key.takeWhile fun c => c ≠ ':'
  if !segment.isEmpty && decide (segment.length < key.length) then segment else rootNamespace

structure TableSummary where
  name : Name
  schema : Option Name
  kind : String
  comment : Option (List Char)
  rowEstimate : Option Int

/-- A `BTreeSet`, in order. -/
def namespaces (keys : List Name) : List Name :=
  (keys.map namespaceOf).dedup.mergeSort fun a b => decide (a ≤ b)

/-- `list_tables` of Redis. -/
def listRedis (server : RedisServer) (fuel : Nat) :
    Option (Except MetadataError (List TableSummary)) :=
  if server.connected then
    (redisScanAll server fuel ['*'] 10000).map fun found => found.map fun keys =>
      (namespaces keys).map fun name => ⟨name, none, "table", none, none⟩
  else some (.error connectFailed)

def keyTypeOf : Resp → List Char
  | .simpleString s => Text.asciiLower s.toList
  | .bulkString b => Text.asciiLower (Utf8.lossy b)
  | _ => "none".toList

def fieldSpecs (keyType : List Char) : List (String × String) :=
  if keyType = "hash".toList then [("field", "string"), ("value", "string")]
  else if keyType = "list".toList then [("index", "int"), ("value", "string")]
  else if keyType = "set".toList then [("member", "string")]
  else if keyType = "zset".toList then [("member", "string"), ("score", "double")]
  else if keyType = "stream".toList then [("id", "string"), ("fields", "object")]
  else [("value", "string")]

def sampledColumn (name dataType : List Char) : ColumnDetail := ⟨name, dataType, true, none, none⟩

def sampledTable (table : Name) (columns : List ColumnDetail) (indexes : List IndexDetail) :
    TableDescription := ⟨table, none, columns, [], indexes, []⟩

def redisTable (table : Name) (type : Resp) : TableDescription :=
  sampledTable table
    ((fieldSpecs (keyTypeOf type)).map fun spec => sampledColumn spec.1.toList spec.2.toList) []

def patternOf (table : Name) : Name := if table = rootNamespace then ['*'] else table ++ [':', '*']

def describeRedis (server : RedisServer) (fuel : Nat) (dbIdx : Int) (table : Name) :
    Option (Except MetadataError TableDescription) :=
  if server.connected then
    (redisScanAll server fuel (patternOf table) 20).map fun found => do
      match (← found).head? with
      | none =>
        .error (notFound ("namespace '".toList ++ table ++ "' (database '".toList ++
          (toString dbIdx).toList ++ "')".toList))
      | some firstKey => .ok (redisTable table (← (server.typeOf firstKey).mapError queryFailed))
  else some (.error connectFailed)

/-! ## MongoDB -/

def bsonTypeName : Bson → String
  | .double _ => "double"
  | .string _ => "string"
  | .array _ => "array"
  | .document _ => "object"
  | .boolean _ => "bool"
  | .null => "null"
  | .int32 _ => "int32"
  | .int64 _ => "int64"
  | .objectId _ => "objectId"
  | .dateTime _ => "date"
  | .timestamp _ _ => "timestamp"
  | .decimal128 _ => "decimal128"
  | .binary _ _ => "binData"
  | .regularExpression _ _ => "regex"
  | .javaScriptCode _ | .symbol _ | .other _ => "other"

def isNull : Bson → Bool
  | .null => true
  | _ => false

/-- The columns found so far. -/
structure Sample where
  names : List String
  types : List String

def Sample.field (s : Sample) (field : String × Bson) : Sample :=
  if field.1 ∈ s.names then
    let i := s.names.idxOf field.1
    if decide (s.types[i]? = some "null") && !isNull field.2 then
      { s with types := s.types.set i (bsonTypeName field.2) }
    else s
  else ⟨s.names ++ [field.1], s.types ++ [bsonTypeName field.2]⟩

def sampleDocs (docs : List Document) : Sample :=
  docs.foldl (fun s doc => doc.foldl Sample.field s) ⟨[], []⟩

def getBool (doc : Document) (key : String) : Option Bool :=
  match Document.get doc key with
  | some (.boolean b) => some b
  | _ => none

def mongoIndex (ix : Document) : Option IndexDetail := do
  let name ← Document.getStr ix "name"
  let key ← Document.getDocument ix "key"
  return ⟨name.toList, key.map fun field => field.1.toList, (getBool ix "unique").getD false⟩

/-- The replies to `listCollections`, `find` and `listIndexes`. -/
structure MongoAnswers where
  connected : Bool
  listCollections : Except (List Char) Document
  find : Except (List Char) Document
  listIndexes : Except (List Char) Document

def mongoBatch (resp : Document) : List Document :=
  ((Cursor.cursorFirstBatch resp).map fun found => found.1).getD []

def describeMongo (answers : MongoAnswers) (db table : Name) :
    Except MetadataError TableDescription :=
  if answers.connected then do
    let resp ← answers.listCollections.mapError queryFailed
    if (mongoBatch resp).isEmpty then
      .error (notFound ("collection '".toList ++ table ++ "' (database '".toList ++ db ++
        "')".toList))
    else do
      let resp ← answers.find.mapError queryFailed
      let sample := sampleDocs (mongoBatch resp)
      let columns := (sample.names.zip sample.types).map fun column =>
        sampledColumn column.1.toList column.2.toList
      -- the indexes of a view are an error
      let indexes := match answers.listIndexes with
        | .ok resp => (mongoBatch resp).filterMap mongoIndex
        | .error _ => []
      .ok (sampledTable table columns indexes)
  else .error connectFailed

/-! ## A scan while others write -/

section Scans

variable {server : RedisServer} {pattern cursor : Name} {round fuel cap : Nat}
variable {batches : List (List Name)}

/-- The batches until the cursor is back at the start. -/
inductive Iteration (server : RedisServer) (pattern : Name) : Nat → Name → List (List Name) → Prop
  | last {round : Nat} {cursor : Name} {batch : List Name}
      (h : scanRound server pattern round cursor = .ok (['0'], batch)) :
      Iteration server pattern round cursor [batch]
  | more {round : Nat} {cursor next : Name} {batch : List Name} {batches : List (List Name)}
      (h : scanRound server pattern round cursor = .ok (next, batch)) (hnext : next ≠ ['0'])
      (htail : Iteration server pattern (round + 1) next batches) :
      Iteration server pattern round cursor (batch :: batches)

/-- The loop reads the iteration from its start on, and stops short of its end only at the cap. -/
theorem Iteration.scanLoop (h : Iteration server pattern round cursor batches)
    (hfuel : batches.length ≤ fuel) (keys : List Name) :
    ∃ found, scanLoop server pattern cap fuel round cursor keys = some (.ok found) ∧
      found <+: keys ++ batches.flatten ∧
        (found = keys ++ batches.flatten ∨ cap ≤ found.length) := by
  induction h generalizing fuel keys with
  | @last round cursor batch h =>
      obtain ⟨fuel, rfl⟩ := Nat.exists_eq_add_of_le' hfuel
      refine ⟨keys ++ batch, ?_, ?_⟩
      · rw [List.length_singleton, Sampled.scanLoop, h]
        exact if_pos (Or.inr rfl)
      · rw [List.flatten_singleton]
        exact ⟨List.prefix_refl _, Or.inl rfl⟩
  | @more round cursor next batch batches h hnext htail ih =>
      obtain ⟨fuel, rfl⟩ : ∃ n, fuel = n + 1 := Nat.exists_eq_add_of_le' (by
        rw [List.length_cons] at hfuel
        omega)
      rw [List.length_cons, Nat.add_le_add_iff_right] at hfuel
      obtain ⟨found, hfound, hpart, hall⟩ := ih hfuel (keys ++ batch)
      rw [List.append_assoc] at hpart hall
      rw [Sampled.scanLoop, h, List.flatten_cons]
      dsimp only
      by_cases hcap : cap ≤ (keys ++ batch).length
      · refine ⟨keys ++ batch, if_pos (Or.inl hcap), ?_, Or.inr hcap⟩
        rw [← List.append_assoc]
        exact List.prefix_append _ _
      · rw [if_neg (not_or.mpr ⟨hcap, hnext⟩)]
        exact ⟨found, hfound, hpart, hall⟩

/-- What `SCAN` promises of the keys that match: an iteration has each that is there throughout, and
none that never was. -/
structure Keyspace (server : RedisServer) (glob : Name → Name → Bool) (stays was : Name → Prop) :
    Prop where
  complete : ∀ pattern batches, Iteration server pattern 0 ['0'] batches →
    ∀ key, stays key → glob pattern key = true → key ∈ batches.flatten
  sound : ∀ pattern batches, Iteration server pattern 0 ['0'] batches →
    ∀ key ∈ batches.flatten, was key ∧ glob pattern key = true

/-- What the patterns of Redis mean of a text without special characters. -/
def GlobPrefix (glob : Name → Name → Bool) : Prop :=
  ∀ text key : Name, (∀ c ∈ text, c ∉ ['*', '?', '[', '\\']) →
    (glob (text ++ ['*']) key = true ↔ text <+: key)

variable {glob : Name → Name → Bool} {stays was : Name → Prop}

theorem Keyspace.redisScanAll (h : Keyspace server glob stays was)
    (hiter : Iteration server pattern 0 ['0'] batches) (hfuel : batches.length ≤ fuel) (cap : Nat) :
    ∃ found, redisScanAll server fuel pattern cap = some (.ok found) ∧
      (∀ key ∈ found, was key ∧ glob pattern key = true) ∧
        ((∀ key, stays key → glob pattern key = true → key ∈ found) ∨ cap ≤ found.length) := by
  obtain ⟨found, hfound, hpart, hall⟩ := hiter.scanLoop hfuel []
  refine ⟨found, hfound, fun key hkey => h.sound _ _ hiter key (hpart.subset hkey), ?_⟩
  rcases hall with hall | hcap
  · rw [List.nil_append] at hall
    rw [hall]
    exact Or.inl (h.complete _ _ hiter)
  · exact Or.inr hcap

/-! ## Namespaces -/

theorem mem_namespaces {keys : List Name} {name : Name} :
    name ∈ namespaces keys ↔ ∃ key ∈ keys, namespaceOf key = name := by
  unfold namespaces
  rw [List.mem_mergeSort, List.mem_dedup, List.mem_map]

theorem namespaces_pairwise (keys : List Name) : (namespaces keys).Pairwise (· < ·) := by
  unfold namespaces
  have hsorted : ((keys.map namespaceOf).dedup.mergeSort fun a b => decide (a ≤ b)).Pairwise
      fun a b => decide (a ≤ b) = true := by
    apply List.pairwise_mergeSort
    · exact fun a b c hab hbc =>
        decide_eq_true (le_trans (of_decide_eq_true hab) (of_decide_eq_true hbc))
    · intro a b
      rw [Bool.or_eq_true, decide_eq_true_iff, decide_eq_true_iff]
      exact le_total a b
  have hnodup : ((keys.map namespaceOf).dedup.mergeSort fun a b => decide (a ≤ b)).Nodup :=
    (List.mergeSort_perm _ _).nodup_iff.mpr (List.nodup_dedup _)
  exact hsorted.imp₂ (fun a b hle hne => lt_of_le_of_ne (of_decide_eq_true hle) hne) hnodup

/-- The tables of a Redis database are the namespaces of its keys, each once and in order, unless ten
thousand keys have been read. -/
theorem listRedis_exact (hconnected : server.connected = true)
    (h : Keyspace server glob stays was) (hglob : GlobPrefix glob)
    (hiter : Iteration server ['*'] 0 ['0'] batches) (hfuel : batches.length ≤ fuel) :
    ∃ tables, listRedis server fuel = some (.ok tables) ∧
      (tables.map TableSummary.name).Pairwise (· < ·) ∧
      (∀ table ∈ tables, ∃ key, was key ∧ namespaceOf key = table.name) ∧
      (batches.flatten.length < 10000 →
        ∀ key, stays key → ∃ table ∈ tables, table.name = namespaceOf key) := by
  obtain ⟨found, hfound, hpart, hall⟩ := hiter.scanLoop hfuel []
  refine ⟨(namespaces found).map fun name => ⟨name, none, "table", none, none⟩, ?_, ?_, ?_, ?_⟩
  · unfold listRedis redisScanAll
    rw [if_pos hconnected, hfound]
    rfl
  · rw [List.map_map]
    exact (namespaces_pairwise found).map _ fun _ _ hlt => hlt
  · intro table htable
    obtain ⟨name, hname, rfl⟩ := List.mem_map.mp htable
    obtain ⟨key, hkey, rfl⟩ := mem_namespaces.mp hname
    exact ⟨key, (h.sound _ _ hiter key (hpart.subset hkey)).1, rfl⟩
  · intro hfew key hkey
    have hmem : key ∈ found := by
      rcases hall with hall | hcap
      · rw [hall]
        exact h.complete _ _ hiter key hkey
          ((hglob [] key (by rintro c ⟨⟩)).mpr List.nil_prefix)
      · have hlength := hpart.length_le
        rw [List.nil_append] at hlength
        omega
    exact ⟨_, List.mem_map_of_mem (mem_namespaces.mpr ⟨key, hmem, rfl⟩), rfl⟩

theorem prefix_of_namespaceOf {key ns : Name} (h : namespaceOf key = ns) (hns : ns ≠ rootNamespace) :
    ns ≠ [] ∧ ':' ∉ ns ∧ ns ++ [':'] <+: key := by
  have hkey := List.takeWhile_append_dropWhile (p := fun c => decide (c ≠ ':')) (l := key)
  unfold namespaceOf at h
  dsimp only at h
  split_ifs at h with hsegment
  case neg => exact absurd h.symm hns
  case pos =>
    subst h
    rw [Bool.and_eq_true, Bool.not_eq_true', List.isEmpty_eq_false_iff, decide_eq_true_iff]
      at hsegment
    have hcolon : ':' ∉ key.takeWhile fun c => decide (c ≠ ':') := by
      intro hmem
      have hsame : decide (':' ≠ ':') = true := List.mem_takeWhile_imp
        (p := fun c => decide (c ≠ ':')) hmem
      exact absurd hsame (by decide)
    refine ⟨hsegment.1, hcolon, ?_⟩
    have hhead := List.head?_dropWhile_not (fun c => decide (c ≠ ':')) key
    cases hrest : key.dropWhile fun c => decide (c ≠ ':') with
    | nil =>
        rw [hrest, List.append_nil] at hkey
        rw [hkey] at hsegment
        exact absurd hsegment.2 (lt_irrefl _)
    | cons c rest =>
        rw [hrest, List.head?_cons] at hhead
        obtain rfl : c = ':' := not_not.mp (of_decide_eq_false hhead)
        refine ⟨rest, ?_⟩
        rw [List.append_assoc, List.singleton_append, ← hrest]
        exact hkey

theorem namespaceOf_of_prefix {key ns : Name} (hne : ns ≠ []) (hcolon : ':' ∉ ns)
    (h : ns ++ [':'] <+: key) : namespaceOf key = ns := by
  obtain ⟨rest, rfl⟩ := h
  have hsegment : (ns ++ [':'] ++ rest).takeWhile (fun c => decide (c ≠ ':')) = ns := by
    rw [List.append_assoc, List.takeWhile_append_of_pos, List.singleton_append,
      List.takeWhile_cons_of_neg, List.append_nil]
    · exact fun hne => of_decide_eq_true hne rfl
    · exact fun c hc => decide_eq_true fun heq => hcolon (heq ▸ hc)
  unfold namespaceOf
  dsimp only
  rw [hsegment]
  refine if_pos ?_
  rw [Bool.and_eq_true, Bool.not_eq_true', List.isEmpty_eq_false_iff, decide_eq_true_iff]
  refine ⟨hne, ?_⟩
  rw [List.length_append, List.length_append, List.length_singleton]
  omega

end Scans

/-! ## Columns of a sample -/

section Columns

variable {fields : List (String × Bson)} {field : String × Bson} {key : String}

/-- The type of the first value that is not null. -/
def inferredType (fields : List (String × Bson)) (key : String) : String :=
  ((fields.find? fun field => decide (field.1 = key) && !isNull field.2).map fun field =>
    bsonTypeName field.2).getD "null"

theorem bsonTypeName_of_isNull {value : Bson} (h : isNull value = true) :
    bsonTypeName value = "null" := by
  cases value with
  | null => rfl
  | _ => cases h

theorem bsonTypeName_ne {value : Bson} (h : isNull value = false) : bsonTypeName value ≠ "null" := by
  cases value with
  | null => cases h
  | _ => exact of_decide_eq_true rfl

theorem inferredType_eq_null_iff :
    inferredType fields key = "null" ↔
      fields.find? (fun field => decide (field.1 = key) && !isNull field.2) = none := by
  unfold inferredType
  cases hfound : fields.find? fun field => decide (field.1 = key) && !isNull field.2 with
  | none => exact ⟨fun _ => rfl, fun _ => rfl⟩
  | some field =>
      have hvalue := List.find?_some hfound
      rw [Bool.and_eq_true, Bool.not_eq_true'] at hvalue
      exact ⟨fun h => absurd h (bsonTypeName_ne hvalue.2), fun h => by cases h⟩

theorem inferredType_concat_ne (h : field.1 ≠ key) :
    inferredType (fields ++ [field]) key = inferredType fields key := by
  unfold inferredType
  rw [List.find?_append, List.find?_singleton, decide_eq_false h, Bool.false_and,
    if_neg Bool.false_ne_true, Option.or_none]

theorem inferredType_concat_of_ne_null (h : inferredType fields key ≠ "null") :
    inferredType (fields ++ [field]) key = inferredType fields key := by
  rw [Ne, inferredType_eq_null_iff, ← Ne, Option.ne_none_iff_exists'] at h
  obtain ⟨found, hfound⟩ := h
  unfold inferredType
  rw [List.find?_append, hfound, Option.some_or]

theorem inferredType_concat_of_null (h : inferredType fields field.1 = "null") :
    inferredType (fields ++ [field]) field.1 = bsonTypeName field.2 := by
  rw [inferredType_eq_null_iff] at h
  unfold inferredType
  rw [List.find?_append, h, Option.none_or, List.find?_singleton, decide_eq_true rfl, Bool.true_and]
  cases hnull : isNull field.2 with
  | true => exact (bsonTypeName_of_isNull hnull).symm
  | false => rfl

theorem map_eq_set {names : List String} {old new : String → String} (hnodup : names.Nodup)
    (hkey : key ∈ names) (h : ∀ name ∈ names, name ≠ key → new name = old name) :
    names.map new = (names.map old).set (names.idxOf key) (new key) := by
  induction names with
  | nil => cases hkey
  | cons name names ih =>
      obtain ⟨hfresh, hnodup⟩ := List.nodup_cons.mp hnodup
      by_cases hsame : name = key
      · subst hsame
        rw [List.idxOf_cons_self, List.map_cons, List.map_cons, List.set_cons_zero]
        congr 1
        apply List.map_congr_left
        intro other hother
        exact h other (List.mem_cons_of_mem _ hother) fun heq => hfresh (heq ▸ hother)
      · rw [List.idxOf_cons_ne _ hsame, List.map_cons, List.map_cons, List.set_cons_succ,
          h name List.mem_cons_self hsame, ih hnodup ((List.mem_cons.mp hkey).resolve_left
            (Ne.symm hsame)) fun other hother => h other (List.mem_cons_of_mem _ hother)]

theorem inferredType_of_notMem (h : key ∉ fields.map Prod.fst) : inferredType fields key = "null" := by
  rw [inferredType_eq_null_iff, List.find?_eq_none]
  intro field hfield hmatch
  rw [Bool.and_eq_true, decide_eq_true_iff] at hmatch
  exact h (hmatch.1 ▸ List.mem_map_of_mem hfield)

/-- What a field does to the types of the names there are. -/
theorem types_concat {names : List String} (hnodup : names.Nodup) (hmem : field.1 ∈ names) :
    names.map (inferredType (fields ++ [field])) =
      if decide (inferredType fields field.1 = "null") && !isNull field.2 then
        (names.map (inferredType fields)).set (names.idxOf field.1) (bsonTypeName field.2)
      else names.map (inferredType fields) := by
  split_ifs with hset
  · rw [Bool.and_eq_true, decide_eq_true_iff] at hset
    rw [← inferredType_concat_of_null hset.1]
    exact map_eq_set hnodup hmem fun name _ hne => inferredType_concat_ne (Ne.symm hne)
  · apply List.map_congr_left
    intro name _
    by_cases hsame : field.1 = name
    · subst hsame
      by_cases hnull : inferredType fields field.1 = "null"
      · rw [decide_eq_true hnull, Bool.true_and, Bool.not_eq_true', Bool.not_eq_false] at hset
        rw [inferredType_concat_of_null hnull, bsonTypeName_of_isNull hset, hnull]
      · exact inferredType_concat_of_ne_null hnull
    · exact inferredType_concat_ne hsame

/-- The names in the order in which they were first seen, each once and with its type. -/
theorem foldl_field (fields : List (String × Bson)) :
    fields.foldl Sample.field ⟨[], []⟩ =
      ⟨(fields.map Prod.fst).eraseDups,
        (fields.map Prod.fst).eraseDups.map (inferredType fields)⟩ := by
  induction fields using List.reverseRecOn with
  | nil => rfl
  | append_singleton fields field ih =>
      rw [List.foldl_append, ih, List.foldl_cons, List.foldl_nil, List.map_append, List.map_singleton]
      unfold Sample.field
      dsimp only
      by_cases hknown : field.1 ∈ fields.map Prod.fst
      · have hmem : field.1 ∈ (fields.map Prod.fst).eraseDups := List.mem_eraseDups.mpr hknown
        rw [eraseDups_concat_of_mem hknown, if_pos hmem,
          types_concat (nodup_eraseDups _) hmem, List.getElem?_map, List.getElem?_idxOf hmem,
          Option.map_some]
        simp only [Option.some.injEq]
        split_ifs <;> rfl
      · have hfresh : field.1 ∉ (fields.map Prod.fst).eraseDups := by rwa [List.mem_eraseDups]
        rw [eraseDups_concat_of_notMem hknown, if_neg hfresh, List.map_append,
          List.map_singleton, inferredType_concat_of_null (inferredType_of_notMem hknown)]
        congr 2
        apply List.map_congr_left
        intro name hname
        exact (inferredType_concat_ne fun heq => hfresh (heq ▸ hname)).symm

theorem sampleDocs_eq (docs : List Document) :
    sampleDocs docs = docs.flatten.foldl Sample.field ⟨[], []⟩ :=
  List.foldl_flatten.symm

end Columns

/-- The document that `listIndexes` has of an index. -/
structure IndexDocument (k : Key) (doc : Document) : Prop where
  name : ∃ name, Document.getStr doc "name" = some name ∧ name.toList = k.name
  columns : ∃ key, Document.getDocument doc "key" = some key ∧
    key.map (fun field => field.1.toList) = k.columns
  unique : (getBool doc "unique").getD false = k.unique

theorem mongoIndex_eq {k : Key} {doc : Document} (h : IndexDocument k doc) :
    mongoIndex doc = some k.detail := by
  obtain ⟨name, hname, hnameEq⟩ := h.name
  obtain ⟨key, hkey, hcolumns⟩ := h.columns
  unfold mongoIndex
  rw [hname, hkey, h.unique]
  change some (IndexDetail.mk name.toList (key.map fun field => field.1.toList) k.unique) = _
  rw [hnameEq, hcolumns]
  rfl

theorem filterMap_mongoIndex {keys : List Key} {docs : List Document}
    (h : List.Forall₂ IndexDocument keys docs) :
    docs.filterMap mongoIndex = keys.map Key.detail := by
  induction h with
  | nil => rfl
  | cons hkey _ ih => rw [List.filterMap_cons_some (mongoIndex_eq hkey), ih, List.map_cons]

/-- A collection is described by the fields of the sampled documents, each name once, where it was
first seen, with the type of its first value that is not null, and by all of its indexes. -/
theorem describeMongo_described {answers : MongoAnswers} {db table : Name}
    {listed sampled indexed : Document} {keys : List Key} (hconnected : answers.connected = true)
    (hlisted : answers.listCollections = .ok listed) (hexists : mongoBatch listed ≠ [])
    (hsampled : answers.find = .ok sampled) (hindexed : answers.listIndexes = .ok indexed)
    (hkeys : List.Forall₂ IndexDocument keys (mongoBatch indexed)) :
    describeMongo answers db table = .ok (sampledTable table
      (((mongoBatch sampled).flatten.map Prod.fst).eraseDups.map fun key =>
        sampledColumn key.toList (inferredType (mongoBatch sampled).flatten key).toList)
      (keys.map Key.detail)) := by
  unfold describeMongo
  rw [if_pos hconnected, hlisted, hsampled, hindexed]
  change (if (mongoBatch listed).isEmpty = true then _ else _) = _
  rw [if_neg (by rwa [List.isEmpty_iff])]
  change Except.ok (sampledTable table _ ((mongoBatch indexed).filterMap mongoIndex)) = _
  rw [filterMap_mongoIndex hkeys, sampleDocs_eq, foldl_field]
  dsimp only
  rw [← List.map_prod_left_eq_zip, List.map_map]
  rfl

/-! ## A server with three keys, and a collection of two documents -/

def fixtureGlob (pattern key : Name) : Bool :=
  if pattern.getLast? = some '*' then pattern.dropLast.isPrefixOf key else decide (pattern = key)

theorem globPrefix_fixtureGlob : GlobPrefix fixtureGlob := by
  intro text key _
  unfold fixtureGlob
  rw [List.getLast?_append_of_ne_nil _ (List.cons_ne_nil _ _), List.dropLast_concat]
  exact List.isPrefixOf_iff_prefix

/-- `user:1`, `user:2` and `flag`. -/
def fixtureKeys : List (List UInt8) :=
  [[117, 115, 101, 114, 58, 49], [117, 115, 101, 114, 58, 50], [102, 108, 97, 103]]

def fixtureServer : RedisServer where
  connected := true
  scan pattern _ _ := .ok (.array [.bulkString [48],
    .array ((fixtureKeys.filter fun b => fixtureGlob pattern (Utf8.lossy b)).map .bulkString)])
  typeOf _ := .ok (.simpleString "hash")

def FixtureKey (key : Name) : Prop := ∃ b ∈ fixtureKeys, Utf8.lossy b = key

theorem mem_scanKeys {keys : List (List UInt8)} {key : Name} :
    key ∈ scanKeys (.array (keys.map .bulkString)) ↔ ∃ b ∈ keys, Utf8.lossy b = key := by
  unfold scanKeys
  dsimp only
  rw [List.filterMap_map, List.mem_filterMap]
  exact exists_congr fun b => and_congr_right fun _ => Option.some_inj

theorem iteration_fixtureServer (pattern : Name) :
    ∃ batches, Iteration fixtureServer pattern 0 ['0'] batches ∧ batches.length = 1 :=
  ⟨_, .last rfl, rfl⟩

theorem keyspace_fixtureServer : Keyspace fixtureServer fixtureGlob FixtureKey FixtureKey := by
  have hflatten : ∀ pattern batches, Iteration fixtureServer pattern 0 ['0'] batches →
      batches.flatten = scanKeys (.array
        ((fixtureKeys.filter fun b => fixtureGlob pattern (Utf8.lossy b)).map .bulkString)) := by
    intro pattern batches hiter
    cases hiter with
    | last h =>
        rw [List.flatten_singleton]
        exact (Prod.mk.inj (Except.ok.inj h)).2.symm
    | more h hnext _ => exact absurd (Prod.mk.inj (Except.ok.inj h)).1.symm hnext
  constructor
  · rintro pattern batches hiter key ⟨b, hb, rfl⟩ hglob
    rw [hflatten pattern batches hiter, mem_scanKeys]
    exact ⟨b, List.mem_filter.mpr ⟨hb, hglob⟩, rfl⟩
  · intro pattern batches hiter key hkey
    rw [hflatten pattern batches hiter, mem_scanKeys] at hkey
    obtain ⟨b, hb, rfl⟩ := hkey
    obtain ⟨hb, hglob⟩ := List.mem_filter.mp hb
    exact ⟨⟨b, hb, rfl⟩, hglob⟩

theorem listRedis_exact_fixture : ∃ tables, listRedis fixtureServer 1 = some (.ok tables) ∧
    (tables.map TableSummary.name).Pairwise (· < ·) := by
  obtain ⟨batches, hiter, hlength⟩ := iteration_fixtureServer ['*']
  obtain ⟨tables, htables, hsorted, -⟩ :=
    listRedis_exact rfl keyspace_fixtureServer globPrefix_fixtureGlob hiter hlength.le
  exact ⟨tables, htables, hsorted⟩

def fixtureNamespace : Name := ['u', 's', 'e', 'r']

def fixtureReply (docs : List Document) : Document :=
  [("cursor", .document [("firstBatch", .array (docs.map .document))])]

def fixtureDocs : List Document :=
  [[("_id", .int32 1), ("name", .null)], [("_id", .int32 2), ("age", .int64 7), ("name", .string "a")]]

def fixtureIndex : Document :=
  [("v", .int32 2), ("key", .document [("_id", .int32 1)]), ("name", .string "_id_")]

def fixtureMongo : MongoAnswers where
  connected := true
  listCollections := .ok (fixtureReply [[("name", .string "users")]])
  find := .ok (fixtureReply fixtureDocs)
  listIndexes := .ok (fixtureReply [fixtureIndex])

def fixtureKey : Key := ⟨"_id_".toList, false, ["_id".toList], List.cons_ne_nil _ _⟩

theorem fixtureIndex_of_key : List.Forall₂ IndexDocument [fixtureKey]
    (mongoBatch (fixtureReply [fixtureIndex])) :=
  .cons ⟨⟨_, rfl, rfl⟩, ⟨_, rfl, rfl⟩, rfl⟩ .nil

theorem describeMongo_described_fixture :
    describeMongo fixtureMongo "app".toList "users".toList = .ok (sampledTable "users".toList
      [sampledColumn "_id".toList "int32".toList, sampledColumn "name".toList "string".toList,
        sampledColumn "age".toList "int64".toList]
      [⟨"_id_".toList, ["_id".toList], false⟩]) := by
  have hexists : mongoBatch (fixtureReply [[("name", .string "users")]]) ≠ [] :=
    List.cons_ne_nil _ _
  have hindexed : fixtureMongo.listIndexes = .ok (fixtureReply [fixtureIndex]) := rfl
  exact describeMongo_described rfl rfl hexists rfl hindexed fixtureIndex_of_key

end Dbmaster.Metadata.Sampled
