import Dbmaster.Mongo.Bson
import Dbmaster.Lib.Base64
import Dbmaster.Lib.Hex
/-!
# BSON and JSON

A document as the JSON value that a client is shown, and the command that a JSON value
denotes.
-/

namespace Dbmaster.Mongo.ExtendedJson

open Dbmaster.Lib

/-! ## JSON values -/

structure FiniteDouble where
  value : Double
  finite : value.isFinite = true

inductive Value
  | null
  | bool (b : Bool)
  | int (n : Int)
  | float (f : FiniteDouble)
  | string (s : String)
  | array (items : List Value)
  /-- the members in their order; no two have one name -/
  | object (members : List (String × Value))

def Value.asObject : Value → Option (List (String × Value))
  | .object members => some members
  | _ => none

def Value.asStr : Value → Option String
  | .string s => some s
  | _ => none

def asI64 (n : Int) : Option Int64 :=
  if -9223372036854775808 ≤ n ∧ n ≤ 9223372036854775807 then some (Int64.ofInt n) else none

/-- `Number::from_f64` -/
def numberFromF64 (f : Double) : Option FiniteDouble :=
  if h : f.isFinite = true then some ⟨f, h⟩ else none

def member (members : List (String × Value)) (key : String) : Option Value :=
  (members.find? fun m => decide (m.1 = key)).map Prod.snd

/-- The texts of dates and of decimals, and the double next to an integer. -/
structure Crates where
  tryToRfc3339String : Int64 → Option String
  displayDateTime : Int64 → String
  parseRfc3339Str : String → Option Int64
  displayDecimal : Decimal128 → String
  parseDecimal : String → Option Decimal128
  asF64 : Int → Option Double

variable (crates : Crates)

/-! ## From JSON -/

def extendedJsonToBson : List (String × Value) → Option Bson
  | [(key, v)] =>
      if key = "$oid" then
        (v.asStr.bind fun oid => Hex.decode oid.toList).bind fun bytes =>
          if h : bytes.length = 12 then some (.objectId ⟨bytes, h⟩) else none
      else if key = "$date" then
        match v with
        | .string date => (crates.parseRfc3339Str date).map .dateTime
        | .int ms => (asI64 ms).map .dateTime
        | _ => none
      else if key = "$numberDecimal" then
        (v.asStr.bind crates.parseDecimal).map .decimal128
      else if key = "$binary" then do
        let inner ← v.asObject
        let bytes ← Base64.decode (← (← member inner "base64").asStr).toList
        let sub ← Hex.parseByte (← (← member inner "subType").asStr).toList
        return .binary sub bytes
      else none
  | _ => none

mutual

/-- The names of a map are distinct: `insert` adds a field at the end. -/
def jsonMapToDoc : List (String × Value) → Except String Document
  | [] => .ok []
  | (k, v) :: map => do
      let bson ← match v with
        | .object inner =>
            match extendedJsonToBson crates inner with
            | some bson => .ok bson
            | none => jsonValueToBson (.object inner)
        | v => jsonValueToBson v
      let doc ← jsonMapToDoc map
      return (k, bson) :: doc

def jsonValueToBson : Value → Except String Bson
  | .null => .ok .null
  | .bool b => .ok (.boolean b)
  | .int n =>
      match asI64 n with
      | some i => .ok (.int64 i)
      | none =>
          match crates.asF64 n with
          | some f => .ok (.double f)
          | none => .error "number out of representable range"
  | .float f => .ok (.double f.value)
  | .string s => .ok (.string s)
  | .array items => do return .array (← jsonItemsToBson items)
  | .object map => do return .document (← jsonMapToDoc map)

def jsonItemsToBson : List Value → Except String (List Bson)
  | [] => .ok []
  | v :: items => do
      let bson ← jsonValueToBson v
      let rest ← jsonItemsToBson items
      return bson :: rest

end

def jsonToCommandDoc : Value → Except String Document
  | .object map => jsonMapToDoc crates map
  | _ => .error "command must be a JSON object"

/-! ## To JSON -/

mutual

def bsonToJson : Bson → Value
  | .double f => (numberFromF64 f).elim .null .float
  | .string s => .string s
  | .boolean b => .bool b
  | .null => .null
  | .int32 i => .int i.toInt
  | .int64 i => .int i.toInt
  | .objectId oid => .object [("$oid", .string (String.ofList (Hex.encode oid.bytes)))]
  | .dateTime ms =>
      .object [("$date", .string ((crates.tryToRfc3339String ms).getD (crates.displayDateTime ms)))]
  | .timestamp time increment =>
      .object [("$timestamp", .object [("t", .int time.toNat), ("i", .int increment.toNat)])]
  | .decimal128 d => .object [("$numberDecimal", .string (crates.displayDecimal d))]
  | .binary subtype bytes =>
      .object [("$binary", .object [("base64", .string (String.ofList (Base64.encode bytes))),
        ("subType", .string (String.ofList (Hex.byte subtype)))])]
  | .regularExpression pattern options =>
      .object [("$regex", .string pattern), ("$options", .string options)]
  | .javaScriptCode code => .object [("$code", .string code)]
  | .symbol s => .string s
  | .array items => .array (bsonItemsToJson items)
  | .document doc => .object (bsonFieldsToJson doc)
  | .other display => .string display

def bsonItemsToJson : List Bson → List Value
  | [] => []
  | b :: items => bsonToJson b :: bsonItemsToJson items

def bsonFieldsToJson : List (String × Bson) → List (String × Value)
  | [] => []
  | (k, b) :: doc => (k, bsonToJson b) :: bsonFieldsToJson doc

end

def documentToJson (doc : Document) : Value := .object (bsonFieldsToJson crates doc)

/-! ## What comes back -/

mutual

/-- The value without the width of its integers, and without what no JSON number is. -/
def widen : Bson → Bson
  | .double f => if f.isFinite then .double f else .null
  | .int32 i => .int64 (Int64.ofInt i.toInt)
  | .array items => .array (widenItems items)
  | .document doc => .document (widenFields doc)
  | b => b

def widenItems : List Bson → List Bson
  | [] => []
  | b :: items => widen b :: widenItems items

def widenFields : List (String × Bson) → List (String × Bson)
  | [] => []
  | (k, b) :: doc => (k, widen b) :: widenFields doc

end

def isScalar : Bson → Bool
  | .double _ | .string _ | .boolean _ | .null | .int32 _ | .int64 _ => true
  | _ => false

mutual

/-- A value of an array that comes back: none of the extended types. -/
def ReturnsItem : Bson → Prop
  | .array items => ReturnsItems items
  | .document doc => ReturnsFields doc
  | b => isScalar b = true

def ReturnsItems : List Bson → Prop
  | [] => True
  | b :: items => ReturnsItem b ∧ ReturnsItems items

/-- The value of a field comes back: a date has an RFC 3339 text, a decimal reads back from
its text, and a document is not shown as one of the extended types is. -/
def ReturnsField : Bson → Prop
  | .objectId _ => True
  | .binary _ _ => True
  | .dateTime ms => (crates.tryToRfc3339String ms).isSome = true
  | .decimal128 d => crates.parseDecimal (crates.displayDecimal d) = some d
  | .array items => ReturnsItems items
  | .document doc =>
      extendedJsonToBson crates (bsonFieldsToJson crates doc) = none ∧ ReturnsFields doc
  | b => isScalar b = true

def ReturnsFields : List (String × Bson) → Prop
  | [] => True
  | (_, b) :: doc => ReturnsField b ∧ ReturnsFields doc

end

variable {crates}

theorem asI64_toInt (i : Int64) : asI64 i.toInt = some i := by
  have hlow : -9223372036854775808 ≤ i.toInt := i.le_toInt
  have hhigh : i.toInt < 9223372036854775808 := i.toInt_lt
  rw [asI64, if_pos ⟨hlow, by omega⟩, Int64.ofInt_toInt]

theorem asI64_toInt_int32 (i : Int32) : asI64 i.toInt = some (Int64.ofInt i.toInt) := by
  have hlow : -2147483648 ≤ i.toInt := i.le_toInt
  have hhigh : i.toInt < 2147483648 := i.toInt_lt
  rw [asI64, if_pos ⟨by omega, by omega⟩]

theorem jsonValueToBson_scalar {b : Bson} (h : isScalar b = true) :
    jsonValueToBson crates (bsonToJson crates b) = .ok (widen b) := by
  cases b with
  | double f =>
      by_cases hf : f.isFinite = true
      · simp [bsonToJson, numberFromF64, widen, hf, jsonValueToBson]
      · simp [bsonToJson, numberFromF64, widen, hf, jsonValueToBson]
  | string | boolean | null => simp [bsonToJson, jsonValueToBson, widen]
  | int32 i => simp [bsonToJson, jsonValueToBson, widen, asI64_toInt_int32]
  | int64 i => simp [bsonToJson, jsonValueToBson, widen, asI64_toInt]
  | array | document | objectId | dateTime | timestamp | decimal128 | binary
  | regularExpression | javaScriptCode | symbol | other => cases h

/-! ## The fields -/

theorem extendedJson_objectId (oid : ObjectId) :
    extendedJsonToBson crates [("$oid", .string (String.ofList (Hex.encode oid.bytes)))] =
      some (.objectId oid) := by
  unfold extendedJsonToBson
  simp [Value.asStr, Hex.decode_encode, oid.length_bytes]

theorem extendedJson_dateTime {ms : Int64} {text : String}
    (h : crates.parseRfc3339Str text = some ms) :
    extendedJsonToBson crates [("$date", .string text)] = some (.dateTime ms) := by
  unfold extendedJsonToBson
  simp [h]

theorem extendedJson_decimal128 {d : Decimal128} {text : String}
    (h : crates.parseDecimal text = some d) :
    extendedJsonToBson crates [("$numberDecimal", .string text)] = some (.decimal128 d) := by
  unfold extendedJsonToBson
  simp [Value.asStr, h]

theorem extendedJson_binary (subtype : UInt8) (bytes : List UInt8) :
    extendedJsonToBson crates [("$binary",
      .object [("base64", .string (String.ofList (Base64.encode bytes))),
        ("subType", .string (String.ofList (Hex.byte subtype)))])] =
      some (.binary subtype bytes) := by
  unfold extendedJsonToBson
  simp [Value.asObject, Value.asStr, member, Base64.decode_encode, Hex.parseByte_byte]

theorem jsonMapToDoc_extended {inner : List (String × Value)} {bson : Bson}
    (h : extendedJsonToBson crates inner = some bson) (k : String)
    {map : List (String × Value)} {doc : Document} (hmap : jsonMapToDoc crates map = .ok doc) :
    jsonMapToDoc crates ((k, .object inner) :: map) = .ok ((k, bson) :: doc) := by
  simp only [jsonMapToDoc, h, hmap]
  rfl

theorem jsonMapToDoc_plain {v : Value} {bson : Bson}
    (hv : ∀ inner, v = .object inner → extendedJsonToBson crates inner = none)
    (h : jsonValueToBson crates v = .ok bson) (k : String)
    {map : List (String × Value)} {doc : Document} (hmap : jsonMapToDoc crates map = .ok doc) :
    jsonMapToDoc crates ((k, v) :: map) = .ok ((k, bson) :: doc) := by
  cases v with
  | object inner =>
      simp only [jsonMapToDoc, hv inner rfl, h, hmap]
      rfl
  | null | bool | int | float | string | array =>
      simp only [jsonMapToDoc, h, hmap]
      rfl

/-- A date in the range of RFC 3339 is what its text reads as. -/
def ReadsDates (crates : Crates) : Prop :=
  ∀ ms text, crates.tryToRfc3339String ms = some text → crates.parseRfc3339Str text = some ms

theorem not_object_of_isScalar {b : Bson} (h : isScalar b = true) (inner : List (String × Value)) :
    bsonToJson crates b ≠ .object inner := by
  cases b with
  | double f =>
      rw [bsonToJson]
      cases numberFromF64 f <;> exact Value.noConfusion
  | string | boolean | null | int32 | int64 =>
      rw [bsonToJson]
      exact Value.noConfusion
  | array | document | objectId | dateTime | timestamp | decimal128 | binary
  | regularExpression | javaScriptCode | symbol | other => cases h

mutual

theorem jsonValueToBson_bsonToJson (hdates : ReadsDates crates) (b : Bson)
    (h : ReturnsItem crates b) : jsonValueToBson crates (bsonToJson crates b) = .ok (widen b) := by
  cases b with
  | array items =>
      rw [ReturnsItem] at h
      rw [bsonToJson, jsonValueToBson, jsonItemsToBson_bsonItemsToJson hdates items h, widen]
      rfl
  | document doc =>
      rw [ReturnsItem] at h
      rw [bsonToJson, jsonValueToBson, jsonMapToDoc_bsonFieldsToJson hdates doc h, widen]
      rfl
  | double | string | boolean | null | int32 | int64 => exact jsonValueToBson_scalar rfl
  | objectId | dateTime | timestamp | decimal128 | binary
  | regularExpression | javaScriptCode | symbol | other => simp [ReturnsItem, isScalar] at h

theorem jsonItemsToBson_bsonItemsToJson (hdates : ReadsDates crates) (items : List Bson)
    (h : ReturnsItems crates items) :
    jsonItemsToBson crates (bsonItemsToJson crates items) = .ok (widenItems items) := by
  cases items with
  | nil => rw [bsonItemsToJson, jsonItemsToBson, widenItems]
  | cons b items =>
      rw [ReturnsItems] at h
      rw [bsonItemsToJson, jsonItemsToBson, jsonValueToBson_bsonToJson hdates b h.1,
        jsonItemsToBson_bsonItemsToJson hdates items h.2, widenItems]
      rfl

theorem jsonMapToDoc_bsonFieldsToJson (hdates : ReadsDates crates) (doc : List (String × Bson))
    (h : ReturnsFields crates doc) :
    jsonMapToDoc crates (bsonFieldsToJson crates doc) = .ok (widenFields doc) := by
  cases doc with
  | nil => rw [bsonFieldsToJson, jsonMapToDoc, widenFields]
  | cons field doc =>
      obtain ⟨k, b⟩ := field
      rw [ReturnsFields] at h
      obtain ⟨hfield, hdoc⟩ := h
      have hmap := jsonMapToDoc_bsonFieldsToJson hdates doc hdoc
      rw [bsonFieldsToJson, widenFields]
      cases b with
      | objectId oid =>
          rw [bsonToJson]
          exact jsonMapToDoc_extended (extendedJson_objectId oid) k hmap
      | binary subtype bytes =>
          rw [bsonToJson]
          exact jsonMapToDoc_extended (extendedJson_binary subtype bytes) k hmap
      | dateTime ms =>
          rw [ReturnsField] at hfield
          obtain ⟨text, htext⟩ := Option.isSome_iff_exists.mp hfield
          rw [bsonToJson, htext]
          exact jsonMapToDoc_extended (extendedJson_dateTime (hdates ms text htext)) k hmap
      | decimal128 d =>
          rw [ReturnsField] at hfield
          rw [bsonToJson]
          exact jsonMapToDoc_extended (extendedJson_decimal128 hfield) k hmap
      | document inner =>
          rw [ReturnsField] at hfield
          have hvalue : jsonValueToBson crates (.object (bsonFieldsToJson crates inner)) =
              .ok (.document (widenFields inner)) := by
            rw [jsonValueToBson, jsonMapToDoc_bsonFieldsToJson hdates inner hfield.2]
            rfl
          rw [bsonToJson, widen]
          refine jsonMapToDoc_plain ?_ hvalue k hmap
          rintro members hmembers
          cases hmembers
          exact hfield.1
      | array items =>
          rw [ReturnsField] at hfield
          have hvalue : jsonValueToBson crates (.array (bsonItemsToJson crates items)) =
              .ok (.array (widenItems items)) := by
            rw [jsonValueToBson, jsonItemsToBson_bsonItemsToJson hdates items hfield]
            rfl
          rw [bsonToJson, widen]
          exact jsonMapToDoc_plain (fun members hmembers => Value.noConfusion hmembers) hvalue k hmap
      | double | string | boolean | null | int32 | int64 =>
          refine jsonMapToDoc_plain (fun members hmembers => ?_) (jsonValueToBson_scalar rfl) k hmap
          exact absurd hmembers (not_object_of_isScalar rfl members)
      | timestamp | regularExpression | javaScriptCode | symbol | other =>
          simp [ReturnsField, isScalar] at hfield

end

/-! ## Commands -/

/-- The crates, on the date and the decimal of `sampleDoc`. -/
def sampleCrates : Crates where
  tryToRfc3339String ms := if ms = 1767225600000 then some "2026-01-01T00:00:00Z" else none
  displayDateTime _ := ""
  parseRfc3339Str text := if text = "2026-01-01T00:00:00Z" then some 1767225600000 else none
  displayDecimal _ := "1.5"
  parseDecimal text := if text = "1.5" then some ⟨0x303E000000000000000000000000000F⟩ else none
  asF64 _ := none

/-- The width of an integer does not come back. -/
theorem jsonToCommandDoc_int32 :
    jsonToCommandDoc sampleCrates (documentToJson sampleCrates [("limit", .int32 5)]) ≠
      .ok [("limit", .int32 5)] := by
  have hback : jsonToCommandDoc sampleCrates (documentToJson sampleCrates [("limit", .int32 5)]) =
      .ok [("limit", .int64 5)] := rfl
  rw [hback]
  intro h
  cases h

theorem jsonToCommandDoc_documentToJson (crates : Crates) (hdates : ReadsDates crates)
    (doc : Document) (h : ReturnsFields crates doc) :
    jsonToCommandDoc crates (documentToJson crates doc) = .ok (widenFields doc) :=
  jsonMapToDoc_bsonFieldsToJson hdates doc h

def sampleDoc : Document :=
  [("_id", .objectId ⟨List.replicate 12 7, rfl⟩), ("at", .dateTime 1767225600000),
    ("price", .decimal128 ⟨0x303E000000000000000000000000000F⟩), ("data", .binary 0 [1, 2, 255]),
    ("in", .array [.int32 5, .document [("$gt", .string "a")], .null]),
    ("filter", .document [("ok", .boolean true)])]

theorem jsonToCommandDoc_sampleDoc :
    jsonToCommandDoc sampleCrates (documentToJson sampleCrates sampleDoc) =
      .ok (widenFields sampleDoc) := by
  refine jsonToCommandDoc_documentToJson sampleCrates ?_ sampleDoc ?_
  · intro ms text h
    simp only [sampleCrates] at h ⊢
    split at h
    case isTrue hms =>
      cases h
      rw [if_pos rfl, hms]
    case isFalse => cases h
  · simp [sampleDoc, ReturnsFields, ReturnsField, ReturnsItems, ReturnsItem, isScalar,
      sampleCrates, bsonFieldsToJson, bsonToJson, extendedJsonToBson]

end Dbmaster.Mongo.ExtendedJson
