import Mathlib.Data.List.Basic
/-!
# BSON values

The values of a MongoDB document, and the readings of its fields that the driver offers.
-/

namespace Dbmaster.Mongo

/-- A double by its bits. -/
structure Double where
  bits : UInt64
deriving DecidableEq

/-- Neither an infinity nor a NaN: the exponent is not the largest. -/
def Double.isFinite (f : Double) : Bool := f.bits.toNat / 4503599627370496 % 2048 != 2047

structure ObjectId where
  bytes : List UInt8
  length_bytes : bytes.length = 12
deriving DecidableEq

structure Decimal128 where
  bits : BitVec 128
deriving DecidableEq

inductive Bson
  | double (f : Double)
  | string (s : String)
  | array (items : List Bson)
  | document (fields : List (String × Bson))
  | boolean (b : Bool)
  | null
  | int32 (i : Int32)
  | int64 (i : Int64)
  | objectId (oid : ObjectId)
  /-- in milliseconds -/
  | dateTime (millis : Int64)
  | timestamp (time increment : UInt32)
  | decimal128 (d : Decimal128)
  | binary (subtype : UInt8) (bytes : List UInt8)
  | regularExpression (pattern options : String)
  | javaScriptCode (code : String)
  | symbol (s : String)
  /-- the rest, by their `Display` -/
  | other (display : String)

/-- The fields in their order; no two have one name. -/
abbrev Document := List (String × Bson)

namespace Document

def get (doc : Document) (key : String) : Option Bson :=
  (doc.find? fun field => decide (field.1 = key)).map Prod.snd

def getDocument (doc : Document) (key : String) : Option Document :=
  match get doc key with
  | some (.document d) => some d
  | _ => none

def getArray (doc : Document) (key : String) : Option (List Bson) :=
  match get doc key with
  | some (.array items) => some items
  | _ => none

def getI64 (doc : Document) (key : String) : Option Int64 :=
  match get doc key with
  | some (.int64 i) => some i
  | _ => none

def getStr (doc : Document) (key : String) : Option String :=
  match get doc key with
  | some (.string s) => some s
  | _ => none

end Document

def Bson.asDocument : Bson → Option Document
  | .document d => some d
  | _ => none

end Dbmaster.Mongo
