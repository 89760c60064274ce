import Dbmaster.Lib.Utf8
import Dbmaster.Mongo.ExtendedJson
import Dbmaster.NativeCollector.Collector
/-!
# Replies of Redis

The values of a reply, and the JSON values that show them: a cell of a table reads a bulk
string as a number where it is one.
-/

namespace Dbmaster.Redis

open Dbmaster.Lib Dbmaster.Mongo Dbmaster.Mongo.ExtendedJson

inductive Resp
  | nil
  | int (i : Int64)
  | bulkString (bytes : List UInt8)
  | array (items : List Resp)
  | simpleString (s : String)
  | okay
  | map (pairs : List (Resp × Resp))
  | attribute (data : Resp)
  | set (items : List Resp)
  | double (f : Double)
  | boolean (b : Bool)
  | verbatimString (text : String)
  | push (data : List Resp)
  /-- the rest, by their `Debug` -/
  | other (debug : String)

/-- The texts of doubles: `str::parse::<f64>` and `to_string`. -/
structure FloatText where
  parse : List Char → Option Double
  display : Double → String

def fromUtf8Lossy (bytes : List UInt8) : String := String.ofList (Utf8.lossy bytes)

/-- `str::parse::<i64>` -/
def parseI64 (text : List Char) : Option Int64 :=
  (NativeCollector.Collector.parseI64 text).bind asI64

/-- `Map::insert`: a name that is there keeps its place. -/
def insertMember (members : List (String × Value)) (m : String × Value) :
    List (String × Value) :=
  if members.any fun m' => decide (m'.1 = m.1) then
    members.map fun m' => if m'.1 = m.1 then m else m'
  else members ++ [m]

mutual

def respToJson : Resp → Value
  | .nil => .null
  | .int i => .int i.toInt
  | .bulkString bytes => .string (fromUtf8Lossy bytes)
  | .simpleString s => .string s
  | .okay => .string "OK"
  | .array items => .array (respItemsToJson items)
  | .set items => .array (respItemsToJson items)
  | .map pairs => .object ((respPairsToJson pairs).foldl insertMember [])
  | .attribute data => respToJson data
  | .push data => .array (respItemsToJson data)
  | .double f => (numberFromF64 f).elim .null .float
  | .boolean b => .bool b
  | .verbatimString text => .string text
  | .other debug => .string debug

def respItemsToJson : List Resp → List Value
  | [] => []
  | item :: items => respToJson item :: respItemsToJson items

def respPairsToJson : List (Resp × Resp) → List (String × Value)
  | [] => []
  | (k, v) :: pairs =>
      (((respToJson k).asStr).getD "", respToJson v) :: respPairsToJson pairs

end

theorem respItemsToJson_eq_map (items : List Resp) :
    respItemsToJson items = items.map respToJson := by
  induction items with
  | nil => rw [respItemsToJson, List.map_nil]
  | cons item items ih => rw [respItemsToJson, List.map_cons, ih]

variable (floats : FloatText)

def respString : Resp → Option String
  | .bulkString bytes => some (fromUtf8Lossy bytes)
  | .simpleString s => some s
  | .okay => some "OK"
  | .int i => some (toString i.toInt)
  | .double f => some (floats.display f)
  | _ => none

/-- `s.parse::<f64>().ok().and_then(Number::from_f64)` -/
def parseNumber (text : List Char) : Option FiniteDouble :=
  (floats.parse text).bind numberFromF64

def cell : Resp → Value
  | .int i => .int i.toInt
  | .bulkString bytes =>
      let s := Utf8.lossy bytes
      match parseI64 s with
      | some n => .int n.toInt
      | none =>
          match parseNumber floats s with
          | some f => .float f
          | none => .string (String.ofList s)
  | other => respToJson other

/-! ## Strings of one cell -/

/-- Both are one integer, or one double and no integers, or no numbers and one text. -/
inductive SameReading (b b' : List UInt8) : Prop
  | int (n : Int64) (h : parseI64 (Utf8.lossy b) = some n)
      (h' : parseI64 (Utf8.lossy b') = some n)
  | float (f : FiniteDouble) (hint : parseI64 (Utf8.lossy b) = none)
      (hint' : parseI64 (Utf8.lossy b') = none)
      (h : parseNumber floats (Utf8.lossy b) = some f)
      (h' : parseNumber floats (Utf8.lossy b') = some f)
  | text (hint : parseI64 (Utf8.lossy b) = none) (hint' : parseI64 (Utf8.lossy b') = none)
      (hfloat : parseNumber floats (Utf8.lossy b) = none)
      (hfloat' : parseNumber floats (Utf8.lossy b') = none)
      (h : Utf8.lossy b = Utf8.lossy b')

variable {floats}

/-- What the cell of a bulk string is, by its reading. -/
inductive Reads (floats : FloatText) (b : List UInt8) : Value → Prop
  | int {n : Int} (i : Int64) (h : parseI64 (Utf8.lossy b) = some i) (hn : i.toInt = n) :
      Reads floats b (.int n)
  | float (f : FiniteDouble) (hint : parseI64 (Utf8.lossy b) = none)
      (h : parseNumber floats (Utf8.lossy b) = some f) : Reads floats b (.float f)
  | text {s : String} (hint : parseI64 (Utf8.lossy b) = none)
      (hfloat : parseNumber floats (Utf8.lossy b) = none) (hs : fromUtf8Lossy b = s) :
      Reads floats b (.string s)

theorem reads_cell (b : List UInt8) : Reads floats b (cell floats (.bulkString b)) := by
  rw [cell]
  cases hint : parseI64 (Utf8.lossy b) with
  | some i => exact .int i hint rfl
  | none =>
      cases hfloat : parseNumber floats (Utf8.lossy b) with
      | some f => exact .float f hint hfloat
      | none => exact .text hint hfloat rfl

theorem Reads.cell_eq {b : List UInt8} {v : Value} (h : Reads floats b v) :
    cell floats (.bulkString b) = v := by
  cases h with
  | int i h hn => simp only [cell, h, hn]
  | float f hint h => simp only [cell, hint, h]
  | text hint hfloat hs => simp only [cell, hint, hfloat, ← hs, fromUtf8Lossy]

theorem cell_eq_iff (b b' : List UInt8) :
    cell floats (.bulkString b) = cell floats (.bulkString b') ↔ SameReading floats b b' := by
  constructor
  · intro h
    have hr : Reads floats b (cell floats (.bulkString b')) := h ▸ reads_cell b
    have hr' : Reads floats b' (cell floats (.bulkString b')) := reads_cell b'
    generalize cell floats (.bulkString b') = v at hr hr'
    cases hr with
    | int i hi hn =>
        cases hr' with
        | int i' hi' hn' =>
            have hsame : i = i' := Int64.toInt.inj (hn.trans hn'.symm)
            exact .int i hi (hsame ▸ hi')
    | float f hint hf =>
        cases hr' with
        | float _ hint' hf' => exact .float f hint hint' hf hf'
    | text hint hfloat hs =>
        cases hr' with
        | text hint' hfloat' hs' =>
            exact .text hint hint' hfloat hfloat' (String.ofList_injective (hs.trans hs'.symm))
  · intro h
    cases h with
    | int n h h' => exact (Reads.int n h rfl).cell_eq.trans (Reads.int n h' rfl).cell_eq.symm
    | float f hint hint' h h' =>
        exact (Reads.float f hint h).cell_eq.trans (Reads.float f hint' h').cell_eq.symm
    | text hint hint' hfloat hfloat' h =>
        have htext : fromUtf8Lossy b' = fromUtf8Lossy b := congrArg String.ofList h.symm
        exact (Reads.text hint hfloat rfl).cell_eq.trans
          (Reads.text hint' hfloat' htext).cell_eq.symm

theorem eq_encode_of_cell {b : List UInt8} {s : String}
    (h : cell floats (.bulkString b) = .string s) (hvalid : Utf8.replacement ∉ s.toList) :
    b = Utf8.encode s.toList := by
  have hr : Reads floats b (.string s) := h ▸ reads_cell b
  cases hr with
  | text hint hfloat hs =>
      have htext : s.toList = Utf8.lossy b := by rw [← hs, fromUtf8Lossy, String.toList_ofList]
      rw [htext] at hvalid ⊢
      exact (Utf8.encode_lossy hvalid).symm

end Dbmaster.Redis
