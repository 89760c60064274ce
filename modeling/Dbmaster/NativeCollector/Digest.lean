import Dbmaster.Lib.Text
/-!
# Differences of digest snapshots

`performance_schema` counts the executions of each digest since its table was last
emptied.  A snapshot keeps the counts by a key of digest and schema; two snapshots
differ by what was executed between them, unless a counter went back.
-/

namespace Dbmaster.NativeCollector.Digest

open Dbmaster.Lib.Text

/-- `str::rsplit_once` at a character. -/
def rsplitOnce (sep : Char) (text : List Char) : Option (List Char × List Char) :=
  (splitOnce sep text.reverse).map fun pair => (pair.2.reverse, pair.1.reverse)

/-- The key of a snapshot. -/
def psKey (digestHex : List Char) (schema : Option (List Char)) : List Char :=
  digestHex ++ '|' :: schema.getD []

def saturate (n : Nat) : Int := min n 9223372036854775807

def psToMs (ps : Int) : Int := Int.tdiv ps 1000000000

/-- A row of `now_rows`. -/
structure DigestRow where
  key : List Char
  digestText : List Char
  countStar : Int
  totalMs : Int

structure PsSnapshot where
  /-- when it was taken, in executions of the server -/
  t : Nat
  /-- count and milliseconds by key, in the order they were put into the map -/
  d : List (List Char × Int × Int)

def PsSnapshot.get (snap : PsSnapshot) (key : List Char) : Option (Int × Int) :=
  (snap.d.reverse.find? fun entry => decide (entry.1 = key)).map Prod.snd

structure PsDelta where
  count : Int
  totalMs : Int
  digestText : List Char
  schema : Option (List Char)

/-- The schema a key ends in. -/
def keySchema (key : List Char) : Option (List Char) :=
  (rsplitOnce '|' key).bind fun pair => if pair.2.isEmpty then none else some pair.2

def diffRow (prev : PsSnapshot) (row : DigestRow) : Option PsDelta :=
  match prev.get row.key with
  | none => none
  | some (pc, ptotal) =>
      if row.countStar - pc ≤ 0 then none
      else some
        { count := row.countStar - pc
          totalMs := max (row.totalMs - ptotal) 0
          digestText := row.digestText
          schema := keySchema row.key }

/-- A common key has gone back: the table was emptied. -/
def wentBack (prev : PsSnapshot) (cur : List DigestRow) : Bool :=
  cur.any fun row => (prev.get row.key).any fun old => decide (row.countStar < old.1)

def diffPsSnapshots (prev : Option PsSnapshot) (cur : List DigestRow) : List PsDelta :=
  match prev with
  | none => []
  | some prev => if wentBack prev cur then [] else cur.filterMap (diffRow prev)

def snapshotOf (t : Nat) (cur : List DigestRow) : PsSnapshot :=
  ⟨t, cur.map fun row => (row.key, row.countStar, row.totalMs)⟩

example :
    (diffPsSnapshots (some ⟨1, [("aa|db1".toList, 10, 100), ("aa|".toList, 3, 30)]⟩)
      [⟨"aa|db1".toList, "SELECT".toList, 15, 260⟩, ⟨"cc|db1".toList, [], 3, 30⟩,
        ⟨"aa|".toList, "SELECT".toList, 5, 80⟩]).map (fun d => (d.count, d.totalMs, d.schema)) =
      [(5, 160, some "db1".toList), (2, 50, none)] := by
  decide

/-! ## Keys -/

/-- What identifies a digest on the server: a hexadecimal number, and the name of a
schema where there is one. -/
structure DigestId where
  hex : List Char
  schema : Option (List Char)
  hex_bare : '|' ∉ hex
  schema_named : schema ≠ some []

def DigestId.key (id : DigestId) : List Char := psKey id.hex id.schema

theorem psKey_eq_iff {hex hex' : List Char} (hbare : '|' ∉ hex) (hbare' : '|' ∉ hex')
    (schema schema' : Option (List Char)) :
    psKey hex schema = psKey hex' schema' ↔ hex = hex' ∧ schema.getD [] = schema'.getD [] := by
  constructor
  · intro h
    have hsplit := congrArg (splitOnce '|') h
    rw [psKey, psKey, splitOnce_append hbare, splitOnce_append hbare', Option.some.injEq] at hsplit
    exact Prod.mk.inj hsplit
  · rintro ⟨hhex, hschema⟩
    rw [psKey, psKey, hhex, hschema]

theorem getD_named {schema schema' : Option (List Char)} (h : schema ≠ some [])
    (h' : schema' ≠ some []) (heq : schema.getD [] = schema'.getD []) : schema = schema' := by
  cases schema with
  | none =>
      cases schema' with
      | none => rfl
      | some name' =>
          rw [Option.getD_none, Option.getD_some] at heq
          exact absurd (congrArg some heq.symm) h'
  | some name =>
      cases schema' with
      | none =>
          rw [Option.getD_none, Option.getD_some] at heq
          exact absurd (congrArg some heq) h
      | some name' =>
          rw [Option.getD_some, Option.getD_some] at heq
          rw [heq]

theorem DigestId.key_injective : Function.Injective DigestId.key := by
  rintro ⟨hex, schema, hbare, hnamed⟩ ⟨hex', schema', hbare', hnamed'⟩ hkey
  obtain ⟨hhex, hschema⟩ := (psKey_eq_iff hbare hbare' schema schema').mp hkey
  subst hhex
  have hsame := getD_named hnamed hnamed' hschema
  subst hsame
  rfl

/-! ## Snapshots -/

theorem mem_of_get {snap : PsSnapshot} {key : List Char} {value : Int × Int}
    (h : snap.get key = some value) : (key, value) ∈ snap.d := by
  obtain ⟨entry, hentry, rfl⟩ := Option.map_eq_some_iff.mp h
  have hkey := List.find?_some hentry
  have hmem := List.mem_of_find?_eq_some hentry
  rw [← of_decide_eq_true hkey]
  exact List.mem_reverse.mp hmem

theorem get_snapshotOf {t : Nat} {cur : List DigestRow} {key : List Char} {pc ptotal : Int}
    (h : (snapshotOf t cur).get key = some (pc, ptotal)) :
    ∃ row ∈ cur, row.key = key ∧ row.countStar = pc := by
  obtain ⟨row, hrow, heq⟩ := List.mem_map.mp (mem_of_get h)
  obtain ⟨hkey, hvalue⟩ := Prod.mk.inj heq
  exact ⟨row, hrow, hkey, congrArg Prod.fst hvalue⟩

theorem diffRow_some {prev : PsSnapshot} {row : DigestRow} {delta : PsDelta}
    (h : diffRow prev row = some delta) :
    ∃ pc ptotal, prev.get row.key = some (pc, ptotal) ∧ pc < row.countStar ∧
      delta.count = row.countStar - pc := by
  unfold diffRow at h
  split at h
  case h_1 => cases h
  case h_2 pc ptotal hget =>
    split_ifs at h with hle
    cases h
    exact ⟨pc, ptotal, hget, by omega, rfl⟩

end Dbmaster.NativeCollector.Digest
