import Dbmaster.DataSync.Etl
/-!
# How a batch is written

The four inserts in SQL and the clients of ClickHouse and Doris: what each makes of the
answer of its target.
-/

namespace Dbmaster.DataSync.Clients

open Dbmaster.Lib Dbmaster.DataSync.Cursor Dbmaster.DataSync.Etl

variable {ρ T : Type}

/-! ## The answers -/

/-- An HTTP response: whether its status is a 2xx, and the JSON of its body, if it is that;
an error when the body cannot be read. -/
structure Response where
  success : Bool
  body : Except String (Option Json)

/-- What the target answers to an attempt, by the turn of the loop and the attempt. -/
structure Target where
  /-- the execution of a statement -/
  executes : Nat → Nat → Except String Unit
  /-- the response to a request; an error when there is none -/
  responds : Nat → Nat → Except String Response

def asU64 : Json → Option Nat
  | .int n => if 0 ≤ n ∧ n < 2 ^ 64 then some n.toNat else none
  | _ => none

/-! ## One attempt -/

/-- `insert_batch_mysql`, `insert_batch_pg` and the two for JSON rows. -/
def insertBatchSql (context : String) (executed : Except String Unit) (rows : List ρ) :
    Except String Unit :=
  if rows.isEmpty then .ok () else executed.mapError fun _ => context

def clickHouseInsertBatch (response : Except String Response) (rows : List ρ) :
    Except String Nat :=
  if rows.isEmpty then .ok 0
  else match response with
    | .error e => .error ("clickhouse insert connect failed: " ++ e)
    | .ok response =>
        if response.success then .ok rows.length else .error "clickhouse insert connect failed"

def dorisStatus (body : Json) : String := ((body.get "Status").bind Json.asStr).getD ""

def numberLoadedRows (body : Json) : Option Nat := (body.get "NumberLoadedRows").bind asU64

def dorisInsertBatch (response : Except String Response) (rows : List ρ) : Except String Nat :=
  if rows.isEmpty then .ok 0
  else match response with
    | .error e => .error ("doris stream load connect failed: " ++ e)
    | .ok response =>
        if response.success then
          match response.body with
          | .error e => .error ("doris read response failed: " ++ e)
          | .ok none => .error "doris stream load connect failed: non-JSON response"
          | .ok (some body) =>
              if dorisStatus body = "Success" then
                .ok ((numberLoadedRows body).getD rows.length)
              else .error "doris stream load connect failed"
        else .error "doris stream load connect failed"

/-! ## The targets of a run -/

def insertContext : SourceKind → DbType → String
  | .mySql, .mySql => "mysql batch insert"
  | .postgres, .postgres => "pg batch insert"
  | .postgres, .mySql => "mysql json batch insert"
  | _, _ => "pg json batch insert"

/-- An attempt of the pair; the inserts in SQL do not count. -/
def insertBatch (target : Target) (src : SourceKind) (tgt : DbType) (turn attempt : Nat)
    (rows : List ρ) : Except String Nat :=
  match tgt with
  | .mySql | .postgres =>
      (insertBatchSql (insertContext src tgt) (target.executes turn attempt) rows).map
        fun _ => rows.length
  | .clickHouse => clickHouseInsertBatch (target.responds turn attempt) rows
  | .doris => dorisInsertBatch (target.responds turn attempt) rows

def answering (world : World ρ T) (target : Target) (src : SourceKind) (tgt : DbType) :
    World ρ T :=
  { world with insert := fun turn attempt rows => (insertBatch target src tgt turn attempt rows).toOption }

/-! ## What an attempt reports -/

/-- The load that Doris reports as a success. -/
structure Loaded (response : Except String Response) (body : Json) : Prop where
  answered : response = .ok ⟨true, .ok (some body)⟩
  status : dorisStatus body = "Success"

theorem dorisInsertBatch_ok {response : Except String Response} {rows : List ρ} {written : Nat}
    (hrows : rows ≠ []) :
    dorisInsertBatch response rows = .ok written ↔
      ∃ body, Loaded response body ∧ (numberLoadedRows body).getD rows.length = written := by
  have hempty : rows.isEmpty = false := by simpa using hrows
  unfold dorisInsertBatch
  rw [hempty, if_neg Bool.false_ne_true]
  constructor
  · intro h
    split at h
    case h_1 => cases h
    case h_2 r =>
      obtain ⟨success, body⟩ := r
      split at h
      case isFalse => cases h
      case isTrue hsuccess =>
        split at h
        case h_1 => cases h
        case h_2 => cases h
        case h_3 doc hbody =>
          split at h
          case isFalse => cases h
          case isTrue hstatus =>
            cases h
            refine ⟨doc, ⟨?_, hstatus⟩, rfl⟩
            rw [show success = true from hsuccess, show body = .ok (some doc) from hbody]
  · rintro ⟨body, ⟨rfl, hstatus⟩, rfl⟩
    simp only [if_true, hstatus]

theorem insertBatch_ok_of_ne_doris {target : Target} {src : SourceKind} {tgt : DbType}
    {turn attempt written : Nat} {rows : List ρ} (htgt : tgt ≠ .doris) (hrows : rows ≠ [])
    (h : insertBatch target src tgt turn attempt rows = .ok written) : written = rows.length := by
  have hempty : rows.isEmpty = false := by simpa using hrows
  have hsql : ∀ context (executed : Except String Unit),
      (insertBatchSql context executed rows).map (fun _ => rows.length) = .ok written →
        written = rows.length := by
    intro context executed hmap
    cases hins : insertBatchSql context executed rows with
    | error e =>
        rw [hins] at hmap
        cases hmap
    | ok _ =>
        rw [hins] at hmap
        cases hmap
        rfl
  cases tgt with
  | mySql => exact hsql _ _ h
  | postgres => exact hsql _ _ h
  | doris => exact absurd rfl htgt
  | clickHouse =>
      simp only [insertBatch, clickHouseInsertBatch, hempty, if_neg Bool.false_ne_true] at h
      split at h
      case h_1 => cases h
      case h_2 =>
        split at h
        case isTrue =>
          cases h
          rfl
        case isFalse => cases h

end Dbmaster.DataSync.Clients
