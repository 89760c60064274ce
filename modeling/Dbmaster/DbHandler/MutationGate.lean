import Dbmaster.DbHandler.Execute
/-!
# The licence gate and the statements that modify

What modifies a target is given, for any engine, as a predicate on the texts.
The gate covers `db_query` up to the prefix test of `is_select_statement`, and
does not stand before `admin_script`.
-/

namespace Dbmaster.DbHandler.MutationGate

open Dbmaster.Gateway.Classify Dbmaster.License.Entitlement Dbmaster.DbHandler.Execute
open Dbmaster.Gateway.Query (Family HttpError)
open Dbmaster.SqlSplit.DdlWhitelist (backendFor)

variable {modifies : Family → String → Prop} {alphanumeric : Char → Bool}
  {entitlement : EntitlementState} {env : Environment} {family : Family}

def ModifiesNothing (modifies : Family → String → Prop) (run : Execution) : Prop :=
  ∀ sent ∈ run.sent, ¬ modifies sent.family sent.text

/-! ## The condition -/

/-- The request has a backend, and a connection opens for its `n`-th statement. -/
def Reached (env : Environment) (db : Option String) (n : Nat) (family : Family) : Prop :=
  ∃ dbName, load env db = .ok (family, dbName) ∧ (env.turns dbName n).opens = .ok ()

/-- What reaches the target does not modify it: of a query, what passes for a
`SELECT`; of a script, every statement. -/
def Harmless (alphanumeric : Char → Bool) (modifies : Family → String → Prop)
    (env : Environment) : Request → Prop
  | .query body => ∀ family, Reached env body.db 0 family →
      isSelectStatement body.sql = true → ¬ modifies family body.sql
  | .script body => ∀ family n stmt, Reached env body.db n family →
      (statementsOf alphanumeric body.script)[n]? = some stmt → ¬ modifies family stmt

/-! ## One statement -/

@[simp] theorem modifiesNothing_refuse (e : HttpError) : ModifiesNothing modifies (refuse e) :=
  fun sent hsent => by cases hsent

theorem backendFor_sql {dbType : String} (h : backendFor dbType = .ok family) :
    family ≠ .mongo ∧ family ≠ .redis ∧ family ≠ .tdengine := by
  unfold backendFor at h
  dsimp only at h
  split at h
  case h_1 => cases h; simp
  case h_2 =>
    split_ifs at h <;> cases h <;> simp

theorem channels_ne_nil (refusesPrepare : Bool) (sql : String) (isSelect : Bool)
    (h : family ≠ .mongo ∧ family ≠ .redis ∧ family ≠ .tdengine) :
    channels family refusesPrepare sql isSelect ≠ [] := by
  have hfetch : ∀ mode, fetchAllByMode mode ≠ [] := by
    intro mode
    cases mode <;> simp [fetchAllByMode]
  have hexecute : ∀ mode, executeByMode refusesPrepare mode ≠ [] := by
    intro mode
    cases mode
    · simp only [executeByMode]
      split <;> simp
    · simp [executeByMode]
  unfold channels
  cases family with
  | mySql mode =>
      dsimp only
      split
      · exact hfetch mode
      · exact hexecute mode
  | clickhouse =>
      dsimp only
      split
      · exact hfetch _
      · exact hexecute _
  | postgres | sqlite => simp
  | sqlServer =>
      dsimp only
      split_ifs <;> simp
  | mongo => exact absurd rfl h.1
  | redis => exact absurd rfl h.2.1
  | tdengine => exact absurd rfl h.2.2

theorem modifiesNothing_executeQuery (modifies : Family → String → Prop) (turn : Turn)
    (sql : String) (limit : Nat) (isSelect : Bool)
    (h : family ≠ .mongo ∧ family ≠ .redis ∧ family ≠ .tdengine) :
    ModifiesNothing modifies (executeQuery family turn sql limit isSelect) ↔
      (turn.opens = .ok () → ¬ modifies family sql) := by
  unfold executeQuery
  cases hopens : turn.opens with
  | error e => simp
  | ok u =>
      obtain ⟨channel, hchannel⟩ := List.exists_mem_of_ne_nil _
        (channels_ne_nil turn.refusesPrepare sql isSelect h)
      simp only [ModifiesNothing, List.mem_map]
      constructor
      · intro hnone _
        exact hnone ⟨family, channel, sql⟩ ⟨channel, hchannel, rfl⟩
      · rintro hsql sent ⟨c, -, rfl⟩
        exact hsql trivial

theorem load_sql {db dbName : Option String} (h : load env db = .ok (family, dbName)) :
    family ≠ .mongo ∧ family ≠ .redis ∧ family ≠ .tdengine := by
  unfold load at h
  cases hloaded : env.loaded with
  | error e => rw [hloaded] at h; cases h
  | ok conn =>
      rw [hloaded] at h
      cases hbackend : backendFor conn.dbType with
      | error e => simp [bind, Except.bind, hbackend] at h
      | ok f =>
          simp only [bind, Except.bind, hbackend, pure, Except.pure, Except.ok.injEq,
            Prod.mk.injEq] at h
          rw [← h.1]
          exact backendFor_sql hbackend

/-! ## The handlers -/

/-- While gated, what is no query is answered `ENTITLEMENT_GATED` and not sent. -/
theorem dbQuery_gated {body : QueryBody} (reason : GatedReason)
    (hsql : isSelectStatement body.sql = false) :
    dbQuery (.gated reason) env body = refuse
      ⟨403, "ENTITLEMENT_GATED",
        "License gated. Activate or renew your license to perform this action."⟩ := by
  unfold dbQuery gateBlocked EntitlementState.isGated
  simp only [hsql, if_true, Bool.false_eq_true, if_false]

theorem dbQuery_select {body : QueryBody} (hsql : isSelectStatement body.sql = true) :
    ModifiesNothing modifies (dbQuery entitlement env body) ↔
      ∀ family, Reached env body.db 0 family → ¬ modifies family body.sql := by
  unfold dbQuery Reached
  simp only [hsql, if_true]
  cases hload : load env body.db with
  | error e => simp
  | ok loaded =>
      obtain ⟨family, dbName⟩ := loaded
      have hone := modifiesNothing_executeQuery modifies (env.turns dbName 0) body.sql
        (clampLimit body.limit) true (load_sql hload)
      simp only [ModifiesNothing] at hone ⊢
      rw [hone]
      constructor
      · rintro hsent f ⟨d, heq, hopens⟩
        cases heq
        exact hsent hopens
      · intro hall hopens
        exact hall family ⟨dbName, rfl, hopens⟩

theorem adminScript_modifiesNothing {body : AdminScriptBody} :
    ModifiesNothing modifies (adminScript alphanumeric env body) ↔
      ∀ family n stmt, Reached env body.db n family →
        (statementsOf alphanumeric body.script)[n]? = some stmt → ¬ modifies family stmt := by
  unfold adminScript Reached
  cases hload : load env body.db with
  | error e => simp
  | ok loaded =>
      obtain ⟨family, dbName⟩ := loaded
      have hone := fun n stmt => modifiesNothing_executeQuery modifies
        (env.turns dbName n) stmt (clampLimit body.limit) (isSelectStatement stmt)
        (load_sql hload)
      simp only [ModifiesNothing, List.mem_flatMap, List.mem_mapIdx] at hone ⊢
      constructor
      · rintro hsent f n stmt ⟨d, heq, hopens⟩ hstmt
        cases heq
        obtain ⟨hlt, hget⟩ := List.getElem?_eq_some_iff.mp hstmt
        refine (hone n stmt).mp (fun sent hmem => hsent sent ⟨_, ⟨n, hlt, rfl⟩, ?_⟩) hopens
        rw [hget]
        exact hmem
      · rintro hall sent ⟨run, ⟨n, hlt, rfl⟩, hmem⟩
        refine (hone n _).mpr (fun hopens => ?_) sent hmem
        exact hall family n _ ⟨dbName, rfl, hopens⟩ (List.getElem?_eq_getElem hlt)

/-! ## What the gate covers -/

/-- While the entitlement is gated nothing modifying is executed exactly for
the requests whose queries that pass for a `SELECT`, and whose script
statements, do not modify. -/
theorem gated_modifiesNothing_iff (alphanumeric : Char → Bool)
    (modifies : Family → String → Prop) (reason : GatedReason) (env : Environment)
    (request : Request) :
    ModifiesNothing modifies (handle alphanumeric (.gated reason) env request) ↔
      Harmless alphanumeric modifies env request := by
  cases request with
  | query body =>
      show ModifiesNothing modifies (dbQuery (.gated reason) env body) ↔
        ∀ family, Reached env body.db 0 family →
          isSelectStatement body.sql = true → ¬ modifies family body.sql
      cases hsql : isSelectStatement body.sql with
      | true =>
          rw [dbQuery_select hsql]
          simp
      | false =>
          rw [dbQuery_gated reason hsql]
          simp
  | script body => exact adminScript_modifiesNothing

def answering (dbType : String) : Environment where
  loaded := .ok ⟨dbType, none⟩
  turns := fun _ _ => ⟨.ok (), false, .ok ⟨[], []⟩, .ok 1⟩
  elapsedMs := 0

def deletesRows : Family → String → Prop
  | .postgres, text => text ∈
      ["WITH gone AS (DELETE FROM t RETURNING 1) SELECT * FROM gone",
        "EXPLAIN ANALYZE DELETE FROM t", "DELETE FROM t"]
  | .sqlServer, text => text = "SELECT 1; DELETE FROM t"
  | _, _ => False

/-- A writable CTE, an executed `EXPLAIN` and a batch pass for a `SELECT`; a
script needs no disguise. -/
theorem gated_deletes :
    ¬ ModifiesNothing deletesRows (handle Char.isAlphanum (.gated .trialExpired)
        (answering "postgres")
        (.query ⟨none, "WITH gone AS (DELETE FROM t RETURNING 1) SELECT * FROM gone", none⟩)) ∧
      ¬ ModifiesNothing deletesRows (handle Char.isAlphanum (.gated .trialExpired)
        (answering "postgres") (.query ⟨none, "EXPLAIN ANALYZE DELETE FROM t", none⟩)) ∧
      ¬ ModifiesNothing deletesRows (handle Char.isAlphanum (.gated .trialExpired)
        (answering "sqlserver") (.query ⟨none, "SELECT 1; DELETE FROM t", none⟩)) ∧
      ¬ ModifiesNothing deletesRows (handle Char.isAlphanum (.gated .trialExpired)
        (answering "postgres") (.script ⟨none, "DELETE FROM t", none⟩)) := by
  refine ⟨fun h => ?_, fun h => ?_, fun h => ?_, fun h => ?_⟩
  · exact h ⟨.postgres, .prepare, _⟩ List.mem_cons_self List.mem_cons_self
  · exact h ⟨.postgres, .prepare, _⟩ List.mem_cons_self
      (List.mem_cons_of_mem _ List.mem_cons_self)
  · exact h ⟨.sqlServer, .tdsQuery, _⟩ List.mem_cons_self rfl
  · exact h ⟨.postgres, .prepare, "DELETE FROM t"⟩ List.mem_cons_self
      (List.mem_cons_of_mem _ (List.mem_cons_of_mem _ List.mem_cons_self))

end Dbmaster.DbHandler.MutationGate
