import Dbmaster.Connections.Handler
import Dbmaster.Drift.Runner
import Dbmaster.HealthCheck.Runner
import Dbmaster.Lib.Occurs
/-!
# The three canaries

The probe with a temporary table is made when a connection is registered, in each drift run
and in each health check.  Each of the three reads its own decision off the error text.
-/

namespace Dbmaster.Connections.CanaryAgreement

open Dbmaster.Lib Dbmaster.Connections.Handler
open Dbmaster.Drift.Runner (CanaryOutcome)

inductive Engine
  | mysql
  | postgres
  deriving DecidableEq

/-- The words in which an engine reports that the account lacks a privilege. -/
def refusal : Engine → List String
  | .mysql => ["Access denied for user", "to database"]
  | .postgres => ["permission denied"]

/-- What becomes of the CREATE: it succeeds, the engine refuses it for lack of privilege, or
it fails otherwise, each time with the text of the error. -/
inductive Probed (engine : Engine)
  | created
  | refused (message : List Char)
      (hreported : ∀ words ∈ refusal engine, words.toList <:+: message)
  | failed (message : List Char)

def Probed.lacksPrivilege {engine : Engine} : Probed engine → Bool
  | .refused _ _ => true
  | _ => false

def Probed.result {engine : Engine} : Probed engine → Except (List Char) Unit
  | .created => .ok ()
  | .refused message _ => .error message
  | .failed message => .error message

/-! ## Registration -/

/-- The source has answered all steps before the CREATE. -/
def probe (result : Except (List Char) Unit) : Probe := ⟨.ok (), .ok (), .ok (), result.isOk⟩

def registered (body : CreateConnectionRequest) (result : Except (List Char) Unit) :
    Except String Unit :=
  runCreateCanary (fun _ => probe result) body

/-- The `db_type` of a registration that comes to the engine. -/
def dbTypes : Engine → List String
  | .mysql => ["mysql"]
  | .postgres => ["postgres", "postgresql", "pg"]

/-! ## Drift -/

def transportKeywords : List String :=
  ["connection refused", "connection reset", "broken pipe", "timed out", "timeout", "dns",
    "no route", "unreachable", "authentication", "auth", "access denied", "password", "tls",
    "handshake"]

def isConnectionLevelError (message : List Char) : Bool :=
  transportKeywords.any fun keyword => Text.contains (Text.asciiLower message) keyword

def redact (message : List Char) : String := String.ofList (message.take 200)

/-- `check_mysql`, and `check_postgres` behind its BEGIN. -/
def check (result : Except (List Char) Unit) : CanaryOutcome :=
  match result with
  | .ok () => .writable
  | .error message =>
      if isConnectionLevelError message then .unreachable (redact message) else .readOnly

/-- `run_canary_mysql` and `run_canary_pg` of drift. -/
def driftRuns (conn : Drift.Runner.ConnectionRow) (result : Except (List Char) Unit) :
    Except String Unit :=
  Drift.Runner.runCanary conn (check result)

/-! ## Health checks -/

def Engine.dbType : Engine → HealthCheck.Runner.DbType
  | .mysql => .mysql
  | .postgres => .postgres

/-- `run_canary_mysql` and `run_canary_pg` of health checks. -/
def healthRuns (engine : Engine) (result : Except (List Char) Unit) : Except String Unit :=
  HealthCheck.Runner.runCanary engine.dbType
    (result.mapError fun message => String.ofList (Text.lower message))

/-! ## What should hold -/

/-- The three decide alike, and accept where the engine has refused for lack of privilege. -/
structure Agree {engine : Engine} (body : CreateConnectionRequest)
    (conn : Drift.Runner.ConnectionRow) (probed : Probed engine) : Prop where
  drift : (driftRuns conn probed.result).isOk = (registered body probed.result).isOk
  health : (healthRuns engine probed.result).isOk = (registered body probed.result).isOk
  exact : (registered body probed.result).isOk = probed.lacksPrivilege

/-- The account can write, or the refusal has no word that drift takes for a broken
connection. -/
def Undisputed {engine : Engine} : Probed engine → Prop
  | .created => True
  | .refused message _ => engine = .postgres ∧ isConnectionLevelError message = false
  | .failed _ => False

/-! ## The decisions -/

section Decisions

variable {engine : Engine} {body : CreateConnectionRequest} {conn : Drift.Runner.ConnectionRow}
  {message : List Char}

theorem isOk_registered (result : Except (List Char) Unit)
    (hbody : String.ofList (Text.asciiLower body.dbType.toList) ∈ dbTypes engine) :
    (registered body result).isOk = !result.isOk := by
  have hverdict : (probeVerdict result.isOk).isOk = !result.isOk := by
    cases result.isOk <;> rfl
  unfold registered runCreateCanary
  cases engine with
  | mysql =>
      rw [dbTypes, List.mem_singleton] at hbody
      simp only [hbody, if_true]
      exact hverdict
  | postgres =>
      have hne : String.ofList (Text.asciiLower body.dbType.toList) ≠ "mysql" := by
        intro hmysql
        rw [hmysql] at hbody
        exact absurd hbody (by decide)
      simp only [if_neg hne, if_pos (show _ ∈ ["postgres", "postgresql", "pg"] from hbody)]
      exact hverdict

theorem isOk_driftRuns_ok (hkind : conn.kind = "source_drift") :
    (driftRuns conn (.ok ())).isOk = false := by
  unfold driftRuns Drift.Runner.runCanary
  rw [if_neg (not_not.mpr hkind)]
  rfl

theorem isOk_driftRuns_error (hkind : conn.kind = "source_drift") (message : List Char) :
    (driftRuns conn (.error message)).isOk = !isConnectionLevelError message := by
  unfold driftRuns Drift.Runner.runCanary
  rw [if_neg (not_not.mpr hkind)]
  simp only [check]
  by_cases hlevel : isConnectionLevelError message = true
  · rw [if_pos hlevel, hlevel]
    rfl
  · rw [if_neg hlevel, Bool.eq_false_iff.mpr hlevel]
    rfl

theorem isConnectionLevelError_of_infix (word : String) (hword : word ∈ transportKeywords)
    (h : word.toList <:+: Text.asciiLower message) : isConnectionLevelError message = true := by
  have hne : ∀ word ∈ transportKeywords, word.toList ≠ [] := by decide
  exact List.any_eq_true.mpr ⟨word, hword, (Text.contains_iff (hne word hword)).mpr h⟩

theorem isConnectionLevelError_mysql
    (hreported : ∀ words ∈ refusal .mysql, words.toList <:+: message) :
    isConnectionLevelError message = true := by
  have hdenied : "access denied".toList <:+: "access denied for user".toList :=
    List.infix_append [] _ _
  apply isConnectionLevelError_of_infix "access denied" (by decide)
  exact hdenied.trans (Text.asciiLower_infix (hreported "Access denied for user" (by decide)))

theorem isOk_healthRuns_postgres
    (hreported : ∀ words ∈ refusal .postgres, words.toList <:+: message) :
    (healthRuns .postgres (.error message)).isOk = true := by
  have hpermission : "permission".toList <:+: "permission denied".toList :=
    List.infix_append [] _ _
  have hlower : "permission".toList <:+: Text.lower message :=
    hpermission.trans (Text.asciiLower_infix_lower (by simp)
      (hreported "permission denied" (by decide)))
  have hany : (HealthCheck.Runner.refusalWords Engine.postgres.dbType).any
      (HealthCheck.Runner.textContains (String.ofList (Text.lower message))) = true := by
    have htext : (String.ofList (Text.lower message)).toList = Text.lower message :=
      String.toList_ofList
    refine List.any_eq_true.mpr ⟨"permission", by decide, ?_⟩
    rw [HealthCheck.Runner.textContains, htext]
    exact decide_eq_true hlower
  simp only [healthRuns, Except.mapError, HealthCheck.Runner.runCanary]
  rw [if_pos hany]
  rfl

end Decisions

/-- The three canaries agree, and rightly so, exactly when the CREATE has succeeded, or
PostgreSQL has refused it in words that drift does not take for a broken connection. -/
theorem canaries_agree_iff (engine : Engine) (body : CreateConnectionRequest)
    (conn : Drift.Runner.ConnectionRow) (probed : Probed engine)
    (hbody : String.ofList (Text.asciiLower body.dbType.toList) ∈ dbTypes engine)
    (hkind : conn.kind = "source_drift") :
    Agree body conn probed ↔ Undisputed probed := by
  cases probed with
  | created =>
      refine iff_of_true ⟨?_, ?_, ?_⟩ trivial
      · exact (isOk_driftRuns_ok hkind).trans (isOk_registered (.ok ()) hbody).symm
      · exact Eq.trans rfl (isOk_registered (.ok ()) hbody).symm
      · exact isOk_registered (.ok ()) hbody
  | failed message =>
      -- registration accepts, whatever the error
      refine iff_of_false (fun hagree => ?_) id
      have hexact := hagree.exact
      rw [isOk_registered _ hbody] at hexact
      cases hexact
  | refused message hreported =>
      constructor
      · intro hagree
        have hdrift := hagree.drift
        rw [isOk_registered _ hbody] at hdrift
        have hlevel : isConnectionLevelError message = false := by
          rw [← Bool.not_eq_true']
          exact (isOk_driftRuns_error hkind message).symm.trans hdrift
        refine ⟨?_, hlevel⟩
        cases engine with
        | postgres => rfl
        | mysql =>
            rw [isConnectionLevelError_mysql hreported] at hlevel
            cases hlevel
      · rintro ⟨rfl, hlevel⟩
        have hregistered : (registered body (.error message)).isOk = true :=
          isOk_registered _ hbody
        refine ⟨?_, ?_, hregistered⟩
        · refine (isOk_driftRuns_error hkind message).trans ?_
          rw [hlevel]
          exact hregistered.symm
        · exact (isOk_healthRuns_postgres hreported).trans hregistered.symm

/-! ## Accounts that only read -/

def registration (dbType : String) : CreateConnectionRequest where
  name := "shop"
  dbType := dbType
  host := "db.example.com"
  port := 3306
  username := "reader"
  password := "secret".toList
  defaultDatabase := some "shop"
  kind := some "source_drift"
  filePath := none
  useSsl := false
  timeoutSeconds := 30
  charset := none
  timezone := none
  environment := none
  readOnly := true
  sshPassword := none
  sshPrivateKey := none
  sshPassphrase := none

def stored (dbType : String) : Drift.Runner.ConnectionRow :=
  ⟨"c1", "shop", dbType, some "shop", "source_drift"⟩

def deniedMessage : List Char :=
  ("error returned from database: permission denied to create temporary tables in " ++
    "database \"shop\"").toList

def denied : Probed .postgres := .refused deniedMessage (by decide +kernel)

theorem agree_postgres :
    Agree (registration "PostgreSQL") (stored "postgres") denied ∧ denied.lacksPrivilege = true :=
  ⟨(canaries_agree_iff .postgres (registration "PostgreSQL") (stored "postgres") denied (by decide)
    rfl).mpr ⟨rfl, by decide +kernel⟩, rfl⟩

def accessDeniedMessage : List Char :=
  ("error returned from database: 1044 (42000): Access denied for user 'reader'@'%' " ++
    "to database 'shop'").toList

def accessDenied : Probed .mysql := .refused accessDeniedMessage (by decide +kernel)

/-- The account is accepted, and its drift runs are refused. -/
theorem drift_refuses_reader :
    ¬ ∀ (engine : Engine) (body : CreateConnectionRequest) (conn : Drift.Runner.ConnectionRow)
      (probed : Probed engine),
      String.ofList (Text.asciiLower body.dbType.toList) ∈ dbTypes engine →
      conn.kind = "source_drift" → Agree body conn probed := by
  intro hall
  have hagree := hall .mysql (registration "mysql") (stored "mysql") accessDenied (by decide) rfl
  have hregistered : (registered (registration "mysql") accessDenied.result).isOk = true := by
    decide +kernel
  have hdrift : (driftRuns (stored "mysql") accessDenied.result).isOk = false := by
    decide +kernel
  have hsame := hagree.drift
  rw [hregistered, hdrift] at hsame
  cases hsame

end Dbmaster.Connections.CanaryAgreement
