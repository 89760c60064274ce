import Dbmaster.Connections.Handler
import Dbmaster.Credential.Migration
import Dbmaster.Gateway.Extra
import Dbmaster.Gateway.Query
import Dbmaster.Lib.Registry
/-!
# Gateway registration

`register_connection`: the checks of the draft, and the row that is looked up by owner and
fingerprint and then updated or inserted.  One call runs after the other.
-/

namespace Dbmaster.Gateway.Register

open Dbmaster.Lib Dbmaster.Lib.Text Dbmaster.Credential.Format
open Dbmaster.Connections.Handler (DatabaseConnection Secret)
open Dbmaster.Credential.Migration (maskCipher maskCipher_lawful twelveOnes)
open Dbmaster.Gateway.Extra
open Dbmaster.Gateway.Query (HttpError badRequest)

/-! ## Drafts -/

structure ConnectionDraftBody where
  dbType : String
  host : Option String
  port : Option Int
  username : Option String
  password : Option String
  defaultDatabase : Option String
  filePath : Option String
  extra : Option ExtraMap
  ssh : Option SshWire

structure RegisterBody where
  name : String
  draft : ConnectionDraftBody
  readOnly : Option Bool
  charset : Option String
  timezone : Option String

def supportedDbTypes : List String :=
  ["mysql", "doris", "postgres", "postgresql", "pg", "sqlite", "clickhouse", "sqlserver", "mssql",
    "oceanbase", "tidb", "starrocks", "mariadb", "mongodb", "redis", "tdengine"]

def ConnectionDraftBody.normalType (body : ConnectionDraftBody) : String :=
  String.ofList (asciiLower (trim body.dbType.toList))

def isBlank (field : Option String) : Bool := field.all fun s => decide (trimmed s = "")

def requiredMissing (dbType : String) (body : ConnectionDraftBody) : Bool :=
  if dbType = "sqlite" then isBlank body.filePath
  else if dbType = "mongodb" ∨ dbType = "redis" then isBlank body.host || body.port.isNone
  else
    isBlank body.host || body.port.isNone || isBlank body.username || body.password.isNone

def missingMessage (dbType : String) : String :=
  if dbType = "sqlite" then "sqlite connection requires filePath"
  else if dbType = "mongodb" ∨ dbType = "redis" then
    "host and port are required for this db_type"
  else "host, port, username and password are required for this db_type"

def validateDraft (body : ConnectionDraftBody) : Except HttpError String :=
  let dbType := body.normalType
  if dbType ∉ supportedDbTypes then
    .error (badRequest "UNSUPPORTED_DB_TYPE" ("unsupported db_type: " ++ body.dbType))
  else if requiredMissing dbType body then .error (badRequest "CONFIG" (missingMessage dbType))
  else .ok dbType

/-! ## Rows -/

structure Fingerprint where
  name : String
  dbType : String
  host : String
  port : Int
  username : String
  defaultDatabase : String
  filePath : String
  deriving DecidableEq

/-- What a registration refreshes. -/
structure Settings where
  passwordEncrypted : Secret
  charset : Option String
  timezone : Option String
  readOnly : Bool
  extra : Option String
  sshSecretEncrypted : Option Secret

/-- A row with the columns that only the gateway writes. -/
structure GatewayConnection extends DatabaseConnection where
  extra : Option String
  sshSecretEncrypted : Option Secret

namespace GatewayConnection

def fingerprint (row : GatewayConnection) : Fingerprint where
  name := row.name
  dbType := row.dbType
  host := row.host
  port := row.port
  username := row.username
  defaultDatabase := row.defaultDatabase.getD ""
  filePath := row.filePath.getD ""

/-- What the lookup compares. -/
def registration (row : GatewayConnection) : Option (String × Fingerprint) :=
  if row.kind = "collab" then some (row.createdBy, row.fingerprint) else none

def settings (row : GatewayConnection) : Settings where
  passwordEncrypted := row.passwordEncrypted
  charset := row.charset
  timezone := row.timezone
  readOnly := row.readOnly
  extra := row.extra
  sshSecretEncrypted := row.sshSecretEncrypted

/-- What the UPDATE sets. -/
def refresh (new : Settings) (row : GatewayConnection) : GatewayConnection :=
  { row with
    passwordEncrypted := new.passwordEncrypted
    charset := new.charset
    timezone := new.timezone
    readOnly := new.readOnly
    extra := new.extra
    sshSecretEncrypted := new.sshSecretEncrypted }

@[simp] theorem id_refresh (new : Settings) (row : GatewayConnection) :
    (row.refresh new).id = row.id := rfl

@[simp] theorem registration_refresh (new : Settings) (row : GatewayConnection) :
    (row.refresh new).registration = row.registration := rfl

@[simp] theorem settings_refresh (new : Settings) (row : GatewayConnection) :
    (row.refresh new).settings = new := rfl

end GatewayConnection

/-- `database_connections`, with its primary key. -/
abbrev ConnectionTable := Table.Keyed (fun row : GatewayConnection => row.id)

/-! ## The handler -/

/-- What a call meets: the nonces it draws, whether its statements succeed, which of several
rows the lookup takes, the UUID and the clock. -/
structure Env where
  nonce : NonceBytes
  sshNonce : NonceBytes
  lookup : Bool
  pick : Nat
  update : Bool
  uuid : String
  now : String
  insert : Bool

inductive Response
  /-- 200 with `serverConnId`, and `reused` for a row that was there -/
  | ok (serverConnId : String) (reused : Bool)
  | error (e : HttpError)

def serverError (message : String) : HttpError := ⟨500, "DB_ERROR", message⟩

/-- `serde_json::to_string` of the secrets: empty ones are left out. -/
def secretsJson (secrets : SshSecrets) : Json :=
  .obj (([("password", secrets.password), ("privateKey", secrets.privateKey),
    ("passphrase", secrets.passphrase)].filter fun field => field.2 ≠ "").map fun field =>
      (field.1, .str field.2))

def fingerprintFor (dbType : String) (body : RegisterBody) : Fingerprint where
  name := trimmed body.name
  dbType := dbType
  host := if dbType = "sqlite" then "unused" else body.draft.host.getD ""
  port := body.draft.port.getD 0
  username := if dbType = "sqlite" then "unused" else body.draft.username.getD ""
  defaultDatabase := body.draft.defaultDatabase.getD ""
  filePath := body.draft.filePath.getD ""

/-- What a valid ssh block gives to encrypt; `none` when its secrets are all empty. -/
def sshSecret (ssh : Option SshWire) : Except HttpError (Option SshSecrets) :=
  match ssh with
  | none => .ok none
  | some wire =>
    match wire.validate with
    | .error message => .error (badRequest "CONFIG" message)
    | .ok params => .ok (if params.secrets.isEmpty then none else some params.secrets)

section Handler

-- `render` is `serde_json::to_string`
variable {Key : Type} (aead : Aead Key) (key : Key) (render : Json → String)

def extraText (draft : ConnectionDraftBody) : Option String :=
  (sanitizeExtra (mergedExtra draft.extra draft.ssh)).map fun map => render (.obj map.entries)

def encryptSsh (nonce : NonceBytes) : Option SshSecrets → Option (Option Secret)
  | none => some none
  | some secrets => (encryptV1 aead key nonce (render (secretsJson secrets)).toList).map some

/-- The work before the store is asked: what identifies the connection, and what is written. -/
def prepare (env : Env) (body : RegisterBody) : Except HttpError (Fingerprint × Settings) :=
  match validateDraft body.draft with
  | .error e => .error e
  | .ok dbType =>
    if trimmed body.name = "" then .error (badRequest "CONFIG" "name must be non-empty")
    else
      match encryptV1 aead key env.nonce (body.draft.password.getD "").toList with
      | none => .error (serverError "credential encryption failed")
      | some encrypted =>
        match sshSecret body.draft.ssh with
        | .error e => .error e
        | .ok secrets =>
          match encryptSsh aead key render env.sshNonce secrets with
          | none => .error (serverError "credential encryption failed")
          | some sshSecretEncrypted =>
            .ok (fingerprintFor dbType body, {
              passwordEncrypted := encrypted
              charset := body.charset
              timezone := body.timezone
              readOnly := body.readOnly.getD false
              extra := extraText render body.draft
              sshSecretEncrypted := sshSecretEncrypted })

/-- The row of the INSERT; the columns it does not name have their defaults. -/
def newRow (owner : String) (env : Env) (body : RegisterBody) (fp : Fingerprint)
    (new : Settings) : GatewayConnection where
  id := env.uuid
  name := fp.name
  dbType := fp.dbType
  host := fp.host
  port := fp.port
  username := fp.username
  passwordEncrypted := new.passwordEncrypted
  defaultDatabase := body.draft.defaultDatabase
  createdBy := owner
  createdAt := env.now
  kind := "collab"
  filePath := body.draft.filePath
  useSsl := false
  timeoutSeconds := 30
  charset := new.charset
  timezone := new.timezone
  environment := none
  readOnly := new.readOnly
  sshPasswordEncrypted := none
  sshPrivateKeyEncrypted := none
  sshPassphraseEncrypted := none
  extra := new.extra
  sshSecretEncrypted := new.sshSecretEncrypted

def insertRow (env : Env) (row : GatewayConnection) (table : ConnectionTable) :
    Response × ConnectionTable :=
  match if env.insert then table.insert row else none with
  | some next => (.ok row.id false, next)
  | none => (.error (serverError "failed to register connection"), table)

/-- The rows of an owner with a fingerprint. -/
def isRegistered (k : String × Fingerprint) (row : GatewayConnection) : Bool :=
  decide (row.registration = some k)

def registerConnection (owner : String) (env : Env) (body : RegisterBody)
    (table : ConnectionTable) : Response × ConnectionTable :=
  match prepare aead key render env body with
  | .error e => (.error e, table)
  | .ok (fp, new) =>
    let row := newRow owner env body fp new
    let existing :=
      if env.lookup then Table.fetchAny (isRegistered (owner, fp)) table.rows env.pick else none
    match existing with
    | some found =>
      if env.update then
        (.ok found.id true,
          table.update (fun r => decide (r.id = found.id)) (.refresh new)
            (GatewayConnection.id_refresh new))
      else insertRow env row table
    | none => insertRow env row table

/-! ## What should hold -/

structure Call where
  owner : String
  env : Env
  body : RegisterBody

def Call.registration (call : Call) : String × Fingerprint :=
  (call.owner, fingerprintFor call.body.draft.normalType call.body)

/-- The calls with their answers, and the table left. -/
def registerAll (table : ConnectionTable) : List Call → List (Call × Response) × ConnectionTable
  | [] => ([], table)
  | call :: calls =>
      let now := registerConnection aead key render call.owner call.env call.body table
      let rest := registerAll now.2 calls
      ((call, now.1) :: rest.1, rest.2)

/-- The statements of the call succeed. -/
structure Env.Works (env : Env) : Prop where
  lookup : env.lookup = true
  update : env.update = true
  insert : env.insert = true

/-- The call comes to the store. -/
def accepted (call : Call) : Bool :=
  (prepare aead key render call.env call.body).toOption.isSome

def latestCall (k : String × Fingerprint) (calls : List Call) : Option Call :=
  (calls.filter fun call =>
    accepted aead key render call && decide (call.registration = k)).getLast?

def rowsAt (o : Option (String × Fingerprint)) (table : ConnectionTable) :
    List GatewayConnection :=
  table.rows.filter fun row => decide (row.registration = o)

/-- The settings are those of the body, its secrets under encryption. -/
structure Carries (body : RegisterBody) (settings : Settings) : Prop where
  password : decryptPassword aead key settings.passwordEncrypted =
    .ok (body.draft.password.getD "").toList
  charset : settings.charset = body.charset
  timezone : settings.timezone = body.timezone
  readOnly : settings.readOnly = body.readOnly.getD false
  extra : settings.extra = extraText render body.draft
  sshSecret : ∃ secrets, sshSecret body.draft.ssh = .ok secrets ∧
    settings.sshSecretEncrypted.map (decryptV1 aead key) =
      secrets.map fun secrets => .ok (render (secretsJson secrets)).toList

/-- The call is answered with the id, or refused before the store is asked. -/
def AnsweredWith (id : String) (entry : Call × Response) : Prop :=
  (∃ reused, entry.2 = .ok id reused) ∨
    ∃ e, prepare aead key render entry.1.env entry.1.body = .error e ∧ entry.2 = .error e

end Handler

variable {Key : Type} {aead : Aead Key} {key : Key} {render : Json → String}

/-! ## One call -/

theorem encryptSsh_carries (hlaw : aead.Lawful) {nonce : NonceBytes} {secrets : Option SshSecrets}
    {stored : Option Secret} (h : encryptSsh aead key render nonce secrets = some stored) :
    stored.map (decryptV1 aead key) =
      secrets.map fun secrets => .ok (render (secretsJson secrets)).toList := by
  cases secrets with
  | none =>
      cases h
      rfl
  | some secrets =>
      obtain ⟨ct, hct, rfl⟩ := Option.map_eq_some_iff.mp h
      rw [Option.map_some, decryptV1_encryptV1 hlaw hct, Option.map_some]

theorem validateDraft_eq_ok {draft : ConnectionDraftBody} {dbType : String}
    (h : validateDraft draft = .ok dbType) : dbType = draft.normalType := by
  unfold validateDraft at h
  dsimp only at h
  split at h
  case isTrue => cases h
  case isFalse =>
    split at h
    case isTrue => cases h
    case isFalse =>
      cases h
      rfl

theorem prepare_eq_ok (hlaw : aead.Lawful) {env : Env} {body : RegisterBody} {fp : Fingerprint}
    {new : Settings} (h : prepare aead key render env body = .ok (fp, new)) :
    fp = fingerprintFor body.draft.normalType body ∧ Carries aead key render body new := by
  unfold prepare at h
  split at h
  case h_1 => cases h
  case h_2 dbType hvalid =>
    split at h
    case isTrue => cases h
    case isFalse =>
      split at h
      case h_1 => cases h
      case h_2 encrypted hencrypted =>
        split at h
        case h_1 => cases h
        case h_2 secrets hsecrets =>
          split at h
          case h_1 => cases h
          case h_2 stored hstored =>
            cases h
            refine ⟨by rw [validateDraft_eq_ok hvalid], ?_⟩
            exact {
              password := decryptPassword_encryptV1 hlaw hencrypted
              charset := rfl
              timezone := rfl
              readOnly := rfl
              extra := rfl
              sshSecret := ⟨secrets, hsecrets, encryptSsh_carries hlaw hstored⟩ }

/-- What a call that comes to a working store does there. -/
structure Registers (k : String × Fingerprint) (uuid : String) (new : Settings)
    (table next : ConnectionTable) (id : String) : Prop where
  others : ∀ o, o ≠ some k → rowsAt o next = rowsAt o table
  ids : next.rows.map (·.id) = table.rows.map (·.id) ∨
    next.rows.map (·.id) = table.rows.map (·.id) ++ [uuid]
  first : rowsAt (some k) table = [] → id = uuid ∧
    ∃ row, rowsAt (some k) next = [row] ∧ row.id = uuid ∧ row.settings = new
  again : ∀ row, rowsAt (some k) table = [row] → id = row.id ∧
    rowsAt (some k) next = [row.refresh new]

theorem registers_insert {k : String × Fingerprint} {new : Settings}
    {table next : ConnectionTable} {row : GatewayConnection}
    (hnone : rowsAt (some k) table = []) (hnext : next.rows = table.rows ++ [row])
    (hrow : row.registration = some k) (hsettings : row.settings = new) :
    Registers k row.id new table next row.id where
  others o ho := by
    have hno : row.registration ≠ o := by
      rw [hrow]
      exact Ne.symm ho
    rw [rowsAt, hnext, List.filter_append, List.filter_cons_of_neg (by simp [hno]),
      List.filter_nil, List.append_nil, rowsAt]
  ids := by
    rw [hnext, List.map_append]
    exact Or.inr rfl
  first _ := by
    refine ⟨rfl, row, ?_, rfl, hsettings⟩
    rw [rowsAt] at hnone
    rw [rowsAt, hnext, List.filter_append, hnone, List.filter_cons_of_pos (by simp [hrow])]
    rfl
  again found h := by
    rw [hnone] at h
    cases h

theorem registers_update {k : String × Fingerprint} {uuid : String} {new : Settings}
    {table : ConnectionTable} {found : GatewayConnection} (hfound : found ∈ rowsAt (some k) table) :
    Registers k uuid new table
      (table.update (fun r => decide (r.id = found.id)) (.refresh new)
        (GatewayConnection.id_refresh new)) found.id where
  others o ho := by
    obtain ⟨hin, hyes⟩ := List.mem_filter.mp hfound
    have hkept : ∀ row : GatewayConnection,
        decide ((row.refresh new).registration = o) = decide (row.registration = o) := by
      intro row
      rw [GatewayConnection.registration_refresh]
    apply Table.Keyed.filter_update_of_notMem hkept hin
    rw [of_decide_eq_true hyes]
    exact decide_eq_false (Ne.symm ho)
  ids := Or.inl (Table.map_updateWhere (GatewayConnection.id_refresh new) _)
  first hnone := by
    rw [hnone] at hfound
    cases hfound
  again row hrow := by
    rw [hrow, List.mem_singleton] at hfound
    subst hfound
    refine ⟨rfl, Table.Keyed.filter_update_singleton (fun r => ?_) hrow⟩
    rw [GatewayConnection.registration_refresh]

theorem registration_newRow (owner : String) (env : Env) (body : RegisterBody) (new : Settings)
    (dbType : String) :
    (newRow owner env body (fingerprintFor dbType body) new).registration =
      some (owner, fingerprintFor dbType body) := by
  rw [GatewayConnection.registration, newRow]
  dsimp only
  rw [if_pos rfl]
  rfl

theorem registerConnection_eq (hlaw : aead.Lawful) (owner : String) {env : Env}
    {body : RegisterBody} {table : ConnectionTable} {fp : Fingerprint} {new : Settings}
    (hworks : env.Works) (hfresh : env.uuid ∉ table.rows.map (·.id))
    (hprepare : prepare aead key render env body = .ok (fp, new)) :
    ∃ id reused next,
      registerConnection aead key render owner env body table = (.ok id reused, next) ∧
        Registers (owner, fp) env.uuid new table next id := by
  let row := newRow owner env body fp new
  have hrow : row.registration = some (owner, fp) := by
    obtain ⟨hfp, -⟩ := prepare_eq_ok hlaw hprepare
    subst hfp
    exact registration_newRow owner env body new _
  simp only [registerConnection, hprepare, hworks.lookup, hworks.update, if_true]
  cases hfetch : Table.fetchAny (isRegistered (owner, fp)) table.rows env.pick with
  | some found => exact ⟨_, _, _, rfl, registers_update (Table.fetchAny_mem hfetch)⟩
  | none =>
      obtain ⟨next, hinsert, hnext⟩ := Table.Keyed.exists_insert row hfresh
      refine ⟨row.id, false, next, ?_, ?_⟩
      · simp only [insertRow, hworks.insert, if_true]
        rw [hinsert]
      · exact registers_insert (Table.fetchAny_eq_none_iff.mp hfetch) hnext hrow rfl

/-- A call on a working store: refused before the store is asked, or registered. -/
theorem registerConnection_cases (hlaw : aead.Lawful) {call : Call} {table : ConnectionTable}
    (hworks : call.env.Works) (hfresh : call.env.uuid ∉ table.rows.map (·.id)) :
    (∃ e, prepare aead key render call.env call.body = .error e ∧
      registerConnection aead key render call.owner call.env call.body table =
        (.error e, table)) ∨
    ∃ fp new id reused next, prepare aead key render call.env call.body = .ok (fp, new) ∧
      registerConnection aead key render call.owner call.env call.body table =
        (.ok id reused, next) ∧
      Registers call.registration call.env.uuid new table next id := by
  cases hprepare : prepare aead key render call.env call.body with
  | error e =>
      refine .inl ⟨e, rfl, ?_⟩
      simp only [registerConnection, hprepare]
  | ok p =>
      obtain ⟨fp, new⟩ := p
      obtain ⟨id, reused, next, hcall, hregisters⟩ :=
        registerConnection_eq hlaw call.owner hworks hfresh hprepare
      refine .inr ⟨fp, new, id, reused, next, rfl, hcall, ?_⟩
      rw [Call.registration, ← (prepare_eq_ok hlaw hprepare).1]
      exact hregisters

/-! ## The registry behind the table -/

/-- What the call asks of the registry, if it comes to the store. -/
def requestOf (aead : Aead Key) (key : Key) (render : Json → String) (call : Call) :
    Option (Registry.Request (String × Fingerprint) String Settings) :=
  (prepare aead key render call.env call.body).toOption.map fun p =>
    ⟨call.registration, call.env.uuid, p.2⟩

/-- The rows of the key are what the registry has for it. -/
def Shows (k : String × Fingerprint) (e : Registry.Entries (String × Fingerprint) String Settings)
    (table : ConnectionTable) : Prop :=
  (rowsAt (some k) table).map (fun row => (row.id, row.settings)) = (e k).toList

/-- The registry starts with the row that is there. -/
theorem exists_shows {k : String × Fingerprint} {table : ConnectionTable}
    (hone : (rowsAt (some k) table).length ≤ 1) : ∃ e, Shows k e table := by
  refine ⟨fun _ => (rowsAt (some k) table).head?.map fun row => (row.id, row.settings), ?_⟩
  unfold Shows
  cases hrows : rowsAt (some k) table with
  | nil => rfl
  | cons row rows =>
      have hlength : rows.length = 0 := by
        rw [hrows, List.length_cons] at hone
        omega
      rw [List.length_eq_zero_iff.mp hlength]
      rfl

theorem Registers.shows {r : Registry.Request (String × Fingerprint) String Settings}
    {k : String × Fingerprint} {e : Registry.Entries (String × Fingerprint) String Settings}
    {table next : ConnectionTable} {id : String}
    (h : Registers r.key r.fresh r.value table next id) (hshows : Shows k e table) :
    Shows k (Registry.register e r) next ∧ (r.key = k → id = Registry.idFor e r) := by
  by_cases hk : r.key = k
  · subst hk
    unfold Shows at hshows ⊢
    rw [Registry.register_self, Registry.idFor]
    cases he : e r.key with
    | none =>
        rw [he, Option.toList_none, List.map_eq_nil_iff] at hshows
        obtain ⟨rfl, row, hnext, hid, hsettings⟩ := h.first hshows
        rw [hnext, List.map_singleton, hid, hsettings]
        exact ⟨rfl, fun _ => rfl⟩
    | some known =>
        rw [he, Option.toList_some, List.map_eq_singleton_iff] at hshows
        obtain ⟨row, hrow, hknown⟩ := hshows
        obtain ⟨rfl, hnext⟩ := h.again row hrow
        rw [hnext, List.map_singleton, ← hknown, GatewayConnection.settings_refresh]
        exact ⟨rfl, fun _ => rfl⟩
  · unfold Shows at hshows ⊢
    rw [h.others (some k) (fun heq => hk (Option.some.inj heq).symm),
      Registry.register_of_ne hk]
    exact ⟨hshows, fun heq => absurd heq hk⟩

/-! ## Runs -/

theorem registerAll_nil (table : ConnectionTable) :
    registerAll aead key render table [] = ([], table) := rfl

theorem registerAll_cons {call : Call} {table next : ConnectionTable} {response : Response}
    (h : registerConnection aead key render call.owner call.env call.body table =
      (response, next)) (calls : List Call) :
    registerAll aead key render table (call :: calls) =
      ((call, response) :: (registerAll aead key render next calls).1,
        (registerAll aead key render next calls).2) := by
  rw [registerAll, h]

/-- Every id drawn is new. -/
def Fresh (table : ConnectionTable) (calls : List Call) : Prop :=
  (table.rows.map (·.id) ++ calls.map (·.env.uuid)).Nodup

theorem Fresh.head {call : Call} {calls : List Call} {table : ConnectionTable}
    (h : Fresh table (call :: calls)) : call.env.uuid ∉ table.rows.map (·.id) := by
  intro hin
  exact (List.nodup_append.mp h).2.2 _ hin _ List.mem_cons_self rfl

theorem Fresh.skip {call : Call} {calls : List Call} {table : ConnectionTable}
    (h : Fresh table (call :: calls)) : Fresh table calls :=
  h.sublist (List.Sublist.append_left (List.sublist_cons_self _ _) _)

theorem Fresh.next {call : Call} {calls : List Call} {k : String × Fingerprint} {new : Settings}
    {table next : ConnectionTable} {id : String} (h : Fresh table (call :: calls))
    (hregisters : Registers k call.env.uuid new table next id) : Fresh next calls := by
  unfold Fresh
  rcases hregisters.ids with hids | hids
  · rw [hids]
    exact h.skip
  · rw [hids, List.append_assoc]
    exact h

section Run

variable (hlaw : aead.Lawful)
include hlaw

theorem registerAll_refines {k : String × Fingerprint} {calls : List Call}
    {e : Registry.Entries (String × Fingerprint) String Settings} {table : ConnectionTable}
    (hworks : ∀ call ∈ calls, call.env.Works) (hfresh : Fresh table calls)
    (hshows : Shows k e table) :
    Shows k (Registry.registerAll e (calls.filterMap (requestOf aead key render))).2
        (registerAll aead key render table calls).2 ∧
      ∀ entry ∈ (registerAll aead key render table calls).1, entry.1.registration = k →
        (∃ e', prepare aead key render entry.1.env entry.1.body = .error e' ∧
          entry.2 = .error e') ∨
        ∃ answer ∈ (Registry.registerAll e (calls.filterMap (requestOf aead key render))).1,
          answer.1.key = k ∧ ∃ reused, entry.2 = .ok answer.2 reused := by
  induction calls generalizing e table with
  | nil =>
      rw [registerAll_nil]
      exact ⟨hshows, fun entry hin => absurd hin List.not_mem_nil⟩
  | cons call calls ih =>
      rw [List.forall_mem_cons] at hworks
      rcases registerConnection_cases hlaw hworks.1 hfresh.head with
        ⟨e', hprepare, hcall⟩ | ⟨fp, new, id, reused, next, hprepare, hcall, hregisters⟩
      · have hrequest : requestOf aead key render call = none := by
          rw [requestOf, hprepare]
          rfl
        obtain ⟨hend, hanswers⟩ := ih hworks.2 hfresh.skip hshows
        rw [registerAll_cons hcall, List.filterMap_cons_none hrequest]
        refine ⟨hend, List.forall_mem_cons.mpr ⟨fun _ => ?_, hanswers⟩⟩
        exact .inl ⟨e', hprepare, rfl⟩
      · have hrequest : requestOf aead key render call =
            some ⟨call.registration, call.env.uuid, new⟩ := by
          rw [requestOf, hprepare]
          rfl
        obtain ⟨hshows', hid⟩ :=
          Registers.shows (r := ⟨call.registration, call.env.uuid, new⟩) hregisters hshows
        obtain ⟨hend, hanswers⟩ := ih hworks.2 (hfresh.next hregisters) hshows'
        rw [registerAll_cons hcall, List.filterMap_cons_some hrequest, Registry.registerAll]
        refine ⟨hend, List.forall_mem_cons.mpr ⟨fun hk => ?_, fun entry hin hk => ?_⟩⟩
        · refine .inr ⟨_, List.mem_cons_self, hk, reused, ?_⟩
          rw [hid hk]
        · rcases hanswers entry hin hk with hrefused | ⟨answer, hanswer, hrest⟩
          · exact .inl hrefused
          · exact .inr ⟨answer, List.mem_cons_of_mem _ hanswer, hrest⟩

/-- The rows that no call that comes to the store is about stay as they are. -/
theorem rowsAt_registerAll {o : Option (String × Fingerprint)} {calls : List Call}
    {table : ConnectionTable} (hworks : ∀ call ∈ calls, call.env.Works)
    (hfresh : Fresh table calls)
    (hother : ∀ call ∈ calls, accepted aead key render call = true →
      o ≠ some call.registration) :
    rowsAt o (registerAll aead key render table calls).2 = rowsAt o table := by
  induction calls generalizing table with
  | nil => rw [registerAll_nil]
  | cons call calls ih =>
      rw [List.forall_mem_cons] at hworks hother
      rcases registerConnection_cases hlaw hworks.1 hfresh.head with
        ⟨e', hprepare, hcall⟩ | ⟨fp, new, id, reused, next, hprepare, hcall, hregisters⟩
      · rw [registerAll_cons hcall]
        exact ih hworks.2 hfresh.skip hother.2
      · have haccepted : accepted aead key render call = true := by
          rw [accepted, hprepare]
          rfl
        rw [registerAll_cons hcall]
        exact (ih hworks.2 (hfresh.next hregisters) hother.2).trans
          (hregisters.others o (hother.1 haccepted))

/-- The latest call that comes to the store is the latest request of the registry. -/
theorem latest_filterMap {k : String × Fingerprint} {calls : List Call} {last : Call}
    (h : latestCall aead key render k calls = some last) :
    ∃ new, Registry.latest k (calls.filterMap (requestOf aead key render)) = some new ∧
      Carries aead key render last.body new := by
  have hcommute : (calls.filterMap (requestOf aead key render)).filter (fun r => r.key = k) =
      (calls.filter fun call => accepted aead key render call &&
        decide (call.registration = k)).filterMap (requestOf aead key render) := by
    rw [List.filter_filterMap, List.filterMap_filter]
    apply List.filterMap_congr
    intro call _
    unfold requestOf accepted
    cases (prepare aead key render call.env call.body).toOption with
    | none => rfl
    | some p => simp [Option.filter]
  obtain ⟨before, hbefore⟩ := List.getLast?_eq_some_iff.mp h
  have hlast : last ∈ calls.filter fun call => accepted aead key render call &&
      decide (call.registration = k) := by
    rw [hbefore]
    exact List.mem_append_right _ (List.mem_singleton_self last)
  have haccepted := (Bool.and_eq_true_iff.mp (List.mem_filter.mp hlast).2).1
  obtain ⟨⟨fp, new⟩, hp⟩ := Option.isSome_iff_exists.mp haccepted
  have hrequest : requestOf aead key render last =
      some ⟨last.registration, last.env.uuid, new⟩ := by
    rw [requestOf, hp, Option.map_some]
  refine ⟨new, ?_, ?_⟩
  · rw [Registry.latest, hcommute, hbefore, List.filterMap_append,
      List.filterMap_cons_some hrequest, List.filterMap_nil, List.getLast?_concat,
      Option.map_some]
  · cases hprepare : prepare aead key render last.env last.body with
    | error e =>
        rw [hprepare] at hp
        cases hp
    | ok p =>
        rw [hprepare] at hp
        cases hp
        exact (prepare_eq_ok hlaw hprepare).2

/-- All calls of one owner with one fingerprint get the same id and leave one row with the
settings of the latest; the rows of other owners and fingerprints stay as they are. -/
theorem registrations_converge {table : ConnectionTable} {calls : List Call}
    (hworks : ∀ call ∈ calls, call.env.Works) (hfresh : Fresh table calls) :
    (∀ k last, (rowsAt (some k) table).length ≤ 1 →
      latestCall aead key render k calls = some last →
      ∃ row, rowsAt (some k) (registerAll aead key render table calls).2 = [row] ∧
        (∀ entry ∈ (registerAll aead key render table calls).1, entry.1.registration = k →
          AnsweredWith aead key render row.id entry) ∧
        Carries aead key render last.body row.settings) ∧
    ∀ o, (∀ call ∈ calls, accepted aead key render call = true →
        o ≠ some call.registration) →
      rowsAt o (registerAll aead key render table calls).2 = rowsAt o table := by
  refine ⟨fun k last hone hlast => ?_, fun o => rowsAt_registerAll hlaw hworks hfresh⟩
  obtain ⟨e, hshows⟩ := exists_shows hone
  obtain ⟨hend, hanswers⟩ := registerAll_refines hlaw hworks hfresh hshows
  obtain ⟨new, hlatest, hcarries⟩ := latest_filterMap hlaw hlast
  obtain ⟨id, hentry, hsame⟩ := Registry.registerAll_of_called hlatest e
  rw [Shows, hentry, Option.toList_some, List.map_eq_singleton_iff] at hend
  obtain ⟨row, hrow, hknown⟩ := hend
  obtain ⟨rfl, rfl⟩ := Prod.mk.inj hknown
  refine ⟨row, hrow, fun entry hin hk => ?_, hcarries⟩
  rcases hanswers entry hin hk with hrefused | ⟨answer, hanswer, hkey, reused, hresponse⟩
  · exact .inr hrefused
  · exact .inl ⟨reused, by rw [hresponse, hsame answer hanswer hkey]⟩

end Run

def fileDraft : ConnectionDraftBody where
  dbType := "SQLite"
  host := none
  port := none
  username := none
  password := none
  defaultDatabase := none
  filePath := some "/srv/a.db"
  extra := none
  ssh := none

/-- The same file twice: with a blank in the name, then with a host and read-only. -/
def fileCalls : List Call :=
  [{ owner := "ann"
     env := ⟨twelveOnes, twelveOnes, true, 0, true, "1", "noon", true⟩
     body := ⟨" files", fileDraft, none, none, none⟩ },
    { owner := "ann"
      env := ⟨twelveOnes, twelveOnes, true, 0, true, "2", "one", true⟩
      body := ⟨"files", { fileDraft with host := some "h" }, some true, none, none⟩ }]

def fileKey : String × Fingerprint :=
  ("ann", ⟨"files", "sqlite", "unused", 0, "unused", "", "/srv/a.db"⟩)

def noConnections : ConnectionTable := ⟨[], List.nodup_nil⟩

theorem registrations_converge_file :
    ∃ last row, fileCalls.getLast? = some last ∧
      rowsAt (some fileKey)
        (registerAll maskCipher 7 (fun _ => "{}") noConnections fileCalls).2 = [row] ∧
      (∀ entry ∈ (registerAll maskCipher 7 (fun _ => "{}") noConnections fileCalls).1,
        entry.1.registration = fileKey →
        AnsweredWith maskCipher 7 (fun _ => "{}") row.id entry) ∧
      Carries maskCipher 7 (fun _ => "{}") last.body row.settings := by
  have hworks : ∀ call ∈ fileCalls, call.env.Works := by
    intro call hcall
    rcases List.mem_pair.mp hcall with rfl | rfl
    · exact ⟨rfl, rfl, rfl⟩
    · exact ⟨rfl, rfl, rfl⟩
  have hfresh : Fresh noConnections fileCalls := by
    show ["1", "2"].Nodup
    decide
  have hall : fileCalls.all (fun call => accepted maskCipher 7 (fun _ => "{}") call &&
      decide (call.registration = fileKey)) = true := by decide +kernel
  have hlast : latestCall maskCipher 7 (fun _ => "{}") fileKey fileCalls =
      fileCalls.getLast? := by
    rw [latestCall, List.filter_eq_self.mpr (List.all_eq_true.mp hall)]
  obtain ⟨last, hgetLast⟩ : ∃ last, fileCalls.getLast? = some last := ⟨_, rfl⟩
  obtain ⟨row, hrow⟩ := (registrations_converge maskCipher_lawful hworks hfresh).1 fileKey last
    (Nat.zero_le 1) (hlast.trans hgetLast)
  exact ⟨last, row, hgetLast, hrow⟩

end Dbmaster.Gateway.Register
