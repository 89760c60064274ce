import Dbmaster.Credential.Format
import Dbmaster.Lib.Table
import Dbmaster.Lib.Transition
/-!
# Stored connections

`create_connection` with its canary, `update_connection` and `delete_connection`, one call
after the other, on the rows of `database_connections`.
-/

namespace Dbmaster.Connections.Handler

open Dbmaster.Lib Dbmaster.Lib.Table Dbmaster.Credential.Format

/-- A secret as it is typed in or stored. -/
abbrev Secret := List Char

/-! ## Rows and requests -/

structure DatabaseConnection where
  id : String
  name : String
  dbType : String
  host : String
  port : Int
  username : String
  passwordEncrypted : Secret
  defaultDatabase : Option String
  createdBy : String
  createdAt : String
  kind : String
  filePath : Option String
  useSsl : Bool
  timeoutSeconds : Int
  charset : Option String
  timezone : Option String
  environment : Option String
  readOnly : Bool
  sshPasswordEncrypted : Option Secret
  sshPrivateKeyEncrypted : Option Secret
  sshPassphraseEncrypted : Option Secret

structure CreateConnectionRequest where
  name : String
  dbType : String
  host : String
  port : Int
  username : String
  password : Secret
  defaultDatabase : Option String
  kind : Option String
  filePath : Option String
  useSsl : Bool
  timeoutSeconds : Int
  charset : Option String
  timezone : Option String
  environment : Option String
  readOnly : Bool
  sshPassword : Option Secret
  sshPrivateKey : Option Secret
  sshPassphrase : Option Secret

structure UpdateConnectionRequest where
  name : Option String
  dbType : Option String
  host : Option String
  port : Option Int
  username : Option String
  password : Option Secret
  defaultDatabase : Option String
  filePath : Option String
  useSsl : Option Bool
  readOnly : Option Bool
  timeoutSeconds : Option Int
  charset : Option String
  timezone : Option String
  environment : Option String

/-- What a connection is opened with. -/
structure Account where
  dbType : String
  host : String
  port : Int
  username : String
  password : Secret
  defaultDatabase : Option String

def CreateConnectionRequest.account (body : CreateConnectionRequest) : Account :=
  ⟨body.dbType, body.host, body.port, body.username, body.password, body.defaultDatabase⟩

/-- The status and the `error` of an answer; `data` is the row. -/
structure Response where
  status : Nat
  data : Option DatabaseConnection
  error : Option (String × String)

def Response.fail (status : Nat) (code message : String) : Response :=
  ⟨status, none, some (code, message)⟩

def gateBlocked : Response :=
  .fail 403 "ENTITLEMENT_GATED"
    "License gated. Activate or renew your license to perform this action."

/-! ## The canary -/

/-- What a source database answers to the steps of the probe; `createTable` is whether the
CREATE succeeds. -/
structure Probe where
  connect : Except String Unit
  acquire : Except String Unit
  begin_ : Except String Unit
  createTable : Bool

def writableMessage : String :=
  "source account is writable; create a read-only account (SELECT on information_schema only)"

def probeVerdict (createTable : Bool) : Except String Unit :=
  if createTable then .error writableMessage else .ok ()

def runCreateCanary (source : Account → Probe) (body : CreateConnectionRequest) :
    Except String Unit :=
  let dbType := String.ofList (Text.asciiLower body.dbType.toList)
  let probe := source body.account
  if dbType = "mysql" then do
    probe.connect.mapError ("cannot connect to source DB: " ++ ·)
    probeVerdict probe.createTable
  else if dbType ∈ ["postgres", "postgresql", "pg"] then do
    probe.connect.mapError ("cannot connect to source DB: " ++ ·)
    probe.acquire.mapError ("pool acquire failed: " ++ ·)
    probe.begin_.mapError ("begin failed: " ++ ·)
    probeVerdict probe.createTable
  else .error ("unsupported db_type for source_drift: " ++ dbType)

/-! ## The handlers -/

/-- What a call meets: the entitlement, the source databases, the UUID, the clock, the
nonces it draws and, for each of its statements, the error it fails with. -/
structure Env where
  gated : Bool
  source : Account → Probe
  uuid : String
  now : String
  nonce : NonceBytes
  sshPasswordNonce : NonceBytes
  sshPrivateKeyNonce : NonceBytes
  sshPassphraseNonce : NonceBytes
  fetched : Except String Unit
  written : Except String Unit
  refetched : Except String Unit

/-- The rows, and the accounts for which the canary passed in the call that stored them. -/
structure State where
  rows : List DatabaseConnection
  verified : List (String × Account)

def State.initial : State := ⟨[], []⟩

def kindOf (kind : Option String) : String :=
  match kind.map fun k => String.ofList (Text.asciiLower k.toList) with
  | some "source_drift" => "source_drift"
  | _ => "collab"

section Handlers

variable {Key : Type} (aead : Aead Key) (key : Key)

/-- An optional secret: an empty one is none, and the outer `none` is a failure. -/
def encryptSecret (nonce : NonceBytes) : Option Secret → Option (Option Secret)
  | none => some none
  | some [] => some none
  | some secret => (encryptV1 aead key nonce secret).map some

/-- The row of a `create_connection`, unless a secret cannot be encrypted. -/
def createdRow (caller : String) (env : Env) (body : CreateConnectionRequest) :
    Option DatabaseConnection := do
  let encrypted ← encryptV1 aead key env.nonce body.password
  let sshPassword ← encryptSecret aead key env.sshPasswordNonce body.sshPassword
  let sshPrivateKey ← encryptSecret aead key env.sshPrivateKeyNonce body.sshPrivateKey
  let sshPassphrase ← encryptSecret aead key env.sshPassphraseNonce body.sshPassphrase
  return {
    id := env.uuid
    name := body.name
    dbType := body.dbType
    host := body.host
    port := body.port
    username := body.username
    passwordEncrypted := encrypted
    defaultDatabase := body.defaultDatabase
    createdBy := caller
    createdAt := env.now
    kind := kindOf body.kind
    filePath := body.filePath
    useSsl := body.useSsl
    timeoutSeconds := body.timeoutSeconds
    charset := body.charset
    timezone := body.timezone
    environment := body.environment
    readOnly := body.readOnly
    sshPasswordEncrypted := sshPassword
    sshPrivateKeyEncrypted := sshPrivateKey
    sshPassphraseEncrypted := sshPassphrase }

/-- The SELECT after a write. -/
def answerRow (refetched : Except String Unit) (row : DatabaseConnection) : Response :=
  match refetched with
  | .ok () => ⟨200, some row, none⟩
  | .error message => .fail 200 "FETCH_FAILED" message

def createConnection (s : State) (caller : String) (env : Env) (body : CreateConnectionRequest) :
    Response × State :=
  if env.gated then (gateBlocked, s)
  else
    let canary :=
      if kindOf body.kind = "source_drift" then runCreateCanary env.source body else .ok ()
    match canary with
    | .error message => (.fail 200 "CANARY_REJECTED" message, s)
    | .ok () =>
        match createdRow aead key caller env body with
        | none => (.fail 200 "CREATE_FAILED" "credential encryption failed", s)
        | some row =>
            if s.rows.any fun other => decide (other.id = row.id) then
              (.fail 200 "CREATE_FAILED" "UNIQUE constraint failed: database_connections.id", s)
            else
              match env.written with
              | .error message => (.fail 200 "CREATE_FAILED" message, s)
              | .ok () =>
                  (answerRow env.refetched row,
                    { rows := s.rows ++ [row]
                      verified :=
                        if kindOf body.kind = "source_drift" then
                          s.verified ++ [(row.id, body.account)]
                        else s.verified })

/-- The ciphertext that an update stores; `none` when the new password cannot be
encrypted. -/
def updatedPassword (nonce : NonceBytes) (password : Option Secret) (stored : Secret) :
    Option Secret :=
  match password with
  | none => some stored
  | some [] => some stored
  | some password => encryptV1 aead key nonce password

/-- What the UPDATE of `update_connection` sets. -/
def UpdateConnectionRequest.apply (body : UpdateConnectionRequest) (passwordEncrypted : Secret)
    (row : DatabaseConnection) : DatabaseConnection :=
  { row with
    name := body.name.getD row.name
    dbType := body.dbType.getD row.dbType
    host := body.host.getD row.host
    port := body.port.getD row.port
    username := body.username.getD row.username
    passwordEncrypted := passwordEncrypted
    defaultDatabase := body.defaultDatabase.or row.defaultDatabase
    filePath := body.filePath.or row.filePath
    useSsl := body.useSsl.getD row.useSsl
    readOnly := body.readOnly.getD row.readOnly
    timeoutSeconds := body.timeoutSeconds.getD row.timeoutSeconds
    charset := body.charset.or row.charset
    timezone := body.timezone.or row.timezone
    environment := body.environment.or row.environment }

def updateConnection (s : State) (id : String) (env : Env) (body : UpdateConnectionRequest) :
    Response × State :=
  if env.gated then (gateBlocked, s)
  else
    match env.fetched with
    | .error message => (.fail 500 "DB_ERROR" message, s)
    | .ok () =>
        match s.rows.find? fun row => decide (row.id = id) with
        | none => (.fail 404 "NOT_FOUND" "connection not found", s)
        | some row =>
            match updatedPassword aead key env.nonce body.password row.passwordEncrypted with
            | none => (.fail 200 "UPDATE_FAILED" "credential encryption failed", s)
            | some passwordEncrypted =>
                match env.written with
                | .error message => (.fail 200 "UPDATE_FAILED" message, s)
                | .ok () =>
                    let updated := body.apply passwordEncrypted row
                    (answerRow env.refetched updated,
                      { s with
                        rows := updateWhere (fun row => decide (row.id = id)) (fun _ => updated)
                          s.rows })

/-- The answer does not depend on whether the DELETE is executed. -/
def deleteConnection (s : State) (id : String) (env : Env) : Response × State :=
  if env.gated then (gateBlocked, s)
  else
    match env.written with
    | .error _ => (⟨200, none, none⟩, s)
    | .ok () => (⟨200, none, none⟩, { s with rows := s.rows.filter fun row => decide (row.id ≠ id) })

inductive Action where
  | create (caller : String) (env : Env) (body : CreateConnectionRequest)
  | update (id : String) (env : Env) (body : UpdateConnectionRequest)
  | delete (id : String) (env : Env)

def step (s : State) : Action → Option State
  | .create caller env body => some (createConnection aead key s caller env body).2
  | .update id env body => some (updateConnection aead key s id env body).2
  | .delete id env => some (deleteConnection s id env).2

end Handlers

end Dbmaster.Connections.Handler
