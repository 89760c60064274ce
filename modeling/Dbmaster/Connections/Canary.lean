import Dbmaster.Connections.Handler
import Dbmaster.Credential.Migration
/-!
# The canary guarantee

A stored `source_drift` connection should point to an account that the canary has found to
be read-only.  `create_connection` runs the canary; `update_connection` does not, and keeps
the guarantee where it leaves the account alone.
-/

namespace Dbmaster.Connections.Canary

open Dbmaster.Lib.Table Dbmaster.Lib.Transition
open Dbmaster.Credential.Format Dbmaster.Credential.Migration Dbmaster.Connections.Handler

section Guarantee

variable {Key : Type} (aead : Aead Key) (key : Key)

/-- The row is opened with the account. -/
structure Holds (row : DatabaseConnection) (account : Account) : Prop where
  dbType : row.dbType = account.dbType
  host : row.host = account.host
  port : row.port = account.port
  username : row.username = account.username
  password : decryptPassword aead key row.passwordEncrypted = .ok account.password
  defaultDatabase : row.defaultDatabase = account.defaultDatabase

/-- Every `source_drift` row holds an account that the canary passed for this row. -/
def AllVerified (s : State) : Prop :=
  ∀ row ∈ s.rows, row.kind = "source_drift" →
    ∃ account, Holds aead key row account ∧ (row.id, account) ∈ s.verified

def KeepsVerified (allowed : State → Action → Prop) : Prop :=
  ∀ acts s, Run (step aead key) allowed .initial acts s → AllVerified aead key s

/-- The request names no other account than the row's. -/
structure SameAccount (body : UpdateConnectionRequest) (row : DatabaseConnection) : Prop where
  dbType : ∀ dbType, body.dbType = some dbType → dbType = row.dbType
  host : ∀ host, body.host = some host → host = row.host
  port : ∀ port, body.port = some port → port = row.port
  username : ∀ username, body.username = some username → username = row.username
  password : ∀ password, body.password = some password → password = [] ∨
    decryptPassword aead key row.passwordEncrypted = .ok password
  defaultDatabase : ∀ database, body.defaultDatabase = some database →
    row.defaultDatabase = some database

/-- An update of a `source_drift` row leaves its account as it is. -/
def LeavesAccount (s : State) : Action → Prop
  | .update id _ body => ∀ row ∈ s.rows, row.id = id → row.kind = "source_drift" →
      SameAccount aead key body row
  | _ => True

end Guarantee

variable {Key : Type} {aead : Aead Key} {key : Key}

/-! ## Updates -/

theorem getD_eq {α : Type} {given : Option α} {stored : α} (h : ∀ x, given = some x → x = stored) :
    given.getD stored = stored := by
  cases given with
  | none => rfl
  | some x => exact h x rfl

theorem or_eq {α : Type} {given stored : Option α}
    (h : ∀ x, given = some x → stored = some x) : given.or stored = stored := by
  cases given with
  | none => rfl
  | some x => exact (h x rfl).symm

theorem decrypt_updatedPassword (hlaw : aead.Lawful) {nonce : NonceBytes}
    {password : Option Secret} {stored new plain : Secret}
    (hstored : decryptPassword aead key stored = .ok plain)
    (hsame : ∀ p, password = some p → p = [] ∨ decryptPassword aead key stored = .ok p)
    (h : updatedPassword aead key nonce password stored = some new) :
    decryptPassword aead key new = .ok plain := by
  unfold updatedPassword at h
  split at h
  case h_1 =>
    rw [← Option.some.inj h]
    exact hstored
  case h_2 =>
    rw [← Option.some.inj h]
    exact hstored
  case h_3 p hne =>
    rcases hsame p rfl with rfl | hp
    · exact absurd rfl hne
    · rw [hstored] at hp
      rw [Except.ok.inj hp]
      exact decryptPassword_encryptV1 hlaw h

theorem Holds.apply (hlaw : aead.Lawful) {row : DatabaseConnection} {account : Account}
    (h : Holds aead key row account) {body : UpdateConnectionRequest}
    (hsame : SameAccount aead key body row) {nonce : NonceBytes} {new : Secret}
    (hnew : updatedPassword aead key nonce body.password row.passwordEncrypted = some new) :
    Holds aead key (body.apply new row) account where
  dbType := (getD_eq hsame.dbType).trans h.dbType
  host := (getD_eq hsame.host).trans h.host
  port := (getD_eq hsame.port).trans h.port
  username := (getD_eq hsame.username).trans h.username
  password := decrypt_updatedPassword hlaw h.password hsame.password hnew
  defaultDatabase := (or_eq hsame.defaultDatabase).trans h.defaultDatabase

/-! ## What a call can do -/

inductive Effect (aead : Aead Key) (key : Key) (s : State) : Action → State → Prop
  | refused (a : Action) : Effect aead key s a s
  | created (caller : String) (env : Env) (body : CreateConnectionRequest)
      (row : DatabaseConnection) (hrow : createdRow aead key caller env body = some row)
      (hcanary : kindOf body.kind = "source_drift" → runCreateCanary env.source body = .ok ()) :
      Effect aead key s (.create caller env body)
        ⟨s.rows ++ [row],
          if kindOf body.kind = "source_drift" then s.verified ++ [(row.id, body.account)]
          else s.verified⟩
  | updated (id : String) (env : Env) (body : UpdateConnectionRequest) (row : DatabaseConnection)
      (new : Secret) (hrow : row ∈ s.rows) (hid : row.id = id)
      (hnew : updatedPassword aead key env.nonce body.password row.passwordEncrypted = some new) :
      Effect aead key s (.update id env body)
        { s with
          rows := updateWhere (fun other => decide (other.id = id)) (fun _ => body.apply new row)
            s.rows }
  | deleted (id : String) (env : Env) :
      Effect aead key s (.delete id env)
        { s with rows := s.rows.filter fun row => decide (row.id ≠ id) }

theorem effect_create (s : State) (caller : String) (env : Env) (body : CreateConnectionRequest) :
    Effect aead key s (.create caller env body) (createConnection aead key s caller env body).2 := by
  unfold createConnection
  by_cases hgated : env.gated = true
  · rw [if_pos hgated]
    exact .refused _
  · rw [if_neg hgated]
    simp only
    cases hcanary : (if kindOf body.kind = "source_drift" then runCreateCanary env.source body
      else .ok ()) with
    | error message => exact .refused _
    | ok _ =>
        simp only
        cases hrow : createdRow aead key caller env body with
        | none => exact .refused _
        | some row =>
            simp only
            by_cases htaken : (s.rows.any fun other => decide (other.id = row.id)) = true
            · rw [if_pos htaken]
              exact .refused _
            · rw [if_neg htaken]
              cases env.written with
              | error message => exact .refused _
              | ok _ =>
                  refine .created caller env body row hrow fun hdrift => ?_
                  rw [if_pos hdrift] at hcanary
                  exact hcanary

theorem effect_update (s : State) (id : String) (env : Env) (body : UpdateConnectionRequest) :
    Effect aead key s (.update id env body) (updateConnection aead key s id env body).2 := by
  unfold updateConnection
  split_ifs
  · exact .refused _
  · cases env.fetched with
    | error message => exact .refused _
    | ok _ =>
        simp only
        cases hfind : s.rows.find? fun row => decide (row.id = id) with
        | none => exact .refused _
        | some row =>
            have hid := List.find?_some
              (p := fun row : DatabaseConnection => decide (row.id = id)) hfind
            simp only
            cases hnew : updatedPassword aead key env.nonce body.password row.passwordEncrypted with
            | none => exact .refused _
            | some new =>
                cases env.written with
                | error message => exact .refused _
                | ok _ =>
                    exact .updated id env body row new (List.mem_of_find?_eq_some hfind)
                      (of_decide_eq_true hid) hnew

theorem effect_of_step {s s' : State} {a : Action} (hstep : step aead key s a = some s') :
    Effect aead key s a s' := by
  cases a with
  | create caller env body =>
      obtain rfl := Option.some.inj hstep
      exact effect_create s caller env body
  | update id env body =>
      obtain rfl := Option.some.inj hstep
      exact effect_update s id env body
  | delete id env =>
      obtain rfl := Option.some.inj hstep
      unfold deleteConnection
      split_ifs
      · exact .refused _
      · cases env.written with
        | error message => exact .refused _
        | ok _ => exact .deleted id env

/-! ## The guarantee is kept -/

theorem holds_createdRow (hlaw : aead.Lawful) {caller : String} {env : Env}
    {body : CreateConnectionRequest} {row : DatabaseConnection}
    (h : createdRow aead key caller env body = some row) :
    Holds aead key row body.account ∧ row.kind = kindOf body.kind := by
  unfold createdRow at h
  obtain ⟨encrypted, hencrypted, h⟩ := Option.bind_eq_some_iff.mp h
  obtain ⟨_, -, h⟩ := Option.bind_eq_some_iff.mp h
  obtain ⟨_, -, h⟩ := Option.bind_eq_some_iff.mp h
  obtain ⟨_, -, h⟩ := Option.bind_eq_some_iff.mp h
  obtain rfl := Option.some.inj h
  exact ⟨⟨rfl, rfl, rfl, rfl, decryptPassword_encryptV1 hlaw hencrypted, rfl⟩, rfl⟩

theorem allVerified_step (hlaw : aead.Lawful) {s s' : State} {a : Action}
    (hallowed : LeavesAccount aead key s a) (heffect : Effect aead key s a s')
    (h : AllVerified aead key s) : AllVerified aead key s' := by
  cases heffect with
  | refused => exact h
  | created caller env body row hrow hcanary =>
      obtain ⟨hholds, hkind⟩ := holds_createdRow hlaw hrow
      intro other hother hdrift
      rcases List.mem_append.mp hother with hold | hnew
      · obtain ⟨account, haccount, hverified⟩ := h other hold hdrift
        refine ⟨account, haccount, ?_⟩
        show (other.id, account) ∈ if kindOf body.kind = "source_drift" then _ else _
        split_ifs
        · exact List.mem_append_left _ hverified
        · exact hverified
      · obtain rfl := List.mem_singleton.mp hnew
        refine ⟨body.account, hholds, ?_⟩
        show (other.id, body.account) ∈ if kindOf body.kind = "source_drift" then _ else _
        rw [if_pos (hkind.symm.trans hdrift)]
        exact List.mem_append_right _ List.mem_cons_self
  | updated id env body row new hrow hid hnew =>
      apply forall_updateWhere
      · intro other hother _ hdrift
        exact h other hother hdrift
      · intro other _ _ hdrift
        obtain ⟨account, haccount, hverified⟩ := h row hrow hdrift
        exact ⟨account, haccount.apply hlaw (hallowed row hrow hid hdrift) hnew, hverified⟩
  | deleted id env =>
      intro row hrow hdrift
      exact h row (List.mem_of_mem_filter hrow) hdrift

/-- The guarantee, while no update changes the account of a `source_drift` row. -/
theorem keepsVerified_of_leavesAccount (aead : Aead Key) (hlaw : aead.Lawful) (key : Key) :
    KeepsVerified aead key (LeavesAccount aead key) := by
  intro acts s hrun
  apply hrun.invariant ?_ fun _ hrow _ => absurd hrow List.not_mem_nil
  intro t a t' hallowed hstep h
  exact allVerified_step hlaw hallowed (effect_of_step hstep) h

/-! ## Updates of a sample row -/

/-- A database whose `reader` cannot write. -/
def sampleSource (account : Account) : Probe :=
  ⟨.ok (), .ok (), .ok (), decide (account.username ≠ "reader")⟩

def sampleEnv : Env where
  gated := false
  source := sampleSource
  uuid := "c1"
  now := "2026-01-01T00:00:00+00:00"
  nonce := twelveOnes
  sshPasswordNonce := twelveOnes
  sshPrivateKeyNonce := twelveOnes
  sshPassphraseNonce := twelveOnes
  fetched := .ok ()
  written := .ok ()
  refetched := .ok ()

def sampleCreate : CreateConnectionRequest where
  name := "shop"
  dbType := "mysql"
  host := "db.example.com"
  port := 3306
  username := "reader"
  password := "secret".toList
  defaultDatabase := some "shop"
  kind := some "source_drift"
  filePath := none
  useSsl := false
  timeoutSeconds := 30
  charset := none
  timezone := none
  environment := none
  readOnly := false
  sshPassword := none
  sshPrivateKey := none
  sshPassphrase := none

/-- Another name; the user and the password are given again. -/
def sampleRename : UpdateConnectionRequest :=
  { name := some "store", dbType := none, host := none, port := none, username := some "reader",
    password := some "secret".toList, defaultDatabase := none, filePath := none, useSsl := none,
    readOnly := none, timeoutSeconds := none, charset := none, timezone := none,
    environment := none }

theorem keepsVerified_of_leavesAccount_mask : ∃ s row,
    Run (step maskCipher 7) (LeavesAccount maskCipher 7) .initial
        [.create "admin" sampleEnv sampleCreate, .update "c1" sampleEnv sampleRename] s ∧
      s.rows = [row] ∧ row.kind = "source_drift" ∧ row.name = "store" ∧
      s.verified = [("c1", sampleCreate.account)] ∧
      Holds maskCipher 7 row sampleCreate.account := by
  have hrun : ∃ s row, Run (step maskCipher 7) (LeavesAccount maskCipher 7) .initial
        [.create "admin" sampleEnv sampleCreate, .update "c1" sampleEnv sampleRename] s ∧
      s.rows = [row] ∧ row.kind = "source_drift" ∧ row.name = "store" ∧
      s.verified = [("c1", sampleCreate.account)] := by
    refine ⟨_, _, .cons trivial rfl (.cons ?_ rfl (.nil _)), rfl, rfl, rfl, rfl⟩
    refine List.forall_mem_cons.mpr ⟨fun _ _ => ⟨?_, ?_, ?_, ?_, ?_, ?_⟩, List.forall_mem_nil _⟩
    · rintro _ ⟨⟩
    · rintro _ ⟨⟩
    · rintro _ ⟨⟩
    · rintro _ ⟨⟩
      rfl
    · rintro _ ⟨⟩
      exact .inr rfl
    · rintro _ ⟨⟩
  obtain ⟨s, row, hrun, hrows, hkind, hname, hverified⟩ := hrun
  have hall := keepsVerified_of_leavesAccount maskCipher maskCipher_lawful 7 _ s hrun
  obtain ⟨account, hholds, hin⟩ := hall row (hrows ▸ List.mem_cons_self) hkind
  rw [hverified, List.mem_singleton, Prod.mk.injEq] at hin
  exact ⟨s, row, hrun, hrows, hkind, hname, hverified, hin.2 ▸ hholds⟩

/-- Only the user name changes. -/
def sampleUpdate : UpdateConnectionRequest :=
  { name := none, dbType := none, host := none, port := none, username := some "root",
    password := none, defaultDatabase := none, filePath := none, useSsl := none,
    readOnly := none, timeoutSeconds := none, charset := none, timezone := none,
    environment := none }

/-- The row of the writable user is stored; the canary passed for the other one. -/
theorem updated_user_unverified : ¬ KeepsVerified maskCipher 7 anyStep := by
  intro hkeeps
  have hrun : ∃ s row, exec (step maskCipher 7) .initial
        [.create "admin" sampleEnv sampleCreate, .update "c1" sampleEnv sampleUpdate] = some s ∧
      s.rows = [row] ∧ row.kind = "source_drift" ∧ row.username = "root" ∧
      s.verified = [("c1", sampleCreate.account)] := ⟨_, _, rfl, rfl, rfl, rfl, rfl⟩
  obtain ⟨s, row, hexec, hrows, hkind, husername, hverified⟩ := hrun
  have hmem : row ∈ s.rows := by
    rw [hrows]
    exact List.mem_cons_self
  obtain ⟨account, hholds, hin⟩ := hkeeps _ s (run_of_exec hexec) row hmem hkind
  rw [hverified, List.mem_singleton, Prod.mk.injEq] at hin
  have huser := hholds.username
  rw [hin.2, husername] at huser
  exact absurd huser (by decide)

end Dbmaster.Connections.Canary
