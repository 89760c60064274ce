import Dbmaster.Connections.Canary
import Dbmaster.Lib.ReadWrite
import Mathlib.Data.List.Induction
/-!
# Updates at the same time

`update_connection` reads the row in one statement and writes all its columns back in
another.  Calls that change different fields of one row lose nothing where each UPDATE meets
the row that its call has read.
-/

namespace Dbmaster.Connections.Updates

open Dbmaster.Lib Dbmaster.Lib.Table Dbmaster.Lib.Transition Dbmaster.Lib.ReadWrite
open Dbmaster.Credential.Format Dbmaster.Credential.Migration Dbmaster.Connections.Handler

deriving instance DecidableEq for DatabaseConnection

/-! ## The calls -/

structure Call where
  env : Env
  body : UpdateConnectionRequest

/-- The columns that the UPDATE sets, to the values of the merged row. -/
def setColumns (merged row : DatabaseConnection) : DatabaseConnection :=
  { row with
    name := merged.name
    dbType := merged.dbType
    host := merged.host
    port := merged.port
    username := merged.username
    passwordEncrypted := merged.passwordEncrypted
    defaultDatabase := merged.defaultDatabase
    filePath := merged.filePath
    useSsl := merged.useSsl
    readOnly := merged.readOnly
    timeoutSeconds := merged.timeoutSeconds
    charset := merged.charset
    timezone := merged.timezone
    environment := merged.environment }

/-- The table and the calls, each with what it has still to do. -/
abbrev Updating := World (List DatabaseConnection) (Option DatabaseConnection) Response Call

def byId (id : String) (row : DatabaseConnection) : Bool := decide (row.id = id)

section Calls

variable {Key : Type} (aead : Aead Key) (key : Key)

/-- A call of `update_connection`: the SELECT, and the UPDATE of what it has found.  The
output is the answer of a call that is refused. -/
def updateJob (id : String) (call : Call) :
    Job (List DatabaseConnection) (Option DatabaseConnection) Response where
  view rows := rows.find? (byId id)
  run existing :=
    if call.env.gated then ([gateBlocked], none)
    else
      match call.env.fetched, existing with
      | .error message, _ => ([.fail 500 "DB_ERROR" message], none)
      | .ok (), none => ([.fail 404 "NOT_FOUND" "connection not found"], none)
      | .ok (), some row =>
          match updatedPassword aead key call.env.nonce call.body.password
            row.passwordEncrypted with
          | none => ([.fail 200 "UPDATE_FAILED" "credential encryption failed"], none)
          | some passwordEncrypted =>
              match call.env.written with
              | .error message => ([.fail 200 "UPDATE_FAILED" message], none)
              | .ok () =>
                  ([], some (updateWhere (byId id)
                    (setColumns (call.body.apply passwordEncrypted row))))

/-! ## The fields -/

inductive Field
  | name
  | dbType
  | host
  | port
  | username
  | password
  | defaultDatabase
  | filePath
  | useSsl
  | readOnly
  | timeoutSeconds
  | charset
  | timezone
  | environment

/-- The value of a field; a password is what its ciphertext decrypts to. -/
inductive Value
  | text (s : String)
  | number (n : Int)
  | flag (b : Bool)
  | optional (s : Option String)
  | secret (decrypted : Except CredentialError Secret)

def Field.value (row : DatabaseConnection) : Field → Value
  | .name => .text row.name
  | .dbType => .text row.dbType
  | .host => .text row.host
  | .port => .number row.port
  | .username => .text row.username
  | .password => .secret (decryptPassword aead key row.passwordEncrypted)
  | .defaultDatabase => .optional row.defaultDatabase
  | .filePath => .optional row.filePath
  | .useSsl => .flag row.useSsl
  | .readOnly => .flag row.readOnly
  | .timeoutSeconds => .number row.timeoutSeconds
  | .charset => .optional row.charset
  | .timezone => .optional row.timezone
  | .environment => .optional row.environment

end Calls

/-- An empty password is none. -/
def Field.supplied (body : UpdateConnectionRequest) : Field → Option Value
  | .name => body.name.map .text
  | .dbType => body.dbType.map .text
  | .host => body.host.map .text
  | .port => body.port.map .number
  | .username => body.username.map .text
  | .password => (body.password.filter fun p => !p.isEmpty).map fun p => .secret (.ok p)
  | .defaultDatabase => body.defaultDatabase.map fun s => .optional (some s)
  | .filePath => body.filePath.map fun s => .optional (some s)
  | .useSsl => body.useSsl.map .flag
  | .readOnly => body.readOnly.map .flag
  | .timeoutSeconds => body.timeoutSeconds.map .number
  | .charset => body.charset.map fun s => .optional (some s)
  | .timezone => body.timezone.map fun s => .optional (some s)
  | .environment => body.environment.map fun s => .optional (some s)

/-- The calls supply no field in common. -/
def Disjoint (a b : Call) : Prop :=
  ∀ field, Field.supplied a.body field = none ∨ Field.supplied b.body field = none

section Outcome

variable {Key : Type} (aead : Aead Key) (key : Key)

def Call.succeeds (call : Call) : Bool :=
  !call.env.gated && call.env.fetched.isOk && call.env.written.isOk &&
    (updatedPassword aead key call.env.nonce call.body.password []).isSome

def Call.changes (call : Call) (field : Field) : Option Value :=
  if call.succeeds aead key then Field.supplied call.body field else none

def Finished (w : Updating) (i : Nat) : Prop :=
  ∃ thread, w.threads[i]? = some thread ∧ thread.rest = []

/-- The row shows what the finished calls have changed, and is the old one elsewhere. -/
structure Merged (id : String) (calls : List Call) (old : DatabaseConnection) (w : Updating)
    (row : DatabaseConnection) : Prop where
  found : w.state.find? (byId id) = some row
  changed : ∀ i call field value, calls[i]? = some call → Finished w i →
    call.changes aead key field = some value → field.value aead key row = value
  others : ∀ field, (∀ i call, calls[i]? = some call → Finished w i →
    call.changes aead key field = none) → field.value aead key row = field.value aead key old

end Outcome

variable {Key : Type} {aead : Aead Key} {key : Key}

/-! ## One call -/

theorem optional_or {given stored : Option String} :
    Value.optional (given.or stored) =
      (given.map fun s => Value.optional (some s)).getD (.optional stored) := by
  cases given <;> rfl

theorem value_apply (hlaw : aead.Lawful) {nonce : NonceBytes} {body : UpdateConnectionRequest}
    {row : DatabaseConnection} {passwordEncrypted : Secret}
    (h : updatedPassword aead key nonce body.password row.passwordEncrypted =
      some passwordEncrypted) (field : Field) :
    field.value aead key (body.apply passwordEncrypted row) =
      (field.supplied body).getD (field.value aead key row) := by
  cases field with
  | password =>
      unfold updatedPassword at h
      simp only [Field.value, Field.supplied, UpdateConnectionRequest.apply]
      split at h
      case h_1 hnone =>
        obtain rfl := Option.some.inj h
        rw [hnone]
        rfl
      case h_2 hempty =>
        obtain rfl := Option.some.inj h
        rw [hempty]
        rfl
      case h_3 password hne hsome =>
        rw [decryptPassword_encryptV1 hlaw h, hsome]
        cases password with
        | nil => exact absurd rfl hne
        | cons c rest => rfl
  | name | dbType | host | port | username | useSsl | readOnly | timeoutSeconds =>
      exact (Option.getD_map _ _ _).symm
  | defaultDatabase | filePath | charset | timezone | environment => exact optional_or

theorem isSome_updatedPassword (aead : Aead Key) (key : Key) (nonce : NonceBytes) (password : Option Secret)
    (stored : Secret) :
    (updatedPassword aead key nonce password stored).isSome =
      (updatedPassword aead key nonce password []).isSome := by
  unfold updatedPassword
  split <;> rfl

variable {id : String} {call : Call} {rows : List DatabaseConnection} {row : DatabaseConnection}

theorem run_of_succeeds (id : String) (hsucceeds : call.succeeds aead key = true)
    (row : DatabaseConnection) :
    ∃ passwordEncrypted, updatedPassword aead key call.env.nonce call.body.password
        row.passwordEncrypted = some passwordEncrypted ∧
      (updateJob aead key id call).run (some row) = ([], some (updateWhere (byId id)
        (setColumns (call.body.apply passwordEncrypted row)))) := by
  unfold Call.succeeds at hsucceeds
  simp only [Bool.and_eq_true, Bool.not_eq_true'] at hsucceeds
  obtain ⟨⟨⟨hgated, hfetched⟩, hwritten⟩, hpassword⟩ := hsucceeds
  rw [← isSome_updatedPassword _ _ _ _ row.passwordEncrypted] at hpassword
  obtain ⟨passwordEncrypted, hencrypted⟩ := Option.isSome_iff_exists.mp hpassword
  refine ⟨passwordEncrypted, hencrypted, ?_⟩
  cases hfetch : call.env.fetched with
  | error message =>
      rw [hfetch] at hfetched
      cases hfetched
  | ok found =>
      cases hwrite : call.env.written with
      | error message =>
          rw [hwrite] at hwritten
          cases hwritten
      | ok done =>
          simp only [updateJob, hgated, hfetch, hencrypted, hwrite, Bool.false_eq_true, if_false]

theorem run_of_refused (hrefused : call.succeeds aead key = false)
    (existing : Option DatabaseConnection) :
    ((updateJob aead key id call).run existing).2 = none := by
  simp only [updateJob]
  split
  case isTrue => rfl
  case isFalse hgated =>
    split
    case h_1 | h_2 => rfl
    case h_3 row hfetched =>
      split
      case h_1 => rfl
      case h_2 passwordEncrypted hencrypted =>
        split
        case h_1 => rfl
        case h_2 hwritten =>
          have hpassword := isSome_updatedPassword aead key call.env.nonce
            call.body.password row.passwordEncrypted
          rw [hencrypted] at hpassword
          simp [Call.succeeds, hgated, hfetched, hwritten, Except.isOk, Except.toBool,
            ← hpassword] at hrefused

theorem value_after_call (hlaw : aead.Lawful) (call : Call) (hrow : rows.find? (byId id) = some row) :
    ∃ new, ((updateJob aead key id call).apply rows).find? (byId id) = some new ∧
      ∀ field : Field, field.value aead key new =
        (call.changes aead key field).getD (field.value aead key row) := by
  have hview : (updateJob aead key id call).view rows = some row := hrow
  unfold Job.apply
  rw [hview]
  cases hsucceeds : call.succeeds aead key with
  | false =>
      rw [run_of_refused hsucceeds]
      refine ⟨row, hrow, fun field => ?_⟩
      rw [Call.changes, hsucceeds]
      rfl
  | true =>
      obtain ⟨passwordEncrypted, hencrypted, hrun⟩ := run_of_succeeds id hsucceeds row
      rw [hrun]
      refine ⟨call.body.apply passwordEncrypted row, ?_, fun field => ?_⟩
      · have hid : ∀ other, byId id (setColumns (call.body.apply passwordEncrypted row) other) =
            byId id other := fun _ => rfl
        show (updateWhere _ _ rows).find? _ = _
        rw [find?_updateWhere hid, hrow]
        rfl
      · rw [Call.changes, hsucceeds, if_pos rfl]
        exact value_apply hlaw hencrypted field

/-- A call that nothing comes between is `update_connection` as a whole. -/
theorem apply_updateJob (s : State) (env : Env) (body : UpdateConnectionRequest)
    (hnodup : (s.rows.map DatabaseConnection.id).Nodup) :
    (updateJob aead key id ⟨env, body⟩).apply s.rows =
      (updateConnection aead key s id env body).2.rows := by
  unfold Job.apply updateConnection
  simp only [updateJob]
  split_ifs
  · rfl
  · cases env.fetched with
    | error message => rfl
    | ok found =>
        have hbyId : (fun row : DatabaseConnection => decide (row.id = id)) = byId id := rfl
        rw [hbyId]
        cases hfind : s.rows.find? (byId id) with
        | none => rfl
        | some row =>
            simp only []
            cases updatedPassword aead key env.nonce body.password row.passwordEncrypted with
            | none => rfl
            | some passwordEncrypted =>
                cases env.written with
                | error message => rfl
                | ok done =>
                    simp only []
                    unfold updateWhere
                    apply List.map_congr_left
                    intro other hother
                    split
                    case isFalse => rfl
                    case isTrue hid =>
                      -- the ids are different, so this is the row that was found
                      have hsame : other = row := by
                        apply List.inj_on_of_nodup_map hnodup hother
                          (List.mem_of_find?_eq_some hfind)
                        have hrow : byId id row = true := List.find?_some hfind
                        rw [of_decide_eq_true hid, of_decide_eq_true hrow]
                      rw [hsame]
                      rfl

/-! ## Calls one after the other -/

/-- The last call that changes a field decides it. -/
theorem value_after (hlaw : aead.Lawful) (id : String) (order : List (Nat × Call))
    (hrow : rows.find? (byId id) = some row) :
    ∃ new, (after (updateJob aead key id) order rows).find? (byId id) = some new ∧
      ∀ field : Field, field.value aead key new =
        (order.reverse.findSome? fun entry => entry.2.changes aead key field).getD
          (field.value aead key row) := by
  induction order using List.reverseRecOn with
  | nil => exact ⟨row, hrow, fun _ => rfl⟩
  | append_singleton order entry ih =>
      obtain ⟨middle, hmiddle, hvalues⟩ := ih
      obtain ⟨new, hnew, hchanged⟩ := value_after_call hlaw entry.2 hmiddle
      rw [after_append]
      refine ⟨new, hnew, fun field => ?_⟩
      rw [hchanged, hvalues, List.reverse_append, List.reverse_singleton, List.singleton_append,
        List.findSome?_cons]
      cases entry.2.changes aead key field <;> rfl

theorem changes_disjoint (aead : Aead Key) (key : Key) {a b : Call} (h : Disjoint a b)
    (field : Field) :
    a.changes aead key field = none ∨ b.changes aead key field = none := by
  unfold Call.changes
  rcases h field with hnone | hnone
  · left
    rw [hnone, ite_self]
  · right
    rw [hnone, ite_self]

theorem disjoint_of_ne {calls : List Call} (h : calls.Pairwise Disjoint) {i k : Nat} {a b : Call}
    (hne : i ≠ k) (ha : calls[i]? = some a) (hb : calls[k]? = some b) : Disjoint a b := by
  obtain ⟨hi, rfl⟩ := List.getElem?_eq_some_iff.mp ha
  obtain ⟨hk, rfl⟩ := List.getElem?_eq_some_iff.mp hb
  rcases Nat.lt_or_gt_of_ne hne with hlt | hgt
  · exact List.pairwise_iff_getElem.mp h i k hi hk hlt
  · exact fun field => (List.pairwise_iff_getElem.mp h k i hk hi hgt field).symm

theorem mem_order_iff {calls : List Call} {w : Updating} {order : List (Nat × Call)}
    (hserial : Serial (updateJob aead key id) (calls.map fun call => [call]) rows order w)
    {i : Nat} {call : Call} :
    (i, call) ∈ order ↔ calls[i]? = some call ∧ Finished w i := by
  have hprogram : ∀ other, calls[i]? = some other →
      (calls.map fun call => [call])[i]? = some [other] := by
    intro other hother
    rw [List.getElem?_map, hother]
    rfl
  constructor
  · intro hmem
    have hi := hserial.bound _ hmem
    rw [List.length_map] at hi
    have hcall := List.getElem?_eq_getElem hi
    obtain ⟨thread, hthread, hsplit⟩ := hserial.exists_thread (hprogram _ hcall)
    obtain ⟨hlabels, hrest⟩ : labels i order = [calls[i]] ∧ thread.rest = [] := by
      rcases List.singleton_eq_append_iff.mp hsplit with ⟨hnil, -⟩ | hone
      · have hlabel := mem_labels.mpr hmem
        rw [hnil] at hlabel
        cases hlabel
      · exact hone
    have hlabel := mem_labels.mpr hmem
    rw [hlabels, List.mem_singleton] at hlabel
    rw [hlabel]
    exact ⟨hcall, thread, hthread, hrest⟩
  · rintro ⟨hcall, thread, hthread, hrest⟩
    obtain ⟨same, hsame, hsplit⟩ := hserial.exists_thread (hprogram _ hcall)
    rw [hthread] at hsame
    cases hsame
    rw [hrest, List.append_nil] at hsplit
    apply mem_labels.mp
    rw [← hsplit]
    exact List.mem_singleton_self call

/-- Where each UPDATE meets the row that its call has read, calls that supply no field in
common lose nothing. -/
theorem merged_of_fresh (aead : Aead Key) (hlaw : aead.Lawful) (key : Key) (id : String)
    (rows : List DatabaseConnection) (old : DatabaseConnection)
    (hold : rows.find? (byId id) = some old) (calls : List Call)
    (hdisjoint : calls.Pairwise Disjoint) (acts : List ReadWrite.Action)
    (w : Updating)
    (hrun : Run (ReadWrite.step (updateJob aead key id)) (Fresh (updateJob aead key id))
      (.initial rows (calls.map fun call => [call])) acts w) :
    ∃ row, Merged aead key id calls old w row := by
  obtain ⟨order, hserial⟩ := serial_of_fresh hrun
  obtain ⟨row, hrow, hvalues⟩ := value_after hlaw id order hold
  refine ⟨row, ?_, ?_, ?_⟩
  · rw [hserial.state]
    exact hrow
  · intro i call field value hcall hfinished hchanges
    have hmem := (mem_order_iff hserial).mpr ⟨hcall, hfinished⟩
    rw [hvalues]
    cases hlast : order.reverse.findSome? fun entry => entry.2.changes aead key field with
    | none =>
        have hnone := List.findSome?_eq_none_iff.mp hlast _ (List.mem_reverse.mpr hmem)
        rw [hchanges] at hnone
        cases hnone
    | some last =>
        -- the last call that changes the field is this one
        obtain ⟨⟨k, other⟩, hother, hlastChange⟩ := List.exists_of_findSome?_eq_some hlast
        obtain ⟨hk, -⟩ := (mem_order_iff hserial).mp (List.mem_reverse.mp hother)
        have hsame : other = call := by
          by_cases hik : i = k
          · rw [← hik, hcall] at hk
            exact (Option.some.inj hk).symm
          · rcases changes_disjoint aead key
              (disjoint_of_ne hdisjoint hik hcall hk) field with hnone | hnone
            · rw [hchanges] at hnone
              cases hnone
            · rw [hlastChange] at hnone
              cases hnone
        rw [hsame, hchanges] at hlastChange
        exact (Option.some.inj hlastChange).symm
  · intro field hnone
    rw [hvalues]
    have hno : (order.reverse.findSome? fun entry => entry.2.changes aead key field) = none := by
      apply List.findSome?_eq_none_iff.mpr
      rintro ⟨i, call⟩ hmem
      obtain ⟨hcall, hfinished⟩ := (mem_order_iff hserial).mp (List.mem_reverse.mp hmem)
      exact hnone i call hcall hfinished
    rw [hno]
    rfl

/-! ## A switch and a new name -/

def storedRow : DatabaseConnection where
  id := "c1"
  name := "shop"
  dbType := "mysql"
  host := "db.example.com"
  port := 3306
  username := "reader"
  passwordEncrypted := (encryptV1 maskCipher 7 twelveOnes "secret".toList).getD []
  defaultDatabase := some "shop"
  createdBy := "admin"
  createdAt := "2026-01-01T00:00:00+00:00"
  kind := "collab"
  filePath := none
  useSsl := false
  timeoutSeconds := 30
  charset := none
  timezone := none
  environment := none
  readOnly := false
  sshPasswordEncrypted := none
  sshPrivateKeyEncrypted := none
  sshPassphraseEncrypted := none

def noFields : UpdateConnectionRequest :=
  { name := none, dbType := none, host := none, port := none, username := none,
    password := none, defaultDatabase := none, filePath := none, useSsl := none,
    readOnly := none, timeoutSeconds := none, charset := none, timezone := none,
    environment := none }

/-- One call makes the connection read-only, the other renames it. -/
def switchAndRename : List Call :=
  [⟨Canary.sampleEnv, { noFields with readOnly := some true }⟩,
    ⟨Canary.sampleEnv, { noFields with name := some "store" }⟩]

theorem switchAndRename_disjoint : switchAndRename.Pairwise Disjoint := by
  apply List.pairwise_pair.mpr
  intro field
  cases field with
  | readOnly => exact Or.inr rfl
  | _ => exact Or.inl rfl

theorem merged_of_fresh_mask :
    ∃ w row, execChecked (ReadWrite.step (updateJob maskCipher 7 "c1"))
        (fresh (updateJob maskCipher 7 "c1"))
        (.initial [storedRow] (switchAndRename.map fun call => [call]))
        [.read 0, .write 0, .read 1, .write 1] = some w ∧
      Merged maskCipher 7 "c1" switchAndRename storedRow w row := by
  have hrun : (execChecked (ReadWrite.step (updateJob maskCipher 7 "c1"))
      (fresh (updateJob maskCipher 7 "c1"))
      (.initial [storedRow] (switchAndRename.map fun call => [call]))
      [.read 0, .write 0, .read 1, .write 1]).isSome = true := by
    decide +kernel
  obtain ⟨w, hw⟩ := Option.isSome_iff_exists.mp hrun
  obtain ⟨row, hmerged⟩ := merged_of_fresh maskCipher maskCipher_lawful 7 "c1" [storedRow]
    storedRow rfl switchAndRename switchAndRename_disjoint _ w
    (run_of_execChecked (fun _ _ => fresh_sound) hw)
  exact ⟨w, row, hw, hmerged⟩

/-- Both calls have read the row before either writes: the second one switches back. -/
theorem read_only_undone :
    ¬ ∀ (calls : List Call) (acts : List ReadWrite.Action) (w : Updating),
      calls.Pairwise Disjoint →
      Run (ReadWrite.step (updateJob maskCipher 7 "c1")) anyStep
        (.initial [storedRow] (calls.map fun call => [call])) acts w →
      ∃ row, Merged maskCipher 7 "c1" calls storedRow w row := by
  intro hall
  have hrun : ((exec (ReadWrite.step (updateJob maskCipher 7 "c1"))
      (.initial [storedRow] (switchAndRename.map fun call => [call]))
      [.read 0, .read 1, .write 0, .write 1]).map fun w =>
        (w.state.map DatabaseConnection.readOnly, w.threads.map fun thread => thread.rest.isEmpty))
      = some ([false], [true, true]) := by
    decide +kernel
  obtain ⟨w, hw, hfields⟩ := Option.map_eq_some_iff.mp hrun
  obtain ⟨hreadOnly, hrests⟩ := Prod.mk.inj hfields
  obtain ⟨row, hmerged⟩ := hall switchAndRename _ w switchAndRename_disjoint (run_of_exec hw)
  have hfinished : Finished w 0 := by
    have hfirst := congrArg (fun rests => rests[0]?) hrests
    simp only [List.getElem?_map] at hfirst
    obtain ⟨thread, hthread, hempty⟩ := Option.map_eq_some_iff.mp hfirst
    exact ⟨thread, hthread, List.isEmpty_iff.mp hempty⟩
  have hsucceeds : Call.succeeds maskCipher 7
      ⟨Canary.sampleEnv, { noFields with readOnly := some true }⟩ = true := by
    decide +kernel
  have hchanged := hmerged.changed 0 _ .readOnly (.flag true) rfl hfinished (if_pos hsucceeds)
  have hmem : row.readOnly ∈ w.state.map DatabaseConnection.readOnly :=
    List.mem_map_of_mem (List.mem_of_find?_eq_some hmerged.found)
  rw [hreadOnly, List.mem_singleton] at hmem
  have hflag := Value.flag.inj hchanged
  rw [hmem] at hflag
  cases hflag

end Dbmaster.Connections.Updates
