import Dbmaster.Credential.Format
import Dbmaster.Lib.Table
import Mathlib.Data.Set.Function
/-!
# The migration of legacy credentials

`migrate_legacy_credentials` on the rows of `database_connections`, with everything
that may fail or stop it on the way.
-/

namespace Dbmaster.Credential.Migration

open Dbmaster.Lib Dbmaster.Lib.Table Dbmaster.Lib.Text Dbmaster.Credential.Format

structure Row where
  id : List Char
  passwordEncrypted : List Char

/-- The table in the order of its scan. -/
structure Connections where
  rows : List Row
  primaryKey : (rows.map (·.id)).Nodup

/-- `UPDATE database_connections SET password_encrypted = ?1 WHERE id = ?2`. -/
def Connections.update (table : Connections) (newCt id : List Char) : Connections where
  rows := updateWhere (fun row => row.id = id) (fun row => { row with passwordEncrypted := newCt })
    table.rows
  primaryKey := by
    have hids : ∀ row : Row, ({ row with passwordEncrypted := newCt } : Row).id = row.id :=
      fun _ => rfl
    rw [map_updateWhere hids]
    exact table.primaryKey

/-- What the `UPDATE` of a row comes to. -/
inductive UpdateOutcome
  | done
  | fails (applied : Bool)
  | stopped (applied : Bool)

/-- What the pass meets at a row: a column that cannot be read, the end of the process, or
the bytes drawn for the nonce and the outcome of the `UPDATE`. -/
inductive Fate
  | unreadable (column : List Char)
  | stopped
  | reached (nonce : NonceBytes) (update : UpdateOutcome)

/-- One execution of the migration. -/
structure Attempt where
  scanned : Bool
  fate : List Char → Fate

/-- The first four characters of an id. -/
def redactId (id : List Char) : List Char :=
  if id.length ≤ 4 then "***".toList
  else id.take 4 ++ "***(".toList ++ (toString id.length).toList ++ ")".toList

/-- The number of rows, the error, or `none` when the process stops. -/
abbrev Outcome := Option (Except (List Char) Nat)

section Migrate

variable {Key : Type} (aead : Aead Key) (key : Key)

def migrateRows (fate : List Char → Fate) : List Row → Nat → Connections → Outcome × Connections
  | [], migrated, table => (some (.ok migrated), table)
  | row :: rows, migrated, table =>
      match fate row.id with
      | .unreadable column => (some (.error ("read ".toList ++ column)), table)
      | .stopped => (none, table)
      | .reached nonce update =>
          if startsWith row.passwordEncrypted legacyEncPrefix = false then
            migrateRows fate rows migrated table
          else
            match stripPrefix legacyEncPrefix row.passwordEncrypted with
            | none => (some (.error "strip enc: prefix".toList), table)
            | some plaintext =>
                match encryptV1 aead key nonce plaintext with
                | none => (some (.error "aes-gcm encrypt: aead::Error".toList), table)
                | some newCt =>
                    let written := table.update newCt row.id
                    match update with
                    | .done => migrateRows fate rows (migrated + 1) written
                    | .fails applied =>
                        (some (.error ("update row ".toList ++ redactId row.id)),
                          if applied then written else table)
                    | .stopped applied => (none, if applied then written else table)

def migrateLegacyCredentials (attempt : Attempt) (table : Connections) : Outcome × Connections :=
  if attempt.scanned then migrateRows aead key attempt.fate table.rows 0 table
  else (some (.error "scan database_connections for migration".toList), table)

/-- The table after the executions, one after the other. -/
def tableAfter (table : Connections) (attempts : List Attempt) : Connections :=
  attempts.foldl (fun table attempt => (migrateLegacyCredentials aead key attempt table).2) table

/-- What the stored passwords of the table decrypt to. -/
def passwords (table : Connections) :
    List (List Char × Except CredentialError (List Char)) :=
  table.rows.map fun row => (row.id, decryptPassword aead key row.passwordEncrypted)

end Migrate

/-! ## One row -/

variable {Key : Type} {aead : Aead Key} {key : Key}

theorem eq_of_id {table : Connections} {row other : Row} (hrow : row ∈ table.rows)
    (hother : other ∈ table.rows) (hid : other.id = row.id) : other = row :=
  List.inj_on_of_nodup_map table.primaryKey hother hrow hid

/-- The step that a legacy row takes: its plaintext, encrypted. -/
structure Rewrites (aead : Aead Key) (key : Key) (row : Row) (newCt : List Char) : Prop where
  read : decryptPassword aead key newCt = decryptPassword aead key row.passwordEncrypted
  legacy : startsWith newCt legacyEncPrefix = false

theorem rewrites_of_encryptV1 (hlaw : aead.Lawful) {row : Row} {plaintext newCt : List Char}
    {nonce : NonceBytes} (hstrip : stripPrefix legacyEncPrefix row.passwordEncrypted =
      some plaintext) (h : encryptV1 aead key nonce plaintext = some newCt) :
    Rewrites aead key row newCt where
  read := by
    rw [decryptPassword_encryptV1 hlaw h, decryptPassword, hstrip]
  legacy := not_legacy_of_encryptV1 h

theorem passwords_update {table : Connections} {row : Row} (hrow : row ∈ table.rows)
    {newCt : List Char} (h : Rewrites aead key row newCt) :
    passwords aead key (table.update newCt row.id) = passwords aead key table := by
  unfold passwords Connections.update updateWhere
  rw [List.map_map]
  apply List.map_congr_left
  intro old hold
  by_cases hid : old.id = row.id
  · rw [eq_of_id hrow hold hid]
    simp only [Function.comp_apply, decide_true, if_true, h.read]
  · simp only [Function.comp_apply, hid, decide_false, Bool.false_eq_true, if_false]

theorem mem_update_of_ne {table : Connections} {row : Row} (hrow : row ∈ table.rows)
    {newCt id : List Char} (hid : row.id ≠ id) : row ∈ (table.update newCt id).rows := by
  refine mem_updateWhere.mpr ⟨row, hrow, ?_⟩
  rw [if_neg (by simpa using hid)]

theorem legacy_of_mem_update {table : Connections} {newCt id : List Char} {row : Row}
    (hnew : startsWith newCt legacyEncPrefix = false)
    (hrow : row ∈ (table.update newCt id).rows)
    (hlegacy : startsWith row.passwordEncrypted legacyEncPrefix = true) :
    row ∈ table.rows ∧ row.id ≠ id := by
  obtain ⟨old, hold, rfl⟩ := mem_updateWhere.mp hrow
  by_cases hid : old.id = id
  · rw [if_pos (by simpa using hid)] at hlegacy
    rw [hnew] at hlegacy
    cases hlegacy
  · rw [if_neg (by simpa using hid)]
    exact ⟨hold, hid⟩

/-! ## One execution -/

/-- No stored value has the legacy prefix. -/
def AllV1 (table : Connections) : Prop :=
  ∀ row ∈ table.rows, startsWith row.passwordEncrypted legacyEncPrefix = false

/-- The rows are among those of the table, one of each id. -/
structure Pending (rows : List Row) (table : Connections) : Prop where
  stored : ∀ row ∈ rows, row ∈ table.rows
  distinct : (rows.map (·.id)).Nodup

/-- The legacy rows that are left are still to be passed. -/
def LegacyIn (rows : List Row) (table : Connections) : Prop :=
  ∀ row ∈ table.rows, startsWith row.passwordEncrypted legacyEncPrefix = true → row ∈ rows

theorem Pending.tail {row : Row} {rows : List Row} {table : Connections}
    (h : Pending (row :: rows) table) : Pending rows table where
  stored other hother := h.stored other (List.mem_cons_of_mem row hother)
  distinct := (List.nodup_cons.mp h.distinct).2

theorem Pending.update {row : Row} {rows : List Row} {table : Connections} {newCt : List Char}
    (h : Pending (row :: rows) table) : Pending rows (table.update newCt row.id) where
  stored other hother := by
    have hne : other.id ≠ row.id := by
      intro heq
      apply (List.nodup_cons.mp h.distinct).1
      exact List.mem_map.mpr ⟨other, hother, heq⟩
    exact mem_update_of_ne (h.stored other (List.mem_cons_of_mem row hother)) hne
  distinct := (List.nodup_cons.mp h.distinct).2

theorem LegacyIn.skip {row : Row} {rows : List Row} {table : Connections}
    (h : LegacyIn (row :: rows) table)
    (hrow : startsWith row.passwordEncrypted legacyEncPrefix = false) :
    LegacyIn rows table := by
  intro other hother hlegacy
  rcases List.mem_cons.mp (h other hother hlegacy) with rfl | hmem
  · rw [hrow] at hlegacy
    cases hlegacy
  · exact hmem

theorem LegacyIn.update {row : Row} {rows : List Row} {table : Connections} {newCt : List Char}
    (h : LegacyIn (row :: rows) table)
    (hnew : startsWith newCt legacyEncPrefix = false) :
    LegacyIn rows (table.update newCt row.id) := by
  intro other hother hlegacy
  obtain ⟨hold, hne⟩ := legacy_of_mem_update hnew hother hlegacy
  rcases List.mem_cons.mp (h other hold hlegacy) with rfl | hmem
  · exact absurd rfl hne
  · exact hmem

/-- The pass did not come to its end. -/
def Unfinished (outcome : Outcome) : Prop := ∀ n, outcome ≠ some (.ok n)

theorem unfinished_error (e : List Char) : Unfinished (some (.error e)) := nofun

theorem unfinished_none : Unfinished none := nofun

/-- What the pass does at one row: it goes on with the table as it is, it goes on with the
row rewritten, or it ends with one of the two. -/
theorem migrateRows_cons (hlaw : aead.Lawful) (fate : List Char → Fate) (row : Row)
    (rows : List Row) (migrated : Nat) (table : Connections) :
    (startsWith row.passwordEncrypted legacyEncPrefix = false ∧
      migrateRows aead key fate (row :: rows) migrated table =
        migrateRows aead key fate rows migrated table) ∨
    (∃ newCt, Rewrites aead key row newCt ∧
      migrateRows aead key fate (row :: rows) migrated table =
        migrateRows aead key fate rows (migrated + 1) (table.update newCt row.id)) ∨
    (∃ outcome, Unfinished outcome ∧
      (migrateRows aead key fate (row :: rows) migrated table = (outcome, table) ∨
        ∃ newCt, Rewrites aead key row newCt ∧
          migrateRows aead key fate (row :: rows) migrated table =
            (outcome, table.update newCt row.id))) := by
  rw [migrateRows]
  cases fate row.id with
  | unreadable column => exact .inr (.inr ⟨_, unfinished_error _, .inl rfl⟩)
  | stopped => exact .inr (.inr ⟨_, unfinished_none, .inl rfl⟩)
  | reached nonce update =>
      simp only []
      by_cases hskip : startsWith row.passwordEncrypted legacyEncPrefix = false
      · exact .inl ⟨hskip, if_pos hskip⟩
      · rw [if_neg hskip]
        cases hstrip : stripPrefix legacyEncPrefix row.passwordEncrypted with
        | none => exact .inr (.inr ⟨_, unfinished_error _, .inl rfl⟩)
        | some plaintext =>
            simp only []
            cases hencrypt : encryptV1 aead key nonce plaintext with
            | none => exact .inr (.inr ⟨_, unfinished_error _, .inl rfl⟩)
            | some newCt =>
                have hrewrites := rewrites_of_encryptV1 hlaw hstrip hencrypt
                cases update with
                | done => exact .inr (.inl ⟨newCt, hrewrites, rfl⟩)
                | fails applied =>
                    refine .inr (.inr ⟨_, unfinished_error ("update row ".toList ++ redactId row.id), ?_⟩)
                    cases applied with
                    | false => exact .inl rfl
                    | true => exact .inr ⟨newCt, hrewrites, rfl⟩
                | stopped applied =>
                    refine .inr (.inr ⟨_, unfinished_none, ?_⟩)
                    cases applied with
                    | false => exact .inl rfl
                    | true => exact .inr ⟨newCt, hrewrites, rfl⟩

theorem passwords_migrateRows (hlaw : aead.Lawful) (fate : List Char → Fate) (rows : List Row)
    {migrated : Nat} {table : Connections} (h : Pending rows table) :
    passwords aead key (migrateRows aead key fate rows migrated table).2 =
      passwords aead key table := by
  induction rows generalizing migrated table with
  | nil => rfl
  | cons row rows ih =>
      have hrow := h.stored row List.mem_cons_self
      rcases migrateRows_cons hlaw fate row rows migrated table with
        ⟨-, hstep⟩ | ⟨newCt, hrewrites, hstep⟩ | ⟨outcome, -, hstep | ⟨newCt, hrewrites, hstep⟩⟩
      · rw [hstep, ih h.tail]
      · rw [hstep, ih h.update, passwords_update hrow hrewrites]
      · rw [hstep]
      · rw [hstep, passwords_update hrow hrewrites]

theorem allV1_of_completed (hlaw : aead.Lawful) (fate : List Char → Fate) (rows : List Row)
    {migrated n : Nat} {table : Connections} (h : LegacyIn rows table)
    (hdone : (migrateRows aead key fate rows migrated table).1 = some (.ok n)) :
    AllV1 (migrateRows aead key fate rows migrated table).2 := by
  induction rows generalizing migrated table with
  | nil =>
      intro row hrow
      cases hlegacy : startsWith row.passwordEncrypted legacyEncPrefix with
      | false => rfl
      | true => exact absurd (h row hrow hlegacy) List.not_mem_nil
  | cons row rows ih =>
      rcases migrateRows_cons hlaw fate row rows migrated table with
        ⟨hskip, hstep⟩ | ⟨newCt, hrewrites, hstep⟩ | ⟨outcome, hnot, hstep | ⟨newCt, -, hstep⟩⟩
      · rw [hstep] at hdone ⊢
        exact ih (h.skip hskip) hdone
      · rw [hstep] at hdone ⊢
        exact ih (h.update hrewrites.legacy) hdone
      · rw [hstep] at hdone
        exact absurd hdone (hnot n)
      · rw [hstep] at hdone
        exact absurd hdone (hnot n)

theorem migrateRows_of_allV1 (fate : List Char → Fate) (rows : List Row) {migrated : Nat}
    {table : Connections}
    (h : ∀ row ∈ rows, startsWith row.passwordEncrypted legacyEncPrefix = false) :
    (migrateRows aead key fate rows migrated table).2 = table ∧
      ∀ n, (migrateRows aead key fate rows migrated table).1 = some (.ok n) → n = migrated := by
  induction rows with
  | nil =>
      refine ⟨rfl, fun n hn => ?_⟩
      exact (Except.ok.inj (Option.some.inj hn)).symm
  | cons row rows ih =>
      have hrow := h row List.mem_cons_self
      have htail := ih fun other hother => h other (List.mem_cons_of_mem row hother)
      rw [migrateRows]
      cases fate row.id with
      | unreadable column => exact ⟨rfl, fun n hn => nomatch hn⟩
      | stopped => exact ⟨rfl, fun n hn => nomatch hn⟩
      | reached nonce update =>
          simp only [hrow, if_true]
          exact htail

/-! ## Any number of executions -/

theorem passwords_migrate (hlaw : aead.Lawful) (attempt : Attempt) (table : Connections) :
    passwords aead key (migrateLegacyCredentials aead key attempt table).2 =
      passwords aead key table := by
  unfold migrateLegacyCredentials
  split
  case isTrue =>
    exact passwords_migrateRows hlaw _ _ ⟨fun _ hrow => hrow, table.primaryKey⟩
  case isFalse => rfl

theorem passwords_tableAfter (hlaw : aead.Lawful) (attempts : List Attempt)
    (table : Connections) :
    passwords aead key (tableAfter aead key table attempts) = passwords aead key table := by
  induction attempts generalizing table with
  | nil => rfl
  | cons attempt attempts ih =>
      calc
        passwords aead key (tableAfter aead key table (attempt :: attempts)) =
            passwords aead key (migrateLegacyCredentials aead key attempt table).2 := ih _
        _ = passwords aead key table := passwords_migrate hlaw attempt table

theorem allV1_of_migrate (hlaw : aead.Lawful) {attempt : Attempt} {table : Connections} {n : Nat}
    (hdone : (migrateLegacyCredentials aead key attempt table).1 = some (.ok n)) :
    AllV1 (migrateLegacyCredentials aead key attempt table).2 := by
  unfold migrateLegacyCredentials at hdone ⊢
  split at hdone
  case isTrue hscanned =>
    rw [if_pos hscanned]
    exact allV1_of_completed hlaw _ _ (fun _ hrow _ => hrow) hdone
  case isFalse => cases hdone

theorem migrate_of_allV1 {table : Connections} (h : AllV1 table) (attempt : Attempt) :
    (migrateLegacyCredentials aead key attempt table).2 = table ∧
      ∀ n, (migrateLegacyCredentials aead key attempt table).1 = some (.ok n) → n = 0 := by
  unfold migrateLegacyCredentials
  split
  case isTrue => exact migrateRows_of_allV1 _ _ h
  case isFalse => exact ⟨rfl, fun n hn => nomatch hn⟩

theorem tableAfter_of_allV1 {table : Connections} (h : AllV1 table) (attempts : List Attempt) :
    tableAfter aead key table attempts = table := by
  induction attempts with
  | nil => rfl
  | cons attempt attempts ih =>
      rw [tableAfter, List.foldl_cons, (migrate_of_allV1 h attempt).1]
      exact ih

/-- No password is lost: what is encrypted decrypts to the password, the executions leave
every row with what it decrypted to, wherever each of them ended, and after one that came
to its end the others write nothing. -/
theorem migration_keeps_passwords (aead : Aead Key) (hlaw : aead.Lawful) (key : Key) :
    (∀ nonce password stored, encryptV1 aead key nonce password = some stored →
      decryptPassword aead key stored = .ok password) ∧
    (∀ table attempts, passwords aead key (tableAfter aead key table attempts) =
      passwords aead key table) ∧
    ∀ table attempt n, (migrateLegacyCredentials aead key attempt table).1 = some (.ok n) →
      ∀ again, tableAfter aead key (migrateLegacyCredentials aead key attempt table).2 again =
          (migrateLegacyCredentials aead key attempt table).2 ∧
        ∀ next m, (migrateLegacyCredentials aead key next
          (migrateLegacyCredentials aead key attempt table).2).1 = some (.ok m) → m = 0 := by
  refine ⟨fun _ _ _ h => decryptPassword_encryptV1 hlaw h,
    fun table attempts => passwords_tableAfter hlaw attempts table, ?_⟩
  intro table attempt n hdone again
  have hall := allV1_of_migrate hlaw hdone
  exact ⟨tableAfter_of_allV1 hall again, fun next m hm => (migrate_of_allV1 hall next).2 m hm⟩

/-- A cipher that masks the message with the key and appends a tag over the rest. -/
def maskCipher : Aead UInt8 where
  encrypt key nonce msg aad :=
    some (msg.map (· ^^^ key) ++ [key + nonce.foldl (· + ·) 0 + aad.foldl (· + ·) 0])
  decrypt key nonce ct aad :=
    if ct.getLast? = some (key + nonce.foldl (· + ·) 0 + aad.foldl (· + ·) 0) then
      some (ct.dropLast.map (· ^^^ key))
    else none

theorem maskCipher_lawful : maskCipher.Lawful where
  inverse key nonce msg aad ct h := by
    obtain rfl := Option.some.inj h
    have hmask : (msg.map (· ^^^ key)).map (· ^^^ key) = msg := by
      rw [List.map_map]
      apply (List.map_congr_left fun b _ => ?_).trans (List.map_id msg)
      show b ^^^ key ^^^ key = b
      rw [UInt8.xor_assoc, UInt8.xor_self, UInt8.xor_zero]
    simp only [maskCipher, List.getLast?_append, List.getLast?_singleton, Option.some_or,
      if_true, List.dropLast_concat, hmask]

def mixedRows : List Row :=
  [⟨"a".toList, "enc:hunter2".toList⟩, ⟨"b".toList, "v1:AAAA".toList⟩]

theorem mixedRows_nodup : (mixedRows.map (·.id)).Nodup := by decide

def twelveOnes : NonceBytes := ⟨List.replicate 12 1, List.length_replicate⟩

/-- The process stops after the first update, and the migration is run again. -/
theorem migration_keeps_passwords_mask :
    passwords maskCipher 7 (tableAfter maskCipher 7 ⟨mixedRows, mixedRows_nodup⟩
        [⟨true, fun _ => .reached twelveOnes (.stopped true)⟩,
          ⟨true, fun _ => .reached twelveOnes .done⟩]) =
      passwords maskCipher 7 ⟨mixedRows, mixedRows_nodup⟩ :=
  (migration_keeps_passwords maskCipher maskCipher_lawful 7).2.1 _ _

end Dbmaster.Credential.Migration
