import Dbmaster.Lib.Base64
import Dbmaster.Lib.Text
/-!
# Stored credentials

The two stored formats of a password, `v1:<nonce>:<ciphertext and tag>` and the legacy
`enc:<plaintext>`.  AES-256-GCM is a parameter.
-/

namespace Dbmaster.Credential.Format

open Dbmaster.Lib Dbmaster.Lib.Text

def v1Prefix : String := "v1:"

def legacyEncPrefix : String := "enc:"

def nonceLen : Nat := 12

inductive CredentialError
  | unknownFormat
  | malformed
  | decryptFailed
  deriving DecidableEq, Repr

/-- The `aes_gcm` library: key, nonce, message or ciphertext, associated data. -/
structure Aead (Key : Type) where
  encrypt : Key → List UInt8 → List UInt8 → List UInt8 → Option (List UInt8)
  decrypt : Key → List UInt8 → List UInt8 → List UInt8 → Option (List UInt8)

/-- What was encrypted is decrypted under the same key, nonce and associated data. -/
structure Aead.Lawful {Key : Type} (aead : Aead Key) : Prop where
  inverse : ∀ key nonce msg aad ct, aead.encrypt key nonce msg aad = some ct →
    aead.decrypt key nonce ct aad = some msg

/-- The bytes drawn for one encryption. -/
structure NonceBytes where
  bytes : List UInt8
  length_eq : bytes.length = nonceLen

def asBytes (text : List Char) : List UInt8 := text.flatMap String.utf8EncodeChar

/-- `String::from_utf8`. -/
def fromUtf8 (bytes : List UInt8) : Option (List Char) :=
  (String.fromUTF8? bytes.toByteArray).map String.toList

theorem fromUtf8_asBytes (text : List Char) : fromUtf8 (asBytes text) = some text := by
  have hvalid : (asBytes text).toByteArray.IsValidUTF8 := .intro text rfl
  have hdecode : String.fromUTF8? (asBytes text).toByteArray = some (String.ofList text) :=
    dif_pos hvalid
  rw [fromUtf8, hdecode, Option.map_some, String.toList_ofList]

def associatedData : List UInt8 := asBytes "dbmaster-credential-v1".toList

section Cipher

variable {Key : Type} (aead : Aead Key) (key : Key)

/-- `none` when the cipher refuses the message. -/
def encryptV1 (nonce : NonceBytes) (plaintext : List Char) : Option (List Char) :=
  (aead.encrypt key nonce.bytes (asBytes plaintext) associatedData).map fun ct =>
    v1Prefix.toList ++ Base64.encode nonce.bytes ++ ':' :: Base64.encode ct

def decryptV1 (stored : List Char) : Except CredentialError (List Char) :=
  match stripPrefix v1Prefix stored with
  | none => .error .unknownFormat
  | some rest =>
      match splitOnce ':' rest with
      | none => .error .malformed
      | some (nonceB64, ctB64) =>
          match Base64.decode nonceB64, Base64.decode ctB64 with
          | some nonceBytes, some ct =>
              if nonceBytes.length ≠ nonceLen then .error .malformed
              else
                match aead.decrypt key nonceBytes ct associatedData with
                | none => .error .decryptFailed
                | some pt =>
                    match fromUtf8 pt with
                    | none => .error .decryptFailed
                    | some plaintext => .ok plaintext
          | _, _ => .error .malformed

/-- A legacy value is the plaintext behind its prefix. -/
def decryptPassword (stored : List Char) : Except CredentialError (List Char) :=
  match stripPrefix legacyEncPrefix stored with
  | some plain => .ok plain
  | none => decryptV1 aead key stored

end Cipher

/-! ## The formats are told apart -/

variable {Key : Type} {aead : Aead Key} {key : Key} {nonce : NonceBytes}
variable {plaintext stored : List Char}

/-- What `encrypt_v1` writes is no legacy value. -/
theorem not_legacy_of_encryptV1 (h : encryptV1 aead key nonce plaintext = some stored) :
    startsWith stored legacyEncPrefix = false := by
  obtain ⟨ct, -, rfl⟩ := Option.map_eq_some_iff.mp h
  rfl

theorem decryptV1_encryptV1 (hlaw : aead.Lawful)
    (h : encryptV1 aead key nonce plaintext = some stored) :
    decryptV1 aead key stored = .ok plaintext := by
  obtain ⟨ct, hct, rfl⟩ := Option.map_eq_some_iff.mp h
  have hdecrypt := hlaw.inverse _ _ _ _ _ hct
  have hsplit := splitOnce_append (Base64.colon_not_mem_encode nonce.bytes) (Base64.encode ct)
  rw [decryptV1, List.append_assoc, stripPrefix_eq_some_iff.mpr rfl]
  simp only [hsplit, Base64.decode_encode]
  rw [if_neg (not_not.mpr nonce.length_eq)]
  simp only [hdecrypt, fromUtf8_asBytes]

/-- The round trip. -/
theorem decryptPassword_encryptV1 (hlaw : aead.Lawful)
    (h : encryptV1 aead key nonce plaintext = some stored) :
    decryptPassword aead key stored = .ok plaintext := by
  have hlegacy := not_legacy_of_encryptV1 h
  rw [decryptPassword, stripPrefix, hlegacy, if_neg Bool.false_ne_true]
  exact decryptV1_encryptV1 hlaw h

end Dbmaster.Credential.Format
