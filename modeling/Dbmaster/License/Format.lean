import Dbmaster.Lib.Lines
import Mathlib.Data.Char
/-!
# The licence text

`parse_license` on the characters of the text, the canonical bytes that are signed
and `verify_license`.  The decoding of the signature and its verification are the
parameters of `Dalek`.
-/

namespace Dbmaster.License.Format

open Dbmaster.Lib.Text

def productServer : List Char := "server".toList

def licenseVersion : UInt8 := 2

structure ParsedLicense where
  email : List Char
  expiresAt : Option (List Char)
  instanceId : List Char
  issuedAt : List Char
  product : List Char
  licenseType : List Char
  version : UInt8
  signatureHex : List Char

structure LicenseV2 where
  email : List Char
  expiresAt : Option (List Char)
  instanceId : List Char
  issuedAt : List Char
  licenseType : List Char

/-- The line of a field in the canonical text. -/
def canonicalLine (key : String) (value : List Char) : List Char := key.toList ++ ':' :: value

def LicenseV2.canonicalLines (license : LicenseV2) : List (List Char) :=
  [canonicalLine "email" license.email,
    canonicalLine "expires_at" (license.expiresAt.getD []),
    canonicalLine "instance_id" license.instanceId,
    canonicalLine "issued_at" license.issuedAt,
    canonicalLine "product" productServer,
    canonicalLine "type" license.licenseType,
    canonicalLine "v" (toString licenseVersion).toList]

/-- The lines with a line feed between them, in UTF-8. -/
def LicenseV2.canonicalBytes (license : LicenseV2) : ByteArray :=
  (String.ofList (['\n'].intercalate license.canonicalLines)).toUTF8

inductive ParseError
  | missingBlock
  | missingField (name : String)
  | emptyField (name : String)
  | invalidVersion (text : List Char)
  | invalidExpiresAt (text : List Char)
  | duplicateField (name : String)
  | missingSignature
  | unknownField (key : List Char)

inductive VerifyError
  | wrongProduct (product : List Char)
  | wrongVersion (version : UInt8)
  | invalidType (licenseType : List Char)
  | invalidPublicKey
  | invalidSignatureEncoding
  | signatureMismatch

/-! ## Parsing -/

def beginMarker : List Char := "-----BEGIN DBMASTER SERVER LICENSE-----".toList

def endMarker : List Char := "-----END DBMASTER SERVER LICENSE-----".toList

inductive FieldKey
  | email | expiresAt | instanceId | issuedAt | product | licenseType | version | signature
deriving DecidableEq

def FieldKey.name : FieldKey → String
  | .email => "email"
  | .expiresAt => "expires_at"
  | .instanceId => "instance_id"
  | .issuedAt => "issued_at"
  | .product => "product"
  | .licenseType => "type"
  | .version => "v"
  | .signature => "signature"

def FieldKey.all : List FieldKey :=
  [.email, .expiresAt, .instanceId, .issuedAt, .product, .licenseType, .version, .signature]

def fieldKey (key : List Char) : Option FieldKey :=
  FieldKey.all.find? fun k => k.name.toList = key

/-- The variables that the loop over the lines fills. -/
def Fields : Type := FieldKey → Option (List Char)

def Fields.empty : Fields := fun _ => none

def Fields.set (fields : Fields) (key : FieldKey) (value : List Char) : Fields :=
  fun k => if k = key then some value else fields k

def readLine (fields : Fields) (rawLine : List Char) : Except ParseError Fields :=
  let trimmed := trim rawLine
  if trimmed = [] then .ok fields
  else
    match splitOnce ':' trimmed with
    | none => .error .missingSignature
    | some (key, value) =>
        match fieldKey (trim key) with
        | none => .error (.unknownField (trim key))
        | some k =>
            if (fields k).isSome then .error (.duplicateField k.name)
            else .ok (fields.set k (trim value))

def readLines : Fields → List (List Char) → Except ParseError Fields
  | fields, [] => .ok fields
  | fields, rawLine :: rest => do
      let read ← readLine fields rawLine
      readLines read rest

def okOr {α : Type} (value : Option α) (e : ParseError) : Except ParseError α :=
  match value with
  | some a => .ok a
  | none => .error e

def required (fields : Fields) (key : FieldKey) : Except ParseError (List Char) :=
  okOr (fields key) (.missingField key.name)

def nonEmpty (key : FieldKey) (value : List Char) : Except ParseError Unit :=
  if value = [] then .error (.emptyField key.name) else .ok ()

/-- The number in the base of its decimal digits. -/
def decimal (digits : List Char) : Nat :=
  digits.foldl (fun n c => 10 * n + (c.toNat - '0'.toNat)) 0

/-- `str::parse::<u8>`: decimal digits with an optional plus sign. -/
def parseU8 (text : List Char) : Option UInt8 :=
  let digits := match text with
    | '+' :: c :: rest => c :: rest
    | _ => text
  if digits ≠ [] ∧ digits.all Char.isDigit = true ∧ decimal digits < 256 then
    some (UInt8.ofNat (decimal digits))
  else none

def expiry (raw : Option (List Char)) : Except ParseError (Option (List Char)) :=
  match raw with
  | none => .ok none
  | some s =>
      if s = [] then .ok none
      else if 'T' ∈ s then .ok (some s)
      else .error (.invalidExpiresAt s)

/-- A yearly licence expires and a lifetime licence does not. -/
def typeMatches (licenseType : List Char) (expiresAt : Option (List Char)) : Bool :=
  (licenseType = "lifetime".toList ∧ expiresAt.isSome = false) ∨
    (licenseType = "yearly".toList ∧ expiresAt.isSome = true)

def assemble (fields : Fields) : Except ParseError ParsedLicense := do
  let email ← required fields .email
  let instanceId ← required fields .instanceId
  let issuedAt ← required fields .issuedAt
  let product ← required fields .product
  let licenseType ← required fields .licenseType
  let signatureHex ← okOr (fields .signature) .missingSignature
  let versionStr ← required fields .version
  nonEmpty .email email
  nonEmpty .instanceId instanceId
  nonEmpty .issuedAt issuedAt
  let version ← okOr (parseU8 versionStr) (.invalidVersion versionStr)
  let expiresAt ← expiry (fields .expiresAt)
  if typeMatches licenseType expiresAt then
    .ok ⟨email, expiresAt, instanceId, issuedAt, product, licenseType, version, signatureHex⟩
  else .error (.missingField "type_expires_at_mismatch")

/-- `none` when the slice between the markers panics: the end marker begins within the
begin marker. -/
def parseLicense (text : List Char) : Option (Except ParseError ParsedLicense) :=
  match find beginMarker text, find endMarker text with
  | some start, some stop =>
      if stop ≤ start then some (.error .missingBlock)
      else if stop < start + beginMarker.length then none
      else
        let body := (text.take stop).drop (start + beginMarker.length)
        some (do assemble (← readLines Fields.empty (lines body)))
  | _, _ => some (.error .missingBlock)

/-! ## Verification -/

/-- The hex and Ed25519 libraries. -/
structure Dalek (Key Signature : Type) where
  hexDecode : List Char → Option ByteArray
  fromSlice : ByteArray → Option Signature
  verify : Key → ByteArray → Signature → Bool

/-- The payload that the signature of a parsed licence is checked for. -/
def ParsedLicense.license (parsed : ParsedLicense) : LicenseV2 :=
  ⟨parsed.email, parsed.expiresAt, parsed.instanceId, parsed.issuedAt, parsed.licenseType⟩

def verifyLicenseWithPk {Key Signature : Type} (dalek : Dalek Key Signature)
    (parsed : ParsedLicense) (publicKey : Key) : Except VerifyError LicenseV2 :=
  if parsed.product ≠ productServer then .error (.wrongProduct parsed.product)
  else if parsed.version ≠ licenseVersion then .error (.wrongVersion parsed.version)
  else if ¬ (parsed.licenseType = "yearly".toList ∨ parsed.licenseType = "lifetime".toList) then
    .error (.invalidType parsed.licenseType)
  else
    match dalek.hexDecode parsed.signatureHex with
    | none => .error .invalidSignatureEncoding
    | some sigBytes =>
        match dalek.fromSlice sigBytes with
        | none => .error .invalidSignatureEncoding
        | some signature =>
            let license := parsed.license
            if dalek.verify publicKey license.canonicalBytes signature then .ok license
            else .error .signatureMismatch

/-! ## The rendered text -/

/-- The line of a field in the block. -/
def pemLine (key : FieldKey) (value : List Char) : List Char :=
  key.name.toList ++ ':' :: ' ' :: value

def pemValue (license : LicenseV2) (signatureHex : List Char) : FieldKey → List Char
  | .email => license.email
  | .expiresAt => license.expiresAt.getD []
  | .instanceId => license.instanceId
  | .issuedAt => license.issuedAt
  | .product => productServer
  | .licenseType => license.licenseType
  | .version => (toString licenseVersion).toList
  | .signature => signatureHex

def pemLines (license : LicenseV2) (signatureHex : List Char) : List (List Char) :=
  FieldKey.all.map fun key => pemLine key (pemValue license signatureHex key)

def renderPem (license : LicenseV2) (signatureHex : List Char) : List Char :=
  unlines (beginMarker :: pemLines license signatureHex) ++ endMarker

end Dbmaster.License.Format
