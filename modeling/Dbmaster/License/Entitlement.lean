import Dbmaster.License.Format
/-!
# Entitlement

What the server derives from the licence file at startup and on activation.
Instants are nanoseconds since the epoch.
-/

namespace Dbmaster.License.Entitlement

open Dbmaster.License.Format

inductive GatedReason
  | trialExpired | licenseInvalid | instanceMismatch | licenseExpired
  deriving DecidableEq, Repr

inductive EntitlementState
  | licensed (license : LicenseV2) (expiresAt : Option Int)
  | trial (expiresAt : Int)
  | gated (reason : GatedReason)

/-- Whether the paid features are withheld. -/
def EntitlementState.isGated : EntitlementState → Bool
  | .gated _ => true
  | _ => false

inductive TrialStatus
  | active (expiresAt : Int)
  | expired
  | notStarted

section Resolve

variable {Key Signature : Type} (dalek : Dalek Key Signature)
variable (parseFromRfc3339 : List Char → Option Int)

/-- An expiry that is no RFC 3339 text is dropped by `.ok()`. -/
def licenseState (now : Int) (license : LicenseV2) (localInstallUuid : List Char) :
    EntitlementState :=
  if license.instanceId ≠ localInstallUuid then .gated .instanceMismatch
  else
    let expiresAt := license.expiresAt.bind parseFromRfc3339
    if expiresAt.any fun exp => exp < now then .gated .licenseExpired
    else .licensed license expiresAt

/-- `none` when `parse_license` panics. -/
def resolveFromLicenseTextWithPk (now : Int) (text localInstallUuid : List Char)
    (publicKey : Key) : Option EntitlementState :=
  (parseLicense text).map fun result =>
    match result with
    | .error .missingBlock => .gated .licenseInvalid
    | .error _ => .gated .licenseInvalid
    | .ok parsed =>
        match verifyLicenseWithPk dalek parsed publicKey with
        | .ok license => licenseState parseFromRfc3339 now license localInstallUuid
        | .error _ => .gated .licenseInvalid

/-- `trusted` is the outcome of `trusted_verifying_key`. -/
def resolveFromLicenseText (trusted : Option Key) (now : Int)
    (text localInstallUuid : List Char) : Option EntitlementState :=
  match trusted with
  | some publicKey =>
      resolveFromLicenseTextWithPk dalek parseFromRfc3339 now text localInstallUuid publicKey
  | none => some (.gated .licenseInvalid)

/-- `installUuid` and `trial` are the rows that the database answers with; `none` when
it does not. -/
def resolveEntitlementWithText (trusted : Option Key) (installUuid : Option (List Char))
    (trial : Option TrialStatus) (now : Int) (licenseText : Option (List Char)) :
    Option EntitlementState := do
  let localInstallUuid ← installUuid
  match licenseText with
  | some text =>
      resolveFromLicenseText dalek parseFromRfc3339 trusted now text localInstallUuid
  | none =>
      match ← trial with
      | .active expiresAt => some (.trial expiresAt)
      | .expired => some (.gated .trialExpired)
      | .notStarted => some (.gated .trialExpired)

end Resolve

end Dbmaster.License.Entitlement
