import Dbmaster.License.Codec
import Dbmaster.License.Entitlement
import Dbmaster.Lib.CivilTime
/-!
# The expiry of a licence

`parse_license` asks a yearly licence for a text with a `T` in it, and `license_state`
drops a text that is no instant: such a licence never expires.
-/

namespace Dbmaster.License.Expiry

open Dbmaster.Lib Dbmaster.License.Format Dbmaster.License.Codec Dbmaster.License.Entitlement

variable {Key Signature : Type} {dalek : Dalek Key Signature}
variable {parseFromRfc3339 : List Char → Option Int}

/-! ## What is parsed -/

theorem lifetime_or_yearly {text : List Char} {parsed : ParsedLicense}
    (h : parseLicense text = some (.ok parsed)) :
    parsed.licenseType = "lifetime".toList ∨
      parsed.licenseType = "yearly".toList ∧ ∃ s, parsed.expiresAt = some s := by
  obtain ⟨_, _, _, hassembled⟩ := read_of_parse h
  have hmatches := hassembled.matches_expiry
  rw [typeMatches, Bool.decide_or, Bool.or_eq_true, decide_eq_true_eq, decide_eq_true_eq]
    at hmatches
  rcases hmatches with ⟨hlifetime, -⟩ | ⟨hyearly, hsome⟩
  · exact Or.inl hlifetime
  · exact Or.inr ⟨hyearly, Option.isSome_iff_exists.mp hsome⟩

/-! ## Time-limited licences -/

/-- At `now` the licence lasts for life or has not reached an instant it names. -/
def InForce (parseFromRfc3339 : List Char → Option Int) (now : Int) (license : LicenseV2) :
    Prop :=
  license.licenseType = "lifetime".toList ∨
    ∃ s exp, license.expiresAt = some s ∧ parseFromRfc3339 s = some exp ∧ now ≤ exp

/-- A signed yearly licence of this instance whose expiry is no instant. -/
def Unreadable (dalek : Dalek Key Signature) (parseFromRfc3339 : List Char → Option Int)
    (publicKey : Key) (localInstallUuid text : List Char) : Prop :=
  ∃ parsed s, parseLicense text = some (.ok parsed) ∧
    verifyLicenseWithPk dalek parsed publicKey = .ok parsed.license ∧
    parsed.instanceId = localInstallUuid ∧ parsed.licenseType = "yearly".toList ∧
    parsed.expiresAt = some s ∧ parseFromRfc3339 s = none

theorem licenseState_licensed {now : Int} {license license' : LicenseV2}
    {localInstallUuid : List Char} {expiresAt : Option Int}
    (h : licenseState parseFromRfc3339 now license localInstallUuid =
      .licensed license' expiresAt) :
    license' = license ∧ license.instanceId = localInstallUuid ∧
      expiresAt = license.expiresAt.bind parseFromRfc3339 ∧ ∀ exp ∈ expiresAt, now ≤ exp := by
  unfold licenseState at h
  split at h
  case isTrue => cases h
  case isFalse hinstance =>
    simp only [] at h
    split at h
    case isTrue => cases h
    case isFalse hfresh =>
      rw [EntitlementState.licensed.injEq] at h
      refine ⟨h.1.symm, not_not.mp hinstance, h.2.symm, ?_⟩
      intro exp hexp
      rw [← h.2, Option.mem_def] at hexp
      rw [hexp, Option.any_some, decide_eq_true_eq] at hfresh
      omega

theorem licensed_of_resolve {now : Int} {text localInstallUuid : List Char} {publicKey : Key}
    {license : LicenseV2} {expiresAt : Option Int}
    (h : resolveFromLicenseTextWithPk dalek parseFromRfc3339 now text localInstallUuid
      publicKey = some (.licensed license expiresAt)) :
    ∃ parsed, parseLicense text = some (.ok parsed) ∧
      verifyLicenseWithPk dalek parsed publicKey = .ok license ∧
      licenseState parseFromRfc3339 now license localInstallUuid =
        .licensed license expiresAt := by
  obtain ⟨result, hparse, hresult⟩ := Option.map_eq_some_iff.mp h
  split at hresult
  case h_1 => cases hresult
  case h_2 => cases hresult
  case h_3 parsed =>
    split at hresult
    case h_2 => cases hresult
    case h_1 verified hverify =>
      obtain ⟨heq, -⟩ := licenseState_licensed hresult
      rw [← heq] at hverify hresult
      exact ⟨parsed, hparse, hverify, hresult⟩

theorem resolve_unreadable {text localInstallUuid s : List Char} {publicKey : Key}
    {parsed : ParsedLicense} (hparse : parseLicense text = some (.ok parsed))
    (hverify : verifyLicenseWithPk dalek parsed publicKey = .ok parsed.license)
    (hinstance : parsed.instanceId = localInstallUuid) (hexpires : parsed.expiresAt = some s)
    (hnone : parseFromRfc3339 s = none) (now : Int) :
    resolveFromLicenseTextWithPk dalek parseFromRfc3339 now text localInstallUuid publicKey =
      some (.licensed parsed.license none) := by
  have hdropped : parsed.license.expiresAt.bind parseFromRfc3339 = none := by
    show parsed.expiresAt.bind parseFromRfc3339 = none
    rw [hexpires, Option.bind_some, hnone]
  have hstate : licenseState parseFromRfc3339 now parsed.license localInstallUuid =
      .licensed parsed.license none := by
    have hsame : ¬ parsed.license.instanceId ≠ localInstallUuid := not_not.mpr hinstance
    unfold licenseState
    rw [if_neg hsame, hdropped]
    rfl
  rw [resolveFromLicenseTextWithPk, hparse, Option.map_some]
  simp only [hverify, hstate]

theorem inForce_iff_readable (publicKey : Key) (now : Int) (localInstallUuid text : List Char) :
    (∀ license expiresAt, resolveFromLicenseTextWithPk dalek parseFromRfc3339 now text
        localInstallUuid publicKey = some (.licensed license expiresAt) →
      InForce parseFromRfc3339 now license) ↔
      ¬ Unreadable dalek parseFromRfc3339 publicKey localInstallUuid text := by
  constructor
  · rintro hall ⟨parsed, s, hparse, hverify, hinstance, hyearly, hexpires, hnone⟩
    have hgranted := resolve_unreadable hparse hverify hinstance hexpires hnone now
    rcases hall _ _ hgranted with hlifetime | ⟨s', exp, hs', hexp, -⟩
    · exact absurd (hyearly.symm.trans hlifetime) (by decide)
    · rw [Option.some.inj (hexpires.symm.trans hs'), hexp] at hnone
      cases hnone
  · intro hreadable license expiresAt hgranted
    obtain ⟨parsed, hparse, hverify, hstate⟩ := licensed_of_resolve hgranted
    obtain ⟨-, hinstance, hexpiresAt, hfresh⟩ := licenseState_licensed hstate
    obtain ⟨-, -, rfl⟩ := verifyLicenseWithPk_ok hverify
    rcases lifetime_or_yearly hparse with hlifetime | ⟨hyearly, s, hs⟩
    · exact Or.inl hlifetime
    · right
      cases hexp : parseFromRfc3339 s with
      | none => exact absurd ⟨parsed, s, hparse, hverify, hinstance, hyearly, hs, hexp⟩ hreadable
      | some exp =>
          refine ⟨s, exp, hs, hexp, hfresh exp ?_⟩
          show expiresAt = some exp
          rw [hexpiresAt, ← hexp]
          show parsed.expiresAt.bind parseFromRfc3339 = _
          rw [hs, Option.bind_some]

theorem resolveEntitlementWithText_licensed {trusted : Option Key}
    {installUuid : Option (List Char)} {trial : Option TrialStatus} {now : Int}
    {text : List Char} {license : LicenseV2} {expiresAt : Option Int} :
    resolveEntitlementWithText dalek parseFromRfc3339 trusted installUuid trial now (some text) =
        some (.licensed license expiresAt) ↔
      ∃ publicKey localInstallUuid, trusted = some publicKey ∧
        installUuid = some localInstallUuid ∧
        resolveFromLicenseTextWithPk dalek parseFromRfc3339 now text localInstallUuid
          publicKey = some (.licensed license expiresAt) := by
  cases installUuid with
  | none => simp [resolveEntitlementWithText]
  | some localInstallUuid =>
      cases trusted with
      | none => simp [resolveEntitlementWithText, resolveFromLicenseText]
      | some publicKey => simp [resolveEntitlementWithText, resolveFromLicenseText]

/-- At every time, what a text is granted is in force, if and only if the text is no
signed yearly licence of this instance with an expiry that denotes no instant. -/
theorem licensed_inForce_iff (dalek : Dalek Key Signature)
    (parseFromRfc3339 : List Char → Option Int) (trusted : Option Key)
    (installUuid : Option (List Char)) (trial : Option TrialStatus) (now : Int)
    (text : List Char) :
    (∀ license expiresAt, resolveEntitlementWithText dalek parseFromRfc3339 trusted installUuid
        trial now (some text) = some (.licensed license expiresAt) →
      InForce parseFromRfc3339 now license) ↔
      ¬ ∃ publicKey localInstallUuid, trusted = some publicKey ∧
        installUuid = some localInstallUuid ∧
        Unreadable dalek parseFromRfc3339 publicKey localInstallUuid text := by
  constructor
  · rintro hall ⟨publicKey, localInstallUuid, htrusted, hinstall, hunreadable⟩
    refine (inForce_iff_readable publicKey now localInstallUuid text).mp ?_ hunreadable
    intro license expiresAt hgranted
    exact hall license expiresAt (resolveEntitlementWithText_licensed.mpr
      ⟨publicKey, localInstallUuid, htrusted, hinstall, hgranted⟩)
  · intro hreadable license expiresAt h
    obtain ⟨publicKey, localInstallUuid, htrusted, hinstall, hgranted⟩ :=
      resolveEntitlementWithText_licensed.mp h
    refine (inForce_iff_readable publicKey now localInstallUuid text).mpr ?_ _ _ hgranted
    intro hunreadable
    exact hreadable ⟨publicKey, localInstallUuid, htrusted, hinstall, hunreadable⟩

/-! ## An expiry without an offset -/

/-- Texts in whole seconds of UTC. -/
def parseUtc (text : List Char) : Option Int :=
  (CivilTime.parse 'T' ['Z'] text).map (· * 1000000000)

/-- The libraries, for a key that has signed one licence. -/
def signedOnce (license : LicenseV2) (signatureHex : List Char) (signature : ByteArray) :
    Dalek Unit ByteArray where
  hexDecode text := if text = signatureHex then some signature else none
  fromSlice bytes := if bytes.size = 64 then some bytes else none
  verify _ message bytes :=
    message.data = license.canonicalBytes.data ∧ bytes.data = signature.data

def signatureHex64 : List Char := List.replicate 128 'a'

def signature64 : ByteArray := ⟨Array.replicate 64 0xaa⟩

def fixtureNoOffset : LicenseV2 :=
  { fixtureYearly with expiresAt := some "2027-08-05T00:00:00".toList }

theorem wellFormed_fixtureNoOffset : WellFormed fixtureNoOffset signatureHex64 where
  fields key := by cases key <;> exact ⟨by decide +kernel, by decide +kernel, by decide +kernel⟩
  email_ne := by decide
  instanceId_ne := by decide
  issuedAt_ne := by decide
  kind := Or.inr ⟨rfl, "2027-08-05T00:00:00".toList, rfl, by decide⟩

theorem verify_fixtureNoOffset :
    verifyLicenseWithPk (signedOnce fixtureNoOffset signatureHex64 signature64)
      (parsedOf fixtureNoOffset signatureHex64) () = .ok fixtureNoOffset := by
  have hsize : signature64.size = 64 := Array.size_replicate
  unfold verifyLicenseWithPk
  rw [if_neg (by decide), if_neg (by decide), if_neg (by decide)]
  simp only [signedOnce, parsedOf, ParsedLicense.license, hsize, if_true, and_self, decide_true]

theorem fixtureNoOffset_perpetual :
    ¬ ∀ license expiresAt, resolveEntitlementWithText
        (signedOnce fixtureNoOffset signatureHex64 signature64) parseUtc (some ())
        (some fixtureNoOffset.instanceId) none 4102444800000000000
        (some (renderPem fixtureNoOffset signatureHex64)) = some (.licensed license expiresAt) →
      InForce parseUtc 4102444800000000000 license := by
  intro hall
  have hparse : parseLicense (renderPem fixtureNoOffset signatureHex64) =
      some (.ok (parsedOf fixtureNoOffset signatureHex64)) :=
    parseLicense_renderPem wellFormed_fixtureNoOffset
  have hnone : parseUtc "2027-08-05T00:00:00".toList = none := by decide +kernel
  have hgranted := resolve_unreadable hparse verify_fixtureNoOffset rfl rfl hnone
    4102444800000000000
  rcases hall fixtureNoOffset none (resolveEntitlementWithText_licensed.mpr
    ⟨(), fixtureNoOffset.instanceId, rfl, rfl, hgranted⟩) with hlifetime | ⟨s, exp, hs, hexp, -⟩
  · exact absurd hlifetime (by decide)
  · cases hs
    rw [hnone] at hexp
    cases hexp

end Dbmaster.License.Expiry
