import Dbmaster.Lib.Text
/-!
# Access and refresh tokens

The two secrets of the configuration, and the tokens that are signed with them.  A token does
not say of which kind it is: what keeps the kinds apart is that the secrets differ.
-/

namespace Dbmaster.Auth.Tokens

open Dbmaster.Lib

/-! ## The configuration -/

/-- The environment variables; one that is not Unicode counts as not set. -/
abbrev Environment := String → Option String

structure Config where
  jwtSecret : String
  jwtRefreshSecret : String

def devModeEnv : String := "DBMASTER_DEV"

def jwtDevDefault : String := "dev-jwt-secret-change-in-production"

def refreshDevDefault : String := "dev-refresh-secret-change-in-production"

def refusal (key : String) : String :=
  key ++ " not set and " ++ devModeEnv ++ " != 1; refusing to start with an " ++
    "insecure fallback (this repo is public — a hardcoded secret would " ++
    "let anyone forge auth tokens). Set " ++ key ++ " to a strong random value " ++
    "(e.g. `openssl rand -base64 64`) or set " ++ devModeEnv ++ "=1 for local " ++
    "development."

/-- The value of a variable that is set and not blank. -/
def nonBlank (env : Environment) (key : String) : Option String :=
  (env key).filter fun v => !(Text.trim v.toList).isEmpty

def resolveSecretEnv (env : Environment) (key devDefault : String) : Except String String :=
  match nonBlank env key with
  | some v => .ok v
  | none => if env devModeEnv = some "1" then .ok devDefault else .error (refusal key)

def fromEnv (env : Environment) : Except String Config := do
  let jwtSecret ← resolveSecretEnv env "SERVER_JWT_SECRET" jwtDevDefault
  let jwtRefreshSecret ← resolveSecretEnv env "SERVER_JWT_REFRESH_SECRET" refreshDevDefault
  return ⟨jwtSecret, jwtRefreshSecret⟩

/-! ## Tokens -/

structure Claims where
  sub : String
  iat : Nat
  exp : Nat
  jti : String
  deriving DecidableEq

inductive AppError
  | internal
  | unauthorized
  deriving DecidableEq

/-- HS256 of the `jsonwebtoken` library, for whatever its tokens look like.  `decode` reads the
clock for the expiry. -/
structure Jwt (Token : Type) where
  encode : String → Claims → Option Token
  decode : String → Nat → Token → Option Claims

/-- A token is read back with its own secret before it expires, and with no other secret. -/
structure Jwt.Lawful {Token : Type} (jwt : Jwt Token) : Prop where
  signs : ∀ secret claims, (jwt.encode secret claims).isSome
  verifies : ∀ secret claims token now, jwt.encode secret claims = some token →
    now ≤ claims.exp → jwt.decode secret now token = some claims
  unforgeable : ∀ secret other claims token now read, jwt.encode secret claims = some token →
    jwt.decode other now token = some read → other = secret

/-- What a call meets: the clock, which is before 1970 where there is none, and the UUID. -/
structure Env where
  now : Option Nat
  uuid : String

def accessTokenTtlSecs : Nat := 900

def refreshTokenTtlSecs : Nat := 604800

section Calls

variable {Token : Type} (jwt : Jwt Token) (config : Config)

/-- `encode` of new claims with one of the secrets. -/
def issueWithTtl (secret userId : String) (ttlSecs : Nat) (env : Env) :
    Except AppError (Token × Claims) :=
  match env.now with
  | none => .error .internal
  | some now =>
      let claims : Claims := ⟨userId, now, now + ttlSecs, env.uuid⟩
      match jwt.encode secret claims with
      | none => .error .internal
      | some token => .ok (token, claims)

def issueAccessToken (userId : String) (env : Env) : Except AppError Token :=
  (issueWithTtl jwt config.jwtSecret userId accessTokenTtlSecs env).map Prod.fst

def issueRefreshToken (userId : String) (env : Env) : Except AppError (Token × Claims) :=
  issueWithTtl jwt config.jwtRefreshSecret userId refreshTokenTtlSecs env

def verify (secret : String) (now : Nat) (token : Token) : Except AppError Claims :=
  match jwt.decode secret now token with
  | none => .error .unauthorized
  | some claims => .ok claims

def verifyAccessToken (now : Nat) (token : Token) : Except AppError Claims :=
  verify jwt config.jwtSecret now token

def verifyRefreshToken (now : Nat) (token : Token) : Except AppError Claims :=
  verify jwt config.jwtRefreshSecret now token

/-! ## What should hold -/

/-- No token of one kind is accepted as one of the other kind, at any time. -/
structure KeptApart : Prop where
  refresh : ∀ userId env token claims now, issueRefreshToken jwt config userId env =
    .ok (token, claims) → (verifyAccessToken jwt config now token).isOk = false
  access : ∀ userId env token now, issueAccessToken jwt config userId env = .ok token →
    (verifyRefreshToken jwt config now token).isOk = false

end Calls

/-- The two variables are not set to the same text, nor one to the default of the other. -/
def Different (env : Environment) : Prop :=
  match nonBlank env "SERVER_JWT_SECRET", nonBlank env "SERVER_JWT_REFRESH_SECRET" with
  | some access, some refresh => access ≠ refresh
  | some access, none => access ≠ refreshDevDefault
  | none, some refresh => refresh ≠ jwtDevDefault
  | none, none => True

/-! ## The secrets -/

variable {env : Environment} {config : Config}

theorem resolveSecretEnv_ok {key devDefault secret : String}
    (h : resolveSecretEnv env key devDefault = .ok secret) :
    secret = (nonBlank env key).getD devDefault := by
  unfold resolveSecretEnv at h
  cases hset : nonBlank env key with
  | some v =>
      rw [hset] at h
      exact (Except.ok.inj h).symm
  | none =>
      rw [hset] at h
      simp only [] at h
      split at h
      case isTrue => exact (Except.ok.inj h).symm
      case isFalse => cases h

theorem fromEnv_ok (h : fromEnv env = .ok config) :
    config.jwtSecret = (nonBlank env "SERVER_JWT_SECRET").getD jwtDevDefault ∧
      config.jwtRefreshSecret =
        (nonBlank env "SERVER_JWT_REFRESH_SECRET").getD refreshDevDefault := by
  unfold fromEnv at h
  cases haccess : resolveSecretEnv env "SERVER_JWT_SECRET" jwtDevDefault with
  | error message =>
      rw [haccess] at h
      cases h
  | ok access =>
      cases hrefresh : resolveSecretEnv env "SERVER_JWT_REFRESH_SECRET" refreshDevDefault with
      | error message =>
          rw [haccess, hrefresh] at h
          cases h
      | ok refresh =>
          rw [haccess, hrefresh] at h
          cases h
          exact ⟨resolveSecretEnv_ok haccess, resolveSecretEnv_ok hrefresh⟩

theorem different_iff : Different env ↔ (nonBlank env "SERVER_JWT_SECRET").getD jwtDevDefault ≠
    (nonBlank env "SERVER_JWT_REFRESH_SECRET").getD refreshDevDefault := by
  unfold Different
  cases nonBlank env "SERVER_JWT_SECRET" with
  | some access =>
      cases nonBlank env "SERVER_JWT_REFRESH_SECRET" <;> rfl
  | none =>
      cases nonBlank env "SERVER_JWT_REFRESH_SECRET" with
      | some refresh => exact ne_comm
      | none => exact iff_of_true trivial (by decide)

/-! ## The kinds -/

variable {Token : Type} {jwt : Jwt Token}

theorem encode_of_issue {secret userId : String} {ttlSecs : Nat} {env : Env} {token : Token}
    {claims : Claims} (h : issueWithTtl jwt secret userId ttlSecs env = .ok (token, claims)) :
    jwt.encode secret claims = some token := by
  unfold issueWithTtl at h
  split at h
  case h_1 => cases h
  case h_2 now hnow =>
    simp only [] at h
    split at h
    case h_1 => cases h
    case h_2 text hencode =>
      cases h
      exact hencode

theorem not_isOk_verify {secret other : String} {token : Token} {claims : Claims} (hlaw : jwt.Lawful)
    (hencode : jwt.encode secret claims = some token) (hne : other ≠ secret) (now : Nat) :
    (verify jwt other now token).isOk = false := by
  unfold verify
  cases hdecode : jwt.decode other now token with
  | none => rfl
  | some read => exact absurd (hlaw.unforgeable _ _ _ _ _ _ hencode hdecode) hne

theorem keptApart_of_ne (hlaw : jwt.Lawful) (hne : config.jwtSecret ≠ config.jwtRefreshSecret) :
    KeptApart jwt config where
  refresh := by
    intro userId env token claims now hissue
    exact not_isOk_verify hlaw (encode_of_issue hissue) hne now
  access := by
    intro userId env token now hissue
    unfold issueAccessToken at hissue
    cases hpair : issueWithTtl jwt config.jwtSecret userId accessTokenTtlSecs env with
    | error e =>
        rw [hpair] at hissue
        cases hissue
    | ok pair =>
        rw [hpair] at hissue
        cases hissue
        exact not_isOk_verify hlaw (encode_of_issue hpair) hne.symm now

/-- With one secret for both kinds, a refresh token is an access token. -/
theorem ne_of_keptApart (hlaw : jwt.Lawful) (h : KeptApart jwt config) :
    config.jwtSecret ≠ config.jwtRefreshSecret := by
  intro hsame
  let claims : Claims := ⟨"user", 0, 0 + refreshTokenTtlSecs, "jti"⟩
  obtain ⟨token, hencode⟩ := Option.isSome_iff_exists.mp (hlaw.signs config.jwtRefreshSecret claims)
  have hissue : issueRefreshToken jwt config "user" ⟨some 0, "jti"⟩ = .ok (token, claims) := by
    simp only [issueRefreshToken, issueWithTtl]
    rw [hencode]
  have hrejected := h.refresh "user" ⟨some 0, "jti"⟩ token claims 0 hissue
  have hread := hlaw.verifies _ _ _ 0 hencode (Nat.zero_le _)
  rw [verifyAccessToken, verify, hsame, hread] at hrejected
  cases hrejected

/-- In every environment that is accepted, the kinds are kept apart exactly when the secrets
that the variables stand for are different. -/
theorem keptApart_iff {Token : Type} (jwt : Jwt Token) (hlaw : jwt.Lawful) (env : Environment)
    (config : Config) (hconfig : fromEnv env = .ok config) :
    KeptApart jwt config ↔ Different env := by
  obtain ⟨haccess, hrefresh⟩ := fromEnv_ok hconfig
  rw [different_iff, ← haccess, ← hrefresh]
  exact ⟨ne_of_keptApart hlaw, keptApart_of_ne hlaw⟩

/-! ## One secret for both -/

/-- A token that shows its secret. -/
def openJwt : Jwt (String × Claims) where
  encode secret claims := some (secret, claims)
  decode secret now token :=
    if secret = token.1 ∧ now ≤ token.2.exp then some token.2 else none

theorem openJwt_lawful : openJwt.Lawful where
  signs _ _ := rfl
  verifies := by
    rintro secret claims _ now ⟨⟩ hnow
    exact if_pos ⟨rfl, hnow⟩
  unforgeable := by
    rintro secret other claims _ now read ⟨⟩ hread
    unfold openJwt at hread
    simp only at hread
    split at hread
    case isTrue hsame => exact hsame.1
    case isFalse => cases hread

/-- The two variables, and no others. -/
def environment (access refresh : Option String) : Environment := fun key =>
  if key = "SERVER_JWT_SECRET" then access
  else if key = "SERVER_JWT_REFRESH_SECRET" then refresh
  else none

theorem keptApart_open :
    KeptApart openJwt ⟨"first", "second"⟩ ∧
      fromEnv (environment (some "first") (some "second")) = .ok ⟨"first", "second"⟩ := by
  have hconfig : fromEnv (environment (some "first") (some "second")) =
      .ok ⟨"first", "second"⟩ := by
    rfl
  refine ⟨?_, hconfig⟩
  exact (keptApart_iff openJwt openJwt_lawful _ _ hconfig).mpr (show "first" ≠ "second" by decide)

/-- Both variables are set to the same text. -/
theorem refresh_token_accepted :
    ¬ ∀ (env : Environment) (config : Config), fromEnv env = .ok config →
      KeptApart openJwt config := by
  intro hall
  have hkept := hall (environment (some "s3cret") (some "s3cret")) ⟨"s3cret", "s3cret"⟩ rfl
  have hrejected := hkept.refresh "user" ⟨some 0, "jti"⟩ _ _ 0 rfl
  cases hrejected

end Dbmaster.Auth.Tokens
