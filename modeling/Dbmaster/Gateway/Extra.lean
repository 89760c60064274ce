import Dbmaster.Lib.Json
import Dbmaster.Lib.OrderedMap
import Dbmaster.Lib.Text
/-!
# The `extra` of a connection

`merged_extra` and `sanitize_extra`: what of a draft's `extra` object and ssh block is stored
in the `extra` column.
-/

namespace Dbmaster.Gateway.Extra

open Dbmaster.Lib Dbmaster.Lib.Text

/-! ## Ssh blocks -/

structure SshWire where
  host : String
  port : Int
  username : String
  authMode : String
  password : Option String
  privateKey : Option String
  passphrase : Option String

structure SshConfig where
  host : String
  port : Int
  username : String
  authMode : String

structure SshSecrets where
  password : String
  privateKey : String
  passphrase : String

structure SshTunnelParams where
  config : SshConfig
  secrets : SshSecrets

def SshSecrets.isEmpty (secrets : SshSecrets) : Bool :=
  secrets.password = "" && secrets.privateKey = "" && secrets.passphrase = ""

def trimmed (s : String) : String := String.ofList (trim s.toList)

def SshWire.validate (wire : SshWire) : Except String SshTunnelParams :=
  if wire.authMode ≠ "password" ∧ wire.authMode ≠ "privateKey" then
    .error ("unsupported ssh authMode: " ++ wire.authMode)
  else if trimmed wire.host = "" ∨ trimmed wire.username = "" then
    .error "ssh host and username are required"
  else if wire.authMode = "password" ∧ wire.password.getD "" = "" then
    .error "ssh authMode=password requires a password"
  else if wire.authMode = "privateKey" ∧ wire.privateKey.getD "" = "" then
    .error "ssh authMode=privateKey requires a private key"
  else
    .ok {
      config := {
        host := trimmed wire.host
        port := if wire.port > 0 then wire.port else 22
        username := trimmed wire.username
        authMode := wire.authMode }
      secrets := {
        password := wire.password.getD ""
        privateKey := wire.privateKey.getD ""
        passphrase := wire.passphrase.getD "" } }

def extraKeys (config : SshConfig) : List (String × Json) :=
  [("sshHost", .str config.host), ("sshPort", .int config.port),
    ("sshUsername", .str config.username), ("sshAuthMode", .str config.authMode)]

/-! ## Sanitising -/

abbrev ExtraMap := OrderedMap String Json

/-- What a valid ssh block adds. -/
def sshEntries (ssh : Option SshWire) : List (String × Json) :=
  match ssh with
  | none => []
  | some wire =>
    match wire.validate with
    | .ok params => extraKeys params.config
    | .error _ => []

def nonEmpty (map : ExtraMap) : Option ExtraMap := if map.entries = [] then none else some map

def mergedExtra (extra : Option ExtraMap) (ssh : Option SshWire) : Option ExtraMap :=
  nonEmpty ((extra.getD .empty).insertAll (sshEntries ssh))

def stripUriCredentials (s : List Char) : List Char :=
  match splitFirst "://".toList s with
  | none => s
  | some (scheme, rest) =>
    match splitOnce '@' rest with
    | none => s
    | some (userinfo, tail) =>
      if userinfo = [] ∨ '/' ∈ userinfo then s else scheme ++ ("://".toList ++ tail)

def isCredentialKey (key : String) : Bool :=
  let lowered := asciiLower key.toList
  contains lowered "password" || contains lowered "secret" || contains lowered "token"

def isSshKey (key : String) : Bool := decide (asciiLower key.toList = "ssh".toList)

def isUriKey (key : String) : Bool :=
  let lowered := asciiLower key.toList
  contains lowered "connectionstring" || contains lowered "uri" || contains lowered "url"

/-- What the value of a member that is kept becomes. -/
def storedValue (key : String) (value : Json) : Json :=
  match isUriKey key, value.asStr with
  | true, some s => .str (String.ofList (stripUriCredentials s.toList))
  | _, _ => value

def sanitizeMember (key : String) (value : Json) : Option Json :=
  if isCredentialKey key then none
  else if isSshKey key then none
  else some (storedValue key value)

/-- The object whose text is stored. -/
def sanitizeExtra (extra : Option ExtraMap) : Option ExtraMap :=
  extra.bind fun extra => nonEmpty (extra.filterMap sanitizeMember)

/-! ## What should hold -/

/-- `user:password@` behind the `://`; the password holds no character that `ends` the
authority. -/
def CarriesUserinfo (ends : Char → Bool) (rest : List Char) : Prop :=
  ∃ user password tail, rest = user ++ ':' :: (password ++ '@' :: tail) ∧
    (∀ c ∈ user, c ∉ ['/', '?', '#', '@', ':']) ∧ ∀ c ∈ password, ends c = false

def HasCredentials (ends : Char → Bool) (s : List Char) : Prop :=
  ∃ parts ∈ splitFirst "://".toList s, CarriesUserinfo ends parts.2

/-- A secret in a value, at any depth; `uri` is whether a key like that of a URI stands above. -/
inductive Leaks (ends : Char → Bool) : (uri : Bool) → Json → Prop
  | uri {s : String} (h : HasCredentials ends s.toList) : Leaks ends true (.str s)
  | item {uri : Bool} {items : List Json} {item : Json} (hin : item ∈ items)
      (h : Leaks ends uri item) : Leaks ends uri (.arr items)
  | credential {uri : Bool} {members : List (String × Json)} {key : String} {value : Json}
      (hin : (key, value) ∈ members) (h : isCredentialKey key = true) :
      Leaks ends uri (.obj members)
  | ssh {uri : Bool} {members inner : List (String × Json)} {key : String}
      (hin : (key, .obj inner) ∈ members) (h : isSshKey key = true) :
      Leaks ends uri (.obj members)
  | member {uri : Bool} {members : List (String × Json)} {key : String} {value : Json}
      (hin : (key, value) ∈ members) (h : Leaks ends (uri || isUriKey key) value) :
      Leaks ends uri (.obj members)

def valueOf (extra : Option ExtraMap) (key : String) : Option Json :=
  extra.bind fun map => map.lookup key

/-- What is stored holds no secret, is sanitised, and has the values of the ordinary keys. -/
structure Sanitized (ends : Char → Bool) (given : Option ExtraMap) : Prop where
  clean : ∀ stored ∈ sanitizeExtra given, ¬ Leaks ends false (.obj stored.entries)
  stable : sanitizeExtra (sanitizeExtra given) = sanitizeExtra given
  kept : ∀ key, isCredentialKey key = false → isSshKey key = false → isUriKey key = false →
    valueOf (sanitizeExtra given) key = valueOf given key

/-- What precedes the first `@`, if there is one, is left alone. -/
def Settled (rest : List Char) : Prop :=
  ∀ parts ∈ splitOnce '@' rest, parts.1 = [] ∨ '/' ∈ parts.1

/-- No userinfo is behind the first `@`, or in all of it when nothing is cut. -/
def PlainRest (ends : Char → Bool) (rest : List Char) : Prop :=
  ∀ parts ∈ splitOnce '@' rest,
    if parts.1 = [] ∨ '/' ∈ parts.1 then ¬ CarriesUserinfo ends rest
    else ¬ CarriesUserinfo ends parts.2 ∧ Settled parts.2

def PlainUri (ends : Char → Bool) (s : List Char) : Prop :=
  ∀ parts ∈ splitFirst "://".toList s, PlainRest ends parts.2

/-- A string under a key like that of a URI has one userinfo at most, and that without a `/`;
any other value has nothing to clean. -/
def Harmless (ends : Char → Bool) (key : String) (value : Json) : Prop :=
  match isUriKey key, value.asStr with
  | true, some s => PlainUri ends s.toList
  | uri, _ => ¬ Leaks ends uri value

/-! ## URIs -/

theorem not_carriesUserinfo {ends : Char → Bool} {rest : List Char} (h : '@' ∉ rest) :
    ¬ CarriesUserinfo ends rest := by
  rintro ⟨user, password, tail, rfl, -⟩
  simp at h

section Strip

variable {s scheme rest : List Char} (hs : splitFirst "://".toList s = some (scheme, rest))
include hs

theorem hasCredentials_iff {ends : Char → Bool} :
    HasCredentials ends s ↔ CarriesUserinfo ends rest := by
  simp only [HasCredentials, hs, Option.mem_some_iff, exists_eq_left']

theorem stripUriCredentials_of_settled (h : Settled rest) : stripUriCredentials s = s := by
  simp only [stripUriCredentials, hs]
  cases hat : splitOnce '@' rest with
  | none => rfl
  | some parts => exact if_pos (h parts hat)

theorem stripUriCredentials_of_cut {userinfo tail : List Char}
    (hat : splitOnce '@' rest = some (userinfo, tail)) (h : ¬ (userinfo = [] ∨ '/' ∈ userinfo)) :
    stripUriCredentials s = scheme ++ ("://".toList ++ tail) := by
  simp only [stripUriCredentials, hs, hat]
  exact if_neg h

theorem stripUriCredentials_eq_self_iff : stripUriCredentials s = s ↔ Settled rest := by
  refine ⟨fun hsame parts hat => ?_, stripUriCredentials_of_settled hs⟩
  by_contra hcut
  rw [stripUriCredentials_of_cut hs hat hcut] at hsame
  -- what is cut is missing
  have hlength := congrArg List.length (hsame.trans (eq_append_of_splitFirst hs))
  rw [(eq_append_of_splitOnce hat).2] at hlength
  simp at hlength
  omega

end Strip

theorem plainUri_iff (ends : Char → Bool) (s : List Char) :
    PlainUri ends s ↔ ¬ HasCredentials ends (stripUriCredentials s) ∧
      stripUriCredentials (stripUriCredentials s) = stripUriCredentials s := by
  cases hs : splitFirst "://".toList s with
  | none =>
      have hsame : stripUriCredentials s = s := by simp only [stripUriCredentials, hs]
      rw [hsame, and_iff_left hsame]
      simp only [PlainUri, HasCredentials, hs, Option.not_mem_none, false_and, exists_false,
        not_false_eq_true, forall_const, false_implies]
  | some parts =>
      obtain ⟨scheme, rest⟩ := parts
      have hplain : PlainUri ends s ↔ PlainRest ends rest := by
        simp only [PlainUri, hs, Option.mem_some_iff, forall_eq']
      rw [hplain]
      cases hat : splitOnce '@' rest with
      | none =>
          have hsettled : Settled rest := by simp [Settled, hat]
          have hsame := stripUriCredentials_of_settled hs hsettled
          rw [hsame, hasCredentials_iff hs]
          refine iff_of_true ?_ ⟨not_carriesUserinfo (notMem_of_splitOnce hat), hsame⟩
          simp [PlainRest, hat]
      | some parts =>
          obtain ⟨userinfo, tail⟩ := parts
          have hrest : PlainRest ends rest ↔
              if userinfo = [] ∨ '/' ∈ userinfo then ¬ CarriesUserinfo ends rest
              else ¬ CarriesUserinfo ends tail ∧ Settled tail := by
            simp only [PlainRest, hat, Option.mem_some_iff, forall_eq']
          rw [hrest]
          by_cases hkept : userinfo = [] ∨ '/' ∈ userinfo
          · have hsettled : Settled rest := by
              simp only [Settled, hat, Option.mem_some_iff, forall_eq']
              exact hkept
            have hsame := stripUriCredentials_of_settled hs hsettled
            rw [if_pos hkept, hsame, hasCredentials_iff hs, and_iff_left hsame]
          · rw [if_neg hkept, stripUriCredentials_of_cut hs hat hkept]
            -- the first `://` stays where it is
            have hs' := splitFirst_append (by decide) hs tail
            rw [hasCredentials_iff hs', stripUriCredentials_eq_self_iff hs']

/-! ## Members -/

theorem leaks_str_iff {ends : Char → Bool} {uri : Bool} {s : String} :
    Leaks ends uri (.str s) ↔ uri = true ∧ HasCredentials ends s.toList := by
  constructor
  · intro h
    cases h with
    | uri h => exact ⟨rfl, h⟩
  · rintro ⟨rfl, h⟩
    exact .uri h

theorem harmless_iff (ends : Char → Bool) (key : String) (value : Json) :
    Harmless ends key value ↔ ¬ Leaks ends (isUriKey key) (storedValue key value) ∧
      storedValue key (storedValue key value) = storedValue key value := by
  unfold Harmless
  split
  case h_1 s huri hs =>
    have hstored : ∀ {value : Json} {s : String}, value.asStr = some s →
        storedValue key value = .str (String.ofList (stripUriCredentials s.toList)) := by
      intro value s hs
      simp only [storedValue, huri, hs]
    rw [hstored hs, hstored rfl, leaks_str_iff, huri, and_iff_right rfl, plainUri_iff,
      String.toList_ofList, Json.str.injEq, String.ofList_inj]
  case h_2 hno =>
    have hsame : storedValue key value = value := by
      unfold storedValue
      split
      case h_1 s huri hs => exact absurd hs (hno s huri)
      case h_2 => rfl
    rw [hsame, and_iff_left hsame]

theorem sanitizeMember_eq_some_iff {key : String} {value new : Json} :
    sanitizeMember key value = some new ↔
      isCredentialKey key = false ∧ isSshKey key = false ∧ storedValue key value = new := by
  unfold sanitizeMember
  cases isCredentialKey key <;> cases isSshKey key <;> simp

theorem leaks_obj_iff {ends : Char → Bool} {uri : Bool} {members : List (String × Json)} :
    Leaks ends uri (.obj members) ↔ ∃ key value, (key, value) ∈ members ∧
      (isCredentialKey key = true ∨ (isSshKey key = true ∧ ∃ inner, value = .obj inner) ∨
        Leaks ends (uri || isUriKey key) value) := by
  constructor
  · intro h
    cases h with
    | credential hin h => exact ⟨_, _, hin, .inl h⟩
    | ssh hin h => exact ⟨_, _, hin, .inr (.inl ⟨h, _, rfl⟩)⟩
    | member hin h => exact ⟨_, _, hin, .inr (.inr h)⟩
  · rintro ⟨key, value, hin, h | ⟨h, inner, rfl⟩ | h⟩
    · exact .credential hin h
    · exact .ssh hin h
    · exact .member hin h

/-! ## Objects -/

/-- The members that are kept. -/
theorem mem_sanitized {map : ExtraMap} {key : String} {new : Json} :
    (key, new) ∈ (map.filterMap sanitizeMember).entries ↔
      ∃ value, (key, value) ∈ map.entries ∧ isCredentialKey key = false ∧ isSshKey key = false ∧
        storedValue key value = new := by
  rw [OrderedMap.mem_filterMap]
  simp only [sanitizeMember_eq_some_iff]

theorem clean_iff (ends : Char → Bool) (map : ExtraMap) :
    ¬ Leaks ends false (.obj (map.filterMap sanitizeMember).entries) ↔
      ∀ key value, (key, value) ∈ map.entries → isCredentialKey key = false →
        isSshKey key = false → ¬ Leaks ends (isUriKey key) (storedValue key value) := by
  rw [leaks_obj_iff]
  constructor
  · intro hclean key value hin hcredential hssh hleaks
    have hstored := mem_sanitized.mpr ⟨value, hin, hcredential, hssh, rfl⟩
    exact hclean ⟨key, _, hstored, .inr (.inr hleaks)⟩
  · rintro hmembers ⟨key, new, hstored, h⟩
    obtain ⟨value, hin, hcredential, hssh, rfl⟩ := mem_sanitized.mp hstored
    rcases h with h | ⟨h, -⟩ | h
    · rw [hcredential] at h
      cases h
    · rw [hssh] at h
      cases h
    · exact hmembers key value hin hcredential hssh h

theorem stable_iff (map : ExtraMap) :
    (map.filterMap sanitizeMember).filterMap sanitizeMember = map.filterMap sanitizeMember ↔
      ∀ key value, (key, value) ∈ map.entries → isCredentialKey key = false →
        isSshKey key = false →
        storedValue key (storedValue key value) = storedValue key value := by
  rw [OrderedMap.filterMap_eq_self_iff]
  constructor
  · intro hsame key value hin hcredential hssh
    have hstored := mem_sanitized.mpr ⟨value, hin, hcredential, hssh, rfl⟩
    exact (sanitizeMember_eq_some_iff.mp (hsame key _ hstored)).2.2
  · intro hmembers key new hstored
    obtain ⟨value, hin, hcredential, hssh, rfl⟩ := mem_sanitized.mp hstored
    have hagain := hmembers key value hin hcredential hssh
    exact sanitizeMember_eq_some_iff.mpr ⟨hcredential, hssh, hagain⟩

theorem sanitizeExtra_nonEmpty (map : ExtraMap) :
    sanitizeExtra (nonEmpty map) = nonEmpty (map.filterMap sanitizeMember) := by
  unfold nonEmpty
  split
  case isTrue h =>
    rw [if_pos]
    · rfl
    · rw [OrderedMap.entries_filterMap, h, List.filterMap_nil]
  case isFalse h => rfl

theorem nonEmpty_inj {map map' : ExtraMap} : nonEmpty map = nonEmpty map' ↔ map = map' := by
  refine ⟨fun h => ?_, fun h => by rw [h]⟩
  apply OrderedMap.ext
  unfold nonEmpty at h
  split at h <;> split at h
  case isTrue.isTrue hm hm' => rw [hm, hm']
  case isTrue.isFalse => cases h
  case isFalse.isTrue => cases h
  case isFalse.isFalse => rw [Option.some.inj h]

theorem clean_nonEmpty_iff (ends : Char → Bool) (map : ExtraMap) :
    (∀ stored ∈ nonEmpty map, ¬ Leaks ends false (.obj stored.entries)) ↔
      ¬ Leaks ends false (.obj map.entries) := by
  unfold nonEmpty
  split
  case isTrue h =>
    refine iff_of_true (fun stored hstored => nomatch hstored) ?_
    rw [h, leaks_obj_iff]
    rintro ⟨key, value, hin, -⟩
    cases hin
  case isFalse => simp only [Option.mem_some_iff, forall_eq']

theorem valueOf_nonEmpty (map : ExtraMap) (key : String) :
    valueOf (nonEmpty map) key = map.lookup key := by
  unfold nonEmpty
  split
  case isTrue h => simp [valueOf, OrderedMap.lookup, h]
  case isFalse => rfl

theorem kept_filterMap (map : ExtraMap) {key : String} (hcredential : isCredentialKey key = false)
    (hssh : isSshKey key = false) (huri : isUriKey key = false) :
    (map.filterMap sanitizeMember).lookup key = map.lookup key := by
  have hsame : ∀ value, sanitizeMember key value = some value := by
    intro value
    refine sanitizeMember_eq_some_iff.mpr ⟨hcredential, hssh, ?_⟩
    simp only [storedValue, huri]
  rw [OrderedMap.lookup_filterMap, funext hsame, Option.bind_fun_some]

theorem sanitized_nonEmpty_iff (ends : Char → Bool) (map : ExtraMap) :
    Sanitized ends (nonEmpty map) ↔
      ∀ key value, (key, value) ∈ map.entries → isCredentialKey key = false →
        isSshKey key = false → Harmless ends key value := by
  have hparts : Sanitized ends (nonEmpty map) ↔
      ¬ Leaks ends false (.obj (map.filterMap sanitizeMember).entries) ∧
        (map.filterMap sanitizeMember).filterMap sanitizeMember =
          map.filterMap sanitizeMember := by
    rw [← clean_nonEmpty_iff, ← nonEmpty_inj, ← sanitizeExtra_nonEmpty (map.filterMap _),
      ← sanitizeExtra_nonEmpty]
    refine ⟨fun h => ⟨h.clean, h.stable⟩, fun h => ⟨h.1, h.2, ?_⟩⟩
    intro key hcredential hssh huri
    rw [sanitizeExtra_nonEmpty, valueOf_nonEmpty, valueOf_nonEmpty,
      kept_filterMap map hcredential hssh huri]
  rw [hparts, clean_iff, stable_iff]
  simp only [harmless_iff]
  constructor
  · rintro ⟨hclean, hstable⟩ key value hin hcredential hssh
    exact ⟨hclean key value hin hcredential hssh, hstable key value hin hcredential hssh⟩
  · intro h
    constructor
    · exact fun key value hin hcredential hssh => (h key value hin hcredential hssh).1
    · exact fun key value hin hcredential hssh => (h key value hin hcredential hssh).2

/-! ## The draft -/

theorem nodup_sshEntries (ssh : Option SshWire) : ((sshEntries ssh).map Prod.fst).Nodup := by
  unfold sshEntries
  split
  case h_1 => exact List.nodup_nil
  case h_2 wire =>
    split
    case h_1 params _ =>
      show ["sshHost", "sshPort", "sshUsername", "sshAuthMode"].Nodup
      decide
    case h_2 => exact List.nodup_nil

/-- The ssh block adds nothing to clean. -/
theorem harmless_sshEntries (ends : Char → Bool) {ssh : Option SshWire} {key : String}
    {value : Json} (hin : (key, value) ∈ sshEntries ssh) : Harmless ends key value := by
  have hplain : isUriKey key = false ∧ ¬ Leaks ends false value := by
    unfold sshEntries at hin
    split at hin
    case h_1 => cases hin
    case h_2 wire =>
      split at hin
      case h_2 => cases hin
      case h_1 params _ =>
        have hstr : ∀ s, ¬ Leaks ends false (.str s) := by
          intro s h
          cases (leaks_str_iff.mp h).1
        simp only [extraKeys, List.mem_cons, List.not_mem_nil, or_false, Prod.mk.injEq] at hin
        rcases hin with ⟨rfl, rfl⟩ | ⟨rfl, rfl⟩ | ⟨rfl, rfl⟩ | ⟨rfl, rfl⟩
        · exact ⟨by decide, hstr _⟩
        · exact ⟨by decide, nofun⟩
        · exact ⟨by decide, hstr _⟩
        · exact ⟨by decide, hstr _⟩
  unfold Harmless
  rw [hplain.1]
  exact hplain.2

/-- Exactly the extra objects whose members are all harmless are sanitised. -/
theorem sanitized_iff (ends : Char → Bool) (extra : Option ExtraMap) (ssh : Option SshWire) :
    Sanitized ends (mergedExtra extra ssh) ↔
      ∀ given ∈ extra, ∀ key value, (key, value) ∈ given.entries →
        isCredentialKey key = false → isSshKey key = false →
        key ∉ (sshEntries ssh).map Prod.fst → Harmless ends key value := by
  rw [mergedExtra, sanitized_nonEmpty_iff]
  simp only [OrderedMap.mem_insertAll (nodup_sshEntries ssh)]
  cases extra with
  | none =>
      refine iff_of_true (fun key value hin _ _ => ?_) (fun given hgiven => nomatch hgiven)
      rcases hin with hin | ⟨hin, -⟩
      · exact harmless_sshEntries ends hin
      · cases hin
  | some given =>
      simp only [Option.mem_some_iff, forall_eq', Option.getD_some]
      constructor
      · intro h key value hin hcredential hssh hkey
        exact h key value (.inr ⟨hin, hkey⟩) hcredential hssh
      · intro h key value hin hcredential hssh
        rcases hin with hin | ⟨hin, hkey⟩
        · exact harmless_sshEntries ends hin
        · exact h key value hin hcredential hssh hkey

def nestedPassword : ExtraMap :=
  ⟨[("options", .obj [("password", .str "x")])], List.nodup_singleton _⟩

/-- A password one level down is stored, whatever characters end an authority. -/
theorem nested_password_stored :
    ¬ ∃ ends, ∀ (extra : Option ExtraMap) (ssh : Option SshWire),
      Sanitized ends (mergedExtra extra ssh) := by
  rintro ⟨ends, h⟩
  have hstored : sanitizeExtra (mergedExtra (some nestedPassword) none) = some nestedPassword :=
    rfl
  refine (h (some nestedPassword) none).clean _ hstored ?_
  have hkey : isCredentialKey "password" = true := by decide
  exact .member List.mem_cons_self (.credential List.mem_cons_self hkey)

end Dbmaster.Gateway.Extra
