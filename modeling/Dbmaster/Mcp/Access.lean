import Dbmaster.Auth.Tokens
import Dbmaster.Lib.Calls
import Dbmaster.Lib.Table
import Dbmaster.Lib.Text
import Dbmaster.RateLimit.Limiter
/-!
# Access to the MCP endpoint

The personal tokens (`tokens.rs`), the guard of `/mcp` (`auth.rs`) and what they write to
`mcp_audit`, statement by statement, with any number of calls in progress.
-/

namespace Dbmaster.Mcp.Access

open Dbmaster.Lib Dbmaster.Lib.Text Dbmaster.Lib.Table Dbmaster.Lib.Transition
open Dbmaster.Lib.Calls Dbmaster.RateLimit.Limiter
open Dbmaster.Auth.Tokens (Claims AppError)

/-! ## The tables -/

structure McpToken where
  id : String
  userId : String
  name : List Char
  tokenHash : List Char
  tokenPrefix : List Char
  createdAt : String
  lastUsedAt : Option String
  revokedAt : Option String

inductive McpAuditAction
  | authRejected | rateLimited | sessionClose | tokenCreated | tokenRevoked | toolCall
  deriving DecidableEq

def McpAuditAction.asDbStr : McpAuditAction → String
  | .authRejected => "auth_rejected"
  | .rateLimited => "rate_limited"
  | .sessionClose => "session_close"
  | .tokenCreated => "token_created"
  | .tokenRevoked => "token_revoked"
  | .toolCall => "tool_call"

/-- Whether the default status is `ok`. -/
def McpAuditAction.isOk : McpAuditAction → Bool
  | .authRejected => false
  | .rateLimited => false
  | _ => true

structure McpAudit where
  userId : Option String
  action : McpAuditAction
  status : String
  error : Option (List Char)
  tool : Option String
  loggedAt : String

def truncateRedacted (s : List Char) : List Char :=
  if s.length ≤ 500 then s else s.take 500 ++ "…[truncated]".toList

/-- The row of `log_mcp_event`. -/
def auditRow (userId : Option String) (action : McpAuditAction) (tool : Option String)
    (error : Option (List Char)) (now : String) : McpAudit where
  userId := userId
  action := action
  status := if action.isOk && error.isNone then "ok" else "error"
  error := error.map truncateRedacted
  tool := tool
  loggedAt := now

@[simp] theorem action_auditRow (userId : Option String) (action : McpAuditAction)
    (tool : Option String) (error : Option (List Char)) (now : String) :
    (auditRow userId action tool error now).action = action := rfl

/-! ## Calls -/

def tokenStart : String := "dbm_mcp_"

def prefixDisplayLen : Nat := 12

def nameMaxChars : Nat := 100

def windowSecs : Nat := 60

structure TokenSummary where
  id : String
  name : List Char
  tokenPrefix : List Char
  createdAt : String
  lastUsedAt : Option String
  deriving DecidableEq

def McpToken.summary (row : McpToken) : TokenSummary :=
  ⟨row.id, row.name, row.tokenPrefix, row.createdAt, row.lastUsedAt⟩

/-- What a call is answered; a request that passes is handed on with its claims, and closes its
session or not. -/
inductive Answer
  | created (id : String) (name token : List Char) (createdAt : String)
  | listed (rows : List TokenSummary)
  | revoked (userId id : String)
  | notFound (message : String)
  | internal (message : String)
  | unauthorized (message : String)
  | tooManyRequests (message : String)
  | passed (token : List Char) (claims : Claims) (isDelete : Bool)

/-- How far a call is; `logging` has its audit row still to write. -/
inductive Phase
  | inserting (row : McpToken) (plaintext : List Char)
  | listing (userId : String)
  | revoking (userId id : String)
  | received (header : Option (List Char)) (isDelete : Bool)
  | found (token : List Char) (userId : String) (isDelete : Bool)
  | identified (token : List Char) (claims : Claims) (isDelete : Bool)
  | logging (userId : Option String) (action : McpAuditAction) (error : Option (List Char))
      (answer : Answer)
  | answered (answer : Answer)

/-- `broken` is what is reported of the audit rows that could not be written. -/
structure Shared where
  tokens : List McpToken
  audit : List McpAudit
  broken : List McpAuditAction
  limiter : SlidingWindowLimiter

def Shared.initial : Shared := ⟨[], [], [], .new⟩

/-- How a call is made: the UUIDs and the clock are what the call meets. -/
inductive Start
  | create (userId : String) (name : Option (List Char)) (id : String) (uuid : List Char)
      (now : String)
  | list (userId : String)
  | revoke (userId id : String)
  | request (header : Option (List Char)) (isDelete : Bool)

/-- What a step meets: whether its statement succeeds, and the clock. -/
structure Event where
  ok : Bool
  now : String
  nanos : Int
  unixTime : Nat

structure Config where
  /-- `verify_access_token` at a time -/
  verifyAccessToken : Nat → List Char → Except String Claims
  rateLimitPerMinute : Nat

section Calls

variable (sha256 : List Char → List Char) (config : Config)

def tokenName (name : Option (List Char)) : List Char :=
  ((name.map fun n => (trim n).take nameMaxChars).filter fun n => !n.isEmpty).getD
    "MCP token".toList

def mintToken (uuid : List Char) : List Char := tokenStart.toList ++ uuid

def begin : Start → Phase
  | .create userId name id uuid now =>
    .inserting
      { id := id, userId := userId, name := tokenName name, tokenHash := sha256 (mintToken uuid),
        tokenPrefix := (mintToken uuid).take prefixDisplayLen, createdAt := now,
        lastUsedAt := none, revokedAt := none }
      (mintToken uuid)
  | .list userId => .listing userId
  | .revoke userId id => .revoking userId id
  | .request header isDelete => .received header isDelete

/-- The claims of a request that is let in by a personal token. -/
def mcpClaims (userId : String) : Claims := ⟨userId, 0, 18446744073709551615, "mcp_token"⟩

/-- The row that `WHERE token_hash = ?1 AND revoked_at IS NULL` finds. -/
def lookup (tokens : List McpToken) (hash : List Char) : Option McpToken :=
  tokens.find? fun row => decide (row.tokenHash = hash) && row.revokedAt.isNone

/-- The primary key and the unique column. -/
def insertToken (tokens : List McpToken) (row : McpToken) : Option (List McpToken) :=
  if (tokens.map McpToken.id).contains row.id || (tokens.map McpToken.tokenHash).contains row.tokenHash
  then none
  else some (tokens ++ [row])

/-- The caller's tokens that are not revoked, newest first. -/
def listLive (tokens : List McpToken) (userId : String) : List TokenSummary :=
  ((tokens.filter fun row => decide (row.userId = userId) && row.revokedAt.isNone).mergeSort
    fun row other => decide (other.createdAt ≤ row.createdAt)).map McpToken.summary

def isLiveOwn (userId id : String) (row : McpToken) : Bool :=
  decide (row.id = id) && decide (row.userId = userId) && row.revokedAt.isNone

def revokeToken (tokens : List McpToken) (userId id now : String) : List McpToken :=
  updateWhere (isLiveOwn userId id) (fun row => { row with revokedAt := some now }) tokens

def stampToken (tokens : List McpToken) (hash : List Char) (now : String) : List McpToken :=
  updateWhere (fun row => decide (row.tokenHash = hash))
    (fun row => { row with lastUsedAt := some now }) tokens

def invalidToken : String := "Invalid or expired token"

def rejected (reason : List Char) (message : String) : Phase :=
  .logging none .authRejected (some reason) (.unauthorized message)

/-- The credential of a request, looked up or verified. -/
def authenticate (s : Shared) (header : Option (List Char)) (isDelete : Bool) (e : Event) :
    Phase :=
  match header.bind (stripPrefix "Bearer ") with
  | none => rejected "missing or malformed Authorization header".toList
      "Missing Authorization header. Expected: Bearer <token>"
  | some token =>
    if startsWith token tokenStart then
      match if e.ok then lookup s.tokens (sha256 token) else none with
      | some row => .found token row.userId isDelete
      | none => rejected "unknown or revoked MCP token".toList invalidToken
    else
      match config.verifyAccessToken e.unixTime token with
      | .ok claims => .identified token claims isDelete
      | .error reason => rejected ("invalid token: " ++ reason).toList invalidToken

def limitMessage (max : Nat) : List Char :=
  ("exceeded " ++ toString max ++ " req/min sliding window").toList

/-- A request that is within the limit, logged first where it closes a session. -/
def letIn (token : List Char) (claims : Claims) (isDelete : Bool) : Phase :=
  if isDelete then .logging (some claims.sub) .sessionClose none (.passed token claims isDelete)
  else .answered (.passed token claims isDelete)

def move (s : Shared) (phase : Phase) (e : Event) : Option (Shared × Phase) :=
  match phase with
  | .inserting row plaintext =>
    match if e.ok then insertToken s.tokens row else none with
    | some tokens => some ({ s with tokens := tokens },
        .logging (some row.userId) .tokenCreated none
          (.created row.id row.name plaintext row.createdAt))
    | none => some (s, .answered (.internal "insert mcp_token"))
  | .listing userId =>
    if e.ok then some (s, .answered (.listed (listLive s.tokens userId)))
    else some (s, .answered (.internal "list mcp_tokens"))
  | .revoking userId id =>
    if e.ok then
      if s.tokens.any (isLiveOwn userId id) then
        some ({ s with tokens := revokeToken s.tokens userId id e.now },
          .logging (some userId) .tokenRevoked none (.revoked userId id))
      else some (s, .answered (.notFound "MCP token not found"))
    else some (s, .answered (.internal "revoke mcp_token"))
  | .received header isDelete => some (s, authenticate sha256 config s header isDelete e)
  | .found token userId isDelete =>
    some (if e.ok then { s with tokens := stampToken s.tokens (sha256 token) e.now } else s,
      .identified token (mcpClaims userId) isDelete)
  | .identified token claims isDelete =>
    let checked := checkAndRecord s.limiter claims.sub config.rateLimitPerMinute windowSecs e.nanos
    some ({ s with limiter := checked.1 },
      if checked.2 then letIn token claims isDelete
      else .logging (some claims.sub) .rateLimited
        (some (limitMessage config.rateLimitPerMinute))
        (.tooManyRequests "MCP request rate limit exceeded; retry after the window"))
  | .logging userId action error answer =>
    some (if e.ok then { s with audit := s.audit ++ [auditRow userId action none error e.now] }
      else { s with broken := s.broken ++ [action] }, .answered answer)
  | .answered _ => none

def program : Program Shared Phase Start Event where
  call := begin sha256
  move := move sha256 config
  env _ _ := none

end Calls

/-! ## What a step does to the tokens -/

section Steps

variable {sha256 : List Char → List Char} {config : Config} {s s' : Shared} {e : Event}
variable {phase phase' : Phase} {as : List (Action Start Event)}

theorem move_tokens (h : move sha256 config s phase e = some (s', phase')) :
    s'.tokens = s.tokens ∨
      (∃ row plaintext, phase = .inserting row plaintext ∧
        insertToken s.tokens row = some s'.tokens) ∨
      (∃ userId id, phase = .revoking userId id ∧
        s'.tokens = revokeToken s.tokens userId id e.now) ∨
      ∃ token, s'.tokens = stampToken s.tokens (sha256 token) e.now := by
  cases phase with
  | inserting row plaintext =>
      unfold move at h
      dsimp only at h
      split at h
      case h_1 tokens htokens =>
        obtain ⟨rfl, -⟩ := Prod.mk.inj (Option.some.inj h)
        split_ifs at htokens
        exact Or.inr (Or.inl ⟨row, plaintext, rfl, htokens⟩)
      case h_2 =>
        obtain ⟨rfl, -⟩ := Prod.mk.inj (Option.some.inj h)
        exact Or.inl rfl
  | listing userId =>
      unfold move at h
      dsimp only at h
      split_ifs at h
      · obtain ⟨rfl, -⟩ := Prod.mk.inj (Option.some.inj h)
        exact Or.inl rfl
      · obtain ⟨rfl, -⟩ := Prod.mk.inj (Option.some.inj h)
        exact Or.inl rfl
  | revoking userId id =>
      unfold move at h
      dsimp only at h
      split_ifs at h
      · obtain ⟨rfl, -⟩ := Prod.mk.inj (Option.some.inj h)
        exact Or.inr (Or.inr (Or.inl ⟨userId, id, rfl, rfl⟩))
      · obtain ⟨rfl, -⟩ := Prod.mk.inj (Option.some.inj h)
        exact Or.inl rfl
      · obtain ⟨rfl, -⟩ := Prod.mk.inj (Option.some.inj h)
        exact Or.inl rfl
  | received header isDelete =>
      obtain ⟨rfl, -⟩ := Prod.mk.inj (Option.some.inj h)
      exact Or.inl rfl
  | found token userId isDelete =>
      obtain ⟨rfl, -⟩ := Prod.mk.inj (Option.some.inj h)
      cases e.ok with
      | false => exact Or.inl rfl
      | true => exact Or.inr (Or.inr (Or.inr ⟨token, rfl⟩))
  | identified token claims isDelete =>
      obtain ⟨rfl, -⟩ := Prod.mk.inj (Option.some.inj h)
      exact Or.inl rfl
  | logging userId action error answer =>
      obtain ⟨rfl, -⟩ := Prod.mk.inj (Option.some.inj h)
      cases e.ok with
      | false => exact Or.inl rfl
      | true => exact Or.inl rfl
  | answered answer => cases h

/-! ## Who is let in -/

/-- A user asked for a token, and it has this hash. -/
def Minted (sha256 : List Char → List Char) (as : List (Action Start Event)) (userId : String)
    (hash : List Char) : Prop :=
  ∃ name id uuid now, .call (.create userId name id uuid now) ∈ as ∧
    sha256 (mintToken uuid) = hash

/-- A personal token stands for the user who asked for a token of its hash, and any other is an
access token that has been verified. -/
def Earned (sha256 : List Char → List Char) (config : Config) (as : List (Action Start Event))
    (token : List Char) (claims : Claims) : Prop :=
  if startsWith token tokenStart then
    ∃ userId, claims = mcpClaims userId ∧ Minted sha256 as userId (sha256 token)
  else ∃ unixTime, config.verifyAccessToken unixTime token = .ok claims

/-- What is known of a call. -/
def Known (sha256 : List Char → List Char) (config : Config) (as : List (Action Start Event)) :
    Phase → Prop
  | .inserting row plaintext =>
      Minted sha256 as row.userId row.tokenHash ∧ row.tokenHash = sha256 plaintext
  | .found token userId _ =>
      startsWith token tokenStart = true ∧ Minted sha256 as userId (sha256 token)
  | .identified token claims _ => Earned sha256 config as token claims
  | .logging _ _ _ (.passed token claims _) => Earned sha256 config as token claims
  | .answered (.passed token claims _) => Earned sha256 config as token claims
  | _ => True

def AllMinted (sha256 : List Char → List Char) (as : List (Action Start Event)) (s : Shared) :
    Prop :=
  ∀ row ∈ s.tokens, Minted sha256 as row.userId row.tokenHash

theorem insertToken_eq {tokens tokens' : List McpToken} {row : McpToken}
    (h : insertToken tokens row = some tokens') :
    row.id ∉ tokens.map McpToken.id ∧ row.tokenHash ∉ tokens.map McpToken.tokenHash ∧
      tokens' = tokens ++ [row] := by
  unfold insertToken at h
  split_ifs at h with htaken
  rw [Bool.or_eq_true, List.contains_iff_mem, List.contains_iff_mem, not_or] at htaken
  exact ⟨htaken.1, htaken.2, (Option.some.inj h).symm⟩

theorem AllMinted.move (hs : AllMinted sha256 as s) (hphase : Known sha256 config as phase)
    (h : move sha256 config s phase e = some (s', phase')) : AllMinted sha256 as s' := by
  unfold AllMinted
  rcases move_tokens h with hsame | ⟨row, plaintext, rfl, hinsert⟩ | ⟨userId, id, rfl, hrevoke⟩ |
    ⟨token, hstamp⟩
  · rw [hsame]
    exact hs
  · obtain ⟨-, -, hnew⟩ := insertToken_eq hinsert
    rw [hnew]
    intro other hother
    rcases List.mem_append.mp hother with hold | hadded
    · exact hs other hold
    · rw [List.mem_singleton.mp hadded]
      exact hphase.1
  · rw [hrevoke]
    exact forall_updateWhere (fun row hrow _ => hs row hrow) fun row hrow _ => hs row hrow
  · rw [hstamp]
    exact forall_updateWhere (fun row hrow _ => hs row hrow) fun row hrow _ => hs row hrow

theorem authenticate_cases (header : Option (List Char)) (isDelete : Bool) :
    (∃ reason message, authenticate sha256 config s header isDelete e = rejected reason message) ∨
      (∃ token row, startsWith token tokenStart = true ∧
        lookup s.tokens (sha256 token) = some row ∧
        authenticate sha256 config s header isDelete e = .found token row.userId isDelete) ∨
      ∃ token claims, startsWith token tokenStart ≠ true ∧
        config.verifyAccessToken e.unixTime token = .ok claims ∧
        authenticate sha256 config s header isDelete e = .identified token claims isDelete := by
  unfold authenticate
  cases header.bind (stripPrefix "Bearer ") with
  | none => exact Or.inl ⟨_, _, rfl⟩
  | some token =>
      by_cases hstart : startsWith token tokenStart = true
      · dsimp only
        rw [if_pos hstart]
        cases hlookup : if e.ok = true then lookup s.tokens (sha256 token) else none with
        | none => exact Or.inl ⟨_, _, rfl⟩
        | some row =>
            split_ifs at hlookup
            exact Or.inr (Or.inl ⟨token, row, hstart, hlookup, rfl⟩)
      · dsimp only
        rw [if_neg hstart]
        cases hverify : config.verifyAccessToken e.unixTime token with
        | error reason => exact Or.inl ⟨_, _, rfl⟩
        | ok claims => exact Or.inr (Or.inr ⟨token, claims, hstart, hverify, rfl⟩)

theorem known_authenticate (hs : AllMinted sha256 as s) (header : Option (List Char))
    (isDelete : Bool) :
    Known sha256 config as (authenticate sha256 config s header isDelete e) := by
  rcases authenticate_cases header isDelete with ⟨reason, message, heq⟩ |
    ⟨token, row, hstart, hlookup, heq⟩ | ⟨token, claims, hstart, hverify, heq⟩
  · rw [heq]
    trivial
  · rw [heq]
    have hrow := hs row (List.mem_of_find?_eq_some hlookup)
    have hhash := List.find?_some hlookup
    rw [Bool.and_eq_true, decide_eq_true_eq] at hhash
    rw [hhash.1] at hrow
    exact ⟨hstart, hrow⟩
  · rw [heq]
    show Earned sha256 config as token claims
    rw [Earned, if_neg hstart]
    exact ⟨e.unixTime, hverify⟩

theorem known_letIn {token : List Char} {claims : Claims} (isDelete : Bool)
    (h : Earned sha256 config as token claims) :
    Known sha256 config as (letIn token claims isDelete) := by
  cases isDelete with
  | false => exact h
  | true => exact h

theorem known_move (hs : AllMinted sha256 as s) (hphase : Known sha256 config as phase)
    (h : move sha256 config s phase e = some (s', phase')) : Known sha256 config as phase' := by
  cases phase with
  | inserting row plaintext =>
      unfold move at h
      dsimp only at h
      split at h
      case h_1 =>
        obtain ⟨-, rfl⟩ := Prod.mk.inj (Option.some.inj h)
        trivial
      case h_2 =>
        obtain ⟨-, rfl⟩ := Prod.mk.inj (Option.some.inj h)
        trivial
  | listing userId =>
      unfold move at h
      dsimp only at h
      split_ifs at h
      all_goals
        obtain ⟨-, rfl⟩ := Prod.mk.inj (Option.some.inj h)
        trivial
  | revoking userId id =>
      unfold move at h
      dsimp only at h
      split_ifs at h
      all_goals
        obtain ⟨-, rfl⟩ := Prod.mk.inj (Option.some.inj h)
        trivial
  | received header isDelete =>
      obtain ⟨-, rfl⟩ := Prod.mk.inj (Option.some.inj h)
      exact known_authenticate hs header isDelete
  | found token userId isDelete =>
      obtain ⟨-, rfl⟩ := Prod.mk.inj (Option.some.inj h)
      show Earned sha256 config as token (mcpClaims userId)
      rw [Earned, if_pos hphase.1]
      exact ⟨userId, rfl, hphase.2⟩
  | identified token claims isDelete =>
      obtain ⟨-, rfl⟩ := Prod.mk.inj (Option.some.inj h)
      split_ifs
      · exact known_letIn isDelete hphase
      · trivial
  | logging userId action error answer =>
      obtain ⟨-, rfl⟩ := Prod.mk.inj (Option.some.inj h)
      cases answer with
      | passed token claims _ => exact hphase
      | created _ _ _ _ | listed _ | revoked _ _ | notFound _ | internal _ | unauthorized _
      | tooManyRequests _ => trivial
  | answered answer => cases h

theorem keeps_known (as : List (Action Start Event)) :
    (program sha256 config).Keeps (fun a => True ∧ a ∈ as) (AllMinted sha256 as)
      fun _ _ phase => Known sha256 config as phase where
  call := by
    rintro s i a - ⟨-, ha⟩
    cases a with
    | create userId name id uuid now => exact ⟨⟨name, id, uuid, now, ha, rfl⟩, rfl⟩
    | list userId => trivial
    | revoke userId id => trivial
    | request header isDelete => trivial
  move s i phase e s' phase' hs hphase _ hmove :=
    ⟨hs.move hphase hmove, known_move hs hphase hmove⟩
  stable s i phase e s' phase' k other _ _ _ _ _ hother := hother
  env := by
    rintro s e s' - - ⟨⟩

/-- Whatever calls are in progress, a request is handed on only for a user who asked for the
personal token it came with, or with an access token that was verified. -/
theorem passed_earned {w : World Shared Phase}
    (hrun : (program sha256 config).Runs (fun _ => True) (.initial .initial) as w) {i : Nat}
    {token : List Char} {claims : Claims} {isDelete : Bool}
    (hpassed : w.calls[i]? = some (.answered (.passed token claims isDelete))) :
    Earned sha256 config as token claims := by
  have hstart : Program.Holds (AllMinted sha256 as) (fun _ _ phase => Known sha256 config as phase)
      (.initial .initial) := ⟨by rintro row ⟨⟩, by rintro i phase ⟨⟩⟩
  exact ((keeps_known as).run (Program.runs_mem hrun) hstart).calls i _ hpassed

/-! ## Revoked tokens -/

/-- There is a token of this hash, and all of them are revoked. -/
def Dead (hash : List Char) (s : Shared) : Prop :=
  (∃ row ∈ s.tokens, row.tokenHash = hash) ∧
    ∀ row ∈ s.tokens, row.tokenHash = hash → row.revokedAt.isSome = true

theorem Dead.of_update {hash : List Char} {p : McpToken → Bool} {f : McpToken → McpToken}
    (hs : Dead hash s) (hhash : ∀ row, (f row).tokenHash = row.tokenHash)
    (hrevoked : ∀ row, row.revokedAt.isSome = true → (f row).revokedAt.isSome = true)
    (hnew : s'.tokens = updateWhere p f s.tokens) : Dead hash s' := by
  obtain ⟨⟨row, hrow, hrowHash⟩, hall⟩ := hs
  refine ⟨?_, ?_⟩
  · have hmem : hash ∈ s'.tokens.map McpToken.tokenHash := by
      rw [hnew, map_updateWhere hhash]
      exact List.mem_map.mpr ⟨row, hrow, hrowHash⟩
    obtain ⟨row', hrow', hhash'⟩ := List.mem_map.mp hmem
    exact ⟨row', hrow', hhash'⟩
  · rw [hnew]
    refine forall_updateWhere (fun old hold _ => hall old hold) ?_
    intro old hold _ hold'
    exact hrevoked old (hall old hold ((hhash old).symm.trans hold'))

theorem Dead.move {hash : List Char} (hs : Dead hash s)
    (h : move sha256 config s phase e = some (s', phase')) : Dead hash s' := by
  rcases move_tokens h with hsame | ⟨row, plaintext, -, hinsert⟩ | ⟨userId, id, -, hrevoke⟩ |
    ⟨token, hstamp⟩
  · unfold Dead
    rw [hsame]
    exact hs
  · obtain ⟨-, hfresh, hnew⟩ := insertToken_eq hinsert
    obtain ⟨⟨old, hold, holdHash⟩, hall⟩ := hs
    unfold Dead
    rw [hnew]
    refine ⟨⟨old, List.mem_append_left _ hold, holdHash⟩, ?_⟩
    intro other hother hhash
    rcases List.mem_append.mp hother with hkept | hadded
    · exact hall other hkept hhash
    · rw [List.mem_singleton.mp hadded] at hhash
      rw [hhash, ← holdHash] at hfresh
      exact absurd (List.mem_map.mpr ⟨old, hold, rfl⟩) hfresh
  · unfold revokeToken at hrevoke
    refine hs.of_update ?_ ?_ hrevoke
    · exact fun _ => rfl
    · exact fun _ _ => rfl
  · unfold stampToken at hstamp
    refine hs.of_update ?_ ?_ hstamp
    · exact fun _ => rfl
    · exact fun _ hrevoked => hrevoked

theorem Dead.lookup_eq_none {hash : List Char} (hs : Dead hash s) :
    lookup s.tokens hash = none := by
  rw [lookup, List.find?_eq_none]
  intro row hrow hfound
  rw [Bool.and_eq_true, decide_eq_true_eq, Option.isNone_iff_eq_none] at hfound
  have hrevoked := hs.2 row hrow hfound.1
  rw [hfound.2] at hrevoked
  cases hrevoked

/-- A request goes by a personal token of this hash. -/
def GoesBy (sha256 : List Char → List Char) (hash : List Char) : Phase → Prop
  | .found token _ _ => sha256 token = hash
  | .identified token _ _ => startsWith token tokenStart = true ∧ sha256 token = hash
  | .logging _ _ _ (.passed token _ _) => startsWith token tokenStart = true ∧ sha256 token = hash
  | .answered (.passed token _ _) => startsWith token tokenStart = true ∧ sha256 token = hash
  | _ => False

theorem not_goesBy_move {hash : List Char} (hs : Dead hash s)
    (hphase : ¬ GoesBy sha256 hash phase)
    (h : move sha256 config s phase e = some (s', phase')) : ¬ GoesBy sha256 hash phase' := by
  cases phase with
  | inserting row plaintext =>
      unfold move at h
      dsimp only at h
      split at h
      all_goals
        obtain ⟨-, rfl⟩ := Prod.mk.inj (Option.some.inj h)
        exact not_false
  | listing userId =>
      unfold move at h
      dsimp only at h
      split_ifs at h
      all_goals
        obtain ⟨-, rfl⟩ := Prod.mk.inj (Option.some.inj h)
        exact not_false
  | revoking userId id =>
      unfold move at h
      dsimp only at h
      split_ifs at h
      all_goals
        obtain ⟨-, rfl⟩ := Prod.mk.inj (Option.some.inj h)
        exact not_false
  | received header isDelete =>
      obtain ⟨-, rfl⟩ := Prod.mk.inj (Option.some.inj h)
      rcases authenticate_cases header isDelete with ⟨reason, message, heq⟩ |
        ⟨token, row, -, hlookup, heq⟩ | ⟨token, claims, hstart, -, heq⟩
      · rw [heq]
        exact not_false
      · rw [heq]
        intro hhash
        rw [show sha256 token = hash from hhash, hs.lookup_eq_none] at hlookup
        cases hlookup
      · rw [heq]
        exact fun hgoes => hstart hgoes.1
  | found token userId isDelete =>
      obtain ⟨-, rfl⟩ := Prod.mk.inj (Option.some.inj h)
      exact fun hgoes => hphase hgoes.2
  | identified token claims isDelete =>
      obtain ⟨-, rfl⟩ := Prod.mk.inj (Option.some.inj h)
      split_ifs
      · cases isDelete with
        | false => exact hphase
        | true => exact hphase
      · exact not_false
  | logging userId action error answer =>
      obtain ⟨-, rfl⟩ := Prod.mk.inj (Option.some.inj h)
      cases answer with
      | passed token claims _ => exact hphase
      | created _ _ _ _ | listed _ | revoked _ _ | notFound _ | internal _ | unauthorized _
      | tooManyRequests _ => exact not_false
  | answered answer => cases h

/-- The row that a revoking call has found. -/
def Revoked (userId id : String) (s : Shared) : Prop :=
  ∃ row ∈ s.tokens, row.id = id ∧ row.userId = userId ∧ row.revokedAt.isSome = true

def HashesDiffer (s : Shared) : Prop := (s.tokens.map McpToken.tokenHash).Nodup

/-- A call that answers a revocation, or is about to, has revoked its row. -/
def HasRevoked (s : Shared) : Phase → Prop
  | .logging _ _ _ (.revoked userId id) => Revoked userId id s
  | .answered (.revoked userId id) => Revoked userId id s
  | _ => True

theorem hashes_revokeToken (tokens : List McpToken) (userId id now : String) :
    (revokeToken tokens userId id now).map McpToken.tokenHash = tokens.map McpToken.tokenHash :=
  map_updateWhere (by exact fun _ => rfl) tokens

theorem hashes_stampToken (tokens : List McpToken) (hash : List Char) (now : String) :
    (stampToken tokens hash now).map McpToken.tokenHash = tokens.map McpToken.tokenHash :=
  map_updateWhere (by exact fun _ => rfl) tokens

theorem HashesDiffer.move (hs : HashesDiffer s)
    (h : move sha256 config s phase e = some (s', phase')) : HashesDiffer s' := by
  unfold HashesDiffer at hs ⊢
  rcases move_tokens h with hsame | ⟨row, plaintext, -, hinsert⟩ | ⟨userId, id, -, hrevoke⟩ |
    ⟨token, hstamp⟩
  · rw [hsame]
    exact hs
  · obtain ⟨-, hfresh, hnew⟩ := insertToken_eq hinsert
    rw [hnew, List.map_append, List.map_singleton, ← List.concat_eq_append]
    exact hs.concat hfresh
  · rw [hrevoke, hashes_revokeToken]
    exact hs
  · rw [hstamp, hashes_stampToken]
    exact hs

theorem Revoked.of_update {userId id : String} {p : McpToken → Bool} {f : McpToken → McpToken}
    (hs : Revoked userId id s) (hkeeps : ∀ row, (f row).id = row.id ∧
      (f row).userId = row.userId ∧
        (row.revokedAt.isSome = true → (f row).revokedAt.isSome = true))
    (hnew : s'.tokens = updateWhere p f s.tokens) : Revoked userId id s' := by
  obtain ⟨row, hrow, hid, hown, hrevoked⟩ := hs
  refine ⟨if p row then f row else row, ?_, ?_⟩
  · rw [hnew]
    exact mem_updateWhere.mpr ⟨row, hrow, rfl⟩
  · obtain ⟨hid', hown', hrevoked'⟩ := hkeeps row
    split_ifs
    · exact ⟨hid'.trans hid, hown'.trans hown, hrevoked' hrevoked⟩
    · exact ⟨hid, hown, hrevoked⟩

theorem Revoked.move {userId id : String} (hs : Revoked userId id s)
    (h : move sha256 config s phase e = some (s', phase')) : Revoked userId id s' := by
  rcases move_tokens h with hsame | ⟨row, plaintext, -, hinsert⟩ | ⟨_, _, -, hrevoke⟩ |
    ⟨token, hstamp⟩
  · unfold Revoked
    rw [hsame]
    exact hs
  · obtain ⟨-, -, hnew⟩ := insertToken_eq hinsert
    obtain ⟨old, hold, hkept⟩ := hs
    unfold Revoked
    rw [hnew]
    exact ⟨old, List.mem_append_left _ hold, hkept⟩
  · unfold revokeToken at hrevoke
    refine hs.of_update ?_ hrevoke
    exact fun _ => ⟨rfl, rfl, fun _ => rfl⟩
  · unfold stampToken at hstamp
    refine hs.of_update ?_ hstamp
    exact fun _ => ⟨rfl, rfl, fun hrevoked => hrevoked⟩

theorem HasRevoked.move {other : Phase} (hother : HasRevoked s other)
    (h : Access.move sha256 config s phase e = some (s', phase')) : HasRevoked s' other := by
  cases other with
  | logging userId action error answer =>
      cases answer with
      | revoked _ _ => exact Revoked.move hother h
      | created _ _ _ _ | listed _ | notFound _ | internal _ | unauthorized _
      | tooManyRequests _ | passed _ _ _ => trivial
  | answered answer =>
      cases answer with
      | revoked _ _ => exact Revoked.move hother h
      | created _ _ _ _ | listed _ | notFound _ | internal _ | unauthorized _
      | tooManyRequests _ | passed _ _ _ => trivial
  | inserting _ _ | listing _ | revoking _ _ | received _ _ | found _ _ _
  | identified _ _ _ => trivial

theorem revoked_of_any {userId id now : String} {tokens : List McpToken}
    (h : tokens.any (isLiveOwn userId id) = true)
    (hs : s.tokens = revokeToken tokens userId id now) : Revoked userId id s := by
  obtain ⟨row, hrow, hlive⟩ := List.any_eq_true.mp h
  refine ⟨{ row with revokedAt := some now }, ?_, ?_⟩
  · rw [hs]
    exact mem_updateWhere.mpr ⟨row, hrow, if_pos hlive⟩
  · unfold isLiveOwn at hlive
    rw [Bool.and_eq_true, Bool.and_eq_true, decide_eq_true_eq, decide_eq_true_eq] at hlive
    exact ⟨hlive.1.1, hlive.1.2, rfl⟩

theorem hasRevoked_move (hphase : HasRevoked s phase)
    (h : move sha256 config s phase e = some (s', phase')) : HasRevoked s' phase' := by
  cases phase with
  | inserting row plaintext =>
      unfold Access.move at h
      dsimp only at h
      split at h
      all_goals
        obtain ⟨-, rfl⟩ := Prod.mk.inj (Option.some.inj h)
        trivial
  | listing userId =>
      unfold Access.move at h
      dsimp only at h
      split_ifs at h
      all_goals
        obtain ⟨-, rfl⟩ := Prod.mk.inj (Option.some.inj h)
        trivial
  | revoking userId id =>
      unfold Access.move at h
      dsimp only at h
      split_ifs at h with hok hlive
      · obtain ⟨rfl, rfl⟩ := Prod.mk.inj (Option.some.inj h)
        exact revoked_of_any hlive rfl
      · obtain ⟨-, rfl⟩ := Prod.mk.inj (Option.some.inj h)
        trivial
      · obtain ⟨-, rfl⟩ := Prod.mk.inj (Option.some.inj h)
        trivial
  | received header isDelete =>
      obtain ⟨-, rfl⟩ := Prod.mk.inj (Option.some.inj h)
      rcases authenticate_cases header isDelete with ⟨reason, message, heq⟩ |
        ⟨token, row, -, -, heq⟩ | ⟨token, claims, -, -, heq⟩
      all_goals
        rw [heq]
        trivial
  | found token userId isDelete =>
      obtain ⟨-, rfl⟩ := Prod.mk.inj (Option.some.inj h)
      trivial
  | identified token claims isDelete =>
      obtain ⟨-, rfl⟩ := Prod.mk.inj (Option.some.inj h)
      split_ifs
      · cases isDelete with
        | false => trivial
        | true => trivial
      · trivial
  | logging userId action error answer =>
      have hkept := hphase.move h
      obtain ⟨-, rfl⟩ := Prod.mk.inj (Option.some.inj h)
      cases answer with
      | revoked _ _ => exact hkept
      | created _ _ _ _ | listed _ | notFound _ | internal _ | unauthorized _
      | tooManyRequests _ | passed _ _ _ => trivial
  | answered answer => cases h

theorem holds_revoked {w : World Shared Phase}
    (hrun : (program sha256 config).Runs (fun _ => True) (.initial .initial) as w) :
    Program.Holds HashesDiffer (fun _ => HasRevoked) w := by
  refine Program.Keeps.run ?_ hrun ⟨List.nodup_nil, by rintro i phase ⟨⟩⟩
  refine ⟨?_, ?_, ?_, ?_⟩
  · rintro s i a - -
    cases a with
    | create _ _ _ _ _ | list _ | revoke _ _ | request _ _ => trivial
  · intro s i phase e s' phase' hs hphase _ hmove
    exact ⟨hs.move hmove, hasRevoked_move hphase hmove⟩
  · intro s i phase e s' phase' k other _ _ _ hmove _ hother
    exact hother.move hmove
  · rintro s e s' - - ⟨⟩

/-- The call has not been made yet, or has not looked its token up. -/
def Waiting (w : World Shared Phase) (k : Nat) : Prop :=
  ∀ phase, w.calls[k]? = some phase → ∃ header isDelete, phase = .received header isDelete

/-- When a revocation has been answered, no request that has not looked its token up by then is
ever handed on by the token: its row was the caller's own, and is found no more. -/
theorem revoked_for_good {w w' : World Shared Phase} {bs : List (Action Start Event)}
    (hrun : (program sha256 config).Runs (fun _ => True) (.initial .initial) as w)
    (hlater : (program sha256 config).Runs (fun _ => True) w bs w') {i : Nat} {userId id : String}
    (hrevoked : w.calls[i]? = some (.answered (.revoked userId id))) :
    ∃ row ∈ w.shared.tokens, row.id = id ∧ row.userId = userId ∧
      ∀ k token claims isDelete, Waiting w k → startsWith token tokenStart = true →
        sha256 token = row.tokenHash →
        w'.calls[k]? ≠ some (.answered (.passed token claims isDelete)) := by
  have hholds := holds_revoked hrun
  obtain ⟨row, hrow, hid, hown, hrowRevoked⟩ : Revoked userId id w.shared :=
    hholds.calls i _ hrevoked
  refine ⟨row, hrow, hid, hown, ?_⟩
  have hdead : Dead row.tokenHash w.shared := by
    refine ⟨⟨row, hrow, rfl⟩, ?_⟩
    intro other hother hhash
    rw [List.inj_on_of_nodup_map hholds.shared hother hrow hhash]
    exact hrowRevoked
  have hkeeps : (program sha256 config).Keeps (fun _ => True) (Dead row.tokenHash)
      fun k _ phase => Waiting w k → ¬ GoesBy sha256 row.tokenHash phase := by
    refine ⟨?_, ?_, ?_, ?_⟩
    · rintro s k a - - -
      cases a with
      | create _ _ _ _ _ | list _ | revoke _ _ | request _ _ => exact not_false
    · intro s k phase e s' phase' hs hphase _ hmove
      exact ⟨hs.move hmove, fun hwaiting => not_goesBy_move hs (hphase hwaiting) hmove⟩
    · intro s i phase e s' phase' k other _ _ _ _ _ hother
      exact hother
    · rintro s e s' - - ⟨⟩
  have hlast := hkeeps.run hlater ⟨hdead, ?_⟩
  · intro k token claims isDelete hwaiting hstart hhash hpassed
    exact hlast.calls k _ hpassed hwaiting ⟨hstart, hhash⟩
  · intro k phase hphase hwaiting
    obtain ⟨header, isDelete, rfl⟩ := hwaiting phase hphase
    exact not_false

/-! ## The audit -/

/-- The event that an answer has a row for. -/
def Answer.audited : Answer → Option McpAuditAction
  | .created _ _ _ _ => some .tokenCreated
  | .revoked _ _ => some .tokenRevoked
  | .unauthorized _ => some .authRejected
  | .tooManyRequests _ => some .rateLimited
  | .passed _ _ isDelete => if isDelete then some .sessionClose else none
  | .listed _ => none
  | .notFound _ => none
  | .internal _ => none

/-- What is still to be logged is the event of the answer. -/
def WellLogged : Phase → Prop
  | .logging _ action _ answer => answer.audited = some action
  | _ => True

def Phase.audited : Phase → Option McpAuditAction
  | .answered answer => answer.audited
  | _ => none

/-- The events of the rows, with those of the rows that could not be written. -/
def booked (s : Shared) : List McpAuditAction := s.audit.map McpAudit.action ++ s.broken

def Phase.isLogging : Phase → Bool
  | .logging _ _ _ _ => true
  | _ => false

theorem logging_or_not (phase : Phase) :
    (∃ userId action error answer, phase = .logging userId action error answer) ∨
      phase.isLogging = false := by
  cases phase with
  | logging userId action error answer => exact Or.inl ⟨userId, action, error, answer, rfl⟩
  | inserting _ _ | listing _ | revoking _ _ | received _ _ | found _ _ _ | identified _ _ _
  | answered _ => exact Or.inr rfl

/-- A step that writes no audit row leaves what it may come to owe to `logging`. -/
theorem quiet_move (hphase : phase.isLogging = false)
    (h : move sha256 config s phase e = some (s', phase')) :
    s'.audit = s.audit ∧ s'.broken = s.broken ∧ WellLogged phase' ∧ phase'.audited = none := by
  cases phase with
  | inserting row plaintext =>
      unfold move at h
      dsimp only at h
      split at h
      all_goals
        obtain ⟨rfl, rfl⟩ := Prod.mk.inj (Option.some.inj h)
        exact ⟨rfl, rfl, by trivial, rfl⟩
  | listing userId =>
      unfold move at h
      dsimp only at h
      split_ifs at h
      all_goals
        obtain ⟨rfl, rfl⟩ := Prod.mk.inj (Option.some.inj h)
        exact ⟨rfl, rfl, trivial, rfl⟩
  | revoking userId id =>
      unfold move at h
      dsimp only at h
      split_ifs at h
      all_goals
        obtain ⟨rfl, rfl⟩ := Prod.mk.inj (Option.some.inj h)
        exact ⟨rfl, rfl, by trivial, rfl⟩
  | received header isDelete =>
      obtain ⟨rfl, rfl⟩ := Prod.mk.inj (Option.some.inj h)
      refine ⟨rfl, rfl, ?_⟩
      rcases authenticate_cases header isDelete with ⟨reason, message, heq⟩ |
        ⟨token, row, -, -, heq⟩ | ⟨token, claims, -, -, heq⟩
      all_goals
        rw [heq]
        exact ⟨by trivial, rfl⟩
  | found token userId isDelete =>
      obtain ⟨rfl, rfl⟩ := Prod.mk.inj (Option.some.inj h)
      cases e.ok with
      | false => exact ⟨rfl, rfl, trivial, rfl⟩
      | true => exact ⟨rfl, rfl, trivial, rfl⟩
  | identified token claims isDelete =>
      obtain ⟨rfl, rfl⟩ := Prod.mk.inj (Option.some.inj h)
      refine ⟨rfl, rfl, ?_⟩
      split_ifs
      · cases isDelete with
        | false => exact ⟨trivial, rfl⟩
        | true => exact ⟨rfl, rfl⟩
      · exact ⟨rfl, rfl⟩
  | logging userId action error answer => cases hphase
  | answered answer => cases h

theorem keeps_wellLogged : (program sha256 config).Keeps (fun _ => True) (fun _ => True)
    fun _ _ phase => WellLogged phase where
  call := by
    rintro s i a - -
    cases a with
    | create _ _ _ _ _ | list _ | revoke _ _ | request _ _ => trivial
  move := by
    intro s i phase e s' phase' _ hphase _ hmove
    refine ⟨trivial, ?_⟩
    rcases logging_or_not phase with ⟨userId, action, error, answer, rfl⟩ | hquiet
    · obtain ⟨-, rfl⟩ := Prod.mk.inj (Option.some.inj hmove)
      trivial
    · exact (quiet_move hquiet hmove).2.2.1
  stable s i phase e s' phase' k other _ _ _ _ _ hother := hother
  env := by
    rintro s e s' - - ⟨⟩

theorem books : (program sha256 config).KeepsBooks (fun _ => True) (fun _ => True)
    (fun _ _ phase => WellLogged phase) booked Phase.audited where
  call := by
    intro a
    cases a with
    | create _ _ _ _ _ | list _ | revoke _ _ | request _ _ => rfl
  move := by
    intro s i phase e s' phase' _ hphase _ hmove
    rcases logging_or_not phase with ⟨userId, logged, error, answer, rfl⟩ | hquiet
    · obtain ⟨rfl, rfl⟩ := Prod.mk.inj (Option.some.inj hmove)
      refine Or.inr ⟨logged, rfl, hphase, ?_⟩
      cases e.ok with
      | false =>
          show (s.audit.map McpAudit.action ++ (s.broken ++ [logged])).Perm (logged :: booked s)
          rw [← List.append_assoc]
          exact List.perm_append_singleton logged _
      | true =>
          show ((s.audit ++ [auditRow userId logged none error e.now]).map McpAudit.action ++
            s.broken).Perm (logged :: booked s)
          rw [List.map_append, List.map_singleton, action_auditRow, List.append_assoc]
          exact List.perm_middle
    · obtain ⟨haudit, hbroken, -, hnone⟩ := quiet_move hquiet hmove
      have hold : phase.audited = none := by
        cases phase with
        | answered answer => cases hmove
        | logging _ _ _ _ => cases hquiet
        | inserting _ _ | listing _ | revoking _ _ | received _ _ | found _ _ _
        | identified _ _ _ => rfl
      refine Or.inl ⟨hnone.trans hold.symm, ?_⟩
      rw [booked, haudit, hbroken]
      exact .refl _
  env := by
    rintro s e s' ⟨⟩

/-- The events of the audit rows, with the failures to write one, are those of the answers: none
is missing and none is written twice. -/
theorem audit_complete {w : World Shared Phase}
    (hrun : (program sha256 config).Runs (fun _ => True) (.initial .initial) as w) :
    (w.shared.audit.map McpAudit.action ++ w.shared.broken).Perm
      (w.calls.filterMap Phase.audited) :=
  books.run keeps_wellLogged hrun ⟨trivial, by rintro i phase ⟨⟩⟩ (.refl _)

end Steps

/-! ## A token that is used and revoked -/

def fixtureToken : List Char := "dbm_mcp_9f2a4c1b7d3e48f0a1b2c3d4e5f60718".toList

def fixtureHash : List Char :=
  "6e0baf530283b5fcf280b035308d6c697aade23f8d08fd5b4e7694a601b43466".toList

/-- The digest of the token. -/
def fixtureSha256 (text : List Char) : List Char := if text = fixtureToken then fixtureHash else []

/-- No access token is valid. -/
def fixtureConfig : Config := ⟨fun _ _ => .error "InvalidToken", 120⟩

def fixtureEvent : Event := ⟨true, "2026-08-15T00:00:00+00:00", 0, 0⟩

/-- A token is minted, and a request is handed on by it. -/
def fixtureUse : List (Action Start Event) :=
  [.call (.create "u1" none "t1" ("9f2a4c1b7d3e48f0a1b2c3d4e5f60718".toList) "2026-08-15"),
    .move 0 fixtureEvent, .move 0 fixtureEvent,
    .call (.request (some ("Bearer ".toList ++ fixtureToken)) false),
    .move 1 fixtureEvent, .move 1 fixtureEvent, .move 1 fixtureEvent]

/-- Then it is revoked. -/
def fixtureRevoke : List (Action Start Event) :=
  [.call (.revoke "u1" "t1"), .move 2 fixtureEvent, .move 2 fixtureEvent]

theorem run_fixtureUse : ∃ w,
    (program fixtureSha256 fixtureConfig).Runs (fun _ => True) (.initial .initial) fixtureUse w ∧
      w.calls[1]? = some (.answered (.passed fixtureToken (mcpClaims "u1") false)) := by
  refine ⟨_, .cons trivial rfl (.cons trivial rfl (.cons trivial rfl (.cons trivial rfl
    (.cons trivial rfl (.cons trivial rfl (.cons trivial rfl (.nil _))))))), ?_⟩
  rfl

theorem passed_earned_fixture :
    Earned fixtureSha256 fixtureConfig fixtureUse fixtureToken (mcpClaims "u1") := by
  obtain ⟨w, hrun, hpassed⟩ := run_fixtureUse
  exact passed_earned hrun hpassed

/-- The same request is made again. -/
def fixtureRetry : List (Action Start Event) :=
  [.call (.request (some ("Bearer ".toList ++ fixtureToken)) false),
    .move 3 fixtureEvent, .move 3 fixtureEvent]

theorem run_fixtureRetry : ∃ w w',
    (program fixtureSha256 fixtureConfig).Runs (fun _ => True) (.initial .initial)
      (fixtureUse ++ fixtureRevoke) w ∧
    (program fixtureSha256 fixtureConfig).Runs (fun _ => True) w fixtureRetry w' ∧
    w.calls[2]? = some (.answered (.revoked "u1" "t1")) ∧ w.calls[3]? = none ∧
    w.shared.tokens.map McpToken.tokenHash = [fixtureHash] ∧
    w'.calls[3]? = some (.answered (.unauthorized invalidToken)) := by
  refine ⟨_, _, .cons trivial rfl (.cons trivial rfl (.cons trivial rfl (.cons trivial rfl
    (.cons trivial rfl (.cons trivial rfl (.cons trivial rfl (.cons trivial rfl
      (.cons trivial rfl (.cons trivial rfl (.nil _)))))))))),
    .cons trivial rfl (.cons trivial rfl (.cons trivial rfl (.nil _))), ?_⟩
  exact ⟨rfl, rfl, rfl, rfl⟩

/-- The request that was handed on before the revocation is refused after it. -/
theorem revoked_for_good_fixture : ∃ w w',
    (program fixtureSha256 fixtureConfig).Runs (fun _ => True) (.initial .initial)
      (fixtureUse ++ fixtureRevoke) w ∧
    (program fixtureSha256 fixtureConfig).Runs (fun _ => True) w fixtureRetry w' ∧
    (∃ row ∈ w.shared.tokens, row.id = "t1" ∧ row.userId = "u1") ∧
    w'.calls[3]? = some (.answered (.unauthorized invalidToken)) ∧
    ∀ claims isDelete, w'.calls[3]? ≠ some (.answered (.passed fixtureToken claims isDelete)) := by
  obtain ⟨w, w', hrun, hlater, hrevoked, hnew, hhashes, hrefused⟩ := run_fixtureRetry
  obtain ⟨row, hrow, hid, hown, hnever⟩ := revoked_for_good hrun hlater hrevoked
  have hhash : row.tokenHash = fixtureHash := by
    have hmem := List.mem_map_of_mem (f := McpToken.tokenHash) hrow
    rwa [hhashes, List.mem_singleton] at hmem
  refine ⟨w, w', hrun, hlater, ⟨row, hrow, hid, hown⟩, hrefused, fun claims isDelete => ?_⟩
  refine hnever 3 fixtureToken claims isDelete ?_ rfl hhash.symm
  intro phase hphase
  rw [hnew] at hphase
  cases hphase

theorem audit_complete_fixture : ∃ w,
    (program fixtureSha256 fixtureConfig).Runs (fun _ => True) (.initial .initial)
      (fixtureUse ++ fixtureRevoke) w ∧
    (w.shared.audit.map McpAudit.action ++ w.shared.broken).Perm
      (w.calls.filterMap Phase.audited) := by
  obtain ⟨w, -, hrun, -⟩ := run_fixtureRetry
  exact ⟨w, hrun, audit_complete hrun⟩

end Dbmaster.Mcp.Access
