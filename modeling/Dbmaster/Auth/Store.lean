import Dbmaster.Lib.Table
import Dbmaster.Lib.Text
import Dbmaster.Lib.Transition
/-!
# Users and refresh tokens

The tables `users` and `refresh_tokens`, and any number of calls of `register`, `login`,
`update_me` and `refresh_token` that act on them one statement at a time.  Every
statement may fail, and a call may be dropped between two of them.
-/

namespace Dbmaster.Auth

open Dbmaster.Lib.Table Dbmaster.Lib.Text

/-! ## The tables -/

structure User where
  id : String
  email : String
  passwordHash : String
  displayName : String

structure UserResponse where
  id : String
  email : String
  displayName : String

def User.response (user : User) : UserResponse := ⟨user.id, user.email, user.displayName⟩

/-- A sign-in: the call, and how many new passwords of the user had been set when it read
the hash. -/
structure Session where
  user : String
  login : Nat
  version : Nat

structure RefreshTokenRow where
  id : String
  userId : String
  jti : String
  revokedAt : Option String
  /-- not a column: the sign-in that the token descends from -/
  session : Session

def RefreshTokenRow.Live (row : RefreshTokenRow) : Prop := row.revokedAt = none

/-- The claims of a refresh token that tell it from another. -/
structure Claims where
  sub : String
  jti : String

/-- `UPDATE refresh_tokens SET revoked_at = … WHERE p` -/
def revoke (p : RefreshTokenRow → Bool) (now : String) (tokens : List RefreshTokenRow) :
    List RefreshTokenRow :=
  updateWhere p (fun row => { row with revokedAt := some now }) tokens

/-! ## Calls -/

inductive AppError where
  | unauthorized (message : String)
  | invalidCredentials
  | conflict (message : String)
  | internal

inductive Reply where
  | userWithTokens (user : UserResponse) (refresh : Claims)
  | profile (user : UserResponse)
  | tokenPair (refresh : Claims)

/-- The requests as `validate`, `normalized` and `verify_refresh_token` let them through. -/
inductive Request where
  | register (email password displayName : String)
  | login (email password : String)
  | updateMe (sub : String) (displayName password : Option String) (now : String)
  | refreshToken (claims : Claims)

/-- Whom a new refresh token is for. -/
inductive Grant where
  | signIn (user : User)
  | rotation (claims : Claims)

def Grant.sub : Grant → String
  | .signIn user => user.id
  | .rotation claims => claims.sub

def Grant.reply (grant : Grant) (refresh : Claims) : Reply :=
  match grant with
  | .signIn user => .userWithTokens user.response refresh
  | .rotation _ => .tokenPair refresh

/-- The statement a call comes to next.  `version`, `session` and `since` are not the
code's: the password set by the call, the sign-in its token will descend from, and how
much had happened when it read the table. -/
inductive Phase where
  | counting (email password displayName : String)
  | creating (email password displayName : String)
  | reading (email password : String)
  | naming (sub name : String) (password : Option String) (now : String)
  | settingPassword (sub password now : String)
  | revoking (sub now : String) (version : Nat)
  | fetching (sub : String) (version : Option Nat)
  | checking (claims : Claims)
  | rotating (claims : Claims) (row : RefreshTokenRow) (now : String) (since : Nat)
  | storing (grant : Grant) (session : Session) (since : Nat)
  /-- without a reply when the call was dropped -/
  | ended (reply : Option (Except AppError Reply))

/-- What `update_me` does after the display name. -/
def passwordPhase (sub : String) (password : Option String) (now : String) : Phase :=
  match password with
  | some password => .settingPassword sub password now
  | none => .fetching sub none

def Request.start : Request → Phase
  | .register email password displayName => .counting email password displayName
  | .login email password => .reading email password
  | .updateMe sub (some name) password now => .naming sub name password now
  | .updateMe sub none password now => passwordPhase sub password now
  | .refreshToken claims => .checking claims

/-- What happens to passwords and tokens, told by the call that does it. -/
inductive Event where
  | passwordSet (user : String)
  /-- a live token was revoked -/
  | revoked (call : Nat) (jti : String)
  | revokedAll (call : Nat) (user : String) (version : Nat)
  /-- the `update_me` that set the password ended -/
  | updateEnded (call : Nat) (user : String) (version : Nat)
  /-- a new pair was made for the token -/
  | exchanged (call : Nat) (jti : String) (session : Session)

def Event.setsPassword (user : String) : Event → Bool
  | .passwordSet u => decide (u = user)
  | _ => false

/-- How many new passwords of the user were set. -/
def versionOf (history : List Event) (user : String) : Nat :=
  history.countP (Event.setsPassword user)

/-- The live tokens that a statement revokes. -/
def revocations (i : Nat) (p : RefreshTokenRow → Bool) (tokens : List RefreshTokenRow) :
    List Event :=
  (tokens.filter fun row => p row && row.revokedAt.isNone).map fun row => .revoked i row.jti

def Grant.exchanges (grant : Grant) (i : Nat) (session : Session) : List Event :=
  match grant with
  | .signIn _ => []
  | .rotation claims => [.exchanged i claims.jti session]

def leaving (i : Nat) : Phase → List Event
  | .revoking sub _ version => [.updateEnded i sub version]
  | .fetching sub (some version) => [.updateEnded i sub version]
  | _ => []

structure State where
  users : List User
  tokens : List RefreshTokenRow
  calls : List Phase
  history : List Event

def State.initial : State := ⟨[], [], [], []⟩

/-- Only what the server has signed and handed out verifies. -/
def State.presentable (s : State) : Request → Bool
  | .refreshToken claims =>
      s.tokens.any fun row => decide (row.userId = claims.sub ∧ row.jti = claims.jti)
  | _ => true

def State.move (s : State) (i : Nat) (phase : Phase) : State :=
  { s with calls := s.calls.set i phase }

def State.leave (s : State) (i : Nat) (old : Phase) (reply : Option (Except AppError Reply)) :
    State :=
  { s with calls := s.calls.set i (.ended reply), history := s.history ++ leaving i old }

/-! ## Statements -/

/-- What a call meets at one statement: whether the database executes it, the clock, the
UUID of a row, the `jti` of the token if one can be signed, and the salt of a hash. -/
structure Answer where
  ok : Bool
  now : String
  uuid : String
  issued : Option String
  salt : String

structure Passwords where
  hash : (plain salt : String) → Option String
  verify : (plain hash : String) → Option Bool

inductive Action where
  | call (request : Request)
  | statement (i : Nat) (answer : Answer)
  | drop (i : Nat)

/-- `LOWER(email) = LOWER(?)` -/
def sameEmail (email : String) (user : User) : Bool :=
  decide (asciiLower user.email.toList = asciiLower email.toList)

/-- The keys of `users`. -/
def newUser (users : List User) (user : User) : Bool :=
  users.all fun other => decide (other.id ≠ user.id ∧ other.email ≠ user.email)

/-- The keys of `refresh_tokens`. -/
def newToken (tokens : List RefreshTokenRow) (row : RefreshTokenRow) : Bool :=
  tokens.all fun other => decide (other.id ≠ row.id ∧ other.jti ≠ row.jti)

def setUser (sub : String) (f : User → User) (users : List User) : List User :=
  updateWhere (fun user => decide (user.id = sub)) f users

/-- The row of the token that a call stores. -/
def Grant.row (grant : Grant) (session : Session) (uuid jti : String) : RefreshTokenRow :=
  ⟨uuid, grant.sub, jti, none, session⟩

def State.store (s : State) (i : Nat) (grant : Grant) (session : Session) (uuid jti : String) :
    State :=
  { s with
    tokens := s.tokens ++ [grant.row session uuid jti]
    calls := s.calls.set i (.ended (some (.ok (grant.reply ⟨grant.sub, jti⟩))))
    history := s.history ++ grant.exchanges i session }

/-- A sign-in goes on to store its token. -/
def State.signIn (s : State) (i : Nat) (user : User) : State :=
  s.move i (.storing (.signIn user) ⟨user.id, i, versionOf s.history user.id⟩ s.history.length)

def State.setPassword (s : State) (i : Nat) (sub hash now : String) : State :=
  { s with
    users := setUser sub (fun user => { user with passwordHash := hash }) s.users
    calls := s.calls.set i (.revoking sub now (versionOf s.history sub + 1))
    history := s.history ++ [.passwordSet sub] }

def State.revokeAll (s : State) (i : Nat) (sub now : String) (version : Nat) : State :=
  { s with
    tokens := revoke (fun row => decide (row.userId = sub ∧ row.revokedAt.isNone)) now s.tokens
    calls := s.calls.set i (.fetching sub (some version))
    history := s.history ++
      (revocations i (fun row => decide (row.userId = sub)) s.tokens ++
        [.revokedAll i sub version]) }

def State.rotate (s : State) (i : Nat) (claims : Claims) (row : RefreshTokenRow) (now : String)
    (since : Nat) : State :=
  { s with
    tokens := revoke (fun other => decide (other.id = row.id)) now s.tokens
    calls := s.calls.set i (.storing (.rotation claims) row.session since)
    history := s.history ++ revocations i (fun other => decide (other.id = row.id)) s.tokens }

/-- The next statement of the call, and what follows up to the one after it. -/
def execute (passwords : Passwords) (s : State) (i : Nat) (answer : Answer) (phase : Phase) :
    State :=
  let fail (error : AppError) := s.leave i phase (some (.error error))
  match phase with
  | .counting email password displayName =>
      if answer.ok = false then fail .internal
      else if s.users.any (sameEmail email) then fail (.conflict "Email already registered.")
      else s.move i (.creating email password displayName)
  | .creating email password displayName =>
      match passwords.hash password answer.salt with
      | none => fail .internal
      | some hash =>
          let user : User := ⟨answer.uuid, email, hash, displayName⟩
          if answer.ok && newUser s.users user then
            { s.signIn i user with users := s.users ++ [user] }
          else fail .internal
  | .reading email password =>
      if answer.ok = false then fail .internal
      else match s.users.find? (sameEmail email) with
        | none => fail .invalidCredentials
        | some user =>
            match passwords.verify password user.passwordHash with
            | none => fail .internal
            | some false => fail .invalidCredentials
            | some true => s.signIn i user
  | .naming sub name password now =>
      if answer.ok = false then fail .internal
      else
        { s.move i (passwordPhase sub password now) with
          users := setUser sub (fun user => { user with displayName := name }) s.users }
  | .settingPassword sub password now =>
      match passwords.hash password answer.salt with
      | none => fail .internal
      | some hash => if answer.ok then s.setPassword i sub hash now else fail .internal
  | .revoking sub now version =>
      if answer.ok then s.revokeAll i sub now version else fail .internal
  | .fetching sub _ =>
      if answer.ok = false then fail .internal
      else match s.users.find? fun user => decide (user.id = sub) with
        | none => fail .internal
        | some user => s.leave i phase (some (.ok (.profile user.response)))
  | .checking claims =>
      if answer.ok = false then fail .internal
      else match s.tokens.find? fun row => decide (row.jti = claims.jti) with
        | none => fail (.unauthorized "Invalid refresh token.")
        | some row =>
            if row.revokedAt.isSome then fail (.unauthorized "Refresh token has been revoked.")
            else s.move i (.rotating claims row answer.now s.history.length)
  | .rotating claims row now since =>
      if answer.ok then s.rotate i claims row now since else fail .internal
  | .storing grant session _ =>
      match answer.issued with
      | none => fail .internal
      | some jti =>
          if answer.ok && newToken s.tokens (grant.row session answer.uuid jti) then
            s.store i grant session answer.uuid jti
          else fail .internal
  | .ended _ => s

def Phase.isEnded : Phase → Bool
  | .ended _ => true
  | _ => false

def step (passwords : Passwords) (s : State) : Action → Option State
  | .call request =>
      if s.presentable request then some { s with calls := s.calls ++ [request.start] } else none
  | .statement i answer =>
      match s.calls[i]? with
      | none => none
      | some phase => if phase.isEnded then none else some (execute passwords s i answer phase)
  | .drop i =>
      match s.calls[i]? with
      | none => none
      | some phase => if phase.isEnded then none else some (s.leave i phase none)

/-! ## Samples -/

def plainPasswords : Passwords :=
  ⟨fun plain _ => some plain, fun plain hash => some (plain == hash)⟩

def sampleAnswer (uuid jti : String) : Answer :=
  ⟨true, "2026-01-01T00:00:00+00:00", uuid, some jti, ""⟩

end Dbmaster.Auth
