import Dbmaster.Lib.Lines
import Dbmaster.Lib.Transition
import Dbmaster.Ssh.Key
import Mathlib.Logic.Function.Basic
/-!
# SSH tunnels

`resolve`, its table of tunnels, and the local ports these listen on.  Calls of `resolve`
interleave; between their steps a tunnel may be closed and other programs take and leave ports.
-/

namespace Dbmaster.Ssh

open Dbmaster.Lib Dbmaster.Lib.Text Dbmaster.Lib.Transition

/-! ## Opening a tunnel -/

/-- What the SSH server and the system answer in the course of `spawn_tunnel`. -/
structure SshAnswers where
  connect : List Char → UInt16 → Except (List Char) Unit
  authenticatePassword : List Char → List Char → Except (List Char) Bool
  /-- the key in its text, with the passphrase it is decoded with -/
  decodeSecretKey : List Char → Option (List Char) → Option (List UInt8)
  authenticatePublickey : List Char → List UInt8 → Except (List Char) Bool
  channelOpenDirectTcpip : List Char → UInt32 → Bool
  bind : Except String UInt16

/-- The first line, cut off; what the server says further on is left out. -/
def redactSsh (msg : List Char) : List Char :=
  ((lines msg).head?.getD "ssh error".toList).take 120

def secretsPassphrase (secrets : SshSecrets) : Option (List Char) :=
  if secrets.passphrase = [] then none else some secrets.passphrase

def authenticate (a : SshAnswers) (config : SshConfig) (secrets : SshSecrets) :
    Except String Bool :=
  if config.authMode = "password".toList then
    (a.authenticatePassword config.username secrets.password).mapError fun e =>
      "ssh tunnel auth error: " ++ String.ofList (redactSsh e)
  else if config.authMode = "privateKey".toList then
    match a.decodeSecretKey secrets.privateKey (secretsPassphrase secrets) with
    | none => .error "ssh tunnel private key decode failed"
    | some key => (a.authenticatePublickey config.username key).mapError fun e =>
        "ssh tunnel auth error: " ++ String.ofList (redactSsh e)
  else .error ("unsupported ssh authMode: " ++ String.ofList config.authMode)

/-- The local port of a tunnel that has been opened; ports are cut to their width. -/
def spawnTunnel (a : SshAnswers) (r : Request) : Except String UInt16 :=
  match a.connect r.config.host r.config.port.toInt16.toUInt16 with
  | .error e => .error ("ssh tunnel connect failed: " ++ String.ofList (redactSsh e))
  | .ok () =>
    match authenticate a r.config r.secrets with
    | .error e => .error e
    | .ok false => .error "ssh tunnel authentication failed"
    | .ok true =>
      if a.channelOpenDirectTcpip r.targetHost r.targetPort.toInt32.toUInt32 then a.bind
      else .error "ssh tunnel target unreachable"

/-! ## Calls of `resolve` -/

/-- Who accepts connections on a local port: a tunnel, with what it was opened for, or another
program. -/
inductive Listener
  | tunnel (r : Request)
  | other
  deriving DecidableEq

structure TunnelEntry where
  localPort : UInt16
  deriving DecidableEq

/-- How far a call is. -/
inductive Phase
  | called
  /-- an entry was found, and its port is tried -/
  | probing (localPort : UInt16)
  | missed
  /-- what the table had is removed, and a tunnel is being opened -/
  | removed
  | spawned (localPort : UInt16)
  /-- the port that was returned, and who listened there at that time -/
  | handed (localPort : UInt16) (behind : Option Listener)
  | failed (message : String)
  | dropped
  deriving DecidableEq

structure Call where
  request : Request
  phase : Phase
  deriving DecidableEq

structure State where
  tunnels : List Char → Option TunnelEntry
  listeners : UInt16 → Option Listener
  calls : List Call

def State.initial : State := ⟨fun _ => none, fun _ => none, []⟩

def State.requests (s : State) : List Request := s.calls.map Call.request

def State.setPhase (s : State) (i : Nat) (r : Request) (phase : Phase) : State :=
  { s with calls := s.calls.set i ⟨r, phase⟩ }

inductive Action
  | call (r : Request)
  | get (i : Nat)
  /-- whether the connection is made within the time limit, if anyone listens -/
  | probe (i : Nat) (inTime : Bool)
  | remove (i : Nat)
  | spawn (i : Nat) (a : SshAnswers)
  | insert (i : Nat)
  /-- the future is dropped at an `await` -/
  | drop (i : Nat)
  | close (localPort : UInt16)
  | listen (localPort : UInt16)

section Step

variable (sha256 : List Char → List UInt8)

/-- The entry of a key cannot be written while a call that tries its port holds it. -/
def State.locked (s : State) (key : List Char) : Bool :=
  s.calls.any fun call =>
    match call.phase with
    | .probing _ => decide (tunnelKey sha256 call.request = key)
    | _ => false

def step (s : State) : Action → Option State
  | .call r => some { s with calls := s.calls ++ [⟨r, .called⟩] }
  | .get i =>
    match s.calls[i]? with
    | some ⟨r, .called⟩ =>
      match s.tunnels (tunnelKey sha256 r) with
      | some entry => some (s.setPhase i r (.probing entry.localPort))
      | none => some (s.setPhase i r .missed)
    | _ => none
  | .probe i inTime =>
    match s.calls[i]? with
    | some ⟨r, .probing localPort⟩ =>
      if inTime && (s.listeners localPort).isSome then
        some (s.setPhase i r (.handed localPort (s.listeners localPort)))
      else some (s.setPhase i r .missed)
    | _ => none
  | .remove i =>
    match s.calls[i]? with
    | some ⟨r, .missed⟩ =>
      if s.locked sha256 (tunnelKey sha256 r) then none
      else some { s.setPhase i r .removed with
        tunnels := Function.update s.tunnels (tunnelKey sha256 r) none }
    | _ => none
  | .spawn i a =>
    match s.calls[i]? with
    | some ⟨r, .removed⟩ =>
      match spawnTunnel a r with
      | .error message => some (s.setPhase i r (.failed message))
      | .ok localPort =>
        -- the system gives out no port in use
        if (s.listeners localPort).isSome then none
        else some { s.setPhase i r (.spawned localPort) with
          listeners := Function.update s.listeners localPort (some (.tunnel r)) }
    | _ => none
  | .insert i =>
    match s.calls[i]? with
    | some ⟨r, .spawned localPort⟩ =>
      if s.locked sha256 (tunnelKey sha256 r) then none
      else some { s.setPhase i r (.handed localPort (s.listeners localPort)) with
        tunnels := Function.update s.tunnels (tunnelKey sha256 r) (some ⟨localPort⟩) }
    | _ => none
  | .drop i =>
    match s.calls[i]? with
    | some ⟨r, .probing _⟩ => some (s.setPhase i r .dropped)
    | some ⟨r, .removed⟩ => some (s.setPhase i r .dropped)
    | _ => none
  | .close localPort => some { s with listeners := Function.update s.listeners localPort none }
  | .listen localPort =>
    if (s.listeners localPort).isSome then none
    else some { s with listeners := Function.update s.listeners localPort (some .other) }

end Step

/-! ## What should hold -/

/-- A call that was handed the port of a tunnel asked for that tunnel: the same target, and
opened with the same configuration and secrets. -/
def HandsOutOwn (s : State) : Prop :=
  ∀ call ∈ s.calls, ∀ localPort r, call.phase = .handed localPort (some (.tunnel r)) →
    r = call.request

/-- The texts of the requests do not collide. -/
def NoCollisions (sha256 : List Char → List UInt8) (requests : List Request) : Prop :=
  ∀ r ∈ requests, ∀ r' ∈ requests, NoCollision sha256 r r'

/-- The port that a call under way goes by. -/
def Phase.port? : Phase → Option UInt16
  | .probing localPort => some localPort
  | .spawned localPort => some localPort
  | _ => none

/-- An entry, or a call under way, still has the port under the key. -/
def State.Names (sha256 : List Char → List UInt8) (s : State) (localPort : UInt16)
    (key : List Char) : Prop :=
  s.tunnels key = some ⟨localPort⟩ ∨
    ∃ call ∈ s.calls, call.phase.port? = some localPort ∧ tunnelKey sha256 call.request = key

/-- A request is made where its fields are cut like those of the requests before it, and a tunnel
is opened on a port that no other key has. -/
def Careful (sha256 : List Char → List UInt8) (s : State) : Action → Prop
  | .call r => ∀ r' ∈ s.requests, SameCuts r' r
  | .spawn i a => ∀ r localPort, s.calls[i]? = some ⟨r, .removed⟩ →
      spawnTunnel a r = .ok localPort →
        ∀ key, s.Names sha256 localPort key → key = tunnelKey sha256 r
  | _ => True

/-! ## What the keys keep -/

section Runs

variable {sha256 : List Char → List UInt8} {s t : State} {i : Nat} {r : Request}

/-- If a tunnel listens, it was asked for under this key. -/
def Serves (sha256 : List Char → List UInt8) (requests : List Request) (key : List Char)
    (listener : Option Listener) : Prop :=
  ∀ r, listener = some (.tunnel r) → r ∈ requests ∧ tunnelKey sha256 r = key

/-- The port a call goes by serves its key, and so did the one it was handed. -/
structure CallKept (sha256 : List Char → List UInt8) (s : State) (call : Call) : Prop where
  port : ∀ localPort, call.phase.port? = some localPort →
    Serves sha256 s.requests (tunnelKey sha256 call.request) (s.listeners localPort)
  handed : ∀ localPort behind, call.phase = .handed localPort behind →
    Serves sha256 s.requests (tunnelKey sha256 call.request) behind

structure Kept (sha256 : List Char → List UInt8) (s : State) : Prop where
  entries : ∀ key entry, s.tunnels key = some entry →
    Serves sha256 s.requests key (s.listeners entry.localPort)
  calls : ∀ call ∈ s.calls, CallKept sha256 s call
  cuts : ∀ r ∈ s.requests, ∀ r' ∈ s.requests, SameCuts r r'

theorem requests_setPhase {old phase : Phase} (hcall : s.calls[i]? = some ⟨r, old⟩) :
    (s.setPhase i r phase).requests = s.requests := by
  have hrequest : s.requests[i]? = some r := by
    rw [State.requests, List.getElem?_map, hcall]
    rfl
  rw [State.requests, State.setPhase, List.map_set]
  apply List.ext_getElem?
  intro j
  rw [List.getElem?_set]
  split_ifs with hij hlt
  · rw [← hij]
    exact hrequest.symm
  · exact absurd (List.getElem?_eq_some_iff.mp hrequest).1 hlt
  · rfl

theorem mem_requests {old : Phase} (hcall : s.calls[i]? = some ⟨r, old⟩) : r ∈ s.requests :=
  List.mem_map.mpr ⟨_, List.mem_of_getElem? hcall, rfl⟩

/-- What is known of calls and entries stays known when the requests and the listeners of the
ports they go by stay. -/
theorem CallKept.congr {call : Call} (h : CallKept sha256 s call) (hrequests : t.requests = s.requests)
    (hlisteners : ∀ localPort, call.phase.port? = some localPort →
      t.listeners localPort = s.listeners localPort) : CallKept sha256 t call where
  port localPort hport := by
    rw [hrequests, hlisteners localPort hport]
    exact h.port localPort hport
  handed localPort behind hphase := by
    rw [hrequests]
    exact h.handed localPort behind hphase

theorem Kept.setPhase (h : Kept sha256 s) {old phase : Phase}
    (hcall : s.calls[i]? = some ⟨r, old⟩) (hphase : CallKept sha256 s ⟨r, phase⟩) :
    Kept sha256 (s.setPhase i r phase) where
  entries key entry hentry := by
    rw [requests_setPhase hcall]
    exact h.entries key entry hentry
  calls call hmem := by
    have hkept : CallKept sha256 s call := by
      rcases List.mem_or_eq_of_mem_set hmem with hold | hnew
      · exact h.calls call hold
      · rw [hnew]
        exact hphase
    exact hkept.congr (requests_setPhase hcall) fun _ _ => rfl
  cuts := by
    rw [requests_setPhase hcall]
    exact h.cuts

theorem callKept_of_none {phase : Phase} (hport : phase.port? = none)
    (hhanded : ∀ localPort behind, phase ≠ .handed localPort behind) :
    CallKept sha256 s ⟨r, phase⟩ where
  port localPort h := by
    rw [hport] at h
    cases h
  handed localPort behind h := absurd h (hhanded localPort behind)

theorem Kept.setEntry (h : Kept sha256 s) (key : List Char) {newEntry : Option TunnelEntry}
    (hserves : ∀ entry, newEntry = some entry →
      Serves sha256 s.requests key (s.listeners entry.localPort)) :
    Kept sha256 { s with tunnels := Function.update s.tunnels key newEntry } where
  entries key' entry hentry := by
    change Function.update s.tunnels key newEntry key' = some entry at hentry
    by_cases hkey : key' = key
    · rw [hkey, Function.update_self] at hentry
      rw [hkey]
      exact hserves entry hentry
    · rw [Function.update_of_ne hkey] at hentry
      exact h.entries key' entry hentry
  calls call hmem := (h.calls call hmem).congr rfl fun _ _ => rfl
  cuts := h.cuts

theorem Kept.setListener (h : Kept sha256 s) {localPort : UInt16} {listener : Option Listener}
    (hserves : ∀ key, s.Names sha256 localPort key →
      Serves sha256 s.requests key listener) :
    Kept sha256 { s with listeners := Function.update s.listeners localPort listener } where
  entries key entry hentry := by
    show Serves sha256 s.requests key (Function.update s.listeners localPort listener _)
    by_cases hport : entry.localPort = localPort
    · rw [hport, Function.update_self]
      apply hserves
      left
      rw [hentry, ← hport]
    · rw [Function.update_of_ne hport]
      exact h.entries key entry hentry
  calls call hmem := by
    refine ⟨fun port hphase => ?_, (h.calls call hmem).handed⟩
    show Serves sha256 s.requests _ (Function.update s.listeners localPort listener port)
    by_cases hport : port = localPort
    · rw [hport, Function.update_self]
      apply hserves
      right
      exact ⟨call, hmem, by rw [hphase, hport], rfl⟩
    · rw [Function.update_of_ne hport]
      exact (h.calls call hmem).port port hphase
  cuts := h.cuts

theorem kept_initial : Kept sha256 State.initial where
  entries key entry hentry := by cases hentry
  calls call hmem := absurd hmem List.not_mem_nil
  cuts r hmem := absurd hmem List.not_mem_nil

theorem Kept.call (h : Kept sha256 s) (hcuts : ∀ r' ∈ s.requests, SameCuts r' r) :
    Kept sha256 { s with calls := s.calls ++ [⟨r, .called⟩] } := by
  have hrequests : State.requests { s with calls := s.calls ++ [⟨r, .called⟩] } =
      s.requests ++ [r] := List.map_append
  have hmore : ∀ {key listener}, Serves sha256 s.requests key listener →
      Serves sha256 (s.requests ++ [r]) key listener := by
    intro key listener hserves r' hr'
    obtain ⟨hmem, hkey⟩ := hserves r' hr'
    exact ⟨List.mem_append_left [r] hmem, hkey⟩
  constructor
  · intro key entry hentry
    rw [hrequests]
    exact hmore (h.entries key entry hentry)
  · intro call hmem
    rcases List.mem_append.mp hmem with hold | hnew
    · constructor
      · intro localPort hport
        rw [hrequests]
        exact hmore ((h.calls call hold).port localPort hport)
      · intro localPort behind hphase
        rw [hrequests]
        exact hmore ((h.calls call hold).handed localPort behind hphase)
    · rw [List.mem_singleton.mp hnew]
      exact callKept_of_none rfl nofun
  · rw [hrequests]
    intro r₁ h₁ r₂ h₂
    rcases List.mem_append.mp h₁ with hold₁ | hnew₁
    · rcases List.mem_append.mp h₂ with hold₂ | hnew₂
      · exact h.cuts r₁ hold₁ r₂ hold₂
      · rw [List.mem_singleton.mp hnew₂]
        exact hcuts r₁ hold₁
    · rw [List.mem_singleton.mp hnew₁]
      rcases List.mem_append.mp h₂ with hold₂ | hnew₂
      · exact (hcuts r₂ hold₂).symm
      · rw [List.mem_singleton.mp hnew₂]
        exact fun _ => rfl

theorem Kept.get (h : Kept sha256 s) (hstep : step sha256 s (.get i) = some t) :
    Kept sha256 t := by
  simp only [step] at hstep
  split at hstep
  case h_1 r hcall =>
    split at hstep
    case h_1 entry hentry =>
      rw [← Option.some.inj hstep]
      refine h.setPhase hcall ⟨fun localPort hport => ?_, nofun⟩
      rw [← Option.some.inj hport]
      exact h.entries _ entry hentry
    case h_2 =>
      rw [← Option.some.inj hstep]
      exact h.setPhase hcall (callKept_of_none rfl nofun)
  case h_2 => cases hstep

theorem Kept.probe (h : Kept sha256 s) {inTime : Bool}
    (hstep : step sha256 s (.probe i inTime) = some t) : Kept sha256 t := by
  simp only [step] at hstep
  split at hstep
  case h_1 r localPort hcall =>
    have hkept := h.calls _ (List.mem_of_getElem? hcall)
    split_ifs at hstep
    · rw [← Option.some.inj hstep]
      refine h.setPhase hcall ⟨nofun, fun port behind hphase => ?_⟩
      obtain ⟨-, hbehind⟩ := Phase.handed.inj hphase
      rw [← hbehind]
      exact hkept.port localPort rfl
    · rw [← Option.some.inj hstep]
      exact h.setPhase hcall (callKept_of_none rfl nofun)
  case h_2 => cases hstep

theorem Kept.remove (h : Kept sha256 s) (hstep : step sha256 s (.remove i) = some t) :
    Kept sha256 t := by
  simp only [step] at hstep
  split at hstep
  case h_1 r hcall =>
    split_ifs at hstep
    rw [← Option.some.inj hstep]
    have hphase : Kept sha256 (s.setPhase i r .removed) :=
      h.setPhase hcall (callKept_of_none rfl nofun)
    exact hphase.setEntry _ nofun
  case h_2 => cases hstep

theorem Kept.spawn (h : Kept sha256 s) {a : SshAnswers}
    (hcareful : Careful sha256 s (.spawn i a)) (hstep : step sha256 s (.spawn i a) = some t) :
    Kept sha256 t := by
  simp only [step] at hstep
  split at hstep
  case h_1 r hcall =>
    split at hstep
    case h_1 message _ =>
      rw [← Option.some.inj hstep]
      exact h.setPhase hcall (callKept_of_none rfl nofun)
    case h_2 localPort hspawn =>
      split_ifs at hstep
      rw [← Option.some.inj hstep]
      have hserves : Serves sha256 s.requests (tunnelKey sha256 r) (some (.tunnel r)) := by
        intro r' hr'
        rw [← Listener.tunnel.inj (Option.some.inj hr')]
        exact ⟨mem_requests hcall, rfl⟩
      have hlisten : Kept sha256
          { s with listeners := Function.update s.listeners localPort (some (.tunnel r)) } := by
        apply h.setListener
        intro key hnames
        rw [hcareful r localPort hcall hspawn key hnames]
        exact hserves
      refine hlisten.setPhase hcall ⟨fun port hport => ?_, nofun⟩
      show Serves sha256 s.requests _ (Function.update s.listeners localPort _ port)
      rw [← Option.some.inj hport, Function.update_self]
      exact hserves
  case h_2 => cases hstep

theorem Kept.insert (h : Kept sha256 s) (hstep : step sha256 s (.insert i) = some t) :
    Kept sha256 t := by
  simp only [step] at hstep
  split at hstep
  case h_1 r localPort hcall =>
    have hserves := (h.calls _ (List.mem_of_getElem? hcall)).port localPort rfl
    split_ifs at hstep
    rw [← Option.some.inj hstep]
    have hphase : Kept sha256 (s.setPhase i r (.handed localPort (s.listeners localPort))) := by
      refine h.setPhase hcall ⟨nofun, fun port behind hphase => ?_⟩
      obtain ⟨-, hbehind⟩ := Phase.handed.inj hphase
      rw [← hbehind]
      exact hserves
    apply hphase.setEntry
    intro entry hentry
    rw [← Option.some.inj hentry, requests_setPhase hcall]
    exact hserves
  case h_2 => cases hstep

theorem Kept.drop (h : Kept sha256 s) (hstep : step sha256 s (.drop i) = some t) :
    Kept sha256 t := by
  simp only [step] at hstep
  split at hstep
  case h_3 => cases hstep
  all_goals
    rename_i hcall
    rw [← Option.some.inj hstep]
    exact h.setPhase hcall (callKept_of_none rfl nofun)

theorem Kept.step {act : Action} (h : Kept sha256 s) (hcareful : Careful sha256 s act)
    (hstep : step sha256 s act = some t) : Kept sha256 t := by
  cases act with
  | call r =>
      rw [← Option.some.inj hstep]
      exact h.call hcareful
  | get i => exact h.get hstep
  | probe i inTime => exact h.probe hstep
  | remove i => exact h.remove hstep
  | spawn i a => exact h.spawn hcareful hstep
  | insert i => exact h.insert hstep
  | drop i => exact h.drop hstep
  | close localPort =>
      rw [← Option.some.inj hstep]
      exact h.setListener fun _ _ => nofun
  | listen localPort =>
      simp only [Ssh.step] at hstep
      split_ifs at hstep
      rw [← Option.some.inj hstep]
      exact h.setListener fun _ _ => nofun

/-- In a careful run the listeners behind what was handed out are those asked for. -/
theorem handsOutOwn_of_careful {acts : List Action}
    (hrun : Run (step sha256) (Careful sha256) .initial acts s)
    (hno : NoCollisions sha256 s.requests) : HandsOutOwn s := by
  have hkept : Kept sha256 s :=
    Run.invariant (fun _ _ _ hcareful hstep h => h.step hcareful hstep) hrun kept_initial
  intro call hmem localPort r hphase
  have hrequest : call.request ∈ s.requests := List.mem_map_of_mem hmem
  obtain ⟨hr, hkey⟩ := (hkept.calls call hmem).handed localPort _ hphase r rfl
  exact (tunnelKey_tells_iff (hno r hr _ hrequest)).mpr (hkept.cuts r hr _ hrequest) hkey

end Runs

/-- Two requests are told apart just where their fields are cut the same, and one of them from
all others just where it is plain.  Where the requests of a run are told apart and no tunnel is
opened on a port that another key has, no call is handed a tunnel of another request. -/
theorem told_apart_iff (sha256 : List Char → List UInt8) :
    (∀ r r', NoCollision sha256 r r' →
      ((tunnelKey sha256 r = tunnelKey sha256 r' → r = r') ↔ SameCuts r r')) ∧
    (∀ r, (∀ r', NoCollision sha256 r r') →
      ((∀ r', tunnelKey sha256 r = tunnelKey sha256 r' → r = r') ↔ Plain r)) ∧
    ∀ acts s, Run (step sha256) (Careful sha256) .initial acts s →
      NoCollisions sha256 s.requests → HandsOutOwn s := by
  refine ⟨fun r r' => tunnelKey_tells_iff, fun r hno => ?_, fun acts s => handsOutOwn_of_careful⟩
  rw [← unique_iff_plain]
  constructor
  · intro h r' hcanonical
    exact (h r' ((tunnelKey_eq_iff (hno r')).mpr hcanonical.symm)).symm
  · intro h r' hkey
    exact (h r' ((tunnelKey_eq_iff (hno r')).mp hkey).symm).symm

/-! ## Reuse, a separator in a user, and a port taken again -/

def SshTunnelParams.toTarget (params : SshTunnelParams) (targetHost : String) : Request :=
  ⟨targetHost.toList, 3306, params.config, params.secrets⟩

def wire (username password : String) : SshWire where
  host := "jump.example.com".toList
  port := 22
  username := username.toList
  authMode := "password".toList
  password := some password.toList
  privateKey := none
  passphrase := none

def params (username password : String) : SshTunnelParams where
  config := ⟨"jump.example.com".toList, 22, username.toList, "password".toList⟩
  secrets := ⟨password.toList, [], []⟩

def toDb : Request := (params "deploy" "pw").toTarget "db.local"

def toDb2 : Request := (params "deploy" "pw").toTarget "db2.local"

def barInPassword : Request := (params "deploy" "password|s3cret").toTarget "db.local"

def barInUser : Request := (params "deploy|password" "s3cret").toTarget "db.local"

/-- The digests of the texts of these requests. -/
def sampleSha256 (text : List Char) : List UInt8 :=
  if text = toDb.canonical then
    (Hex.decode
      "80cc87370f9b0431653479a72ca8e98ad62547e806a1cccab48001ec24d28cf5".toList).getD []
  else if text = toDb2.canonical then
    (Hex.decode
      "cadd392fea1fb87904183c60159425aaf4221cf3cfbb4cbc7fa66009471defa7".toList).getD []
  else if text = barInPassword.canonical then
    (Hex.decode
      "cf403e5c2f5622dd087d90c46517128b15cfe60d73790a24659750088590574c".toList).getD []
  else []

/-- A server that lets everyone in. -/
def accepting (localPort : UInt16) : SshAnswers where
  connect _ _ := .ok ()
  authenticatePassword _ _ := .ok true
  decodeSecretKey _ _ := none
  authenticatePublickey _ _ := .ok true
  channelOpenDirectTcpip _ _ := true
  bind := .ok localPort

/-- A call that opens a tunnel. -/
def opens (i : Nat) (r : Request) (localPort : UInt16) : List Action :=
  [.call r, .get i, .remove i, .spawn i (accepting localPort), .insert i]

/-- A call that finds an entry. -/
def finds (i : Nat) (r : Request) : List Action := [.call r, .get i, .probe i true]

theorem plain_toDb : Plain toDb where
  host := by
    have hhost : (toDb.config.host.splitOn '|').tail = [] := by decide +kernel
    rw [hhost]
    exact fun _ hnil => absurd hnil List.not_mem_nil
  username := by decide
  authMode := by decide
  password := by decide
  privateKey := by decide
  passphrase := by decide
  targetHost := by decide

theorem reuse : ∃ s, Run (step sampleSha256) (Careful sampleSha256) .initial
    (opens 0 toDb 40001 ++ finds 1 toDb) s ∧ s.calls =
      [⟨toDb, .handed 40001 (some (.tunnel toDb))⟩, ⟨toDb, .handed 40001 (some (.tunnel toDb))⟩] := by
  refine ⟨_, .cons ?_ rfl (.cons trivial rfl (.cons trivial rfl (.cons ?_ rfl (.cons trivial rfl
    (.cons ?_ rfl (.cons trivial rfl (.cons trivial rfl (.nil _)))))))), ?_⟩
  · exact fun r' hr' => absurd hr' List.not_mem_nil
  · intro r localPort _ _ key hnames
    rcases hnames with hentry | ⟨call, hmem, hport, _⟩
    · change Function.update (fun _ => none) _ none key = some _ at hentry
      rw [Function.update_apply] at hentry
      split_ifs at hentry
    · rw [List.mem_singleton.mp hmem] at hport
      cases hport
  · intro r' hr'
    rw [List.mem_singleton.mp hr']
    exact plain_toDb.sameCuts _
  · rfl

instance (sha256 : List Char → List UInt8) (r r' : Request) :
    Decidable (NoCollision sha256 r r') := inferInstanceAs (Decidable (_ → _))

instance (sha256 : List Char → List UInt8) (requests : List Request) :
    Decidable (NoCollisions sha256 requests) :=
  inferInstanceAs (Decidable (∀ r ∈ requests, ∀ r' ∈ requests, NoCollision sha256 r r'))

/-- Two targets have different keys, and a second call for one of them gets the tunnel of the
first. -/
theorem told_apart_iff_reuse :
    tunnelKey sampleSha256 toDb ≠ tunnelKey sampleSha256 toDb2 ∧
      ∃ s, Run (step sampleSha256) (Careful sampleSha256) .initial
          (opens 0 toDb 40001 ++ finds 1 toDb) s ∧
        s.calls.map Call.phase = [.handed 40001 (some (.tunnel toDb)),
          .handed 40001 (some (.tunnel toDb))] ∧ HandsOutOwn s := by
  constructor
  · intro hkey
    have hsame := ((told_apart_iff sampleSha256).1 toDb toDb2 (by decide +kernel)).mpr
      (plain_toDb.sameCuts toDb2) hkey
    exact absurd hsame (by decide +kernel)
  · obtain ⟨s, hrun, hcalls⟩ := reuse
    refine ⟨s, hrun, by rw [hcalls]; rfl, ?_⟩
    apply (told_apart_iff sampleSha256).2.2 _ s hrun
    rw [State.requests, hcalls]
    decide +kernel

theorem exists_run_not_own {sha256 : List Char → List UInt8} {acts : List Action} {calls : List Call}
    {r r' : Request} {localPort : UInt16}
    (h : (exec (step sha256) .initial acts).map State.calls = some calls)
    (hno : NoCollisions sha256 (calls.map Call.request))
    (hcall : ⟨r, .handed localPort (some (.tunnel r'))⟩ ∈ calls) (hne : r' ≠ r) :
    ∃ s, Run (step sha256) anyStep .initial acts s ∧ NoCollisions sha256 s.requests ∧
      ¬ HandsOutOwn s := by
  obtain ⟨s, hexec, rfl⟩ := Option.map_eq_some_iff.mp h
  exact ⟨s, run_of_exec hexec, hno, fun hown => hne (hown _ hcall localPort r' rfl)⟩

/-- Two users with passwords that give one text: the second is handed the tunnel of the first.
And a tunnel on the port of one that was closed is handed out for that one. -/
theorem separator_in_user :
    (wire "deploy" "password|s3cret").validate = .ok (params "deploy" "password|s3cret") ∧
      (wire "deploy|password" "s3cret").validate = .ok (params "deploy|password" "s3cret") ∧
      (∀ sha256, tunnelKey sha256 barInPassword = tunnelKey sha256 barInUser) ∧
      (∃ s, Run (step sampleSha256) anyStep .initial
          (opens 0 barInPassword 40001 ++ finds 1 barInUser) s ∧
        NoCollisions sampleSha256 s.requests ∧ ¬ HandsOutOwn s) ∧
      ∃ s, Run (step sampleSha256) anyStep .initial
          (opens 0 toDb 40001 ++ .close 40001 :: opens 1 toDb2 40001 ++ finds 2 toDb) s ∧
        NoCollisions sampleSha256 s.requests ∧ ¬ HandsOutOwn s := by
  refine ⟨by rfl, by rfl, fun sha256 => ?_, ?_, ?_⟩
  · have hcanonical : barInPassword.canonical = barInUser.canonical := by decide +kernel
    rw [tunnelKey, tunnelKey, hcanonical]
  · have hcalls : (exec (step sampleSha256) .initial
          (opens 0 barInPassword 40001 ++ finds 1 barInUser)).map State.calls =
        some [⟨barInPassword, .handed 40001 (some (.tunnel barInPassword))⟩,
          ⟨barInUser, .handed 40001 (some (.tunnel barInPassword))⟩] := by decide +kernel
    exact exists_run_not_own hcalls (by decide +kernel) (List.mem_cons_of_mem _ List.mem_cons_self)
      (by decide +kernel)
  · have hcalls : (exec (step sampleSha256) .initial
          (opens 0 toDb 40001 ++ .close 40001 :: opens 1 toDb2 40001 ++ finds 2 toDb)).map
            State.calls =
        some [⟨toDb, .handed 40001 (some (.tunnel toDb))⟩,
          ⟨toDb2, .handed 40001 (some (.tunnel toDb2))⟩,
          ⟨toDb, .handed 40001 (some (.tunnel toDb2))⟩] := by decide +kernel
    exact exists_run_not_own hcalls (by decide +kernel)
      (List.mem_cons_of_mem _ (List.mem_cons_of_mem _ List.mem_cons_self)) (by decide +kernel)

end Dbmaster.Ssh
