import Dbmaster.Gateway.Classify
import Dbmaster.Gateway.Stream
/-!
# The ACL categories of a connection over time

`classify` keeps the answer to `ACL CAT`, or that there was none, per connection for as long
as the process runs.  The calls that ask are not ordered: each of them reads the cache, waits
for the server and then stores what it has got.
-/

namespace Dbmaster.Gateway.AclHistory

open Dbmaster.Lib.Transition Dbmaster.Gateway.Classify Dbmaster.Gateway.Classify.Redis
open Dbmaster.Gateway.Stream (StreamQueryError)

/-! ## Guarding a request -/

def readOnlyRejected : StreamQueryError :=
  ⟨"DB_ERROR", "connection is read-only: write command rejected", some "READONLY"⟩

/-- How far `redis_guard_read_only` is with the names of a request. -/
inductive Phase
  | checking (todo : List String)
  | fetching (name : String) (todo : List String)
  | done (outcome : Except StreamQueryError Unit)
  -- the caller gives up waiting
  | dropped

structure Guard where
  conn : String
  names : List String
  phase : Phase

/-- What a call of `classify` has answered. -/
structure Verdict where
  conn : String
  name : String
  verdict : RedisCommandClass
  deriving DecidableEq

/-- `failed` lists the connections on which a lookup has failed; the code does not keep it. -/
structure World where
  cache : String → AclCache
  calls : List Guard
  log : List Verdict
  failed : List String

def World.initial : World := ⟨fun _ => none, [], [], []⟩

/-- What `classify` answers before it asks the server. -/
def classifyCached (cache : AclCache) (name : String) : Option RedisCommandClass :=
  if classifyStatic name = .write then some .write
  else cache.map fun classes => classifyAcl classes name

def upperClasses (server : AclClasses) : AclClasses where
  write := server.write.map upperName
  dangerous := server.dangerous.map upperName

def fetchAclClasses (server : AclClasses) (writeOk dangerousOk : Bool) : Option AclClasses :=
  if writeOk && dangerousOk then some (upperClasses server) else none

inductive Action
  | guardReadOnly (conn : String) (names : List String)
  | classify (i : Nat)
  | reply (i : Nat) (writeOk dangerousOk : Bool)
  | abandon (i : Nat)

def World.setCall (w : World) (i : Nat) (call : Guard) : World :=
  { w with calls := w.calls.set i call }

/-- A verdict, and what the guard makes of it. -/
def World.answer (w : World) (i : Nat) (conn : String) (names : List String) (name : String)
    (todo : List String) (verdict : RedisCommandClass) : World :=
  { w with
    log := w.log ++ [⟨conn, name, verdict⟩]
    calls := w.calls.set i ⟨conn, names,
      if verdict ≠ .read then .done (.error readOnlyRejected) else .checking todo⟩ }

def World.store (w : World) (conn : String) (fetched : Option AclClasses) : World :=
  { w with
    cache := Function.update w.cache conn (some fetched)
    failed := if fetched.isSome then w.failed else w.failed ++ [conn] }

/-- `server` is what `ACL CAT` answers on each connection when it answers. -/
def step (server : String → AclClasses) (w : World) : Action → Option World
  | .guardReadOnly conn names =>
    some { w with calls := w.calls ++ [⟨conn, names, .checking names⟩] }
  | .classify i =>
    match w.calls[i]? with
    | some ⟨conn, names, .checking []⟩ => some (w.setCall i ⟨conn, names, .done (.ok ())⟩)
    | some ⟨conn, names, .checking (name :: todo)⟩ =>
      match classifyCached (w.cache conn) name with
      | some verdict => some (w.answer i conn names name todo verdict)
      | none => some (w.setCall i ⟨conn, names, .fetching name todo⟩)
    | _ => none
  | .reply i writeOk dangerousOk =>
    match w.calls[i]? with
    | some ⟨conn, names, .fetching name todo⟩ =>
      let fetched := fetchAclClasses (server conn) writeOk dangerousOk
      some ((w.answer i conn names name todo (classifyAcl fetched name)).store conn fetched)
    | _ => none
  | .abandon i =>
    match w.calls[i]? with
    | some ⟨conn, names, .fetching _ _⟩ => some (w.setCall i ⟨conn, names, .dropped⟩)
    | _ => none

/-! ## What holds -/

/-- The server has the command in its `write` or its `dangerous` category. -/
def marks (server : AclClasses) (name : String) : Prop :=
  upperName name ∈ server.write.map upperName ∨ upperName name ∈ server.dangerous.map upperName

/-- A command called a read is in no static table, and the server marks it only where a
lookup has failed. -/
def Justified (server : String → AclClasses) (failed : List String) (v : Verdict) : Prop :=
  v.verdict = .read →
    classifyStatic v.name = .read ∧ (marks (server v.conn) v.name → v.conn ∈ failed)

def PassedAll (log : List Verdict) (conn : String) (names : List String) : Prop :=
  ∀ name ∈ names, ⟨conn, name, .read⟩ ∈ log

/-- The names that a guard is through with were all called reads. -/
def Guard.Sound (log : List Verdict) (call : Guard) : Prop :=
  match call.phase with
  | .checking todo => ∃ passed, call.names = passed ++ todo ∧ PassedAll log call.conn passed
  | .fetching name todo => classifyStatic name = .read ∧
      ∃ passed, call.names = passed ++ name :: todo ∧ PassedAll log call.conn passed
  | .done (.ok ()) => PassedAll log call.conn call.names
  | _ => True

structure Inv (server : String → AclClasses) (w : World) : Prop where
  cached : ∀ conn classes, w.cache conn = some (some classes) →
    classes = upperClasses (server conn)
  missing : ∀ conn, w.cache conn = some none → conn ∈ w.failed
  justified : ∀ v ∈ w.log, Justified server w.failed v
  sound : ∀ (i : Nat) (call : Guard), w.calls[i]? = some call → call.Sound w.log

/-- The categories of the connection are known, and nobody is asking for them. -/
structure Settled (server : String → AclClasses) (w : World) (conn : String) : Prop where
  known : w.cache conn = some (some (upperClasses (server conn)))
  quiet : ∀ (i : Nat) (call : Guard), w.calls[i]? = some call → call.conn = conn →
    ∀ name todo, call.phase ≠ .fetching name todo

variable {server : String → AclClasses} {w w' : World} {conn : String}

/-! ## One call -/

theorem classifyAcl_read {classes : AclClasses} {name : String} :
    classifyAcl (some (upperClasses classes)) name = .read ↔ ¬ marks classes name := by
  unfold classifyAcl marks upperClasses
  simp only []
  split_ifs with h
  · exact iff_of_false nofun (not_not_intro h)
  · exact iff_of_true rfl h

theorem classifyStatic_eq_read {name : String} :
    classifyStatic name = .read ↔ classifyStatic name ≠ .write := by
  cases classifyStatic name with
  | write => exact iff_of_false nofun fun h => h rfl
  | read => exact iff_of_true rfl nofun

theorem classifyCached_eq_read {cache : AclCache} {name : String}
    (h : classifyCached cache name = some .read) :
    classifyStatic name = .read ∧
      ∃ classes, cache = some classes ∧ classifyAcl classes name = .read := by
  unfold classifyCached at h
  split at h
  case isTrue => cases h
  case isFalse hstatic =>
      exact ⟨classifyStatic_eq_read.mpr hstatic, Option.map_eq_some_iff.mp h⟩

theorem classifyCached_eq_none {cache : AclCache} {name : String}
    (h : classifyCached cache name = none) : classifyStatic name = .read ∧ cache = none := by
  unfold classifyCached at h
  split at h
  case isTrue => cases h
  case isFalse hstatic =>
      exact ⟨classifyStatic_eq_read.mpr hstatic, Option.map_eq_none_iff.mp h⟩

theorem fetchAclClasses_cases (classes : AclClasses) (writeOk dangerousOk : Bool) :
    fetchAclClasses classes writeOk dangerousOk = none ∨
      fetchAclClasses classes writeOk dangerousOk = some (upperClasses classes) := by
  unfold fetchAclClasses
  split
  · exact Or.inr rfl
  · exact Or.inl rfl

theorem PassedAll.mono {log later : List Verdict} {names : List String}
    (h : PassedAll log conn names) : PassedAll (log ++ later) conn names :=
  fun name hname => List.mem_append_left _ (h name hname)

theorem PassedAll.snoc {log : List Verdict} {names : List String} (h : PassedAll log conn names)
    (name : String) : PassedAll (log ++ [⟨conn, name, .read⟩]) conn (names ++ [name]) := by
  intro other hother
  rcases List.mem_append.mp hother with hmem | hmem
  · exact List.mem_append_left _ (h other hmem)
  · obtain rfl := List.mem_singleton.mp hmem
    exact List.mem_append_right _ (List.mem_singleton_self _)

theorem Guard.Sound.mono {log later : List Verdict} {call : Guard} (h : call.Sound log) :
    call.Sound (log ++ later) := by
  obtain ⟨conn, names, phase⟩ := call
  cases phase with
  | checking todo =>
      obtain ⟨passed, hnames, hpassed⟩ := h
      exact ⟨passed, hnames, hpassed.mono⟩
  | fetching name todo =>
      obtain ⟨hstatic, passed, hnames, hpassed⟩ := h
      exact ⟨hstatic, passed, hnames, hpassed.mono⟩
  | done outcome =>
      cases outcome with
      | ok _ => exact PassedAll.mono h
      | error _ => trivial
  | dropped => trivial

/-! ## The steps keep the invariant -/

theorem Justified.mono {failed later : List String} {v : Verdict}
    (h : Justified server failed v) : Justified server (failed ++ later) v := fun hread =>
  ⟨(h hread).1, fun hmarks => List.mem_append_left _ ((h hread).2 hmarks)⟩

theorem Inv.initial : Inv server .initial where
  cached := nofun
  missing := nofun
  justified := nofun
  sound := nofun

theorem Inv.setCall (hinv : Inv server w) (i : Nat) {call : Guard} (hcall : call.Sound w.log) :
    Inv server (w.setCall i call) where
  cached := hinv.cached
  missing := hinv.missing
  justified := hinv.justified
  sound := by
    intro k other hother
    rcases of_getElem?_set hother with ⟨-, rfl⟩ | ⟨-, hkept⟩
    · exact hcall
    · exact hinv.sound k other hkept

theorem Inv.answer (hinv : Inv server w) (i : Nat) {names passed todo : List String}
    {name : String} {verdict : RedisCommandClass} (hnames : names = passed ++ name :: todo)
    (hpassed : PassedAll w.log conn passed)
    (hjustified : Justified server w.failed ⟨conn, name, verdict⟩) :
    Inv server (w.answer i conn names name todo verdict) where
  cached := hinv.cached
  missing := hinv.missing
  justified := by
    intro v hv
    rcases List.mem_append.mp hv with hmem | hmem
    · exact hinv.justified v hmem
    · obtain rfl := List.mem_singleton.mp hmem
      exact hjustified
  sound := by
    intro k other hother
    rcases of_getElem?_set hother with ⟨-, rfl⟩ | ⟨-, hkept⟩
    · cases verdict with
      | write => trivial
      | read =>
          refine ⟨passed ++ [name], ?_, hpassed.snoc name⟩
          rw [hnames, List.append_assoc, List.singleton_append]
    · exact (hinv.sound k other hkept).mono

theorem Inv.store (hinv : Inv server w) {fetched : Option AclClasses}
    (hfetched : fetched = none ∨ fetched = some (upperClasses (server conn))) :
    Inv server (w.store conn fetched) := by
  have hfailed : ∃ later, (w.store conn fetched).failed = w.failed ++ later := by
    cases fetched with
    | none => exact ⟨[conn], rfl⟩
    | some _ => exact ⟨[], (List.append_nil _).symm⟩
  obtain ⟨later, hlater⟩ := hfailed
  constructor
  · intro other classes hcache
    change Function.update w.cache conn _ other = _ at hcache
    by_cases hother : other = conn
    · subst hother
      rw [Function.update_self] at hcache
      rcases hfetched with rfl | rfl
      · cases hcache
      · cases hcache
        rfl
    · rw [Function.update_of_ne hother] at hcache
      exact hinv.cached other classes hcache
  · intro other hcache
    change Function.update w.cache conn _ other = _ at hcache
    by_cases hother : other = conn
    · subst hother
      rw [Function.update_self] at hcache
      obtain rfl := Option.some.inj hcache
      exact List.mem_append_right _ (List.mem_singleton_self _)
    · rw [Function.update_of_ne hother] at hcache
      rw [hlater]
      exact List.mem_append_left _ (hinv.missing other hcache)
  · intro v hv
    rw [hlater]
    exact (hinv.justified v hv).mono
  · exact hinv.sound

theorem Inv.justified_cached (hinv : Inv server w) {name : String} {verdict : RedisCommandClass}
    (h : classifyCached (w.cache conn) name = some verdict) :
    Justified server w.failed ⟨conn, name, verdict⟩ := by
  rintro rfl
  obtain ⟨hstatic, classes, hcache, hread⟩ := classifyCached_eq_read h
  refine ⟨hstatic, fun hmarks => ?_⟩
  cases classes with
  | none => exact hinv.missing conn hcache
  | some classes =>
      rw [hinv.cached conn classes hcache, classifyAcl_read] at hread
      exact absurd hmarks hread

theorem justified_fetched {name : String} (hstatic : classifyStatic name = .read)
    {fetched : Option AclClasses}
    (hfetched : fetched = none ∨ fetched = some (upperClasses (server conn))) :
    Justified server (w.store conn fetched).failed ⟨conn, name, classifyAcl fetched name⟩ := by
  refine fun hread => ⟨hstatic, fun hmarks => ?_⟩
  rcases hfetched with rfl | rfl
  · exact List.mem_append_right _ (List.mem_singleton_self _)
  · exact absurd hmarks (classifyAcl_read.mp hread)

theorem Inv.step {a : Action} (h : step server w a = some w') (hinv : Inv server w) :
    Inv server w' := by
  cases a with
  | guardReadOnly conn names =>
      cases h
      refine ⟨hinv.cached, hinv.missing, hinv.justified, fun k other hother => ?_⟩
      rcases of_getElem?_concat hother with ⟨-, rfl⟩ | hkept
      · exact ⟨[], rfl, nofun⟩
      · exact hinv.sound k other hkept
  | classify i =>
      simp only [AclHistory.step] at h
      split at h
      case h_1 conn names hat =>
        cases h
        obtain ⟨passed, hnames, hpassed⟩ := hinv.sound i _ hat
        apply hinv.setCall
        change PassedAll w.log conn names
        rw [show names = passed from hnames.trans (List.append_nil passed)]
        exact hpassed
      case h_2 conn names name todo hat =>
        obtain ⟨passed, hnames, hpassed⟩ := hinv.sound i _ hat
        split at h
        case h_1 verdict hcached =>
          cases h
          exact hinv.answer i hnames hpassed (hinv.justified_cached hcached)
        case h_2 hcached =>
          cases h
          apply hinv.setCall
          exact ⟨(classifyCached_eq_none hcached).1, passed, hnames, hpassed⟩
      case h_3 => cases h
  | reply i writeOk dangerousOk =>
      simp only [AclHistory.step] at h
      split at h
      case h_1 conn names name todo hat =>
        cases h
        obtain ⟨hstatic, passed, hnames, hpassed⟩ := hinv.sound i _ hat
        have hfetched := fetchAclClasses_cases (server conn) writeOk dangerousOk
        exact (hinv.store hfetched).answer i hnames hpassed (justified_fetched hstatic hfetched)
      case h_2 => cases h
  | abandon i =>
      simp only [AclHistory.step] at h
      split at h
      · cases h
        exact hinv.setCall i trivial
      · cases h

/-! ## Once the categories are known -/

/-- What was answered on the connection since, the server's categories allow. -/
def AllowedSince (server : String → AclClasses) (conn : String) (log : List Verdict) (w : World) :
    Prop :=
  ∃ later, w.log = log ++ later ∧
    ∀ v ∈ later, v.conn = conn → v.verdict = .read → ¬ marks (server conn) v.name

theorem AllowedSince.snoc {log : List Verdict} (h : AllowedSince server conn log w) (v : Verdict)
    (hlog : w'.log = w.log ++ [v])
    (hv : v.conn = conn → v.verdict = .read → ¬ marks (server conn) v.name) :
    AllowedSince server conn log w' := by
  obtain ⟨later, hlater, hall⟩ := h
  refine ⟨later ++ [v], by rw [hlog, hlater, List.append_assoc], ?_⟩
  intro other hother
  rcases List.mem_append.mp hother with hmem | hmem
  · exact hall other hmem
  · obtain rfl := List.mem_singleton.mp hmem
    exact hv

theorem Settled.set (hsettled : Settled server w conn) (i : Nat) {call : Guard}
    (hcall : call.conn = conn → ∀ name todo, call.phase ≠ .fetching name todo)
    (hcache : w'.cache conn = w.cache conn) (hcalls : w'.calls = w.calls.set i call) :
    Settled server w' conn where
  known := hcache.trans hsettled.known
  quiet := by
    intro k other hother
    rw [hcalls] at hother
    rcases of_getElem?_set hother with ⟨-, rfl⟩ | ⟨-, hkept⟩
    · exact hcall
    · exact hsettled.quiet k other hkept

theorem answered_not_fetching (verdict : RedisCommandClass) (todo : List String) (other : String)
    (others : List String) :
    (if verdict ≠ .read then Phase.done (.error readOnlyRejected) else .checking todo) ≠
      .fetching other others := by
  split
  · exact nofun
  · exact nofun

theorem Settled.step {a : Action} {log : List Verdict} (h : step server w a = some w')
    (hsettled : Settled server w conn) (hallowed : AllowedSince server conn log w) :
    Settled server w' conn ∧ AllowedSince server conn log w' := by
  cases a with
  | guardReadOnly other names =>
      cases h
      refine ⟨⟨hsettled.known, fun k call hcall => ?_⟩, hallowed⟩
      rcases of_getElem?_concat hcall with ⟨-, rfl⟩ | hkept
      · exact fun _ _ _ => nofun
      · exact hsettled.quiet k call hkept
  | classify i =>
      simp only [AclHistory.step] at h
      split at h
      case h_1 other names hat =>
        cases h
        refine ⟨hsettled.set i ?_ rfl rfl, hallowed⟩
        exact fun _ _ _ => nofun
      case h_2 other names name todo hat =>
        split at h
        case h_1 verdict hcached =>
          cases h
          refine ⟨hsettled.set i (fun _ => answered_not_fetching verdict todo) rfl rfl,
            hallowed.snoc _ rfl ?_⟩
          rintro rfl hread
          change verdict = .read at hread
          subst hread
          obtain ⟨-, classes, hcache, hclass⟩ := classifyCached_eq_read hcached
          rw [hsettled.known] at hcache
          obtain rfl := Option.some.inj hcache
          exact classifyAcl_read.mp hclass
        case h_2 hcached =>
          cases h
          refine ⟨hsettled.set i ?_ rfl rfl, hallowed⟩
          -- with the categories known, nobody asks for them
          rintro rfl
          have hmissing := (classifyCached_eq_none hcached).2
          rw [hsettled.known] at hmissing
          cases hmissing
      case h_3 => cases h
  | reply i writeOk dangerousOk =>
      simp only [AclHistory.step] at h
      split at h
      case h_1 other names name todo hat =>
        cases h
        have hother : other ≠ conn := fun heq => hsettled.quiet i _ hat heq name todo rfl
        refine ⟨hsettled.set i (fun heq => absurd heq hother) ?_ rfl,
          hallowed.snoc _ rfl fun heq => absurd heq hother⟩
        exact Function.update_of_ne (Ne.symm hother) _ _
      case h_2 => cases h
  | abandon i =>
      simp only [AclHistory.step] at h
      split at h
      · cases h
        refine ⟨hsettled.set i ?_ rfl rfl, hallowed⟩
        exact fun _ _ _ => nofun
      · cases h

/-! ## Every history -/

/-- A command called a read is in no static table; a command that the server marks is called
a read only on a connection on which a lookup has failed, and on no connection once its
categories are known and nobody is asking for them; and a guard lets no other command pass. -/
structure Conservative (server : String → AclClasses) (w w' : World) : Prop where
  justified : ∀ v ∈ w.log, Justified server w.failed v
  guarded : ∀ call ∈ w.calls, call.phase = .done (.ok ()) →
    PassedAll w.log call.conn call.names
  settled : ∀ conn, Settled server w conn → AllowedSince server conn w.log w'

def modules : AclClasses := ⟨["set", "zunionstore"], ["keys"]⟩

/-- A lookup that is answered, and two more requests behind it. -/
def answered : List Action :=
  [.guardReadOnly "cache" ["get"], .classify 0, .reply 0 true true, .classify 0,
    .guardReadOnly "cache" ["zunionstore"], .classify 1]

/-- A lookup that fails, and a lookup-free request behind it. -/
def unanswered : List Action :=
  [.guardReadOnly "cache" ["zunionstore"], .classify 0, .reply 0 false true,
    .guardReadOnly "cache" ["zunionstore"], .classify 1]

end Dbmaster.Gateway.AclHistory
