import Dbmaster.Gateway.SubQuery
import Dbmaster.Lib.Transition
/-!
# Redis subscriptions of a connection that is deleted

`redis_subscribe` and `remove_connection` as calls that run at the same time.  Between two
awaits of a call the others may take any number of steps.
-/

namespace Dbmaster.Gateway.Subscriptions

open Dbmaster.Lib.Transition Dbmaster.Gateway.SubQuery

/-! ## Refusals -/

structure ErrResponse where
  status : Nat
  code : String
  message : String
  deriving DecidableEq

structure MetadataError where
  code : String
  message : String

def MetadataError.notFound (what : String) : MetadataError :=
  ⟨"NOT_FOUND", what ++ " not found"⟩

def MetadataError.connectFailed : MetadataError :=
  ⟨"CONNECT_FAILED", "database connection failed"⟩

def normalizeMetaCode (code : String) : String :=
  if code = "CONNECT_FAILED" then "CONNECTION_FAILED"
  else if code = "QUERY_FAILED" then "DB_ERROR"
  else code

def metaErr (e : MetadataError) : ErrResponse :=
  let code := normalizeMetaCode e.code
  let status :=
    if code = "NOT_FOUND" then 404
    else if code = "CONFIG_ERROR" ∨ code = "UNSUPPORTED_DB_TYPE" then 400
    else if code = "CONNECTION_FAILED" then 503
    else 500
  ⟨status, code, e.message⟩

/-! ## The calls -/

inductive Target
  | channel (name : List Char)
  | pattern (name : List Char)
  deriving DecidableEq

/-- How far a call of `redis_subscribe` is; its targets are those not subscribed to yet. -/
inductive Phase
  | loading (targets : List Target)
  | opening (targets : List Target)
  | subscribing (targets : List Target)
  | streaming
  | refused (response : ErrResponse)
  | ended
  deriving DecidableEq

structure Subscription where
  conn : String
  phase : Phase
  deriving DecidableEq

inductive RemovalPhase
  | revoking
  | deleting
  | returned
  deriving DecidableEq

/-- A call of `remove_connection`. -/
structure Removal where
  conn : String
  phase : RemovalPhase
  deriving DecidableEq

/-- The ids of the stored connections, the registry and the calls; the token of a call is
its number. -/
structure World where
  rows : List String
  registry : String → List Nat
  cancelled : List Nat
  calls : List Subscription
  removals : List Removal

def World.initial (rows : List String) : World := ⟨rows, fun _ => [], [], [], []⟩

def redisSubMaxTargets : Nat := 64

/-- `redis_subscribe` up to its first await. -/
def subscribed (raw : Option (List Char)) : Phase :=
  match parseRedisSubQuery raw with
  | none => .ended
  | some (channels, patterns) =>
    let channels := channels.filter (· ≠ [])
    let patterns := patterns.filter (· ≠ [])
    let total := channels.length + patterns.length
    if total = 0 then .refused ⟨400, "CONFIG", "at least one channel or pattern is required"⟩
    else if redisSubMaxTargets < total then
      .refused ⟨400, "CONFIG", "too many subscription targets: " ++ toString total ++ " (max " ++
        toString redisSubMaxTargets ++ ")"⟩
    else .loading (channels.map .channel ++ patterns.map .pattern)

/-- `load_connection`: reading the row, finding it, and what is made of it. -/
def loadConnection (rows : List String) (conn : String) (read made : Except MetadataError Unit) :
    Except MetadataError Unit := do
  read
  if conn ∈ rows then pure () else throw (.notFound ("connection '" ++ conn ++ "'"))
  made

def loaded (targets : List Target) : Except MetadataError Unit → Phase
  | .ok () => .opening targets
  | .error e => .refused (metaErr e)

def setupFailed : ErrResponse :=
  ⟨503, "CONNECTION_FAILED", "redis subscription setup failed"⟩

inductive Action
  | subscribe (conn : String) (raw : Option (List Char))
  | load (i : Nat) (read made : Except MetadataError Unit)
  | openPubsub (i : Nat) (ok : Bool)
  | target (i : Nat) (ok : Bool)
  | register (i : Nat)
  -- the server closes the connection, or the client leaves
  | finish (i : Nat)
  | remove (conn : String)
  | revoke (j : Nat)
  | delete (j : Nat) (ok : Bool)

def World.setCall (w : World) (i : Nat) (sub : Subscription) : World :=
  { w with calls := w.calls.set i sub }

/-- `RedisSubRegistry::register` -/
def World.register (w : World) (conn : String) (token : Nat) : World :=
  { w with registry := Function.update w.registry conn (w.registry conn ++ [token]) }

/-- `RedisSubRegistry::revoke` -/
def World.revoke (w : World) (conn : String) : World :=
  { w with
    registry := Function.update w.registry conn []
    cancelled := w.cancelled ++ w.registry conn }

def step (w : World) : Action → Option World
  | .subscribe conn raw => some { w with calls := w.calls ++ [⟨conn, subscribed raw⟩] }
  | .load i read made =>
    match w.calls[i]? with
    | some ⟨conn, .loading targets⟩ =>
      some (w.setCall i ⟨conn, loaded targets (loadConnection w.rows conn read made)⟩)
    | _ => none
  | .openPubsub i ok =>
    match w.calls[i]? with
    | some ⟨conn, .opening targets⟩ =>
      some (w.setCall i
        ⟨conn, if ok then .subscribing targets else .refused (metaErr .connectFailed)⟩)
    | _ => none
  | .target i ok =>
    match w.calls[i]? with
    | some ⟨conn, .subscribing (_ :: targets)⟩ =>
      some (w.setCall i ⟨conn, if ok then .subscribing targets else .refused setupFailed⟩)
    | _ => none
  | .register i =>
    match w.calls[i]? with
    | some ⟨conn, .subscribing []⟩ => some ((w.register conn i).setCall i ⟨conn, .streaming⟩)
    | _ => none
  | .finish i =>
    match w.calls[i]? with
    | some ⟨conn, .streaming⟩ => some (w.setCall i ⟨conn, .ended⟩)
    | _ => none
  | .remove conn => some { w with removals := w.removals ++ [⟨conn, .revoking⟩] }
  | .revoke j =>
    match w.removals[j]? with
    | some ⟨conn, .revoking⟩ =>
      some { w.revoke conn with removals := w.removals.set j ⟨conn, .deleting⟩ }
    | _ => none
  | .delete j ok =>
    match w.removals[j]? with
    | some ⟨conn, .deleting⟩ =>
      -- an error of the DELETE is dropped
      some { w with
        rows := if ok then w.rows.filter (· ≠ conn) else w.rows
        removals := w.removals.set j ⟨conn, .returned⟩ }
    | _ => none

/-! ## What should hold -/

def World.streams (w : World) (conn : String) (i : Nat) : Prop :=
  w.calls[i]? = some ⟨conn, .streaming⟩

/-- No stream of a removed connection is left uncancelled. -/
def Ends (w : World) : Prop :=
  ∀ conn, ⟨conn, .returned⟩ ∈ w.removals → ∀ i, w.streams conn i → i ∈ w.cancelled

/-- A removal of the connection has cancelled what was registered. -/
def World.revoked (w : World) (conn : String) : Bool :=
  w.removals.any fun r => r.conn == conn && r.phase != .revoking

/-- No call registers its token behind the back of a removal. -/
def timely (w : World) : Action → Bool
  | .register i => (w.calls[i]?).all fun sub => !w.revoked sub.conn
  | _ => true

/-! ## One step -/

/-- All that a step can do to the registry, the streams and the removals. -/
inductive Effect (w : World) (a : Action) (w' : World) : Prop
  | quiet (hregistry : w'.registry = w.registry) (hcancelled : w'.cancelled = w.cancelled)
      (hrevoked : w'.revoked = w.revoked)
      (hstreams : ∀ conn i, w'.streams conn i → w.streams conn i)
  | register (i : Nat) (conn : String) (haction : a = .register i)
      (hsetup : w.calls[i]? = some ⟨conn, .subscribing []⟩)
      (heq : w' = (w.register conn i).setCall i ⟨conn, .streaming⟩)
  | revoke (j : Nat) (conn : String) (hpending : w.removals[j]? = some ⟨conn, .revoking⟩)
      (heq : w' = { w.revoke conn with removals := w.removals.set j ⟨conn, .deleting⟩ })

theorem streams_of_setCall {w : World} {i : Nat} {conn : String} {phase : Phase}
    (hphase : phase ≠ .streaming) (other : String) (k : Nat)
    (h : (w.setCall i ⟨conn, phase⟩).streams other k) : w.streams other k := by
  rcases of_getElem?_set h with ⟨-, heq⟩ | ⟨-, hkept⟩
  · cases heq
    exact absurd rfl hphase
  · exact hkept

theorem Effect.setCall (w : World) (a : Action) (i : Nat) (conn : String) {phase : Phase}
    (hphase : phase ≠ .streaming) : Effect w a (w.setCall i ⟨conn, phase⟩) :=
  .quiet rfl rfl rfl (streams_of_setCall hphase)

theorem revoked_iff {w : World} {conn : String} :
    w.revoked conn = true ↔ ∃ phase ≠ RemovalPhase.revoking, ⟨conn, phase⟩ ∈ w.removals := by
  rw [World.revoked, List.any_eq_true]
  constructor
  · rintro ⟨⟨_, phase⟩, hmem, h⟩
    rw [Bool.and_eq_true, beq_iff_eq, bne_iff_ne] at h
    obtain ⟨rfl, hphase⟩ := h
    exact ⟨phase, hphase, hmem⟩
  · rintro ⟨phase, hphase, hmem⟩
    refine ⟨_, hmem, ?_⟩
    rw [Bool.and_eq_true, beq_iff_eq, bne_iff_ne]
    exact ⟨rfl, hphase⟩

theorem subscribed_ne_streaming (raw : Option (List Char)) : subscribed raw ≠ .streaming := by
  unfold subscribed
  split
  · exact nofun
  · simp only []
    split_ifs
    · exact nofun
    · exact nofun
    · exact nofun

theorem loaded_ne_streaming (targets : List Target) (outcome : Except MetadataError Unit) :
    loaded targets outcome ≠ .streaming := by
  cases outcome with
  | ok _ => exact nofun
  | error _ => exact nofun

/-- What is known of the removals is the same after one of them has moved on from a phase
in which it has revoked. -/
theorem revoked_set {w : World} {j : Nat} {conn : String}
    (hdeleting : w.removals[j]? = some ⟨conn, .deleting⟩) (rows : List String) :
    World.revoked { w with rows := rows, removals := w.removals.set j ⟨conn, .returned⟩ } =
      w.revoked := by
  funext other
  rw [Bool.eq_iff_iff, revoked_iff, revoked_iff]
  constructor
  · rintro ⟨phase, hphase, hmem⟩
    rcases List.mem_or_eq_of_mem_set hmem with hkept | heq
    · exact ⟨phase, hphase, hkept⟩
    · cases heq
      exact ⟨.deleting, nofun, List.mem_of_getElem? hdeleting⟩
  · rintro ⟨phase, hphase, hmem⟩
    obtain ⟨k, hk⟩ := List.mem_iff_getElem?.mp hmem
    by_cases hjk : j = k
    · subst hjk
      rw [hk] at hdeleting
      cases hdeleting
      refine ⟨.returned, nofun, List.mem_of_getElem? (i := j) ?_⟩
      rw [List.getElem?_set_self' , hk]
      rfl
    · refine ⟨phase, hphase, List.mem_of_getElem? (i := k) ?_⟩
      rw [List.getElem?_set_ne hjk]
      exact hk

theorem effect_of_step {w w' : World} {a : Action} (h : step w a = some w') : Effect w a w' := by
  cases a with
  | subscribe conn raw =>
      cases h
      refine .quiet rfl rfl rfl fun other k hstream => ?_
      rcases of_getElem?_concat hstream with ⟨-, heq⟩ | hkept
      · exact absurd (congrArg Subscription.phase heq).symm (subscribed_ne_streaming raw)
      · exact hkept
  | load i read made =>
      simp only [step] at h
      split at h
      · cases h
        exact .setCall w _ i _ (loaded_ne_streaming _ _)
      · cases h
  | openPubsub i ok =>
      simp only [step] at h
      split at h
      · cases h
        exact .setCall w _ i _ (by cases ok <;> exact nofun)
      · cases h
  | target i ok =>
      simp only [step] at h
      split at h
      · cases h
        exact .setCall w _ i _ (by cases ok <;> exact nofun)
      · cases h
  | register i =>
      simp only [step] at h
      split at h
      case h_1 conn hsetup => exact .register i conn rfl hsetup (Option.some.inj h).symm
      case h_2 => cases h
  | finish i =>
      simp only [step] at h
      split at h
      · cases h
        exact .setCall w _ i _ nofun
      · cases h
  | remove conn =>
      cases h
      refine .quiet rfl rfl ?_ fun _ _ hstream => hstream
      funext other
      simp [World.revoked]
  | revoke j =>
      simp only [step] at h
      split at h
      case h_1 conn hpending => exact .revoke j conn hpending (Option.some.inj h).symm
      case h_2 => cases h
  | delete j ok =>
      simp only [step] at h
      split at h
      case h_1 conn hdeleting =>
        cases h
        exact .quiet rfl rfl (revoked_set hdeleting _) fun _ _ hstream => hstream
      case h_2 => cases h

/-! ## Whole runs -/

/-- A stream is in the registry until it is cancelled, and is cancelled once its connection
is revoked. -/
structure Inv (w : World) : Prop where
  registered : ∀ conn i, w.streams conn i → i ∈ w.cancelled ∨ i ∈ w.registry conn
  revoked : ∀ conn i, w.streams conn i → w.revoked conn = true → i ∈ w.cancelled

theorem Inv.initial (rows : List String) : Inv (.initial rows) where
  registered := nofun
  revoked := nofun

theorem Inv.ends {w : World} (hinv : Inv w) : Ends w := by
  intro conn hreturned i hstream
  exact hinv.revoked conn i hstream (revoked_iff.mpr ⟨.returned, nofun, hreturned⟩)

theorem Inv.register {w : World} {i : Nat} {conn : String} (hinv : Inv w)
    (htimely : w.revoked conn = false) :
    Inv ((w.register conn i).setCall i ⟨conn, .streaming⟩) where
  registered := by
    intro other k hstream
    rcases of_getElem?_set hstream with ⟨rfl, heq⟩ | ⟨-, hkept⟩
    · cases heq
      refine Or.inr ?_
      change k ∈ Function.update w.registry conn _ conn
      rw [Function.update_self]
      exact List.mem_append_right _ (List.mem_singleton_self k)
    · refine (hinv.registered other k hkept).imp_right fun hmem => ?_
      change k ∈ Function.update w.registry conn _ other
      by_cases hother : other = conn
      · subst hother
        rw [Function.update_self]
        exact List.mem_append_left _ hmem
      · rwa [Function.update_of_ne hother]
  revoked := by
    intro other k hstream hrevoked
    rcases of_getElem?_set hstream with ⟨rfl, heq⟩ | ⟨-, hkept⟩
    · cases heq
      exact absurd (htimely.symm.trans hrevoked) Bool.false_ne_true
    · exact hinv.revoked other k hkept hrevoked

theorem Inv.revoke {w : World} {j : Nat} {conn : String} (hinv : Inv w) :
    Inv { w.revoke conn with removals := w.removals.set j ⟨conn, .deleting⟩ } where
  registered := by
    intro other k hstream
    rcases hinv.registered other k hstream with hcancelled | hmem
    · exact Or.inl (List.mem_append_left _ hcancelled)
    · by_cases hother : other = conn
      · subst hother
        exact Or.inl (List.mem_append_right _ hmem)
      · refine Or.inr ?_
        change k ∈ Function.update w.registry conn _ other
        rwa [Function.update_of_ne hother]
  revoked := by
    intro other k hstream hrevoked
    by_cases hother : other = conn
    · -- all that the registry holds of the connection is cancelled here
      subst hother
      exact List.mem_append.mpr (hinv.registered other k hstream)
    · obtain ⟨phase, hphase, hmem⟩ := revoked_iff.mp hrevoked
      have hbefore : ⟨other, phase⟩ ∈ w.removals := by
        rcases List.mem_or_eq_of_mem_set hmem with hkept | heq
        · exact hkept
        · exact absurd (congrArg Removal.conn heq) hother
      exact List.mem_append_left _
        (hinv.revoked other k hstream (revoked_iff.mpr ⟨phase, hphase, hbefore⟩))

theorem Inv.step {w w' : World} {a : Action} (htimely : timely w a = true)
    (h : step w a = some w') (hinv : Inv w) : Inv w' := by
  cases effect_of_step h with
  | quiet hregistry hcancelled hrevoked hstreams =>
      constructor
      · intro conn i hstream
        rw [hregistry, hcancelled]
        exact hinv.registered conn i (hstreams conn i hstream)
      · intro conn i hstream hafter
        rw [hrevoked] at hafter
        rw [hcancelled]
        exact hinv.revoked conn i (hstreams conn i hstream) hafter
  | register i conn haction hsetup heq =>
      subst haction heq
      apply hinv.register
      rw [timely, hsetup] at htimely
      exact Bool.not_eq_true' _ |>.mp htimely
  | revoke j conn hpending heq =>
      subst heq
      exact hinv.revoke

/-- Where no call registers its token after a removal of its connection has revoked, the
removals end the streams. -/
theorem ends_of_timely (rows : List String) (acts : List Action) (w : World)
    (hrun : Run step (fun w a => timely w a = true) (.initial rows) acts w) : Ends w :=
  (hrun.invariant (fun _ _ _ => Inv.step) (Inv.initial rows)).ends

/-- A subscription that is set up, and the removal of its connection behind it. -/
def removedLater : List Action :=
  [.subscribe "cache" (some "channels=a".toList), .load 0 (.ok ()) (.ok ()), .openPubsub 0 true,
    .target 0 true, .register 0, .remove "cache", .revoke 0, .delete 0 true]

theorem removedLater_ends :
    ∃ w, execChecked step timely (.initial ["cache"]) removedLater = some w ∧
      w.streams "cache" 0 ∧ ⟨"cache", .returned⟩ ∈ w.removals ∧ Ends w := by
  have hrun : ((execChecked step timely (.initial ["cache"]) removedLater).map fun w =>
      (w.calls[0]?, w.removals)) = some (some ⟨"cache", .streaming⟩, [⟨"cache", .returned⟩]) := by
    decide +kernel
  obtain ⟨w, hw, hview⟩ := Option.map_eq_some_iff.mp hrun
  obtain ⟨hstream, hremovals⟩ := Prod.mk.inj hview
  refine ⟨w, hw, hstream, ?_, ?_⟩
  · rw [hremovals]
    exact List.mem_singleton_self _
  · exact ends_of_timely _ _ w (run_of_execChecked (fun _ _ h => h) hw)

/-- A subscription in the middle of its setup when its connection is removed. -/
def removedDuringSetup : List Action :=
  [.subscribe "cache" (some "channels=a".toList), .load 0 (.ok ()) (.ok ()), .openPubsub 0 true,
    .target 0 true, .remove "cache", .revoke 0, .delete 0 true, .register 0]

theorem stream_outlives_connection :
    ¬ ∀ rows acts w, Run step anyStep (.initial rows) acts w → Ends w := by
  intro hall
  have hrun : ((exec step (.initial ["cache"]) removedDuringSetup).map fun w =>
      (w.calls[0]?, w.removals, w.cancelled)) =
        some (some ⟨"cache", .streaming⟩, [⟨"cache", .returned⟩], []) := by
    decide +kernel
  obtain ⟨w, hw, hview⟩ := Option.map_eq_some_iff.mp hrun
  obtain ⟨hstream, hrest⟩ := Prod.mk.inj hview
  obtain ⟨hremovals, hcancelled⟩ := Prod.mk.inj hrest
  have hreturned : ⟨"cache", .returned⟩ ∈ w.removals := by
    rw [hremovals]
    exact List.mem_singleton_self _
  have hmem := hall _ _ w (run_of_exec hw) "cache" hreturned 0 hstream
  rw [hcancelled] at hmem
  exact absurd hmem List.not_mem_nil

end Dbmaster.Gateway.Subscriptions
