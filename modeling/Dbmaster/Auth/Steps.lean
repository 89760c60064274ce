import Dbmaster.Auth.Store
/-!
# The steps of the account handlers

What one statement of a call does to calls, tokens and history, and the keys that hold in
every state.
-/

namespace Dbmaster.Auth

open Dbmaster.Lib.Table Dbmaster.Lib.Transition

/-! ## What a step can do -/

/-- The call has not signed anybody in so far. -/
def Phase.SigningIn : Phase → Prop
  | .counting .. | .creating .. | .reading .. => True
  | _ => False

/-- The moves that leave passwords and tokens alone. -/
inductive Moves : Phase → Phase → Prop
  | counted (email password displayName : String) :
      Moves (.counting email password displayName) (.creating email password displayName)
  | named (sub name : String) (password : Option String) (now : String) :
      Moves (.naming sub name password now) (passwordPhase sub password now)

inductive Effect (s : State) : Action → State → Prop
  | called (request : Request) (hpresentable : s.presentable request = true) :
      Effect s (.call request) { s with calls := s.calls ++ [request.start] }
  | dropped (i : Nat) (old : Phase) (hi : s.calls[i]? = some old) :
      Effect s (.drop i) (s.leave i old none)
  | left (i : Nat) (answer : Answer) (old : Phase) (reply : Except AppError Reply)
      (hi : s.calls[i]? = some old) (hpair : ∀ refresh, reply ≠ .ok (.tokenPair refresh))
      (hrevoking : ∀ sub now version, old = .revoking sub now version → answer.ok = false) :
      Effect s (.statement i answer) (s.leave i old (some reply))
  | moved (i : Nat) (answer : Answer) (old phase : Phase) (users : List User)
      (hi : s.calls[i]? = some old) (hmoves : Moves old phase) :
      Effect s (.statement i answer) { s.move i phase with users := users }
  | signedIn (i : Nat) (answer : Answer) (old : Phase) (user : User) (users : List User)
      (hi : s.calls[i]? = some old) (hold : old.SigningIn) :
      Effect s (.statement i answer) { s.signIn i user with users := users }
  | passwordSet (i : Nat) (answer : Answer) (sub password now hash : String)
      (hi : s.calls[i]? = some (.settingPassword sub password now)) :
      Effect s (.statement i answer) (s.setPassword i sub hash now)
  | revokedAll (i : Nat) (answer : Answer) (sub now : String) (version : Nat)
      (hi : s.calls[i]? = some (.revoking sub now version)) :
      Effect s (.statement i answer) (s.revokeAll i sub now version)
  | checked (i : Nat) (answer : Answer) (claims : Claims) (row : RefreshTokenRow)
      (hi : s.calls[i]? = some (.checking claims)) (hrow : row ∈ s.tokens)
      (hjti : row.jti = claims.jti) (hlive : row.Live) :
      Effect s (.statement i answer) (s.move i (.rotating claims row answer.now s.history.length))
  | rotated (i : Nat) (answer : Answer) (claims : Claims) (row : RefreshTokenRow) (now : String)
      (since : Nat) (hi : s.calls[i]? = some (.rotating claims row now since))
      (hok : answer.ok = true) :
      Effect s (.statement i answer) (s.rotate i claims row now since)
  | stored (i : Nat) (answer : Answer) (grant : Grant) (session : Session) (since : Nat)
      (jti : String) (hi : s.calls[i]? = some (.storing grant session since))
      (hok : answer.ok = true)
      (hnew : newToken s.tokens (grant.row session answer.uuid jti) = true) :
      Effect s (.statement i answer) (s.store i grant session answer.uuid jti)

section Execute

variable {passwords : Passwords} {s : State} {i : Nat}

/-- A statement that fails, or after which the call gives up. -/
theorem effect_fail (answer : Answer) {old : Phase} (hi : s.calls[i]? = some old)
    (error : AppError)
    (hrevoking : ∀ sub now version, old = .revoking sub now version → answer.ok = false) :
    Effect s (.statement i answer) (s.leave i old (some (.error error))) :=
  .left i answer old _ hi (fun _ => nofun) hrevoking

theorem effect_of_execute (answer : Answer) {old : Phase} (hi : s.calls[i]? = some old)
    (hended : old.isEnded = false) :
    Effect s (.statement i answer) (execute passwords s i answer old) := by
  cases old with
  | counting email password displayName =>
      simp only [execute]
      split_ifs
      · exact effect_fail answer hi _ (fun _ _ _ => nofun)
      · exact effect_fail answer hi _ (fun _ _ _ => nofun)
      · exact .moved i answer _ _ s.users hi (.counted email password displayName)
  | creating email password displayName =>
      simp only [execute]
      cases passwords.hash password answer.salt with
      | none => exact effect_fail answer hi _ (fun _ _ _ => nofun)
      | some hash =>
          simp only
          split_ifs
          · exact .signedIn i answer _ _ _ hi trivial
          · exact effect_fail answer hi _ (fun _ _ _ => nofun)
  | reading email password =>
      simp only [execute]
      split_ifs
      · exact effect_fail answer hi _ (fun _ _ _ => nofun)
      · cases s.users.find? (sameEmail email) with
        | none => exact effect_fail answer hi _ (fun _ _ _ => nofun)
        | some user =>
            simp only
            split
            · exact effect_fail answer hi _ (fun _ _ _ => nofun)
            · exact effect_fail answer hi _ (fun _ _ _ => nofun)
            · exact .signedIn i answer _ user s.users hi trivial
  | naming sub name password now =>
      simp only [execute]
      split_ifs
      · exact effect_fail answer hi _ (fun _ _ _ => nofun)
      · exact .moved i answer _ _ _ hi (.named sub name password now)
  | settingPassword sub password now =>
      simp only [execute]
      cases passwords.hash password answer.salt with
      | none => exact effect_fail answer hi _ (fun _ _ _ => nofun)
      | some hash =>
          simp only
          split_ifs
          · exact .passwordSet i answer sub password now hash hi
          · exact effect_fail answer hi _ (fun _ _ _ => nofun)
  | revoking sub now version =>
      simp only [execute]
      split_ifs with hok
      · exact .revokedAll i answer sub now version hi
      · exact effect_fail answer hi _ fun _ _ _ _ => Bool.eq_false_iff.mpr hok
  | fetching sub version =>
      simp only [execute]
      split_ifs
      · exact effect_fail answer hi _ (fun _ _ _ => nofun)
      · cases s.users.find? fun user => decide (user.id = sub) with
        | none => exact effect_fail answer hi _ (fun _ _ _ => nofun)
        | some user => exact .left i answer _ _ hi (fun _ => nofun) (fun _ _ _ => nofun)
  | checking claims =>
      simp only [execute]
      split_ifs
      · exact effect_fail answer hi _ (fun _ _ _ => nofun)
      · cases hfind : s.tokens.find? fun row => decide (row.jti = claims.jti) with
        | none => exact effect_fail answer hi _ (fun _ _ _ => nofun)
        | some row =>
            simp only
            split_ifs with hrevoked
            · exact effect_fail answer hi _ (fun _ _ _ => nofun)
            · have hjti : decide (row.jti = claims.jti) = true :=
                List.find?_some (p := fun row : RefreshTokenRow => decide (row.jti = claims.jti))
                  hfind
              exact .checked i answer claims row hi (List.mem_of_find?_eq_some hfind)
                (of_decide_eq_true hjti) (Option.not_isSome_iff_eq_none.mp hrevoked)
  | rotating claims row now since =>
      simp only [execute]
      split_ifs with hok
      · exact .rotated i answer claims row now since hi hok
      · exact effect_fail answer hi _ (fun _ _ _ => nofun)
  | storing grant session since =>
      simp only [execute]
      cases answer.issued with
      | none => exact effect_fail answer hi _ (fun _ _ _ => nofun)
      | some jti =>
          simp only
          split_ifs with hok
          · obtain ⟨hok, hnew⟩ := Bool.and_eq_true_iff.mp hok
            exact .stored i answer grant session since jti hi hok hnew
          · exact effect_fail answer hi _ (fun _ _ _ => nofun)
  | ended reply => cases hended

theorem effect_of_step {a : Action} {s' : State} (hstep : step passwords s a = some s') :
    Effect s a s' := by
  cases a with
  | call request =>
      simp only [step] at hstep
      split_ifs at hstep with hpresentable
      obtain rfl := Option.some.inj hstep
      exact .called request hpresentable
  | statement i answer =>
      simp only [step] at hstep
      split at hstep
      case h_1 => cases hstep
      case h_2 old hi =>
        split_ifs at hstep with hended
        obtain rfl := Option.some.inj hstep
        exact effect_of_execute answer hi (Bool.eq_false_iff.mpr hended)
  | drop i =>
      simp only [step] at hstep
      split at hstep
      case h_1 => cases hstep
      case h_2 old hi =>
        split_ifs at hstep
        obtain rfl := Option.some.inj hstep
        exact .dropped i old hi

end Execute

/-! ## Calls after a step -/

/-- Neither about to revoke a token nor about to store one. -/
def Phase.Plain : Phase → Prop
  | .checking _ | .rotating .. | .storing .. | .revoking .. | .fetching _ (some _) => False
  | _ => True

theorem plain_passwordPhase (sub : String) (password : Option String) (now : String) :
    (passwordPhase sub password now).Plain := by
  cases password <;> exact trivial

theorem Moves.plain {old phase : Phase} (h : Moves old phase) : phase.Plain := by
  cases h with
  | counted => exact trivial
  | named sub name password now => exact plain_passwordPhase sub password now

theorem start_cases (request : Request) :
    request.start.Plain ∨ ∃ claims, request = .refreshToken claims := by
  cases request with
  | register => exact Or.inl trivial
  | login => exact Or.inl trivial
  | updateMe sub displayName password now =>
      cases displayName with
      | none => exact Or.inl (plain_passwordPhase sub password now)
      | some => exact Or.inl trivial
  | refreshToken claims => exact Or.inr ⟨claims, rfl⟩

/-- How a call came to its phase by the step. -/
inductive Entered (s : State) (k : Nat) : Action → State → Phase → Prop
  | plain {a : Action} {s' : State} {phase : Phase} (h : phase.Plain) : Entered s k a s' phase
  | presented {a : Action} {s' : State} (claims : Claims)
      (h : s.presentable (.refreshToken claims) = true) : Entered s k a s' (.checking claims)
  | passwordSet (answer : Answer) (sub password now hash : String)
      (hk : s.calls[k]? = some (.settingPassword sub password now)) :
      Entered s k (.statement k answer) (s.setPassword k sub hash now)
        (.revoking sub now (versionOf s.history sub + 1))
  | revokedAll (answer : Answer) (sub now : String) (version : Nat)
      (hk : s.calls[k]? = some (.revoking sub now version)) :
      Entered s k (.statement k answer) (s.revokeAll k sub now version)
        (.fetching sub (some version))
  | checked (answer : Answer) (claims : Claims) (row : RefreshTokenRow)
      (hk : s.calls[k]? = some (.checking claims)) (hrow : row ∈ s.tokens)
      (hjti : row.jti = claims.jti) (hlive : row.Live) :
      Entered s k (.statement k answer)
        (s.move k (.rotating claims row answer.now s.history.length))
        (.rotating claims row answer.now s.history.length)
  | signedIn (answer : Answer) (old : Phase) (user : User) (users : List User)
      (hk : s.calls[k]? = some old) (hold : old.SigningIn) :
      Entered s k (.statement k answer) { s.signIn k user with users := users }
        (.storing (.signIn user) ⟨user.id, k, versionOf s.history user.id⟩ s.history.length)
  | rotated (answer : Answer) (claims : Claims) (row : RefreshTokenRow) (now : String)
      (since : Nat) (hk : s.calls[k]? = some (.rotating claims row now since))
      (hok : answer.ok = true) :
      Entered s k (.statement k answer) (s.rotate k claims row now since)
        (.storing (.rotation claims) row.session since)

theorem entered_of_set {s s' : State} {a : Action} {i k : Nat} {new phase : Phase}
    (hk : (s.calls.set i new)[k]? = some phase) (hnew : Entered s i a s' new) :
    s.calls[k]? = some phase ∨ Entered s k a s' phase :=
  kept_or_of_set (P := fun k phase => Entered s k a s' phase) hk hnew

theorem phase_of_effect {s s' : State} {a : Action} (heffect : Effect s a s') {k : Nat}
    {phase : Phase} (hk : s'.calls[k]? = some phase) :
    s.calls[k]? = some phase ∨ Entered s k a s' phase := by
  cases heffect with
  | called request hpresentable =>
      rcases of_getElem?_concat hk with ⟨-, rfl⟩ | hkept
      · rcases start_cases request with hplain | ⟨claims, rfl⟩
        · exact Or.inr (.plain hplain)
        · exact Or.inr (.presented claims hpresentable)
      · exact Or.inl hkept
  | dropped i old hi => exact entered_of_set hk (.plain trivial)
  | left i answer old reply hi _ _ => exact entered_of_set hk (.plain trivial)
  | moved i answer old new users hi hmoves => exact entered_of_set hk (.plain hmoves.plain)
  | signedIn i answer old user users hi hold =>
      exact entered_of_set hk (.signedIn answer old user users hi hold)
  | passwordSet i answer sub password now hash hi =>
      exact entered_of_set hk (.passwordSet answer sub password now hash hi)
  | revokedAll i answer sub now version hi =>
      exact entered_of_set hk (.revokedAll answer sub now version hi)
  | checked i answer claims row hi hrow hjti hlive =>
      exact entered_of_set hk (.checked answer claims row hi hrow hjti hlive)
  | rotated i answer claims row now since hi hok =>
      exact entered_of_set hk (.rotated answer claims row now since hi hok)
  | stored i answer grant session since jti hi _ _ => exact entered_of_set hk (.plain trivial)

/-! ## Tokens after a step -/

/-- What stays of a row. -/
structure RefreshTokenRow.Becomes (row row' : RefreshTokenRow) : Prop where
  id : row'.id = row.id
  userId : row'.userId = row.userId
  jti : row'.jti = row.jti
  session : row'.session = row.session
  revoked : ¬ row.Live → ¬ row'.Live

theorem RefreshTokenRow.Becomes.refl (row : RefreshTokenRow) : row.Becomes row :=
  ⟨rfl, rfl, rfl, rfl, fun h => h⟩

/-- No row is ever deleted or comes to life again. -/
def Persist (tokens tokens' : List RefreshTokenRow) : Prop :=
  ∀ row ∈ tokens, ∃ row' ∈ tokens', row.Becomes row'

theorem Persist.refl (tokens : List RefreshTokenRow) : Persist tokens tokens :=
  fun row hrow => ⟨row, hrow, .refl row⟩

theorem becomes_revoked (p : RefreshTokenRow → Bool) (now : String) (row : RefreshTokenRow) :
    row.Becomes (if p row then { row with revokedAt := some now } else row) := by
  by_cases hp : p row = true
  · rw [if_pos hp]
    exact ⟨rfl, rfl, rfl, rfl, fun _ => nofun⟩
  · rw [if_neg hp]
    exact .refl row

theorem mem_revoke {p : RefreshTokenRow → Bool} {now : String} {tokens : List RefreshTokenRow}
    {row : RefreshTokenRow} (h : row ∈ revoke p now tokens) :
    ∃ old ∈ tokens, old.Becomes row ∧ (row.Live → row = old ∧ p old = false) := by
  obtain ⟨old, hold, rfl⟩ := mem_updateWhere.mp h
  refine ⟨old, hold, becomes_revoked p now old, ?_⟩
  by_cases hp : p old = true
  · rw [if_pos hp]
    exact nofun
  · rw [if_neg hp]
    exact fun _ => ⟨rfl, Bool.eq_false_iff.mpr hp⟩

theorem persist_revoke (p : RefreshTokenRow → Bool) (now : String)
    (tokens : List RefreshTokenRow) : Persist tokens (revoke p now tokens) :=
  fun row hrow => ⟨_, mem_updateWhere.mpr ⟨row, hrow, rfl⟩, becomes_revoked p now row⟩

theorem persist_of_effect {s s' : State} {a : Action} (heffect : Effect s a s') :
    Persist s.tokens s'.tokens := by
  cases heffect with
  | revokedAll i answer sub now version hi => exact persist_revoke _ now s.tokens
  | rotated i answer claims row now since hi _ => exact persist_revoke _ now s.tokens
  | stored i answer grant session since jti hi _ _ =>
      exact fun row hrow => ⟨row, List.mem_append_left _ hrow, .refl row⟩
  | _ => exact .refl s.tokens

/-- A row after a step: one that was there, or the one that a call stores. -/
theorem row_of_effect {s s' : State} {a : Action} (heffect : Effect s a s')
    {row : RefreshTokenRow} (hrow : row ∈ s'.tokens) :
    (∃ old ∈ s.tokens, old.Becomes row ∧ (row.Live → row = old)) ∨
      ∃ i answer grant session since, a = .statement i answer ∧ answer.ok = true ∧
        s.calls[i]? = some (.storing grant session since) ∧ row.userId = grant.sub ∧
        row.session = session := by
  cases heffect with
  | revokedAll i answer sub now version hi =>
      obtain ⟨old, hold, hbecomes, hkept⟩ := mem_revoke hrow
      exact Or.inl ⟨old, hold, hbecomes, fun hlive => (hkept hlive).1⟩
  | rotated i answer claims _ now since hi _ =>
      obtain ⟨old, hold, hbecomes, hkept⟩ := mem_revoke hrow
      exact Or.inl ⟨old, hold, hbecomes, fun hlive => (hkept hlive).1⟩
  | stored i answer grant session since jti hi hok _ =>
      rcases List.mem_append.mp hrow with hold | hnew
      · exact Or.inl ⟨row, hold, .refl row, fun _ => rfl⟩
      · obtain rfl := List.mem_singleton.mp hnew
        exact Or.inr ⟨i, answer, grant, session, since, rfl, hok, hi, rfl, rfl⟩
  | _ => exact Or.inl ⟨row, hrow, .refl row, fun _ => rfl⟩

/-! ## What has happened after a step -/

inductive Happens (s : State) : Action → State → Event → Prop
  | passwordSet {a : Action} {s' : State} (user : String) : Happens s a s' (.passwordSet user)
  | revoked {s' : State} (i : Nat) (answer : Answer) (row row' : RefreshTokenRow)
      (hrow : row ∈ s.tokens) (hlive : row.Live) (hrow' : row' ∈ s'.tokens)
      (hbecomes : row.Becomes row') (hrevoked : ¬ row'.Live) :
      Happens s (.statement i answer) s' (.revoked i row.jti)
  | revokedAll {a : Action} {s' : State} (i : Nat) (sub now : String) (version : Nat)
      (hi : s.calls[i]? = some (.revoking sub now version))
      (hall : ∀ row ∈ s'.tokens, row.userId = sub → ¬ row.Live) :
      Happens s a s' (.revokedAll i sub version)
  | skipped {a : Action} {s' : State} (i : Nat) (sub now : String) (version : Nat)
      (hi : s.calls[i]? = some (.revoking sub now version))
      (ha : a = .drop i ∨ ∃ answer, a = .statement i answer ∧ answer.ok = false) :
      Happens s a s' (.updateEnded i sub version)
  | updateEnded {a : Action} {s' : State} (i : Nat) (sub : String) (version : Nat)
      (hi : s.calls[i]? = some (.fetching sub (some version))) :
      Happens s a s' (.updateEnded i sub version)
  | exchanged {s' : State} (i : Nat) (answer : Answer) (claims : Claims) (session : Session)
      (since : Nat) (hi : s.calls[i]? = some (.storing (.rotation claims) session since))
      (hok : answer.ok = true) (hended : ∃ reply, s'.calls[i]? = some (.ended reply)) :
      Happens s (.statement i answer) s' (.exchanged i claims.jti session)

def Event.isExchange : Event → Bool
  | .exchanged .. => true
  | _ => false

theorem happens_leaving {s : State} {a : Action} {i : Nat} {old : Phase}
    (reply : Option (Except AppError Reply)) (hi : s.calls[i]? = some old)
    (ha : ∀ sub now version, old = .revoking sub now version →
      a = .drop i ∨ ∃ answer, a = .statement i answer ∧ answer.ok = false) :
    ∀ e ∈ leaving i old, Happens s a (s.leave i old reply) e ∧ e.isExchange = false := by
  intro e he
  cases old with
  | revoking sub now version =>
      obtain rfl := List.mem_singleton.mp he
      exact ⟨.skipped i sub now version hi (ha sub now version rfl), rfl⟩
  | fetching sub version =>
      cases version with
      | none => exact absurd he List.not_mem_nil
      | some version =>
          obtain rfl := List.mem_singleton.mp he
          exact ⟨.updateEnded i sub version hi, rfl⟩
  | _ => exact absurd he List.not_mem_nil

/-- The rows that an UPDATE finds live, before and after it. -/
theorem mem_revocations {i : Nat} {p q : RefreshTokenRow → Bool} (now : String)
    {tokens : List RefreshTokenRow} {e : Event} (he : e ∈ revocations i p tokens)
    (hq : ∀ row, row.Live → p row = true → q row = true) :
    ∃ row ∈ tokens, row.Live ∧ e = .revoked i row.jti ∧
      ∃ row' ∈ revoke q now tokens, row.Becomes row' ∧ ¬ row'.Live := by
  obtain ⟨row, hmem, rfl⟩ := List.mem_map.mp he
  obtain ⟨hrow, hp⟩ := List.mem_filter.mp hmem
  obtain ⟨hp, hnone⟩ := Bool.and_eq_true_iff.mp hp
  have hlive : row.Live := Option.isNone_iff_eq_none.mp hnone
  refine ⟨row, hrow, hlive, rfl, _, mem_updateWhere.mpr ⟨row, hrow, rfl⟩,
    becomes_revoked q now row, ?_⟩
  rw [if_pos (hq row hlive hp)]
  exact nofun

theorem history_of_effect {s s' : State} {a : Action} (heffect : Effect s a s') :
    ∃ events, s'.history = s.history ++ events ∧ (∀ e ∈ events, Happens s a s' e) ∧
      ∀ e ∈ events, e.isExchange = true → events = [e] := by
  cases heffect with
  | called request _ => exact ⟨[], (List.append_nil _).symm, nofun, nofun⟩
  | dropped i old hi =>
      have hleaving := happens_leaving (a := .drop i) none hi
        fun _ _ _ _ => Or.inl rfl
      exact ⟨leaving i old, rfl, fun e he => (hleaving e he).1,
        fun e he hexchange => absurd hexchange (Bool.eq_false_iff.mp (hleaving e he).2)⟩
  | left i answer old reply hi _ hrevoking =>
      have hleaving := happens_leaving (a := .statement i answer) (some reply) hi
        fun sub now version hold => Or.inr ⟨answer, rfl, hrevoking sub now version hold⟩
      exact ⟨leaving i old, rfl, fun e he => (hleaving e he).1,
        fun e he hexchange => absurd hexchange (Bool.eq_false_iff.mp (hleaving e he).2)⟩
  | moved i answer old phase users hi _ => exact ⟨[], (List.append_nil _).symm, nofun, nofun⟩
  | signedIn i answer old user users hi _ => exact ⟨[], (List.append_nil _).symm, nofun, nofun⟩
  | passwordSet i answer sub password now hash hi =>
      refine ⟨[.passwordSet sub], rfl, fun e he => ?_, fun e he _ => ?_⟩
      · obtain rfl := List.mem_singleton.mp he
        exact .passwordSet sub
      · rw [List.mem_singleton.mp he]
  | revokedAll i answer sub now version hi =>
      have hq : ∀ row : RefreshTokenRow, row.Live → decide (row.userId = sub) = true →
          decide (row.userId = sub ∧ row.revokedAt.isNone) = true := fun row hlive hsub =>
        decide_eq_true ⟨of_decide_eq_true hsub, Option.isNone_iff_eq_none.mpr hlive⟩
      refine ⟨_, rfl, fun e he => ?_, fun e he hexchange => ?_⟩
      · rcases List.mem_append.mp he with hrevoked | hlast
        · obtain ⟨row, hrow, hlive, rfl, row', hrow', hbecomes, hnot⟩ := mem_revocations now hrevoked hq
          exact .revoked i answer row row' hrow hlive hrow' hbecomes hnot
        · obtain rfl := List.mem_singleton.mp hlast
          refine .revokedAll i sub now version hi fun row hrow hsub hlive => ?_
          obtain ⟨old, _, _, hkept⟩ := mem_revoke hrow
          obtain ⟨rfl, hfalse⟩ := hkept hlive
          exact of_decide_eq_false hfalse ⟨hsub, Option.isNone_iff_eq_none.mpr hlive⟩
      · rcases List.mem_append.mp he with hrevoked | hlast
        · obtain ⟨row, _, _, rfl, _⟩ := mem_revocations now hrevoked hq
          cases hexchange
        · obtain rfl := List.mem_singleton.mp hlast
          cases hexchange
  | checked i answer claims row hi _ _ _ => exact ⟨[], (List.append_nil _).symm, nofun, nofun⟩
  | rotated i answer claims row now since hi _ =>
      refine ⟨_, rfl, fun e he => ?_, fun e he hexchange => ?_⟩
      · obtain ⟨r, hr, hlive, rfl, r', hr', hbecomes, hnot⟩ := mem_revocations now he fun _ _ h => h
        exact .revoked i answer r r' hr hlive hr' hbecomes hnot
      · obtain ⟨_, _, _, rfl, _⟩ := mem_revocations now he fun _ _ h => h
        cases hexchange
  | stored i answer grant session since jti hi hok _ =>
      cases grant with
      | signIn user => exact ⟨[], rfl, nofun, nofun⟩
      | rotation claims =>
          refine ⟨[.exchanged i claims.jti session], rfl, fun e he => ?_, fun e he _ => ?_⟩
          · obtain rfl := List.mem_singleton.mp he
            exact .exchanged i answer claims session since hi hok
              ⟨_, List.getElem?_set_self (List.getElem?_eq_some_iff.mp hi).1⟩
          · rw [List.mem_singleton.mp he]

/-- A law between events that says something of exchanges only holds within one step. -/
theorem pairwise_events {R : Event → Event → Prop} {events : List Event}
    (hR : ∀ earlier later, later.isExchange = false → R earlier later)
    (halone : ∀ e ∈ events, e.isExchange = true → events = [e]) : events.Pairwise R := by
  by_cases hany : ∃ e ∈ events, e.isExchange = true
  · obtain ⟨e, he, hexchange⟩ := hany
    rw [halone e he hexchange]
    exact List.pairwise_singleton _ _
  · apply List.pairwise_of_forall_mem_list
    intro earlier _ later hlater
    exact hR earlier later (Bool.eq_false_iff.mpr fun h => hany ⟨later, hlater, h⟩)

/-! ## Keys -/

/-- The keys of the table, and the rows that the calls of `refresh_token` are about. -/
structure Keys (s : State) : Prop where
  ids : (s.tokens.map (·.id)).Nodup
  jtis : (s.tokens.map (·.jti)).Nodup
  checking : ∀ (k : Nat) claims, s.calls[k]? = some (.checking claims) →
    ∃ row ∈ s.tokens, row.userId = claims.sub ∧ row.jti = claims.jti
  rotating : ∀ (k : Nat) claims row now since,
    s.calls[k]? = some (.rotating claims row now since) →
    ∃ r ∈ s.tokens, r.id = row.id ∧ r.userId = claims.sub ∧ r.jti = claims.jti ∧
      r.session = row.session

theorem Keys.eq_of_jti {s : State} (h : Keys s) {row row' : RefreshTokenRow}
    (hrow : row ∈ s.tokens) (hrow' : row' ∈ s.tokens) (hjti : row.jti = row'.jti) : row = row' :=
  List.inj_on_of_nodup_map h.jtis hrow hrow' hjti

theorem Keys.eq_of_id {s : State} (h : Keys s) {row row' : RefreshTokenRow}
    (hrow : row ∈ s.tokens) (hrow' : row' ∈ s.tokens) (hid : row.id = row'.id) : row = row' :=
  List.inj_on_of_nodup_map h.ids hrow hrow' hid

theorem of_newToken {tokens : List RefreshTokenRow} {new : RefreshTokenRow}
    (h : newToken tokens new = true) : new.id ∉ tokens.map (·.id) ∧ new.jti ∉ tokens.map (·.jti) := by
  have hall : ∀ other ∈ tokens, other.id ≠ new.id ∧ other.jti ≠ new.jti :=
    fun other hother => of_decide_eq_true (List.all_eq_true.mp h other hother)
  constructor
  · intro hmem
    obtain ⟨other, hother, heq⟩ := List.mem_map.mp hmem
    exact (hall other hother).1 heq
  · intro hmem
    obtain ⟨other, hother, heq⟩ := List.mem_map.mp hmem
    exact (hall other hother).2 heq

/-- A column that is distinct in all rows stays so when a row with a new value is added. -/
theorem nodup_map_concat {f : RefreshTokenRow → String} {tokens : List RefreshTokenRow}
    {new : RefreshTokenRow} (h : (tokens.map f).Nodup) (hnew : f new ∉ tokens.map f) :
    ((tokens ++ [new]).map f).Nodup := by
  rw [List.map_append, List.map_singleton]
  exact List.nodup_append.mpr ⟨h, List.nodup_singleton _,
    fun x hx y hy heq => hnew (List.mem_singleton.mp hy ▸ heq ▸ hx)⟩

theorem nodup_revoke (f : RefreshTokenRow → String)
    (hf : ∀ (row : RefreshTokenRow) now, f { row with revokedAt := some now } = f row)
    (p : RefreshTokenRow → Bool) (now : String) {tokens : List RefreshTokenRow}
    (h : (tokens.map f).Nodup) : ((revoke p now tokens).map f).Nodup := by
  rw [revoke, map_updateWhere fun row => hf row now]
  exact h

theorem keys_step {s s' : State} {a : Action} (heffect : Effect s a s') (h : Keys s) :
    Keys s' := by
  have hcolumns : (s'.tokens.map (·.id)).Nodup ∧ (s'.tokens.map (·.jti)).Nodup := by
    cases heffect with
    | revokedAll i answer sub now version hi =>
        exact ⟨nodup_revoke _ (fun _ _ => rfl) _ now h.ids,
          nodup_revoke _ (fun _ _ => rfl) _ now h.jtis⟩
    | rotated i answer claims row now since hi _ =>
        exact ⟨nodup_revoke _ (fun _ _ => rfl) _ now h.ids,
          nodup_revoke _ (fun _ _ => rfl) _ now h.jtis⟩
    | stored i answer grant session since jti hi _ hnew =>
        obtain ⟨hid, hjti⟩ := of_newToken hnew
        exact ⟨nodup_map_concat h.ids hid, nodup_map_concat h.jtis hjti⟩
    | _ => exact ⟨h.ids, h.jtis⟩
  have hpersist := persist_of_effect heffect
  refine ⟨hcolumns.1, hcolumns.2, ?_, ?_⟩
  · intro k claims hk
    have hbefore : ∃ row ∈ s.tokens, row.userId = claims.sub ∧ row.jti = claims.jti := by
      rcases phase_of_effect heffect hk with hkept | hentered
      · exact h.checking k claims hkept
      · cases hentered with
        | plain hplain => cases hplain
        | presented _ hpresentable =>
            obtain ⟨row, hrow, heq⟩ := List.any_eq_true.mp hpresentable
            exact ⟨row, hrow, of_decide_eq_true heq⟩
    obtain ⟨row, hrow, hsub, hjti⟩ := hbefore
    obtain ⟨row', hrow', hbecomes⟩ := hpersist row hrow
    exact ⟨row', hrow', hbecomes.userId.trans hsub, hbecomes.jti.trans hjti⟩
  · intro k claims row now since hk
    have hbefore : ∃ r ∈ s.tokens, r.id = row.id ∧ r.userId = claims.sub ∧ r.jti = claims.jti ∧
        r.session = row.session := by
      rcases phase_of_effect heffect hk with hkept | hentered
      · exact h.rotating k claims row now since hkept
      · cases hentered with
        | plain hplain => cases hplain
        | checked answer _ _ hchecking hrow hjti _ =>
            obtain ⟨r, hr, hsub, hrjti⟩ := h.checking k claims hchecking
            obtain rfl := h.eq_of_jti hr hrow (hrjti.trans hjti.symm)
            exact ⟨r, hr, rfl, hsub, hrjti, rfl⟩
    obtain ⟨r, hr, hid, hsub, hjti, hsession⟩ := hbefore
    obtain ⟨r', hr', hbecomes⟩ := hpersist r hr
    exact ⟨r', hr', hbecomes.id.trans hid, hbecomes.userId.trans hsub, hbecomes.jti.trans hjti,
      hbecomes.session.trans hsession⟩

theorem keys_initial : Keys .initial := ⟨.nil, .nil, nofun, nofun⟩

end Dbmaster.Auth
